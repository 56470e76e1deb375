import Whitespace.Proofs.Machine.Fuel
import Whitespace.Proofs.Tracing.Turns

/-!
What a record of a run tells of control. A recorder keeps every event that it is told. Splitting a record
at an instruction splits the run at the step that dispatches it, so what holds of the events of one step
holds between every two instructions of a record: control stands where it was said to pass to, and at the
next instruction if nothing was said.
-/

namespace Whitespace

open Machine

structure Recorder where
  events : List Event := []

instance : Tracer Recorder := ⟨fun recorder event => ⟨recorder.events ++ [event]⟩⟩

theorem events_hearAll (recorder : Recorder) (events : List Event) :
    (hearAll recorder events).events = recorder.events ++ events := by
  induction events generalizing recorder with
  | nil => rw [hearAll_nil, List.append_nil]
  | cons event events ih =>
    rw [hearAll_cons, ih, List.append_cons]
    rfl

namespace Machine

def laterEvents (count : Nat) (machine : Machine) : List Event :=
  match machine.step.outcome with
  | .ok none => (runFor count machine.step.machine).events
  | _ => []

theorem events_runFor_succ (count : Nat) (machine : Machine) :
    (runFor (count + 1) machine).events = machine.step.events ++ laterEvents count machine := by
  unfold laterEvents
  rcases h : machine.step.outcome with error | _ | halt
  · rw [runFor_succ_of_error h, List.append_nil]
  · rw [runFor_succ_of_next h]
  · rw [runFor_succ_of_halt h, List.append_nil]

def Run.stack? (run : Run) : Option Stack :=
  match run.ending with
  | none => some run.machine.stack
  | some _ => none

theorem append_eq_append_cons {α : Type} {first second before after : List α} {a : α}
    (h : first ++ second = before ++ a :: after) (hmem : a ∉ first) :
    ∃ more, before = first ++ more ∧ second = more ++ a :: after := by
  rcases List.append_eq_append_iff.mp h with ⟨more, rfl, hsecond⟩ | ⟨more, rfl, hafter⟩
  · exact ⟨more, rfl, hsecond⟩
  · cases more with
    | nil => exact ⟨[], by simp, by simpa using hafter.symm⟩
    | cons other more =>
      cases hafter
      simp at hmem

section Runs

variable {count : Nat} {machine : Machine} {event : Event} {before after : List Event}

theorem laterEvents_of_next (h : machine.step.outcome = .ok none) (count : Nat) :
    laterEvents count machine = (runFor count machine.step.machine).events := by
  rw [laterEvents, h]

theorem outcome_of_laterEvents (h : laterEvents count machine ≠ []) :
    machine.step.outcome = .ok none := by
  unfold laterEvents at h
  split at h
  · assumption
  · contradiction

theorem position?_of_runFor (h : (runFor count machine).events = event :: after) :
    event.position? = some machine.pc ∧ (event.isInstruction = false → after = []) := by
  cases count with
  | zero => cases h
  | succ count =>
    rw [events_runFor_succ] at h
    cases hdispatch : machine.dispatch? with
    | none =>
      rcases step_of_dispatch?_none hdispatch with hstep | ⟨error, hstep⟩
      · rw [laterEvents, hstep] at h
        cases h
        exact ⟨rfl, fun _ => rfl⟩
      · rw [laterEvents, hstep] at h
        cases h
    | some dispatched =>
      obtain ⟨ready, instruction⟩ := dispatched
      obtain ⟨told, hturn⟩ := exists_turn hdispatch
      rw [hturn.events] at h
      cases h
      exact ⟨rfl, nofun⟩

theorem exists_turn_of_runFor {index : Nat} {instruction : Instruction}
    (h : (runFor (count + 1) machine).events = .instruction index instruction :: after) :
    ∃ ready told, machine.dispatch? = some (ready, instruction) ∧ index = machine.pc ∧
      machine.Turn instruction told ∧ after = told ++ laterEvents count machine := by
  rw [events_runFor_succ] at h
  cases hdispatch : machine.dispatch? with
  | none =>
    rcases step_of_dispatch?_none hdispatch with hstep | ⟨error, hstep⟩ <;>
      (rw [laterEvents, hstep] at h; cases h)
  | some dispatched =>
    obtain ⟨ready, found⟩ := dispatched
    obtain ⟨told, hturn⟩ := exists_turn hdispatch
    rw [hturn.events] at h
    cases h
    exact ⟨ready, told, rfl, rfl, hturn, rfl⟩

theorem Turn.not_mem {instruction : Instruction} {told : List Event}
    (hturn : machine.Turn instruction told) {index : Nat} (hposition : event.position? = some index) :
    event ∉ told := by
  intro hmem
  rw [(hturn.quiet event hmem).2] at hposition
  cases hposition

theorem Turn.countP_eq {instruction : Instruction} {told : List Event}
    (hturn : machine.Turn instruction told) :
    machine.step.events.countP Event.isInstruction = 1 := by
  have hnone : told.countP Event.isInstruction = 0 := by
    rw [List.countP_eq_zero]
    intro event hmem
    simp [(hturn.quiet event hmem).1]
  rw [hturn.events, List.countP_cons, hnone]
  rfl

/-- Where a record is split at an instruction, the run is split at the step that tells of it. -/
theorem exists_stage_of_runFor {index : Nat} {instruction : Instruction}
    (h : (runFor count machine).events = before ++ .instruction index instruction :: after) :
    ∃ rest, (runFor (before.countP Event.isInstruction) machine).ending = none ∧
      (runFor (rest + 1) (runFor (before.countP Event.isInstruction) machine).machine).events =
        .instruction index instruction :: after := by
  induction count generalizing machine before with
  | zero => cases before <;> cases h
  | succ count ih =>
    cases before with
    | nil => exact ⟨count, rfl, h⟩
    | cons first before =>
      obtain ⟨hposition, hlast⟩ := position?_of_runFor h
      cases first with
      | instruction index' instruction' =>
        obtain ⟨ready, told, -, rfl, hturn, htold⟩ := exists_turn_of_runFor h
        obtain ⟨more, rfl, hlater⟩ := append_eq_append_cons htold.symm (hturn.not_mem rfl)
        have hnext : machine.step.outcome = .ok none :=
          outcome_of_laterEvents (by rw [hlater]; simp)
        rw [laterEvents_of_next hnext] at hlater
        have hcount : (Event.instruction machine.pc instruction' :: (told ++ more)).countP
            Event.isInstruction = more.countP Event.isInstruction + 1 := by
          rw [← List.cons_append, ← hturn.events, List.countP_append, hturn.countP_eq, Nat.add_comm]
        rw [hcount, runFor_succ_of_next hnext]
        exact ih hlater
      | _ => simp [Event.isInstruction] at hlast

theorem records_runFor (count : Nat) (machine : Machine) :
    machine.control.labels.Records ((runFor count machine).events.filterMap Event.label?)
      (runFor count machine).machine.control.labels := by
  induction count generalizing machine with
  | zero => exact .of_get? fun _ => rfl
  | succ count ih =>
    have hstep := records_step machine
    rcases h : machine.step.outcome with error | _ | halt
    · rwa [runFor_succ_of_error h]
    · rw [runFor_succ_of_next h, List.filterMap_append]
      exact hstep.trans (ih machine.step.machine)
    · rwa [runFor_succ_of_halt h]

theorem known_runFor (hmem : event ∈ (runFor count machine).events) {label : Value} {target : Nat}
    (hevent : event.transfer? = some (label, target)) :
    (runFor count machine).machine.control.labels.get? label = some target := by
  induction count generalizing machine with
  | zero => cases hmem
  | succ count ih =>
    rcases h : machine.step.outcome with error | _ | halt
    · rw [runFor_succ_of_error h] at hmem ⊢
      exact known_step machine hmem hevent
    · rw [runFor_succ_of_next h] at hmem ⊢
      rcases List.mem_append.mp hmem with hmem | hmem
      · have hknown := known_step machine hmem hevent
        exact ((records_runFor count machine.step.machine).known label target).mpr (.inl hknown)
      · exact ih hmem
    · rw [runFor_succ_of_halt h] at hmem ⊢
      exact known_step machine hmem hevent

theorem countP_step (machine : Machine) :
    machine.step.events.countP Event.isInstruction = dispatches [machine] := by
  cases hdispatch : machine.dispatch? with
  | none =>
    have hnone : dispatches [machine] = 0 := by simp [dispatches, dispatched?, hdispatch]
    rcases step_of_dispatch?_none hdispatch with hstep | ⟨error, hstep⟩ <;>
      (rw [hstep, hnone]; rfl)
  | some dispatched =>
    obtain ⟨ready, instruction⟩ := dispatched
    obtain ⟨told, hturn⟩ := exists_turn hdispatch
    rw [hturn.countP_eq]
    simp [dispatches, dispatched?, hdispatch]

theorem countP_runFor (count : Nat) (machine : Machine) :
    (runFor count machine).events.countP Event.isInstruction =
      dispatches (stages count machine) := by
  induction count generalizing machine with
  | zero => rfl
  | succ count ih =>
    rcases h : machine.step.outcome with error | _ | halt
    · rw [runFor_succ_of_error h, countP_step]
      simp only [stages, h]
    · rw [runFor_succ_of_next h, stages_succ_of_next h, List.countP_append, ih, dispatches_cons,
        countP_step]
    · rw [runFor_succ_of_halt h, countP_step]
      simp only [stages, h]

theorem exists_stop_of_runFor {index : Nat}
    (h : (runFor count machine).events = before ++ .halt index true :: after) :
    ∃ earlier, before = earlier ++ [.instruction index (.flow .stop)] := by
  induction count generalizing machine before with
  | zero => cases before <;> cases h
  | succ count ih =>
    cases before with
    | nil =>
      have hposition := (position?_of_runFor h).1
      cases hposition
    | cons first before =>
      obtain ⟨-, hlast⟩ := position?_of_runFor h
      cases first with
      | instruction index' instruction' =>
        obtain ⟨ready, told, -, rfl, hturn, htold⟩ := exists_turn_of_runFor h
        by_cases hmem : .halt index true ∈ told
        · obtain ⟨rfl, rfl, rfl, houtcome⟩ := hturn.stops index hmem
          rw [laterEvents, houtcome] at htold
          cases before with
          | nil => exact ⟨[], rfl⟩
          | cons second before => simp at htold
        · obtain ⟨more, rfl, hlater⟩ := append_eq_append_cons htold.symm hmem
          have hnext : machine.step.outcome = .ok none :=
            outcome_of_laterEvents (by rw [hlater]; simp)
          rw [laterEvents_of_next hnext] at hlater
          obtain ⟨earlier, rfl⟩ := ih hlater
          exact ⟨.instruction machine.pc instruction' :: (told ++ earlier), by simp⟩
      | _ => simp [Event.isInstruction] at hlast

theorem exists_calls_runFor (count : Nat) (first : Machine) :
    ∃ log, Calls first log (stages count first) (runFor count first).machine := by
  have h := @runFor_preserves (fun history machine => ∃ log, Calls first log history machine)
    (fun history machine ⟨log, hcalls⟩ => ⟨_, hcalls.snoc .step⟩) count [] first ⟨[], .nil⟩
  exact h

end Runs

/-- A record of a run of up to `count` steps tells truly how control passed through it. -/
structure Faithful (first : Machine) (count : Nat) (events : List Event) : Prop where
  begins : ∀ event after, events = event :: after → event.position? = some first.pc
  /-- The next place where control stands is where it was told to pass to, which happens at most once,
  and the next instruction if nothing was told. -/
  follows : ∀ before index instruction between event after next,
    events = before ++ .instruction index instruction :: (between ++ event :: after) →
    (∀ inner ∈ between, inner.isInstruction = false) → event.position? = some next →
    (between.filterMap Event.destination?).length ≤ 1 ∧
      next = (between.filterMap Event.destination?).headD (index + 1)
  stops : ∀ before index after, events = before ++ .halt index true :: after →
    ∃ earlier, before = earlier ++ [.instruction index (.flow .stop)]
  /-- Labels are told once, and those are the labels known in the end. -/
  labels : ((events.filterMap Event.label?).map Prod.fst).Nodup ∧ ∀ label target,
    (runFor count first).machine.control.labels.get? label = some target ↔
      .label label target ∈ events
  targets : ∀ label target, .jump label target ∈ events ∨ .call label target ∈ events →
    (runFor count first).machine.control.labels.get? label = some target
  dispatched : events.countP Event.isInstruction = dispatches (stages count first)
  /-- The instruction told after some others is the one that is dispatched after as many steps. -/
  instructions : ∀ before index instruction after,
    events = before ++ .instruction index instruction :: after →
    let stage := (runFor (before.countP Event.isInstruction) first).machine
    stage.pc = index ∧ ∃ ready, stage.dispatch? = some (ready, instruction)
  /-- Up to the next instruction, the stack that the step leaves is told once, unless it ends the run. -/
  snapshots : ∀ before index instruction between after,
    events = before ++ .instruction index instruction :: (between ++ after) →
    (∀ inner ∈ between, inner.isInstruction = false) →
    (∀ event ∈ after.head?, event.isInstruction) →
    between.filterMap Event.stack? =
      (runFor (before.countP Event.isInstruction + 1) first).stack?.toList

section Records

variable {count : Nat} {first machine : Machine} {before between after : List Event} {index : Nat}
  {instruction : Instruction}

theorem follows_runFor {event : Event} {next : Nat}
    (h : (runFor count first).events =
      before ++ .instruction index instruction :: (between ++ event :: after))
    (hbetween : ∀ inner ∈ between, inner.isInstruction = false)
    (hposition : event.position? = some next) :
    (between.filterMap Event.destination?).length ≤ 1 ∧
      next = (between.filterMap Event.destination?).headD (index + 1) := by
  obtain ⟨rest, -, hstage⟩ := exists_stage_of_runFor h
  obtain ⟨ready, told, -, rfl, hturn, htold⟩ := exists_turn_of_runFor hstage
  obtain ⟨more, rfl, hlater⟩ := append_eq_append_cons htold.symm (hturn.not_mem hposition)
  rw [laterEvents_of_next (outcome_of_laterEvents (by rw [hlater]; simp))] at hlater
  cases more with
  | nil =>
    have hpc := (position?_of_runFor hlater).1
    rw [hposition] at hpc
    rw [List.append_nil, Option.some.inj hpc, hturn.pc]
    exact ⟨hturn.once, rfl⟩
  | cons other more =>
    have hlast := (position?_of_runFor hlater).2 (hbetween other (by simp))
    simp at hlast

theorem Turn.stack?_eq {told : List Event} (hturn : machine.Turn instruction told) :
    (runFor 1 machine).stack?.toList = told.filterMap Event.stack? := by
  rw [hturn.snapshots]
  rcases h : machine.step.outcome with error | _ | halt
  · rw [runFor_succ_of_error h]
    rfl
  · rw [runFor_succ_of_next h]
    rfl
  · rw [runFor_succ_of_halt h]
    rfl

theorem snapshots_runFor
    (h : (runFor count first).events =
      before ++ .instruction index instruction :: (between ++ after))
    (hbetween : ∀ inner ∈ between, inner.isInstruction = false)
    (hafter : ∀ event ∈ after.head?, event.isInstruction) :
    between.filterMap Event.stack? =
      (runFor (before.countP Event.isInstruction + 1) first).stack?.toList := by
  obtain ⟨rest, hending, hstage⟩ := exists_stage_of_runFor h
  obtain ⟨ready, told, -, rfl, hturn, htold⟩ := exists_turn_of_runFor hstage
  have hstack : (runFor (before.countP Event.isInstruction + 1) first).stack?.toList =
      told.filterMap Event.stack? := by
    rw [runFor_add, Run.carryOn, hending]
    exact hturn.stack?_eq
  rw [hstack]
  rcases List.append_eq_append_iff.mp htold with ⟨more, rfl, hmore⟩ | ⟨more, rfl, hlater⟩
  · -- What is told of the step goes on where an instruction should stand.
    cases more with
    | nil => rw [List.append_nil]
    | cons event more =>
      rw [hmore] at hafter
      have htrue := hafter event rfl
      rw [(hturn.quiet event (by simp)).1] at htrue
      cases htrue
  · cases more with
    | nil => rw [List.append_nil]
    | cons event more =>
      rw [laterEvents_of_next (outcome_of_laterEvents (by rw [hlater]; simp))] at hlater
      obtain ⟨hposition, hlast⟩ := position?_of_runFor hlater
      obtain ⟨rfl, -⟩ := List.append_eq_nil_iff.mp (hlast (hbetween event (by simp)))
      rw [List.filterMap_append, List.filterMap_cons_none (Event.stack?_of_position? hposition)]
      simp

theorem faithful_runFor (count : Nat) (first : Machine) (hlabels : first.control.labels = {}) :
    Faithful first count (runFor count first).events where
  begins _ _ h := (position?_of_runFor h).1
  follows _ _ _ _ _ _ _ := follows_runFor
  stops _ _ _ := exists_stop_of_runFor
  labels := by
    have hrecords := records_runFor count first
    refine ⟨hrecords.nodup, fun label target => ?_⟩
    have hnone : ({} : LabelTable).get? label = none := rfl
    rw [hrecords.known, hlabels, hnone, Event.mem_filterMap_label?]
    simp
  targets label target h := by
    rcases h with h | h <;> exact known_runFor h rfl
  dispatched := countP_runFor count first
  instructions before index instruction after h := by
    obtain ⟨rest, -, hstage⟩ := exists_stage_of_runFor h
    obtain ⟨ready, told, hdispatch, rfl, -⟩ := exists_turn_of_runFor hstage
    exact ⟨rfl, ready, hdispatch⟩
  snapshots _ _ _ _ _ := snapshots_runFor

end Records

end Machine

/-- A recorder that is present at an execution from the start is told of the program first, and then,
however far the execution comes, of how control passes through it. With fuel, it is told of as many
instructions as fuel is spent on. -/
theorem record_is_faithful (program : Program) (input : Input) (output : Output)
    (limit : Option Nat) (count : Nat) :
    let first := start program input output limit
    let recorded := (Traced.execution count first).run ({} : Recorder)
    ∃ events, recorded.2.events = .program program.size :: events ∧
      recorded.1 = ((runFor count first).machine, (runFor count first).ending) ∧
      Faithful first count events ∧
      ∀ bound, limit = some bound → ∃ left,
        (runFor count first).machine.fuel = some ⟨bound, left⟩ ∧
        events.countP Event.isInstruction + left = bound := by
  intro first recorded
  have hrun : recorded = _ := Traced.run_execution count first ({} : Recorder)
  refine ⟨(runFor count first).events, ?_, ?_, faithful_runFor count first rfl, ?_⟩
  · rw [hrun, events_hearAll]
    rfl
  · rw [hrun]
  · rintro bound rfl
    obtain ⟨log, hcalls⟩ := exists_calls_runFor count first
    obtain ⟨left, hfuel, hsum⟩ := hcalls.dispatches_add_left
    exact ⟨left, hfuel, by rw [countP_runFor, hsum]⟩

theorem record_is_faithful_call_ret :
    let program : Program := #[.flow (.call ⟨false, [true]⟩), .flow .stop,
      .flow (.mark ⟨false, [true]⟩), .flow .ret]
    let first := start program { remaining := [] } {} (some 5)
    ∃ events,
      events = [.instruction 0 (.flow (.call ⟨false, [true]⟩)), .label 1 3, .call 1 3, .stack [],
        .instruction 3 (.flow .ret), .ret 1, .stack [], .instruction 1 (.flow .stop),
        .halt 1 true] ∧
      Faithful first 4 events ∧
      ∃ left, (runFor 4 first).machine.fuel = some ⟨5, left⟩ ∧ 3 + left = 5 := by
  intro program first
  obtain ⟨events, hrecord, -, hfaithful, hfuel⟩ :=
    record_is_faithful program { remaining := [] } {} (some 5) 4
  have htold : ((Traced.execution 4 first).run ({} : Recorder)).2.events = .program 4 ::
      [.instruction 0 (.flow (.call ⟨false, [true]⟩)), .label 1 3, .call 1 3, .stack [],
        .instruction 3 (.flow .ret), .ret 1, .stack [], .instruction 1 (.flow .stop),
        .halt 1 true] := by
    decide +kernel
  obtain ⟨-, rfl⟩ := List.cons.inj (hrecord.symm.trans htold)
  exact ⟨_, rfl, hfaithful, hfuel 5 rfl⟩

end Whitespace
