import Whitespace.Proofs.Labels.Frontier

/-!
Fuel. Instructions do not see it, so a machine with fuel takes the steps of the machine without, one
unit for each instruction dispatched, up to the first instruction for which nothing is left. The end of
the program takes no fuel.
-/

namespace Whitespace.Machine

def withFuel (machine : Machine) (fuel : Option Fuel) : Machine := { machine with fuel }

@[simp] theorem withFuel_withFuel (machine : Machine) (first second : Option Fuel) :
    (machine.withFuel first).withFuel second = machine.withFuel second := rfl

@[simp] theorem pc_withFuel (machine : Machine) (fuel : Option Fuel) :
    (machine.withFuel fuel).pc = machine.pc := rfl

@[simp] theorem program_withFuel (machine : Machine) (fuel : Option Fuel) :
    (machine.withFuel fuel).program = machine.program := rfl

def dispatches (history : List Machine) : Nat := (history.filterMap dispatched?).length

theorem dispatches_append (first second : List Machine) :
    dispatches (first ++ second) = dispatches first + dispatches second := by
  simp [dispatches]

theorem dispatches_cons (machine : Machine) (history : List Machine) :
    dispatches (machine :: history) = dispatches [machine] + dispatches history :=
  dispatches_append [machine] history

section Steps

variable {machine : Machine}

theorem execute_withFuel (machine : Machine) (fuel : Option Fuel) (instruction : Instruction) :
    (machine.withFuel fuel).execute instruction =
      (machine.execute instruction).within (withFuel · fuel) := by
  unfold execute
  cases instruction.decode with
  | error error => rfl
  | ok operation =>
    rcases eq_flow_or_ne_flow operation with ⟨op, rfl⟩ | hne
    · rfl
    · have hframe := perform_frame machine machine.program machine.control fuel hne
      have hstate := perform_state_of_ne_flow machine hne
      simp only [withFuel, hframe, Effect.within]
      rw [hstate]

theorem fuel_execute (machine : Machine) (instruction : Instruction) :
    (machine.execute instruction).state.fuel = machine.fuel :=
  congrArg (fun effect => effect.state.fuel) (execute_withFuel machine machine.fuel instruction)

theorem dispatched?_eq_none_of_end (h : machine.program[machine.pc]? = none) :
    machine.dispatched? = none := by
  simp [dispatched?, dispatch?, h]

theorem step_of_end (h : machine.program[machine.pc]? = none) :
    machine.step = ⟨machine, [.halt machine.pc false], .ok (some .endOfProgram)⟩ := by
  simp only [step, h]

theorem step_withFuel_zero {instruction : Instruction}
    (h : machine.program[machine.pc]? = some instruction) (limit : Nat) :
    (machine.withFuel (some ⟨limit, 0⟩)).step =
      ⟨machine.withFuel (some ⟨limit, 0⟩), [],
        .error ⟨machine.pc, instruction, .outOfFuel limit⟩⟩ := by
  simp only [step, pc_withFuel, program_withFuel, h]
  rfl

/-- A step with fuel left is the same step without, except for the unit that it spends. -/
theorem step_withFuel_succ {instruction : Instruction}
    (h : machine.program[machine.pc]? = some instruction) (limit left : Nat) :
    (machine.withFuel (some ⟨limit, left + 1⟩)).step =
      { (machine.withFuel none).step with
        machine := (machine.withFuel none).step.machine.withFuel (some ⟨limit, left⟩) } := by
  have hready : (machine.withFuel (some ⟨limit, left⟩)).advance =
      (machine.withFuel none).advance.withFuel (some ⟨limit, left⟩) := rfl
  have hspend : (machine.withFuel (some ⟨limit, left + 1⟩)).spend =
      .ok (machine.withFuel (some ⟨limit, left⟩)) := rfl
  have hfree : (machine.withFuel none).spend = .ok (machine.withFuel none) := rfl
  simp only [step, pc_withFuel, program_withFuel, h, hspend, hfree, hready, execute_withFuel,
    Effect.within]
  rcases ((machine.withFuel none).advance.execute instruction).outcome with fault | signal
  · rfl
  · cases signal <;> rfl

theorem fuel_of_dispatch? {ready : Machine} {instruction : Instruction}
    (h : machine.dispatch? = some (ready, instruction)) :
    (machine.fuel = none ∧ ready.fuel = none) ∨
      ∃ limit left, machine.fuel = some ⟨limit, left + 1⟩ ∧ ready.fuel = some ⟨limit, left⟩ := by
  obtain ⟨program, control, stack, heap, input, output, fuel⟩ := machine
  unfold dispatch? at h
  split at h
  · next hspend =>
    cases h
    rcases fuel with _ | ⟨limit, _ | left⟩ <;> cases hspend
    · exact .inl ⟨rfl, rfl⟩
    · exact .inr ⟨limit, left, rfl, rfl⟩
  · cases h

theorem fuel_step_of_none (h : machine.fuel = none) : machine.step.machine.fuel = none := by
  cases hdispatch : machine.dispatch? with
  | none => rwa [step_machine_of_dispatch?_none hdispatch]
  | some dispatched =>
    rw [step_machine_of_dispatch? hdispatch, fuel_execute]
    rcases fuel_of_dispatch? hdispatch with ⟨-, hready⟩ | ⟨limit, left, hmachine, -⟩
    · exact hready
    · rw [h] at hmachine
      cases hmachine

theorem dispatched?_of_fuel_none (hfuel : machine.fuel = none) {instruction : Instruction}
    (h : machine.program[machine.pc]? = some instruction) :
    machine.dispatched? = some machine.pc := by
  simp [dispatched?, dispatch?, h, spend, hfuel]

end Steps

def Step.ending? (step : Step) : Option (Except RuntimeError Halt) :=
  match step.outcome with
  | .error error => some (.error error)
  | .ok halt => halt.map .ok

theorem Step.outcome_of_ending?_none {step : Step} (h : step.ending? = none) :
    step.outcome = .ok none := by
  unfold ending? at h
  split at h
  · cases h
  · next halt houtcome => rw [houtcome, Option.map_eq_none_iff.mp h]

section Runs

variable {machine free : Machine} {ending : Except RuntimeError Halt}

theorem runFor_succ_of_ending? (h : machine.step.ending? = some ending) (count : Nat) :
    runFor (count + 1) machine = ⟨machine.step.machine, machine.step.events, some ending⟩ := by
  unfold Step.ending? at h
  rw [runFor]
  split at h
  · next houtcome =>
    cases h
    simp only [houtcome]
  · next halt houtcome =>
    obtain ⟨halt, rfl, rfl⟩ := Option.map_eq_some_iff.mp h
    simp only [houtcome]

theorem stages_succ_of_ending? (h : machine.step.ending? = some ending) (count : Nat) :
    stages (count + 1) machine = [machine] := by
  rw [stages]
  split
  · next houtcome => simp [Step.ending?, houtcome] at h
  · rfl

theorem dispatches_singleton_of_end (h : machine.program[machine.pc]? = none) :
    dispatches [machine] = 0 := by
  simp [dispatches, dispatched?_eq_none_of_end h]

theorem dispatches_singleton_of_fuel_none (hfree : free.fuel = none) {instruction : Instruction}
    (h : free.program[free.pc]? = some instruction) : dispatches [free] = 1 := by
  simp [dispatches, dispatched?_of_fuel_none hfree h]

theorem ending?_of_end (h : machine.program[machine.pc]? = none) :
    machine.step.ending? = some (.ok .endOfProgram) := by
  rw [step_of_end h]
  rfl

theorem step_withFuel_of_free (hfree : free.fuel = none) {instruction : Instruction}
    (h : free.program[free.pc]? = some instruction) (limit left : Nat) :
    (free.withFuel (some ⟨limit, left + 1⟩)).step =
      { free.step with machine := free.step.machine.withFuel (some ⟨limit, left⟩) } := by
  have hsame : free.withFuel none = free := by rw [withFuel, ← hfree]
  rw [step_withFuel_succ h, hsame]

theorem runFor_withFuel_of_ending (hfree : free.fuel = none) {count : Nat}
    (hending : (runFor count free).ending = some ending) (limit : Nat) {left : Nat}
    (hleft : dispatches (stages count free) ≤ left) :
    (runFor (left + 1) (free.withFuel (some ⟨limit, left⟩))).ending = some ending ∧
      (runFor (left + 1) (free.withFuel (some ⟨limit, left⟩))).machine =
        (runFor count free).machine.withFuel
          (some ⟨limit, left - dispatches (stages count free)⟩) := by
  induction count generalizing free left with
  | zero => cases hending
  | succ count ih =>
    cases hat : free.program[free.pc]? with
    | none =>
      have hfuelled : (free.withFuel (some ⟨limit, left⟩)).program[free.pc]? = none := hat
      rw [runFor_succ_of_ending? (ending?_of_end hat)] at hending ⊢
      rw [runFor_succ_of_ending? (ending?_of_end hfuelled), step_of_end hfuelled, step_of_end hat,
        stages_succ_of_ending? (ending?_of_end hat), dispatches_singleton_of_end hat]
      exact ⟨hending, rfl⟩
    | some instruction =>
      have hone := dispatches_singleton_of_fuel_none hfree hat
      cases hend : free.step.ending? with
      | some found =>
        rw [stages_succ_of_ending? hend, hone] at hleft ⊢
        obtain ⟨left, rfl⟩ := Nat.exists_eq_succ_of_ne_zero (Nat.ne_of_gt hleft)
        have hstep := step_withFuel_of_free hfree hat limit left
        have hfuelled : (free.withFuel (some ⟨limit, left + 1⟩)).step.ending? = some found := by
          rw [hstep]
          exact hend
        rw [runFor_succ_of_ending? hend] at hending ⊢
        rw [runFor_succ_of_ending? hfuelled, hstep]
        exact ⟨hending, rfl⟩
      | none =>
        have hnext := Step.outcome_of_ending?_none hend
        rw [stages_succ_of_next hnext, dispatches_cons, hone] at hleft ⊢
        rw [runFor_succ_of_next hnext] at hending ⊢
        obtain ⟨left, rfl⟩ : ∃ rest, left = rest + 1 := ⟨left - 1, by omega⟩
        have hstep := step_withFuel_of_free hfree hat limit left
        have hfuelled : (free.withFuel (some ⟨limit, left + 1⟩)).step.outcome = .ok none := by
          rw [hstep]
          exact hnext
        have hrest : dispatches (stages count free.step.machine) ≤ left := by omega
        obtain ⟨hrun, hmachine⟩ := ih (fuel_step_of_none hfree) hending hrest
        rw [runFor_succ_of_next hfuelled, hstep, hmachine, Nat.add_comm 1, Nat.add_sub_add_right]
        exact ⟨hrun, rfl⟩

theorem exists_instruction_of_not_ending {left : Nat}
    (hlong : ∀ count ending, (runFor count free).ending = some ending →
      left < dispatches (stages count free)) :
    ∃ instruction, free.program[free.pc]? = some instruction := by
  cases hat : free.program[free.pc]? with
  | some instruction => exact ⟨instruction, rfl⟩
  | none =>
    have hrun := runFor_succ_of_ending? (ending?_of_end hat) 0
    have hsome := hlong 1 _ (congrArg Run.ending hrun)
    rw [stages_succ_of_ending? (ending?_of_end hat), dispatches_singleton_of_end hat] at hsome
    exact absurd hsome (Nat.not_lt_zero left)

theorem runFor_withFuel_of_not_ending (hfree : free.fuel = none) (limit : Nat) {left : Nat}
    (hlong : ∀ count ending, (runFor count free).ending = some ending →
      left < dispatches (stages count free)) :
    (runFor left free).ending = none ∧ dispatches (stages left free) = left ∧
      ∃ instruction,
        (runFor left free).machine.program[(runFor left free).machine.pc]? = some instruction ∧
        (runFor (left + 1) (free.withFuel (some ⟨limit, left⟩))).ending =
          some (.error ⟨(runFor left free).machine.pc, instruction, .outOfFuel limit⟩) ∧
        (runFor (left + 1) (free.withFuel (some ⟨limit, left⟩))).machine =
          (runFor left free).machine.withFuel (some ⟨limit, 0⟩) := by
  induction left generalizing free with
  | zero =>
    obtain ⟨instruction, hat⟩ := exists_instruction_of_not_ending hlong
    have hstep := step_withFuel_zero hat limit
    refine ⟨rfl, rfl, instruction, hat, ?_⟩
    rw [runFor_succ_of_error (congrArg Step.outcome hstep), hstep]
    exact ⟨rfl, rfl⟩
  | succ left ih =>
    obtain ⟨instruction, hat⟩ := exists_instruction_of_not_ending hlong
    have hone := dispatches_singleton_of_fuel_none hfree hat
    cases hend : free.step.ending? with
    | some ending =>
      have hrun := runFor_succ_of_ending? hend 0
      have hshort := hlong 1 _ (congrArg Run.ending hrun)
      rw [stages_succ_of_ending? hend, hone] at hshort
      omega
    | none =>
      have hnext := Step.outcome_of_ending?_none hend
      have hrest : ∀ count ending, (runFor count free.step.machine).ending = some ending →
          left < dispatches (stages count free.step.machine) := by
        intro count ending hending
        have hrun := runFor_succ_of_next hnext count
        have hmore := hlong (count + 1) ending ((congrArg Run.ending hrun).trans hending)
        rw [stages_succ_of_next hnext, dispatches_cons, hone] at hmore
        omega
      obtain ⟨hnone, hcount, found, hfound, hending, hmachine⟩ := ih (fuel_step_of_none hfree) hrest
      have hstep := step_withFuel_of_free hfree hat limit left
      have hfuelled : (free.withFuel (some ⟨limit, left + 1⟩)).step.outcome = .ok none := by
        rw [hstep]
        exact hnext
      rw [runFor_succ_of_next hnext, stages_succ_of_next hnext, dispatches_cons, hone, hcount,
        runFor_succ_of_next hfuelled, hstep]
      exact ⟨hnone, Nat.add_comm 1 left, found, hfound, hending, hmachine⟩

theorem runFor_of_fuel_none (hfree : free.fuel = none) (count : Nat) :
    (runFor count free).machine.program = free.program ∧ (runFor count free).machine.fuel = none := by
  apply @runFor_preserves (fun _ later => later.program = free.program ∧ later.fuel = none) _ count
    [] free ⟨rfl, hfree⟩
  rintro history later ⟨hprogram, hfuel⟩
  exact ⟨(program_step later).trans hprogram, fuel_step_of_none hfuel⟩

theorem exists_ending_of_fuel {limit left : Nat} (hfuel : machine.fuel = some ⟨limit, left⟩) :
    ∃ ending, (runFor (left + 1) machine).ending = some ending := by
  have hsame : (machine.withFuel none).withFuel (some ⟨limit, left⟩) = machine := by
    rw [withFuel_withFuel, withFuel, ← hfuel]
  by_cases hshort : ∃ count ending, (runFor count (machine.withFuel none)).ending = some ending ∧
      dispatches (stages count (machine.withFuel none)) ≤ left
  · obtain ⟨count, ending, hending, hle⟩ := hshort
    have hrun := (runFor_withFuel_of_ending rfl hending limit hle).1
    rw [hsame] at hrun
    exact ⟨ending, hrun⟩
  · have hlong : ∀ count ending, (runFor count (machine.withFuel none)).ending = some ending →
        left < dispatches (stages count (machine.withFuel none)) :=
      fun count ending hending => Nat.lt_of_not_le fun hle => hshort ⟨count, ending, hending, hle⟩
    obtain ⟨-, -, instruction, -, hrun, -⟩ := runFor_withFuel_of_not_ending rfl limit hlong
    rw [hsame] at hrun
    exact ⟨_, hrun⟩

theorem runFor_add_of_ending {count : Nat} (h : (runFor count machine).ending = some ending)
    (more : Nat) : runFor (count + more) machine = runFor count machine := by
  rw [runFor_add, Run.carryOn, h]

theorem runFor_eq_of_ending {first second : Nat} {found : Except RuntimeError Halt}
    (hfirst : (runFor first machine).ending = some ending)
    (hsecond : (runFor second machine).ending = some found) :
    runFor first machine = runFor second machine := by
  rw [← runFor_add_of_ending hfirst second, Nat.add_comm, runFor_add_of_ending hsecond]

theorem performs_execute_iff {count : Nat} (h : (runFor count machine).ending = some ending)
    {answer : Answer} {after : Machine} :
    (∃ stages, Performs machine .execute answer stages after) ↔
      answer = .execute ending ∧ after = (runFor count machine).machine := by
  constructor
  · rintro ⟨_, hcall⟩
    cases hcall with
    | @execute other found hfound =>
      have hsame := runFor_eq_of_ending hfound h
      rw [hsame] at hfound ⊢
      rw [hfound] at h
      cases h
      exact ⟨rfl, rfl⟩
  · rintro ⟨rfl, rfl⟩
    exact ⟨_, .execute h⟩

end Runs

theorem Calls.dispatches_add_left {program : Program} {input : Input} {output : Output}
    {limit : Nat} {log : List (Call × Answer)} {history : List Machine} {machine : Machine}
    (hcalls : Calls (start program input output (some limit)) log history machine) :
    ∃ left, machine.fuel = some ⟨limit, left⟩ ∧ dispatches history + left = limit := by
  apply hcalls.preserves (motive := fun history machine =>
    ∃ left, machine.fuel = some ⟨limit, left⟩ ∧ dispatches history + left = limit)
  · exact ⟨limit, rfl, Nat.zero_add limit⟩
  · rintro history machine ⟨left, hfuel, hsum⟩
    rw [dispatches_append]
    cases hdispatch : machine.dispatch? with
    | none =>
      refine ⟨left, by rwa [step_machine_of_dispatch?_none hdispatch], ?_⟩
      simpa [dispatches, dispatched?, hdispatch] using hsum
    | some dispatched =>
      obtain ⟨ready, instruction⟩ := dispatched
      rw [step_machine_of_dispatch? hdispatch, fuel_execute]
      have hone : dispatches [machine] = 1 := by simp [dispatches, dispatched?, hdispatch]
      rcases fuel_of_dispatch? hdispatch with ⟨hnone, -⟩ | ⟨limit', rest, hsome, hready⟩
      · rw [hfuel] at hnone
        cases hnone
      · rw [hfuel] at hsome
        cases hsome
        exact ⟨rest, hready, by omega⟩
  · rintro history machine label ⟨left, hfuel, hsum⟩
    exact ⟨left, hfuel, hsum⟩

/-- Fuel cuts a run short and changes nothing else. With fuel for `limit` instructions, executing a
program ends as it does without fuel, and in the same state, if that takes at most `limit` instructions.
If it takes more or does not end, execution fails at the next instruction that the unlimited machine
dispatches after `limit` of them, in the state that machine is in then. So an execution with fuel always
ends, and calls never dispatch more than `limit` instructions together. -/
theorem fuel_truncates_run (program : Program) (input : Input) (output : Output) (limit : Nat) :
    let free := start program input output none
    let fuelled := start program input output (some limit)
    (∀ count ending, (runFor count free).ending = some ending →
        dispatches (stages count free) ≤ limit →
        ∀ answer after, (∃ stages, Performs fuelled .execute answer stages after) ↔
          answer = .execute ending ∧
            after = (runFor count free).machine.withFuel
              (some ⟨limit, limit - dispatches (stages count free)⟩)) ∧
      ((¬ ∃ count ending, (runFor count free).ending = some ending ∧
          dispatches (stages count free) ≤ limit) →
        let reached := (runFor limit free).machine
        (runFor limit free).ending = none ∧ dispatches (stages limit free) = limit ∧
          ∃ index instruction, reached.dispatched? = some index ∧
            program[index]? = some instruction ∧
            ∀ answer after, (∃ stages, Performs fuelled .execute answer stages after) ↔
              answer = .execute (.error ⟨index, instruction, .outOfFuel limit⟩) ∧
                after = reached.withFuel (some ⟨limit, 0⟩)) ∧
      ∀ log history machine, Calls fuelled log history machine →
        dispatches history ≤ limit ∧
          ∃ ending stages after, Performs machine .execute (.execute ending) stages after := by
  intro free fuelled
  refine ⟨?_, ?_, ?_⟩
  · intro count ending hending hle answer after
    obtain ⟨hrun, hmachine⟩ := runFor_withFuel_of_ending rfl hending limit hle
    rw [← hmachine]
    exact performs_execute_iff hrun
  · intro hshort reached
    have hlong : ∀ count ending, (runFor count free).ending = some ending →
        limit < dispatches (stages count free) :=
      fun count ending hending => Nat.lt_of_not_le fun hle => hshort ⟨count, ending, hending, hle⟩
    obtain ⟨hnone, hcount, instruction, hat, hrun, hmachine⟩ :=
      runFor_withFuel_of_not_ending rfl limit hlong
    obtain ⟨hprogram, hfree⟩ := runFor_of_fuel_none (rfl : free.fuel = none) limit
    refine ⟨hnone, hcount, reached.pc, instruction, dispatched?_of_fuel_none hfree hat, ?_, ?_⟩
    · rwa [hprogram] at hat
    · intro answer after
      rw [← hmachine]
      exact performs_execute_iff hrun
  · intro log history machine hcalls
    obtain ⟨left, hfuel, hsum⟩ := hcalls.dispatches_add_left
    obtain ⟨ending, hending⟩ := exists_ending_of_fuel hfuel
    exact ⟨by omega, ending, _, _, .execute hending⟩

theorem fuel_truncates_run_two_instructions :
    let program : Program := #[.stack (.push ⟨false, [true]⟩), .stack .discard]
    let free := start program { remaining := [] } {} none
    ((runFor 3 free).ending = some (.ok .endOfProgram) ∧ dispatches (stages 3 free) ≤ 2 ∧
        ∃ stages after, Performs (start program { remaining := [] } {} (some 2)) .execute
          (.execute (.ok .endOfProgram)) stages after) ∧
      (¬ ∃ count ending, (runFor count free).ending = some ending ∧
          dispatches (stages count free) ≤ 1) ∧
        ∃ stages after, Performs (start program { remaining := [] } {} (some 1)) .execute
          (.execute (.error ⟨1, .stack .discard, .outOfFuel 1⟩)) stages after := by
  intro program free
  have hending : (runFor 3 free).ending = some (.ok .endOfProgram) := rfl
  have hle : dispatches (stages 3 free) ≤ 2 := Nat.le_of_eq rfl
  have hshort : ¬ ∃ count ending, (runFor count free).ending = some ending ∧
      dispatches (stages count free) ≤ 1 := by
    rintro ⟨_ | _ | _ | count, ending, hending, hone⟩
    · cases hending
    · cases hending
    · cases hending
    · exact absurd (show 2 ≤ 1 from hone) (by decide)
  obtain ⟨hends, -⟩ := fuel_truncates_run program { remaining := [] } {} 2
  obtain ⟨-, hfails, -⟩ := fuel_truncates_run program { remaining := [] } {} 1
  refine ⟨⟨hending, hle, ?_⟩, hshort, ?_⟩
  · obtain ⟨stages, hexecutes⟩ := (hends 3 _ hending hle _ _).mpr ⟨rfl, rfl⟩
    exact ⟨stages, _, hexecutes⟩
  · obtain ⟨-, -, index, instruction, hindex, hinstruction, hexecutes⟩ := hfails hshort
    cases hindex
    cases hinstruction
    obtain ⟨stages, hexecutes⟩ := (hexecutes _ _).mpr ⟨rfl, rfl⟩
    exact ⟨stages, _, hexecutes⟩

end Whitespace.Machine
