import Whitespace.Proofs.Labels.Frontier
import Whitespace.Proofs.Machine.Outcome
import Whitespace.Proofs.Tracing.Transparency

/-!
What the events of one step tell of control. A step that dispatches tells of its instruction first. Then
come the labels that are recorded, each once, and where control passes to, if it does not go on to the
next instruction. `Control.Tells` says this of every operation, and how the events of a step are closed
depends on its outcome alone.
-/

namespace Whitespace

open Machine

namespace Event

def isInstruction : Event → Bool
  | .instruction .. => true
  | _ => false

def position? : Event → Option Nat
  | .instruction index _ => some index
  | .halt index false => some index
  | _ => none

def destination? : Event → Option Nat
  | .jump _ target => some target
  | .call _ target => some target
  | .ret target => some target
  | _ => none

def transfer? : Event → Option (Value × Nat)
  | .jump name target => some (name, target)
  | .call name target => some (name, target)
  | _ => none

def label? : Event → Option (Value × Nat)
  | .label name target => some (name, target)
  | _ => none

def stack? : Event → Option (List Value)
  | .stack values => some values
  | _ => none

def isTurn : Event → Bool
  | .label .. | .jump .. | .call .. | .ret .. => true
  | _ => false

theorem position?_of_isTurn {event : Event} (h : event.isTurn) : event.position? = none := by
  cases event <;> first | rfl | cases h

theorem stack?_of_isTurn {event : Event} (h : event.isTurn) : event.stack? = none := by
  cases event <;> first | rfl | cases h

theorem isInstruction_of_isTurn {event : Event} (h : event.isTurn) :
    event.isInstruction = false := by
  cases event <;> first | rfl | cases h

theorem stack?_of_position? {event : Event} {index : Nat} (h : event.position? = some index) :
    event.stack? = none := by
  cases event <;> first | rfl | cases h

theorem mem_filterMap_label? {events : List Event} {name : Value} {target : Nat} :
    (name, target) ∈ events.filterMap label? ↔ .label name target ∈ events := by
  rw [List.mem_filterMap]
  constructor
  · rintro ⟨event, hmem, hlabel⟩
    cases event <;> cases hlabel
    exact hmem
  · intro hmem
    exact ⟨_, hmem, rfl⟩

end Event

namespace Machine

namespace LabelTable

/-- Recording new labels, each once, has made one table into another. -/
structure Records (table : LabelTable) (recorded : List (Value × Nat)) (after : LabelTable) :
    Prop where
  nodup : (recorded.map Prod.fst).Nodup
  fresh : ∀ entry ∈ recorded, table.get? entry.1 = none
  known : ∀ label target, after.get? label = some target ↔
    table.get? label = some target ∨ (label, target) ∈ recorded

variable {table middle after : LabelTable} {first second : List (Value × Nat)}

theorem Records.of_get? (h : ∀ label, after.get? label = table.get? label) :
    table.Records [] after := by
  refine ⟨List.nodup_nil, nofun, fun label target => ?_⟩
  simp [h]

theorem Records.trans (hfirst : table.Records first middle) (hsecond : middle.Records second after) :
    table.Records (first ++ second) after := by
  refine ⟨?nodup, ?fresh, ?known⟩
  case nodup =>
    rw [List.map_append, List.nodup_append]
    refine ⟨hfirst.nodup, hsecond.nodup, ?_⟩
    rintro _ hmem _ hmem' rfl
    obtain ⟨entry, hentry, heq⟩ := List.mem_map.mp hmem
    obtain ⟨again, hagain, rfl⟩ := List.mem_map.mp hmem'
    have hknown := (hfirst.known entry.1 entry.2).mpr (.inr hentry)
    rw [heq, hsecond.fresh again hagain] at hknown
    cases hknown
  case fresh =>
    intro entry hentry
    rcases List.mem_append.mp hentry with hmem | hmem
    · exact hfirst.fresh entry hmem
    · cases hget : table.get? entry.1 with
      | none => rfl
      | some target =>
        have hknown := (hfirst.known entry.1 target).mpr (.inl hget)
        rw [hsecond.fresh entry hmem] at hknown
        cases hknown
  case known =>
    intro label target
    rw [hsecond.known, hfirst.known, List.mem_append, or_assoc]

theorem records_record (table : LabelTable) (label : Value) (target : Nat) :
    table.Records (if (table.record label target).2 then [(label, target)] else [])
      (table.record label target).1 := by
  have hget := fun other => get?_record table label other target
  unfold record at hget ⊢
  cases hknown : table.get? label with
  | some known => exact .of_get? fun other => rfl
  | none =>
    simp only [hknown, if_true] at hget ⊢
    refine ⟨by simp, by simpa using hknown, fun other found => ?_⟩
    rw [hget]
    by_cases hsame : label = other
    · subst hsame
      simp [hknown, eq_comm]
    · simp [hsame, Ne.symm hsame]

theorem Records.record {start : LabelTable} {recorded : Array (Value × Nat)}
    (h : start.Records recorded.toList table) (mark : Value) (target : Nat) :
    start.Records (if (table.record mark target).2 then recorded.push (mark, target)
      else recorded).toList (table.record mark target).1 := by
  have htrans := h.trans (records_record table mark target)
  split
  · next hnew => simpa [hnew] using htrans
  · next hold => simpa [hold] using htrans

theorem Records.skip {start : LabelTable} (h : start.Records first table) :
    start.Records first table.skip :=
  ⟨h.nodup, h.fresh, h.known⟩

theorem records_scan {program : Program} {label : Value} {start table : LabelTable}
    {recorded : Array (Value × Nat)} (h : start.Records recorded.toList table) :
    start.Records (table.scan program label recorded).recorded.toList
      (table.scan program label recorded).table := by
  fun_induction LabelTable.scan program label table recorded with
  | case1 table recorded hlt next hmark ih => exact ih h.skip
  | case2 table recorded hlt next literal hmark error hdecode => exact h.skip
  | case3 table recorded hlt next literal hmark target hdecode entry recorded' =>
    exact h.skip.record label target
  | case4 table recorded hlt next literal hmark mark hdecode target entry recorded' hne ih =>
    exact ih (h.skip.record mark target)
  | case5 table recorded hge => exact h

theorem records_resolve (program : Program) (label : Value) (table : LabelTable) :
    table.Records (table.resolve program label).recorded.toList
      (table.resolve program label).table := by
  have hnil : table.Records [] table := .of_get? fun _ => rfl
  unfold resolve
  split
  · exact hnil
  · exact records_scan hnil

end LabelTable

/-- What the events of an operation tell of control. They are about labels and transfers only. There is
at most one transfer, and control stands at its destination. Labels are told as they are recorded, and a
label that control passes to is among them or was known before. -/
structure Control.Tells (control : Control) (events : List Event) (after : Control) : Prop where
  turns : ∀ event ∈ events, event.isTurn
  once : (events.filterMap Event.destination?).length ≤ 1
  pc : after.pc = (events.filterMap Event.destination?).headD control.pc
  labels : control.labels.Records (events.filterMap Event.label?) after.labels
  targets : ∀ event ∈ events, ∀ label target, event.transfer? = some (label, target) →
    after.labels.get? label = some target

section Control

variable (program : Program) (control : Control) (stack : Stack)

theorem filterMap_destination?_map_label (recorded : List (Value × Nat)) :
    (recorded.map fun entry => Event.label entry.1 entry.2).filterMap Event.destination? = [] := by
  simp [List.filterMap_map, Function.comp_def, Event.destination?]

theorem filterMap_label?_map_label (recorded : List (Value × Nat)) :
    (recorded.map fun entry => Event.label entry.1 entry.2).filterMap Event.label? = recorded := by
  simp [List.filterMap_map, Function.comp_def, Event.label?]

theorem tells_labels {recorded : List (Value × Nat)} {labels : LabelTable}
    (h : control.labels.Records recorded labels) :
    control.Tells (recorded.map fun entry => .label entry.1 entry.2) { control with labels } := by
  refine ⟨?turns, ?once, ?pc, ?labels, ?targets⟩
  case turns =>
    intro event hmem
    obtain ⟨entry, -, rfl⟩ := List.mem_map.mp hmem
    rfl
  case once =>
    rw [filterMap_destination?_map_label]
    exact Nat.zero_le 1
  case pc =>
    rw [filterMap_destination?_map_label]
    rfl
  case labels => rwa [filterMap_label?_map_label]
  case targets =>
    intro event hmem label target htransfer
    obtain ⟨entry, -, rfl⟩ := List.mem_map.mp hmem
    cases htransfer

theorem tells_self : control.Tells [] control :=
  tells_labels control (.of_get? fun _ => rfl)

theorem tells_passed {recorded : List (Value × Nat)} {labels : LabelTable} {event : Event}
    {label : Value} {target : Nat} (calls : List Nat)
    (hrecords : control.labels.Records recorded labels) (hget : labels.get? label = some target)
    (hevent : event = .jump label target ∨ event = .call label target) :
    control.Tells ((recorded.map fun entry => .label entry.1 entry.2) ++ [event])
      ⟨target, calls, labels⟩ := by
  have hturn : event.isTurn := by rcases hevent with rfl | rfl <;> rfl
  have htransfer : event.transfer? = some (label, target) := by rcases hevent with rfl | rfl <;> rfl
  have hdestination : ([event].filterMap Event.destination?) = [target] := by
    rcases hevent with rfl | rfl <;> rfl
  have hlabel : ([event].filterMap Event.label?) = [] := by rcases hevent with rfl | rfl <;> rfl
  have htells := tells_labels control hrecords
  refine ⟨?turns, ?once, ?pc, ?labels, ?targets⟩
  case turns =>
    intro inner hmem
    rcases List.mem_append.mp hmem with hmem | hmem
    · exact htells.turns inner hmem
    · rwa [List.mem_singleton.mp hmem]
  case once =>
    rw [List.filterMap_append, filterMap_destination?_map_label, hdestination]
    exact Nat.le_refl 1
  case pc =>
    rw [List.filterMap_append, filterMap_destination?_map_label, hdestination]
    rfl
  case labels =>
    rwa [List.filterMap_append, filterMap_label?_map_label, hlabel, List.append_nil]
  case targets =>
    intro inner hmem other found hother
    rcases List.mem_append.mp hmem with hmem | hmem
    · exact htells.targets inner hmem other found hother
    · rw [List.mem_singleton.mp hmem, htransfer] at hother
      cases hother
      exact hget

theorem tells_transfer (label : Value) (calls : List Nat) {event : Value → Nat → Event}
    (hevent : event = .jump ∨ event = .call) :
    control.Tells (control.transfer program label calls event).events
      (control.transfer program label calls event).state := by
  have hrecords := LabelTable.records_resolve program label control.labels
  unfold Control.transfer
  simp only
  split
  · next target hresult =>
    have hget := LabelTable.get?_of_target_resolve (Resolution.result_eq_ok_iff.mp hresult)
    exact tells_passed control calls hrecords hget
      (by rcases hevent with rfl | rfl <;> simp)
  · exact tells_labels control hrecords

theorem tells_mark (label : Value) :
    control.Tells (control.mark label).events (control.mark label).state := by
  have htells := tells_labels control
    (LabelTable.records_record control.labels label control.pc)
  unfold Control.mark
  simp only
  split at htells
  · next hnew =>
    rw [if_pos hnew]
    exact htells
  · next hold =>
    rw [if_neg hold]
    exact htells

theorem tells_branch (label : Value) (test : Value → Bool) :
    control.Tells (control.branch program stack label test).events
      (control.branch program stack label test).state.1 := by
  cases stack with
  | nil => exact tells_self control
  | cons top rest =>
    unfold Control.branch
    simp only
    split
    · exact tells_transfer program control label control.calls (.inl rfl)
    · exact tells_self control

theorem tells_ret : control.Tells control.ret.events control.ret.state := by
  unfold Control.ret
  split
  · next target rest hcalls =>
    exact ⟨by simp [Event.isTurn], Nat.le_refl 1, rfl, .of_get? fun _ => rfl, by simp [Event.transfer?]⟩
  · exact tells_self control

theorem tells_run (op : FlowOp Value) :
    control.Tells (op.run program control stack).events
      (op.run program control stack).state.1 := by
  cases op with
  | mark label => exact tells_mark control label
  | call label => exact tells_transfer program control label (control.pc :: control.calls) (.inr rfl)
  | jump label => exact tells_transfer program control label control.calls (.inl rfl)
  | jumpIfZero label => exact tells_branch program control stack label _
  | jumpIfNegative label => exact tells_branch program control stack label _
  | ret => exact tells_ret control
  | stop => exact tells_self control

end Control

theorem tells_execute (machine : Machine) (instruction : Instruction) :
    machine.control.Tells (machine.execute instruction).events
      (machine.execute instruction).state.control := by
  unfold execute
  split
  · next operation hdecode =>
    rcases eq_flow_or_ne_flow operation with ⟨op, rfl⟩ | hne
    · exact tells_run machine.program machine.control machine.stack op
    · rw [Traced.events_perform_of_ne_flow machine hne, perform_state_of_ne_flow machine hne]
      exact tells_self machine.control
  · exact tells_self machine.control

theorem outcome_ofExcept_ne_halt {σ τ : Type} (old : τ) (embed : σ → τ) (result : Except Fault σ) :
    (Effect.ofExcept old embed result).outcome ≠ .ok .halt := by
  cases result <;> exact nofun

theorem outcome_readTo_ne_halt {α : Type} (machine : Machine)
    (read : Input → Input × Except StreamError (Option α)) (value : α → Except Fault Value) :
    (machine.readTo read value).outcome ≠ .ok .halt := by
  unfold readTo
  split
  · simp only
    split
    · exact nofun
    · exact nofun
    · split <;> exact nofun
  · exact nofun

theorem outcome_write_ne_halt (machine : Machine) (rest : Stack) (bytes : List UInt8) :
    (machine.write rest bytes).outcome ≠ .ok .halt := by
  unfold write
  simp only
  split <;> exact nofun

theorem outcome_fail_ne_halt (machine : Machine) (fault : Fault) :
    (machine.fail fault).outcome ≠ .ok .halt := by
  intro h
  cases h

theorem outcome_run_io_ne_halt (machine : Machine) (op : IoOp) :
    (op.run machine).outcome ≠ .ok .halt := by
  cases op with
  | writeChar =>
    simp only [IoOp.run, writeChar]
    cases machine.stack with
    | nil => exact outcome_fail_ne_halt machine _
    | cons top rest =>
      simp only
      cases scalar? top with
      | none => exact outcome_fail_ne_halt machine _
      | some c => exact outcome_write_ne_halt machine rest _
  | writeNumber =>
    simp only [IoOp.run, writeNumber]
    cases machine.stack with
    | nil => exact outcome_fail_ne_halt machine _
    | cons top rest => exact outcome_write_ne_halt machine rest _
  | readChar => exact outcome_readTo_ne_halt machine _ _
  | readNumber => exact outcome_readTo_ne_halt machine _ _

theorem outcome_transfer_ne_halt (program : Program) (control : Control) (label : Value)
    (calls : List Nat) (event : Value → Nat → Event) :
    (control.transfer program label calls event).outcome ≠ .ok .halt := by
  unfold Control.transfer
  simp only
  split <;> exact nofun

theorem outcome_branch_ne_halt (program : Program) (control : Control) (stack : Stack)
    (label : Value) (test : Value → Bool) :
    (control.branch program stack label test).outcome ≠ .ok .halt := by
  cases stack with
  | nil => exact nofun
  | cons top rest =>
    unfold Control.branch
    simp only
    split
    · exact outcome_transfer_ne_halt program control label control.calls .jump
    · exact nofun

theorem eq_stop_of_run {program : Program} {control : Control} {stack : Stack} {op : FlowOp Value}
    (h : (op.run program control stack).outcome = .ok .halt) : op = .stop := by
  cases op with
  | mark label => cases h
  | call label | jump label => exact absurd h (outcome_transfer_ne_halt _ _ _ _ _)
  | jumpIfZero label | jumpIfNegative label => exact absurd h (outcome_branch_ne_halt _ _ _ _ _)
  | ret =>
    simp only [FlowOp.run, Control.ret] at h
    split at h <;> cases h
  | stop => rfl

theorem eq_stop_of_perform {machine : Machine} {operation : Operation Value}
    (h : (machine.perform operation).outcome = .ok .halt) : operation = .flow .stop := by
  cases operation with
  | stack op | arithmetic op | heap op => exact absurd h (outcome_ofExcept_ne_halt _ _ _)
  | io op => exact absurd h (outcome_run_io_ne_halt machine op)
  | flow op => rw [eq_stop_of_run h]

theorem eq_stop_of_execute {machine : Machine} {instruction : Instruction}
    (h : (machine.execute instruction).outcome = .ok .halt) : instruction = .flow .stop := by
  unfold execute at h
  split at h
  · next operation hdecode =>
    rw [eq_stop_of_perform h] at hdecode
    have hopcode := Instruction.opcode_of_decode hdecode
    rcases instruction with op | op | op | op | op <;> cases op <;> first | rfl | cases hopcode
  · cases h

/-- What a step that dispatches an instruction tells behind it: what becomes of control, and how the
step ended. -/
structure Turn (machine : Machine) (instruction : Instruction) (told : List Event) : Prop where
  events : machine.step.events = .instruction machine.pc instruction :: told
  quiet : ∀ event ∈ told, event.isInstruction = false ∧ event.position? = none
  once : (told.filterMap Event.destination?).length ≤ 1
  pc : machine.step.machine.pc = (told.filterMap Event.destination?).headD (machine.pc + 1)
  snapshots : told.filterMap Event.stack? =
    match machine.step.outcome with
    | .ok none => [machine.step.machine.stack]
    | _ => []
  stops : ∀ index, .halt index true ∈ told → instruction = .flow .stop ∧ index = machine.pc ∧
    told = [.halt index true] ∧ machine.step.outcome = .ok (some .stop)

namespace Step

variable {step : Step} {index : Nat}

theorem mem_closing {event : Event} (h : event ∈ step.closing index) :
    event = .stack step.machine.stack ∨
      event = .halt index true ∧ ∃ halt, step.outcome = .ok (some halt) := by
  unfold closing at h
  split at h <;> simp_all

theorem filterMap_destination?_closing :
    (step.closing index).filterMap Event.destination? = [] := by
  unfold closing
  split <;> rfl

theorem filterMap_label?_closing : (step.closing index).filterMap Event.label? = [] := by
  unfold closing
  split <;> rfl

theorem filterMap_stack?_closing : (step.closing index).filterMap Event.stack? =
    match step.outcome with
    | .ok none => [step.machine.stack]
    | _ => [] := by
  unfold closing
  rcases step.outcome with error | _ | halt <;> rfl

end Step

section Steps

variable {machine ready : Machine} {instruction : Instruction}

theorem tells_step (h : machine.dispatch? = some (ready, instruction)) :
    machine.advance.control.Tells (ready.execute instruction).events
      machine.step.machine.control := by
  have hcontrol : ready.control = machine.advance.control := by
    rw [(eq_of_dispatch? h).2]
    rfl
  rw [← hcontrol, step_machine_of_dispatch? h]
  exact tells_execute ready instruction

theorem events_step_of_dispatch? (h : machine.dispatch? = some (ready, instruction)) :
    machine.step.events = .instruction machine.pc instruction ::
      ((ready.execute instruction).events ++ machine.step.closing machine.pc) := by
  rw [step_of_dispatch? h]
  exact Effect.events_toStep _ _ _

theorem exists_turn (h : machine.dispatch? = some (ready, instruction)) :
    ∃ told, machine.Turn instruction told := by
  have htells := tells_step h
  refine ⟨_, events_step_of_dispatch? h, ?quiet, ?once, ?pc, ?snapshots, ?stops⟩
  case quiet =>
    intro event hmem
    rcases List.mem_append.mp hmem with hmem | hmem
    · have hturn := htells.turns event hmem
      exact ⟨Event.isInstruction_of_isTurn hturn, Event.position?_of_isTurn hturn⟩
    · rcases Step.mem_closing hmem with rfl | ⟨rfl, -⟩ <;> exact ⟨rfl, rfl⟩
  case once =>
    rw [List.filterMap_append, Step.filterMap_destination?_closing, List.append_nil]
    exact htells.once
  case pc =>
    rw [List.filterMap_append, Step.filterMap_destination?_closing, List.append_nil]
    exact htells.pc
  case snapshots =>
    have hnone : (ready.execute instruction).events.filterMap Event.stack? = [] :=
      List.filterMap_eq_nil_iff.mpr fun event hmem =>
        Event.stack?_of_isTurn (htells.turns event hmem)
    rw [List.filterMap_append, hnone, List.nil_append, Step.filterMap_stack?_closing]
  case stops =>
    intro index hmem
    rcases List.mem_append.mp hmem with hmem | hmem
    · cases htells.turns _ hmem
    · rcases Step.mem_closing hmem with hstack | ⟨hhalt, halt, houtcome⟩
      · cases hstack
      · cases hhalt
        obtain ⟨rfl, hexecute⟩ := (Effect.outcome_toStep_eq_halt_iff _ _ _ halt).mp
          ((congrArg Step.outcome (step_of_dispatch? h)).symm.trans houtcome)
        obtain rfl := eq_stop_of_execute hexecute
        have hclosing : machine.step.closing machine.pc = [.halt machine.pc true] := by
          simp only [Step.closing, houtcome]
        have hnothing : (ready.execute (.flow .stop)).events = [] := rfl
        rw [hnothing, hclosing, List.nil_append]
        exact ⟨rfl, rfl, rfl, houtcome⟩

theorem records_step (machine : Machine) :
    machine.control.labels.Records (machine.step.events.filterMap Event.label?)
      machine.step.machine.control.labels := by
  cases h : machine.dispatch? with
  | none =>
    rcases step_of_dispatch?_none h with hstep | ⟨error, hstep⟩ <;>
      (rw [hstep]; exact .of_get? fun _ => rfl)
  | some dispatched =>
    obtain ⟨ready, instruction⟩ := dispatched
    have hrecords := (tells_step h).labels
    rw [events_step_of_dispatch? h, List.filterMap_cons_none rfl, List.filterMap_append,
      Step.filterMap_label?_closing, List.append_nil]
    exact hrecords

theorem known_step (machine : Machine) {event : Event} (hmem : event ∈ machine.step.events)
    {label : Value} {target : Nat} (hevent : event.transfer? = some (label, target)) :
    machine.step.machine.control.labels.get? label = some target := by
  cases h : machine.dispatch? with
  | none =>
    rcases step_of_dispatch?_none h with hstep | ⟨error, hstep⟩
    · rw [hstep, List.mem_singleton] at hmem
      rw [hmem] at hevent
      cases hevent
    · rw [hstep] at hmem
      cases hmem
  | some dispatched =>
    obtain ⟨ready, instruction⟩ := dispatched
    rw [events_step_of_dispatch? h] at hmem
    rcases List.mem_cons.mp hmem with rfl | hmem
    · cases hevent
    rcases List.mem_append.mp hmem with hmem | hmem
    · exact (tells_step h).targets event hmem label target hevent
    · rcases Step.mem_closing hmem with rfl | ⟨rfl, -⟩ <;> cases hevent

end Steps

end Machine

end Whitespace
