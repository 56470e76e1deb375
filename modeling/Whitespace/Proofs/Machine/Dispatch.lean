import Whitespace.Machine.Step
import Whitespace.Proofs.Labels.FirstMark

/-!
Dispatch of one instruction. A step that is not past the program and has fuel hands a machine with
control already behind the instruction to `execute`, and becomes what that leaves. Operations other than
flow see stack, heap, input and output only, which `perform_frame` says once for all, and `control_step`
lists everything that a step can make of control.
-/

namespace Whitespace.Machine

/-- The instruction that the next step executes and the machine that executes it: fuel is spent and
control stands behind the instruction. -/
def dispatch? (machine : Machine) : Option (Machine × Instruction) :=
  match machine.program[machine.pc]?, machine.spend with
  | some instruction, .ok fuelled => some (fuelled.advance, instruction)
  | _, _ => none

theorem step_machine_of_dispatch? {machine ready : Machine} {instruction : Instruction}
    (h : machine.dispatch? = some (ready, instruction)) :
    machine.step.machine = (ready.execute instruction).state := by
  unfold dispatch? at h
  split at h
  · next hinstruction hspend =>
    cases h
    simp only [step, hinstruction, hspend]
    split <;> rfl
  · cases h

theorem step_machine_of_dispatch?_none {machine : Machine} (h : machine.dispatch? = none) :
    machine.step.machine = machine := by
  unfold dispatch? at h
  unfold step
  cases hinstruction : machine.program[machine.pc]? with
  | none => simp only [hinstruction]
  | some instruction =>
    cases hspend : machine.spend with
    | error limit => simp only [hinstruction]
    | ok fuelled => simp [hinstruction, hspend] at h

theorem eq_of_spend {machine fuelled : Machine} (h : machine.spend = .ok fuelled) :
    fuelled = { machine with fuel := fuelled.fuel } := by
  unfold spend at h
  split at h <;> cases h <;> rfl

theorem eq_of_dispatch? {machine ready : Machine} {instruction : Instruction}
    (h : machine.dispatch? = some (ready, instruction)) :
    machine.program[machine.pc]? = some instruction ∧
      ready =
        { machine with
          control := { machine.control with pc := machine.pc + 1 }, fuel := ready.fuel } := by
  unfold dispatch? at h
  split at h
  · next hinstruction hspend =>
    cases h
    refine ⟨hinstruction, ?_⟩
    rw [eq_of_spend hspend]
    rfl
  · cases h

section Frame

variable (machine : Machine) (program : Program) (control : Control) (fuel : Option Fuel)

theorem readTo_frame {α : Type} (read : Input → Input × Except StreamError (Option α))
    (value : α → Except Fault Value) :
    readTo { machine with program, control, fuel } read value =
      (machine.readTo read value).within ({ · with program, control, fuel }) := by
  obtain ⟨_, _, stack, heap, input, output, _⟩ := machine
  unfold readTo
  cases stack with
  | nil => rfl
  | cons address rest =>
    cases hread : (read input).2 with
    | error error => simp only [hread]; rfl
    | ok found =>
      cases found with
      | none => simp only [hread]; rfl
      | some found => cases hvalue : value found <;> simp only [hread, hvalue] <;> rfl

theorem run_io_frame (op : IoOp) :
    op.run { machine with program, control, fuel } =
      (op.run machine).within ({ · with program, control, fuel }) := by
  cases op with
  | writeChar =>
    obtain ⟨_, _, stack, heap, input, output, _⟩ := machine
    cases stack with
    | nil => rfl
    | cons top rest =>
      simp only [IoOp.run, writeChar]
      cases scalar? top <;> rfl
  | writeNumber =>
    obtain ⟨_, _, stack, heap, input, output, _⟩ := machine
    cases stack <;> rfl
  | readChar =>
    exact readTo_frame machine program control fuel Input.readChar fun c => .ok (Int64.ofNat c.toNat)
  | readNumber => exact readTo_frame machine program control fuel Input.readLine numberOfLine

/-- Operations other than flow do not see program, control and fuel, and do not change them. -/
theorem perform_frame {operation : Operation Value} (h : operation.category ≠ .flow) :
    perform { machine with program, control, fuel } operation =
      (machine.perform operation).within ({ · with program, control, fuel }) := by
  cases operation with
  | stack op =>
    simp only [perform]
    cases op.run machine.stack <;> rfl
  | arithmetic op =>
    simp only [perform]
    cases op.run machine.stack <;> rfl
  | heap op =>
    simp only [perform]
    cases op.run machine.stack machine.heap <;> rfl
  | flow op => exact absurd rfl h
  | io op => exact run_io_frame machine program control fuel op

end Frame

theorem perform_state_of_ne_flow (machine : Machine) {operation : Operation Value}
    (h : operation.category ≠ .flow) :
    (machine.perform operation).state =
      { (machine.perform operation).state with
        program := machine.program, control := machine.control, fuel := machine.fuel } :=
  congrArg Effect.state (perform_frame machine machine.program machine.control machine.fuel h)

theorem eq_flow_or_ne_flow (operation : Operation Value) :
    (∃ op, operation = .flow op) ∨ operation.category ≠ .flow := by
  cases operation with
  | flow op => exact .inl ⟨op, rfl⟩
  | _ => exact .inr nofun

theorem program_perform (machine : Machine) (operation : Operation Value) :
    (machine.perform operation).state.program = machine.program := by
  rcases eq_flow_or_ne_flow operation with ⟨op, rfl⟩ | hne
  · rfl
  · rw [perform_state_of_ne_flow machine hne]

theorem program_execute (machine : Machine) (instruction : Instruction) :
    (machine.execute instruction).state.program = machine.program := by
  unfold execute
  split
  · exact program_perform machine _
  · rfl

theorem program_step (machine : Machine) : machine.step.machine.program = machine.program := by
  cases h : machine.dispatch? with
  | none => rw [step_machine_of_dispatch?_none h]
  | some dispatched =>
    obtain ⟨ready, instruction⟩ := dispatched
    rw [step_machine_of_dispatch? h, program_execute, (eq_of_dispatch? h).2]

inductive Control.Moves (program : Program) (control : Control) : Control → Prop
  | stay : Moves program control control
  | transfer (label : Value) (calls : List Nat) (event : Value → Nat → Event)
      (hcalls : ∀ index ∈ calls, index = control.pc ∨ index ∈ control.calls) :
      Moves program control (control.transfer program label calls event).state
  | ret {target : Nat} {rest : List Nat} (hcalls : control.calls = target :: rest) :
      Moves program control { control with pc := target, calls := rest }

section Moves

variable (program : Program) (control : Control)

theorem moves_jump (label : Value) :
    control.Moves program (control.jump program label).state :=
  .transfer label control.calls .jump fun _ hindex => .inr hindex

theorem moves_branch (stack : Stack) (label : Value) (test : Value → Bool) :
    control.Moves program (control.branch program stack label test).state.1 := by
  cases stack with
  | nil => exact .stay
  | cons top rest =>
    unfold Control.branch
    simp only
    split
    · exact moves_jump program control label
    · exact .stay

theorem moves_ret : control.Moves program control.ret.state := by
  unfold Control.ret
  split
  · next target rest hcalls => exact .ret hcalls
  · exact .stay

theorem moves_run (stack : Stack) {op : FlowOp Value}
    (h : (Operation.flow op).mark? = none) :
    control.Moves program (op.run program control stack).state.1 := by
  cases op with
  | mark label => cases h
  | call label =>
    exact .transfer label (control.pc :: control.calls) .call fun _ hindex => List.mem_cons.mp hindex
  | jump label => exact moves_jump program control label
  | jumpIfZero label => exact moves_branch program control stack label _
  | jumpIfNegative label => exact moves_branch program control stack label _
  | ret => exact moves_ret program control
  | stop => exact .stay

end Moves

theorem control_execute_of_label? (machine : Machine) {instruction : Instruction} {label : Value}
    (h : instruction.label? = some label) :
    (machine.execute instruction).state.control = (machine.control.mark label).state := by
  rw [Instruction.label?_eq] at h
  unfold execute
  cases hdecode : instruction.decode with
  | error error =>
    rw [hdecode] at h
    cases h
  | ok operation =>
    rw [hdecode] at h
    have hmark : operation.mark? = some label := h
    unfold Operation.mark? at hmark
    split at hmark <;> cases hmark
    rfl

theorem moves_execute (machine : Machine) {instruction : Instruction}
    (h : instruction.label? = none) :
    machine.control.Moves machine.program (machine.execute instruction).state.control := by
  rw [Instruction.label?_eq] at h
  unfold execute
  cases hdecode : instruction.decode with
  | error error => exact .stay
  | ok operation =>
    rw [hdecode] at h
    rcases eq_flow_or_ne_flow operation with ⟨op, rfl⟩ | hne
    · exact moves_run machine.program machine.control machine.stack h
    · simp only
      rw [perform_state_of_ne_flow machine hne]
      exact .stay

theorem control_step {machine ready : Machine} {instruction : Instruction}
    (h : machine.dispatch? = some (ready, instruction)) :
    (machine.program.labelAt? machine.pc = none ∧
        machine.advance.control.Moves machine.program machine.step.machine.control) ∨
      ∃ label, machine.program.labelAt? machine.pc = some label ∧
        machine.step.machine.control = (machine.advance.control.mark label).state := by
  obtain ⟨hinstruction, hready⟩ := eq_of_dispatch? h
  have hprogram : ready.program = machine.program := by rw [hready]
  have hcontrol : ready.control = machine.advance.control := by
    rw [hready]
    rfl
  rw [Program.labelAt?, hinstruction, Option.bind_some, step_machine_of_dispatch? h, ← hprogram,
    ← hcontrol]
  cases hlabel : instruction.label? with
  | none => exact .inl ⟨rfl, moves_execute ready hlabel⟩
  | some label => exact .inr ⟨label, rfl, control_execute_of_label? ready hlabel⟩

end Whitespace.Machine
