import Whitespace.Proofs.Machine.Dispatch

/-!
What a step comes to. A step that dispatches an instruction comes to what executing it comes to, and
`performed?` is the operation that it carries out if it goes through. Other steps leave the machine as it
is: they find the end of the program, or no fuel. `Proceeds` lists these cases with all that is known in
each.
-/

namespace Whitespace

theorem Instruction.opcode_of_decode {instruction : Instruction} {operation : Operation Value}
    (h : instruction.decode = .ok operation) : operation.opcode = instruction.opcode := by
  unfold decode Operation.traverse at h
  cases instruction with
  | stack op =>
    cases op with
    | push literal | copy literal | slide literal =>
      simp only [StackOp.traverse] at h
      cases hvalue : literal.decode <;> rw [hvalue] at h <;> cases h
      rfl
    | duplicate | swap | discard =>
      cases h
      rfl
  | flow op =>
    cases op with
    | mark literal | call literal | jump literal | jumpIfZero literal | jumpIfNegative literal =>
      simp only [FlowOp.traverse] at h
      cases hvalue : literal.decode <;> rw [hvalue] at h <;> cases h
      rfl
    | ret | stop =>
      cases h
      rfl
  | arithmetic op | heap op | io op =>
    cases h
    rfl

namespace Machine

def Step.closing (step : Step) (index : Nat) : List Event :=
  match step.outcome with
  | .ok none => [.stack step.machine.stack]
  | .ok (some _) => [.halt index true]
  | .error _ => []

def Effect.toStep (effect : Effect Machine) (index : Nat) (instruction : Instruction) : Step where
  machine := effect.state
  events := .instruction index instruction :: (effect.events ++
    match effect.outcome with
    | .ok .next => [.stack effect.state.stack]
    | .ok .halt => [.halt index true]
    | .error _ => [])
  outcome :=
    match effect.outcome with
    | .ok .next => .ok none
    | .ok .halt => .ok (some .stop)
    | .error fault => .error ⟨index, instruction, fault⟩

section Effects

variable (effect : Effect Machine) (index : Nat) (instruction : Instruction)

theorem Effect.events_toStep :
    (effect.toStep index instruction).events =
      .instruction index instruction ::
        (effect.events ++ (effect.toStep index instruction).closing index) := by
  obtain ⟨state, events, fault | signal⟩ := effect
  · rfl
  · cases signal <;> rfl

theorem Effect.outcome_toStep_eq_next_iff :
    (effect.toStep index instruction).outcome = .ok none ↔ effect.outcome = .ok .next := by
  obtain ⟨state, events, fault | signal⟩ := effect
  · simp [toStep]
  · cases signal <;> simp [toStep]

theorem Effect.outcome_toStep_eq_halt_iff (halt : Halt) :
    (effect.toStep index instruction).outcome = .ok (some halt) ↔
      halt = .stop ∧ effect.outcome = .ok .halt := by
  obtain ⟨state, events, found | signal⟩ := effect
  · simp [toStep]
  · cases signal <;> simp [toStep, eq_comm]

end Effects

/-- The operation that the next step carries out without a fault or a halt. -/
def performed? (machine : Machine) : Option (Operation Value) :=
  match machine.dispatch?, machine.step.outcome with
  | some (_, instruction), .ok none => instruction.decode.toOption
  | _, _ => none

section Steps

variable {machine ready : Machine} {instruction : Instruction} {operation : Operation Value}

theorem execute_of_decode (h : instruction.decode = .ok operation) :
    machine.execute instruction = machine.perform operation := by
  simp only [execute, h]

theorem step_of_dispatch? (h : machine.dispatch? = some (ready, instruction)) :
    machine.step = (ready.execute instruction).toStep machine.pc instruction := by
  unfold dispatch? at h
  split at h
  · next fuelled hinstruction hspend =>
    cases h
    simp only [step, hinstruction, hspend, Effect.toStep]
    rcases (fuelled.advance.execute instruction).outcome with fault | signal
    · simp
    · cases signal <;> rfl
  · cases h

theorem step_of_dispatch?_none (h : machine.dispatch? = none) :
    machine.step = ⟨machine, [.halt machine.pc false], .ok (some .endOfProgram)⟩ ∨
      ∃ error, machine.step = ⟨machine, [], .error error⟩ := by
  unfold dispatch? at h
  unfold step
  cases hinstruction : machine.program[machine.pc]? with
  | none => exact .inl (by simp only [hinstruction])
  | some instruction =>
    cases hspend : machine.spend with
    | error limit =>
      exact .inr ⟨⟨machine.pc, instruction, .outOfFuel limit⟩, by simp only [hinstruction]⟩
    | ok fuelled => simp [hinstruction, hspend] at h

theorem outcome_step_eq_next_iff (h : machine.dispatch? = some (ready, instruction)) :
    machine.step.outcome = .ok none ↔ (ready.execute instruction).outcome = .ok .next := by
  rw [step_of_dispatch? h, Effect.outcome_toStep_eq_next_iff]

theorem performed?_of_dispatch?_none (h : machine.dispatch? = none) : machine.performed? = none := by
  simp only [performed?, h]

theorem outcome_of_performed? (h : machine.performed? = some operation) :
    machine.step.outcome = .ok none := by
  unfold performed? at h
  split at h
  · assumption
  · cases h

theorem performed?_of_outcome_ne (h : machine.step.outcome ≠ .ok none) :
    machine.performed? = none := by
  unfold performed?
  split
  · contradiction
  · rfl

end Steps

inductive Proceeds (machine : Machine) : Prop
  | rests (hdispatch : machine.dispatch? = none) (hperformed : machine.performed? = none)
      (hmachine : machine.step.machine = machine)
  | rejects {ready : Machine} {instruction : Instruction} {error : LiteralError}
      (hdispatch : machine.dispatch? = some (ready, instruction))
      (hdecode : instruction.decode = .error error) (hperformed : machine.performed? = none)
      (hmachine : machine.step.machine = ready)
  | breaks {ready : Machine} {instruction : Instruction} {operation : Operation Value}
      (hdispatch : machine.dispatch? = some (ready, instruction))
      (hdecode : instruction.decode = .ok operation)
      (houtcome : (ready.perform operation).outcome ≠ .ok .next)
      (hperformed : machine.performed? = none)
      (hmachine : machine.step.machine = (ready.perform operation).state)
  | performs {ready : Machine} {instruction : Instruction} {operation : Operation Value}
      (hdispatch : machine.dispatch? = some (ready, instruction))
      (hdecode : instruction.decode = .ok operation)
      (houtcome : (ready.perform operation).outcome = .ok .next)
      (hperformed : machine.performed? = some operation)
      (hmachine : machine.step.machine = (ready.perform operation).state)

theorem proceeds (machine : Machine) : machine.Proceeds := by
  cases hdispatch : machine.dispatch? with
  | none =>
    exact .rests hdispatch (performed?_of_dispatch?_none hdispatch)
      (step_machine_of_dispatch?_none hdispatch)
  | some dispatched =>
    obtain ⟨ready, instruction⟩ := dispatched
    have hmachine := step_machine_of_dispatch? hdispatch
    have hnext := outcome_step_eq_next_iff hdispatch
    cases hdecode : instruction.decode with
    | error error =>
      have hfail : ready.execute instruction = ready.fail (.malformedLiteral error) := by
        simp only [execute, hdecode]
      rw [hfail] at hmachine hnext
      exact .rejects hdispatch hdecode (performed?_of_outcome_ne (mt hnext.mp nofun)) hmachine
    | ok operation =>
      rw [execute_of_decode hdecode] at hmachine hnext
      by_cases houtcome : (ready.perform operation).outcome = .ok .next
      · have hperformed : machine.performed? = some operation := by
          simp only [performed?, hdispatch, hnext.mpr houtcome, hdecode, Except.toOption]
        exact .performs hdispatch hdecode houtcome hperformed hmachine
      · exact .breaks hdispatch hdecode houtcome (performed?_of_outcome_ne (mt hnext.mp houtcome))
          hmachine

variable {machine ready : Machine} {instruction : Instruction} {operation : Operation Value}

theorem performed?_eq_some_iff :
    machine.performed? = some operation ↔ ∃ ready instruction,
      machine.dispatch? = some (ready, instruction) ∧ instruction.decode = .ok operation ∧
        (ready.perform operation).outcome = .ok .next := by
  constructor
  · intro h
    cases machine.proceeds with
    | rests hdispatch hperformed hmachine => simp [hperformed] at h
    | rejects hdispatch hdecode hperformed hmachine => simp [hperformed] at h
    | breaks hdispatch hdecode houtcome hperformed hmachine => simp [hperformed] at h
    | performs hdispatch hdecode houtcome hperformed hmachine =>
      rw [hperformed] at h
      cases h
      exact ⟨_, _, hdispatch, hdecode, houtcome⟩
  · rintro ⟨ready, instruction, hdispatch, hdecode, houtcome⟩
    rw [← execute_of_decode hdecode, ← outcome_step_eq_next_iff hdispatch] at houtcome
    simp only [performed?, hdispatch, houtcome, hdecode, Except.toOption]

theorem step_machine_of_decode (h : machine.dispatch? = some (ready, instruction))
    (hdecode : instruction.decode = .ok operation) :
    machine.step.machine = (ready.perform operation).state := by
  rw [step_machine_of_dispatch? h, execute_of_decode hdecode]

end Machine

end Whitespace
