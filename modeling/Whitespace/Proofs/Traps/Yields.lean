import Whitespace.Proofs.Traps.Processor

/-!
What work on arrays comes to on lists. `Yields` says that a piece of work does not trap on what a machine
is on arrays, and names its result and the machine whose arrays it leaves. Its rules follow the work step
by step; the primitives of the stack are where indices and sizes are shown to be in range.
-/

namespace Whitespace

open Machine Processor

def Machine.processor (machine : Machine) : Processor where
  program := machine.program.map Instruction.parts
  pc := machine.control.pc
  stack := machine.stack.reverse.toArray
  heap := machine.heap
  calls := machine.control.calls.reverse.toArray
  labels := machine.control.labels
  input := machine.input
  output := machine.output
  fuel := machine.fuel

/-- On what a machine is on arrays, an action does not trap but gives a result, and leaves behind what
another machine is on arrays. -/
def Yields {α : Type} (action : Action α) (machine : Machine) (result : Except Fault α)
    (after : Machine) : Prop :=
  action.run.run machine.processor = .ok (result, after.processor)

/-- An action that has nothing to tell does what an effect says: it is done, and the next instruction
follows, or it fails. -/
inductive Completes (action : Action Unit) (machine : Machine) (effect : Effect Machine) : Prop
  | done (h : Yields action machine (.ok ()) effect.state) (houtcome : effect.outcome = .ok .next)
  | failed {fault : Fault} (h : Yields action machine (.error fault) effect.state)
      (houtcome : effect.outcome = .error fault)

section Rules

variable {α β : Type} {machine middle final : Machine} {action : Action α} {next : α → Action β}

theorem Yields.bind {value : α} {result : Except Fault β}
    (h : Yields action machine (.ok value) middle) (hnext : Yields (next value) middle result final) :
    Yields (action >>= next) machine result final := by
  rw [Yields, ExceptT.run_bind, StateT.run_bind, h]
  exact hnext

theorem Yields.bind_error {fault : Fault} (h : Yields action machine (.error fault) final) :
    Yields (action >>= next) machine (.error fault) final := by
  rw [Yields, ExceptT.run_bind, StateT.run_bind, h]
  rfl

theorem yields_pure (value : α) : Yields (pure value) machine (.ok value) machine := rfl

theorem yields_throw (fault : Fault) :
    Yields (throw fault : Action α) machine (.error fault) machine := rfl

theorem yields_get : Yields get machine (.ok machine.processor) machine := rfl

theorem yields_modify {change : Processor → Processor}
    (h : change machine.processor = final.processor) :
    Yields (modify change) machine (.ok ()) final :=
  congrArg (fun processor => Except.ok (Except.ok (), processor)) h

theorem yields_lift {item : Except Trap α} {value : α} (h : item = .ok value) :
    Yields (liftM item) machine (.ok value) machine := by
  subst h
  rfl

theorem yields_ofExcept {given result : Except Fault α} (h : given = result) :
    Yields (ofExcept given) machine result machine := by
  subst h
  cases given <;> rfl

variable {σ : Type} {work : Action Unit} {embed : σ → Machine} {computed : Except Fault σ}

theorem completes_of_ok {state : σ} (hcomputed : computed = .ok state)
    (h : Yields work machine (.ok ()) (embed state)) :
    Completes work machine (Effect.ofExcept machine embed computed) := by
  subst hcomputed
  exact .done h rfl

theorem completes_of_error {fault : Fault} (hcomputed : computed = .error fault)
    (h : Yields work machine (.error fault) machine) :
    Completes work machine (Effect.ofExcept machine embed computed) := by
  subst hcomputed
  exact .failed h rfl

theorem Completes.after {value : α} {effect : Effect Machine} {rest : α → Action Unit}
    (hfirst : Yields action machine (.ok value) middle) (h : Completes (rest value) middle effect) :
    Completes (action >>= rest) machine effect := by
  cases h with
  | done h houtcome => exact .done (hfirst.bind h) houtcome
  | failed h houtcome => exact .failed (hfirst.bind h) houtcome

theorem Completes.signal {effect : Effect Machine} (h : Completes work machine effect) :
    Yields (do work; return .next) machine effect.outcome effect.state := by
  cases h with
  | done h houtcome =>
    rw [houtcome]
    exact h.bind (yields_pure _)
  | failed h houtcome =>
    rw [houtcome]
    exact h.bind_error

end Rules

section Stack

variable {machine : Machine}

-- Operands of `copy` and `slide` stay below this bound, so the check asks for exactly what is used.
theorem saturatingSucc_eq {n : Nat} (h : n + 1 < UInt64.size) : saturatingSucc n = n + 1 :=
  Nat.min_eq_left (Nat.le_sub_one_of_lt h)

@[simp] theorem size_stack_processor : machine.processor.stack.size = machine.stack.length := by
  simp [Machine.processor]

theorem difference?_eq {minuend subtrahend : Nat} (h : subtrahend ≤ minuend) :
    Trap.difference? minuend subtrahend = .ok (minuend - subtrahend) := if_pos h

theorem element?_stack_processor {depth : Nat} {value : Value}
    (h : machine.stack[depth]? = some value) :
    Trap.element? machine.processor.stack (machine.stack.length - 1 - depth) = .ok value := by
  obtain ⟨hlt, hvalue⟩ := List.getElem?_eq_some_iff.mp h
  have hindex : machine.stack.length - 1 - depth < machine.processor.stack.size := by
    rw [size_stack_processor]
    omega
  have hdepth : machine.stack.length - 1 - (machine.stack.length - 1 - depth) = depth := by omega
  rw [Trap.element?, dif_pos hindex]
  simp [Machine.processor, hdepth, hvalue]

theorem swap?_stack_processor {first second : Value} {rest : Stack}
    (h : machine.stack = first :: second :: rest) :
    Trap.swap? machine.processor.stack (machine.stack.length - 1) (machine.stack.length - 2) =
      .ok (rest.reverse ++ [first, second]).toArray := by
  have hindex : machine.stack.length - 1 < machine.processor.stack.size ∧
      machine.stack.length - 2 < machine.processor.stack.size := by
    rw [size_stack_processor, h, List.length_cons, List.length_cons]
    omega
  rw [Trap.swap?, dif_pos hindex]
  simp [Machine.processor, h, Array.swap]

theorem yields_require (count : Nat) (h : count ≤ machine.stack.length) :
    Yields (require count) machine (.ok ()) machine := by
  refine yields_get.bind ?_
  rw [size_stack_processor, if_neg (Nat.not_lt.mpr h)]
  exact yields_pure ()

theorem yields_require_underflow (count : Nat) (h : machine.stack.length < count) :
    Yields (require count) machine (.error (.stackUnderflow count machine.stack.length)) machine := by
  refine yields_get.bind ?_
  rw [size_stack_processor, if_pos h]
  exact yields_throw _

theorem yields_peek {depth : Nat} (hdepth : depth + 1 < UInt64.size) {value : Value}
    (h : machine.stack[depth]? = some value) : Yields (peek depth) machine (.ok value) machine := by
  have hlt := (List.getElem?_eq_some_iff.mp h).1
  have hlast : Trap.difference? machine.processor.stack.size 1 = .ok (machine.stack.length - 1) := by
    rw [size_stack_processor, difference?_eq (by omega)]
  refine (yields_require _ ?_).bind (yields_get.bind ((yields_lift hlast).bind ?_))
  · rwa [saturatingSucc_eq hdepth]
  · exact (yields_lift (difference?_eq (by omega))).bind (yields_lift (element?_stack_processor h))

theorem yields_peek_underflow {depth : Nat} (hdepth : depth + 1 < UInt64.size)
    (h : machine.stack[depth]? = none) :
    Yields (peek depth) machine (.error (.stackUnderflow (depth + 1) machine.stack.length))
      machine := by
  have hle := List.getElem?_eq_none_iff.mp h
  have hrequire := yields_require_underflow (depth + 1) (Nat.lt_succ_of_le hle)
  rw [← saturatingSucc_eq hdepth] at hrequire ⊢
  exact hrequire.bind_error

theorem yields_peek_top {top : Value} {rest : Stack} (h : machine.stack = top :: rest) :
    Yields (peek 0) machine (.ok top) machine :=
  yields_peek (by decide) (by rw [h]; rfl)

theorem yields_peek_empty (h : machine.stack = []) :
    Yields (peek 0) machine (.error (.stackUnderflow 1 0)) machine := by
  have hpeek := @yields_peek_underflow machine 0 (by decide) (by rw [h]; rfl)
  rwa [h] at hpeek

theorem yields_pop {top : Value} {rest : Stack} (h : machine.stack = top :: rest) :
    Yields pop machine (.ok top) { machine with stack := rest } := by
  refine yields_get.bind ?_
  have hback : machine.processor.stack.back? = some top := by simp [Machine.processor, h]
  rw [hback]
  refine Yields.bind (yields_modify ?_) (yields_pure top)
  simp [Machine.processor, h]

theorem yields_pop_underflow (h : machine.stack = []) :
    Yields pop machine (.error (.stackUnderflow 1 0)) machine := by
  refine yields_get.bind ?_
  have hback : machine.processor.stack.back? = none := by simp [Machine.processor, h]
  rw [hback]
  exact yields_throw _

theorem yields_push (value : Value) :
    Yields (push value) machine (.ok ()) { machine with stack := value :: machine.stack } := by
  apply yields_modify
  simp [Machine.processor]

theorem yields_truncate (machine : Machine) (count : Nat) :
    Yields (truncate (machine.stack.length - count)) machine (.ok ())
      { machine with stack := machine.stack.drop count } := by
  apply yields_modify
  simp [Machine.processor, List.reverse_drop]

end Stack

section Operands

variable {machine : Machine} {parts : Parts} {value : Value}

theorem yields_operand {literal : Literal} (h : parts.parameter = some literal) :
    Yields (operand parts) machine (literal.decode.mapError .malformedLiteral) machine := by
  unfold operand
  rw [h]
  exact yields_ofExcept rfl

theorem lt_of_depth {depth : Nat} (h : Stack.depth value = .ok depth) :
    depth + 1 < UInt64.size := by
  have hle := value.toInt_le_greatest
  unfold Stack.depth at h
  split at h
  · cases h
  · cases h
    simp only [Value.greatest, UInt64.size] at hle ⊢
    omega

end Operands

end Whitespace
