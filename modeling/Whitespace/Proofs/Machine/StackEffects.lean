import Mathlib.Data.List.Basic
import Whitespace.Proofs.Machine.Outcome
import Whitespace.Proofs.Traps.Simulation

/-!
Effects of stack operations. Here stacks are written from the bottom up, the top last, and `Turns` says of
each operation what it makes of a stack. An operation has such an effect or fails: a negative operand is
refused whatever the stack holds, and otherwise too short a stack is reported with the number of values
needed, which no operand is too large to state. `verdict` tells these cases apart, and every other fact
about the operations comes from it.
-/

namespace Whitespace

open Machine

namespace StackOp

def index? : StackOp Value → Option Value
  | .copy operand | .slide operand => some operand
  | _ => none

def needed : StackOp Value → Nat
  | .push _ => 0
  | .duplicate | .discard => 1
  | .swap => 2
  | .copy operand | .slide operand => operand.toInt.toNat + 1

/-- What an operation makes of a stack that has its top last. -/
inductive Turns : StackOp Value → List Value → List Value → Prop
  | push (base : List Value) (value : Value) : Turns (.push value) base (base ++ [value])
  | duplicate (base : List Value) (top : Value) :
      Turns .duplicate (base ++ [top]) (base ++ [top, top])
  | copy (base above : List Value) (value : Value) {operand : Value}
      (hdepth : operand.toInt = above.length) :
      Turns (.copy operand) (base ++ value :: above) (base ++ value :: above ++ [value])
  | swap (base : List Value) (second first : Value) :
      Turns .swap (base ++ [second, first]) (base ++ [first, second])
  | discard (base : List Value) (top : Value) : Turns .discard (base ++ [top]) base
  | slide (base between : List Value) (top : Value) {operand : Value}
      (hcount : operand.toInt = between.length) :
      Turns (.slide operand) (base ++ between ++ [top]) (base ++ [top])

end StackOp

namespace Machine.Stack

variable {operand : Value}

theorem depth_of_lt (h : operand < 0) : depth operand = .error (.invalidStackIndex operand) :=
  if_pos h

theorem depth_of_le (h : 0 ≤ operand) : depth operand = .ok operand.toInt.toNat :=
  if_neg (Int64.not_lt.mpr h)

theorem depth_of_toInt_eq {n : Nat} (h : operand.toInt = n) : depth operand = .ok n := by
  have hle : 0 ≤ operand := by
    apply Int64.le_iff_toInt_le.mpr
    rw [h, Int64.toInt_zero]
    exact Int.natCast_nonneg n
  rw [depth_of_le hle, h, Int.toNat_natCast]

end Machine.Stack

namespace StackOp

section Runs

variable {stack : Stack} {operand : Value} {depth : Nat}

theorem run_copy_of_depth (h : Stack.depth operand = .ok depth) :
    run stack (.copy operand) =
      match stack[depth]? with
      | some value => .ok (value :: stack)
      | none => stack.underflow (depth + 1) := by
  rw [run, h]
  rfl

theorem run_slide_of_depth (h : Stack.depth operand = .ok depth) :
    run stack (.slide operand) =
      match stack, stack[depth]? with
      | top :: rest, some _ => .ok (top :: rest.drop depth)
      | _, _ => stack.underflow (depth + 1) := by
  rw [run, h]
  rfl

theorem run_slide_of_lt (h : Stack.depth operand = .ok depth) {top : Value} {rest : Stack}
    (hlt : depth < (top :: rest).length) :
    run (top :: rest) (.slide operand) = .ok (top :: rest.drop depth) := by
  rw [run_slide_of_depth h, List.getElem?_eq_getElem hlt]

end Runs

variable {op : StackOp Value} {before after : List Value}

theorem run_of_negative (stack : Stack) {operand : Value} (hindex : op.index? = some operand)
    (h : operand < 0) : op.run stack = .error (.invalidStackIndex operand) := by
  cases op with
  | copy other | slide other =>
    cases hindex
    rw [run, Stack.depth_of_lt h]
    rfl
  | push value | duplicate | swap | discard => cases hindex

theorem run_of_short {stack : Stack} (hindex : ∀ operand ∈ op.index?, 0 ≤ operand)
    (h : stack.length < op.needed) : op.run stack = .error (.stackUnderflow op.needed stack.length) := by
  cases op with
  | push value => exact absurd h (Nat.not_lt_zero _)
  | duplicate | discard =>
    obtain rfl := List.eq_nil_of_length_eq_zero (Nat.lt_one_iff.mp h)
    rfl
  | swap =>
    cases stack with
    | nil => rfl
    | cons top rest =>
      cases rest with
      | nil => rfl
      | cons second rest =>
        simp only [needed, List.length_cons] at h
        omega
  | copy operand =>
    have hdepth := Stack.depth_of_le (hindex operand rfl)
    rw [run_copy_of_depth hdepth, List.getElem?_eq_none (Nat.le_of_lt_succ h)]
    rfl
  | slide operand =>
    have hdepth := Stack.depth_of_le (hindex operand rfl)
    rw [run_slide_of_depth hdepth, List.getElem?_eq_none (Nat.le_of_lt_succ h)]
    cases stack with
    | nil => rfl
    | cons top rest => rfl

theorem Turns.run (h : op.Turns before after) : op.run before.reverse = .ok after.reverse := by
  cases h with
  | push base value => simp [StackOp.run]
  | duplicate base top => simp [StackOp.run]
  | copy base above value hdepth =>
    rw [run_copy_of_depth (Stack.depth_of_toInt_eq hdepth)]
    simp
  | swap base second first => simp [StackOp.run]
  | discard base top => simp [StackOp.run]
  | slide base between top hcount =>
    have hlt : between.length < (top :: (base ++ between).reverse).length := by
      simp only [List.length_cons, List.length_reverse, List.length_append]
      omega
    have hdrop : (base ++ between).reverse.drop between.length = base.reverse := by
      rw [List.reverse_append, ← List.length_reverse, List.drop_left]
    rw [List.reverse_concat, List.reverse_concat,
      run_slide_of_lt (Stack.depth_of_toInt_eq hcount) hlt, hdrop]

theorem Turns.index?_nonneg (h : op.Turns before after) : ∀ operand ∈ op.index?, 0 ≤ operand := by
  cases h with
  | copy base above value hcount | slide base above value hcount =>
    rintro operand ⟨⟩
    rw [Int64.le_iff_toInt_le, hcount]
    exact Int.natCast_nonneg above.length
  | push | duplicate | swap | discard => exact nofun

theorem Turns.needed_le (h : op.Turns before after) : op.needed ≤ before.length := by
  cases h with
  | copy base above value hcount | slide base above value hcount =>
    simp only [needed, hcount, Int.toNat_natCast, List.length_append, List.length_cons,
      List.length_nil]
    omega
  | push base value => exact Nat.zero_le _
  | duplicate base top | discard base top => simp [needed]
  | swap base second first => simp [needed]

theorem exists_append_of_le_length {count : Nat} (h : count ≤ before.length) :
    ∃ base above, before = base ++ above ∧ above.length = count := by
  refine ⟨before.take (before.length - count), before.drop (before.length - count), ?_, ?_⟩
  · exact (List.take_append_drop _ _).symm
  · rw [List.length_drop]
    omega

theorem exists_turns (hindex : ∀ operand ∈ op.index?, 0 ≤ operand)
    (h : op.needed ≤ before.length) : ∃ after, op.Turns before after := by
  obtain ⟨base, above, rfl, habove⟩ := exists_append_of_le_length h
  have hcount {operand : Value} (hle : 0 ≤ operand) :
      operand.toInt = (operand.toInt.toNat : Int) := by
    rw [Int64.le_iff_toInt_le, Int64.toInt_zero] at hle
    omega
  cases op with
  | push value => exact ⟨_, .push _ value⟩
  | duplicate =>
    obtain ⟨top, rfl⟩ := List.length_eq_one_iff.mp habove
    exact ⟨_, .duplicate base top⟩
  | discard =>
    obtain ⟨top, rfl⟩ := List.length_eq_one_iff.mp habove
    exact ⟨_, .discard base top⟩
  | swap =>
    obtain ⟨second, first, rfl⟩ := List.length_eq_two.mp habove
    exact ⟨_, .swap base second first⟩
  | copy operand =>
    obtain ⟨value, above, rfl⟩ := List.exists_cons_of_length_eq_add_one habove
    refine ⟨_, .copy base above value ?_⟩
    rw [hcount (hindex operand rfl), Nat.succ.inj habove]
  | slide operand =>
    rcases List.eq_nil_or_concat above with rfl | ⟨between, top, rfl⟩
    · cases habove
    · rw [List.concat_eq_append, List.length_append] at habove
      rw [List.concat_eq_append, ← List.append_assoc]
      refine ⟨_, .slide base between top ?_⟩
      rw [hcount (hindex operand rfl), Nat.succ.inj habove]

inductive Verdict (op : StackOp Value) (stack : Stack) : Prop
  | turns {after : Stack} (hturns : op.Turns stack.reverse after.reverse)
      (hrun : op.run stack = .ok after)
  | negative {operand : Value} (hindex : op.index? = some operand) (hnegative : operand < 0)
      (hrun : op.run stack = .error (.invalidStackIndex operand))
  | short (hindex : ∀ operand ∈ op.index?, 0 ≤ operand) (hshort : stack.length < op.needed)
      (hrun : op.run stack = .error (.stackUnderflow op.needed stack.length))

theorem verdict (op : StackOp Value) (stack : Stack) : op.Verdict stack := by
  by_cases hnegative : ∃ operand, op.index? = some operand ∧ operand < 0
  · obtain ⟨operand, hindex, hlt⟩ := hnegative
    exact .negative hindex hlt (run_of_negative stack hindex hlt)
  · have hindex : ∀ operand ∈ op.index?, 0 ≤ operand := by
      intro operand hsome
      apply Int64.not_lt.mp
      intro hlt
      exact hnegative ⟨operand, hsome, hlt⟩
    by_cases hshort : stack.length < op.needed
    · exact .short hindex hshort (run_of_short hindex hshort)
    · have hneeded : op.needed ≤ stack.reverse.length := by
        rw [List.length_reverse]
        omega
      obtain ⟨after, hturns⟩ := exists_turns hindex hneeded
      have hrun := hturns.run
      rw [List.reverse_reverse] at hrun
      rw [← List.reverse_reverse after] at hturns
      exact .turns hturns hrun

end StackOp

namespace Machine

/-- The effect of an operation is what an instruction comes to that decodes to the operation. -/
structure Realizes (machine : Machine) (operation : Operation Value) : Prop where
  step : ∀ before instruction, dispatch? before = some (machine, instruction) →
    instruction.decode = .ok operation →
      before.step = (machine.perform operation).toStep before.pc instruction
  /-- Work on arrays, which does not trap. -/
  arrays : ∀ instruction : Instruction, instruction.decode = .ok operation →
    (Processor.execute instruction.parts).run.run machine.processor =
      .ok ((machine.perform operation).outcome, (machine.perform operation).state.processor)

theorem realizes (machine : Machine) (operation : Operation Value) :
    machine.Realizes operation where
  step before instruction hdispatch hdecode := by
    rw [step_of_dispatch? hdispatch, execute_of_decode hdecode]
  arrays instruction hdecode := by
    have hyields := @yields_execute machine instruction
    rwa [execute_of_decode hdecode] at hyields

section Operations

variable {machine : Machine} {op : StackOp Value}

theorem perform_stack_of_ok {after : Stack} (h : op.run machine.stack = .ok after) :
    machine.perform (.stack op) = { state := { machine with stack := after } } := by
  rw [perform, h]
  rfl

theorem perform_stack_of_error {fault : Fault} (h : op.run machine.stack = .error fault) :
    machine.perform (.stack op) = machine.fail fault := by
  rw [perform, h]
  rfl

theorem perform_stack_of_turns {after : List Value} (h : op.Turns machine.stack.reverse after) :
    machine.perform (.stack op) = { state := { machine with stack := after.reverse } } := by
  have hrun := h.run
  rw [List.reverse_reverse] at hrun
  exact perform_stack_of_ok hrun

theorem turns_iff_perform_stack (machine : Machine) (op : StackOp Value) (after : List Value) :
    op.Turns machine.stack.reverse after ↔
      machine.perform (.stack op) = { state := { machine with stack := after.reverse } } := by
  constructor
  · exact perform_stack_of_turns
  · intro h
    cases op.verdict machine.stack with
    | @turns found hturns hrun =>
      rw [perform_stack_of_ok hrun] at h
      have hstack : found = after.reverse := congrArg (fun effect => effect.state.stack) h
      rwa [hstack, List.reverse_reverse] at hturns
    | negative hindex hnegative hrun =>
      rw [perform_stack_of_error hrun] at h
      cases congrArg Effect.outcome h
    | short hindex hshort hrun =>
      rw [perform_stack_of_error hrun] at h
      cases congrArg Effect.outcome h

theorem outcome_perform_stack_iff (machine : Machine) (op : StackOp Value) :
    (machine.perform (.stack op)).outcome = .ok .next ↔
      (∀ operand ∈ op.index?, 0 ≤ operand) ∧ op.needed ≤ machine.stack.length := by
  cases op.verdict machine.stack with
  | turns hturns hrun =>
    have hneeded := hturns.needed_le
    rw [List.length_reverse] at hneeded
    rw [perform_stack_of_ok hrun]
    exact iff_of_true rfl ⟨hturns.index?_nonneg, hneeded⟩
  | negative hindex hnegative hrun =>
    rw [perform_stack_of_error hrun]
    exact iff_of_false nofun fun h => Int64.not_le.mpr hnegative (h.1 _ hindex)
  | short hindex hshort hrun =>
    rw [perform_stack_of_error hrun]
    exact iff_of_false nofun fun h => Nat.not_le.mpr hshort h.2

end Operations

section Laws

variable (machine : Machine)

theorem perform_copy_zero :
    machine.perform (.stack (.copy 0)) = machine.perform (.stack .duplicate) := by
  obtain ⟨program, control, stack, heap, input, output, fuel⟩ := machine
  cases stack with
  | nil => rfl
  | cons top rest => rfl

theorem perform_slide_zero (h : machine.stack ≠ []) :
    machine.perform (.stack (.slide 0)) = { state := machine } := by
  obtain ⟨program, control, stack, heap, input, output, fuel⟩ := machine
  cases stack with
  | nil => exact absurd rfl h
  | cons top rest => rfl

theorem perform_swap_swap (h : 2 ≤ machine.stack.length) :
    (machine.perform (.stack .swap)).state.perform (.stack .swap) = { state := machine } := by
  obtain ⟨program, control, stack, heap, input, output, fuel⟩ := machine
  cases stack with
  | nil => exact absurd h (Nat.not_succ_le_zero 1)
  | cons first rest =>
    cases rest with
    | nil => exact absurd h (Nat.not_succ_le_self 1)
    | cons second rest => rfl

theorem perform_duplicate_discard (h : machine.stack ≠ []) :
    (machine.perform (.stack .duplicate)).state.perform (.stack .discard) = { state := machine } := by
  obtain ⟨program, control, stack, heap, input, output, fuel⟩ := machine
  cases stack with
  | nil => exact absurd rfl h
  | cons top rest => rfl

end Laws

/-- Everything that an operation does to a machine. -/
structure Handles (machine : Machine) (op : StackOp Value) : Prop where
  effect : ∀ after, op.Turns machine.stack.reverse after ↔
    machine.perform (.stack op) = { state := { machine with stack := after.reverse } }
  success : (machine.perform (.stack op)).outcome = .ok .next ↔
    (∀ operand ∈ op.index?, 0 ≤ operand) ∧ op.needed ≤ machine.stack.length
  /-- A negative operand is refused whatever the stack holds. -/
  negative : ∀ operand ∈ op.index?, operand < 0 →
    machine.perform (.stack op) = machine.fail (.invalidStackIndex operand)
  short : (∀ operand ∈ op.index?, 0 ≤ operand) → machine.stack.length < op.needed →
    machine.perform (.stack op) =
      machine.fail (.stackUnderflow op.needed machine.stack.length)

theorem handles (machine : Machine) (op : StackOp Value) : machine.Handles op where
  effect := turns_iff_perform_stack machine op
  success := outcome_perform_stack_iff machine op
  negative _ hindex hnegative :=
    perform_stack_of_error (StackOp.run_of_negative machine.stack hindex hnegative)
  short hindex hshort := perform_stack_of_error (StackOp.run_of_short hindex hshort)

/-- On every machine a stack operation does what `Turns` says, if its operand is not negative and the
stack holds the values that it needs, and otherwise fails with the operand or with the numbers of values
needed and present, leaving the machine as it is. Steps and work on arrays come to the same. Copying at
depth zero duplicates, sliding over nothing changes nothing, and a second swap or a discard undoes a swap
or a duplication. -/
theorem stack_operations_are_exact (machine : Machine) :
    (∀ op : StackOp Value, machine.Handles op ∧ machine.Realizes (.stack op)) ∧
      machine.perform (.stack (.copy 0)) = machine.perform (.stack .duplicate) ∧
      (machine.stack ≠ [] → machine.perform (.stack (.slide 0)) = { state := machine }) ∧
      (2 ≤ machine.stack.length →
        (machine.perform (.stack .swap)).state.perform (.stack .swap) = { state := machine }) ∧
      (machine.stack ≠ [] →
        (machine.perform (.stack .duplicate)).state.perform (.stack .discard) =
          { state := machine }) :=
  ⟨fun op => ⟨machine.handles op, machine.realizes (.stack op)⟩, machine.perform_copy_zero,
    machine.perform_slide_zero, machine.perform_swap_swap, machine.perform_duplicate_discard⟩

/-- On a stack of two, the greatest operand asks for `2 ^ 63` values, a negative one is refused, and
sliding over one value keeps the top, on arrays too. -/
theorem stack_operations_are_exact_two_values :
    let machine : Machine := { program := #[], stack := [7, 5] }
    let slide : Instruction := .stack (.slide ⟨false, [true]⟩)
    machine.perform (.stack (.copy Int64.maxValue)) =
        machine.fail (.stackUnderflow 9223372036854775808 2) ∧
      machine.perform (.stack (.slide (-1))) = machine.fail (.invalidStackIndex (-1)) ∧
      machine.perform (.stack (.slide 1)) = { state := { machine with stack := [7] } } ∧
      (∃ after : Machine, after.stack = [7] ∧
        (Processor.execute slide.parts).run.run machine.processor = .ok (.ok .next, after.processor)) ∧
      machine.perform (.stack (.slide 0)) = { state := machine } ∧
      (machine.perform (.stack .swap)).state.perform (.stack .swap) = { state := machine } ∧
      (machine.perform (.stack .duplicate)).state.perform (.stack .discard) = { state := machine } := by
  intro machine slide
  obtain ⟨hexact, -, hzero, hswap, hdiscard⟩ := stack_operations_are_exact machine
  have hempty : machine.stack ≠ [] := List.cons_ne_nil _ _
  have hcopy : machine.perform (.stack (.copy Int64.maxValue)) =
      machine.fail (.stackUnderflow 9223372036854775808 2) := by
    apply (hexact (.copy Int64.maxValue)).1.short
    · rintro operand ⟨⟩
      decide
    · decide
  have hnegative := (hexact (.slide (-1))).1.negative (-1) rfl (by decide)
  have hturns : StackOp.Turns (.slide 1) [5, 7] [7] := .slide [] [5] 7 rfl
  have hslide := ((hexact (.slide 1)).1.effect [7]).mp hturns
  have harrays := (hexact (.slide 1)).2.arrays slide rfl
  rw [hslide] at harrays
  exact ⟨hcopy, hnegative, hslide, ⟨_, rfl, harrays⟩, hzero hempty, hswap (by decide), hdiscard hempty⟩

end Machine

end Whitespace
