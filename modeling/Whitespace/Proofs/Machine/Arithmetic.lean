import Whitespace.Proofs.Literals.Words
import Whitespace.Proofs.Machine.StackEffects

/-!
Arithmetic. Values are 64-bit words, and on words every operation has a result, which wraps where the
exact one does not fit. The operations of the machine are these with the cases left out where they wrap
or divide by zero (`applyWords_eq_apply`), so what they give is exact.
-/

namespace Whitespace

open Machine

namespace ArithmeticOp

def isDivision : ArithmeticOp → Bool
  | .divide | .modulo => true
  | .add | .subtract | .multiply => false

def exact (second first : Int) : ArithmeticOp → Int
  | .add => second + first
  | .subtract => second - first
  | .multiply => second * first
  | .divide => second.tdiv first
  | .modulo => second.tmod first

def wrapped (second first : Value) : ArithmeticOp → Value
  | .add => second + first
  | .subtract => second - first
  | .multiply => second * first
  | .divide => second / first
  | .modulo => second % first

/-- Whether an operation on words overflows. Only the quotient of the least value by minus one does, and
there is no remainder without a quotient. -/
def overflows (second first : Value) : ArithmeticOp → Bool
  | .add => second.toBitVec.saddOverflow first.toBitVec
  | .subtract => second.toBitVec.ssubOverflow first.toBitVec
  | .multiply => second.toBitVec.smulOverflow first.toBitVec
  | .divide | .modulo => second = Int64.minValue ∧ first = -1

def applyWords (second first : Value) (op : ArithmeticOp) : Except Fault Value :=
  if op.isDivision ∧ first = 0 then .error .divisionByZero
  else if op.overflows second first then .error .arithmeticOverflow
  else .ok (op.wrapped second first)

section Words

variable (second first : Value) {op : ArithmeticOp}

theorem toInt_wrapped (h : op.overflows second first = false) :
    (op.wrapped second first).toInt = op.exact second.toInt first.toInt := by
  cases op with
  | add => exact BitVec.toInt_add_of_not_saddOverflow (Bool.eq_false_iff.mp h)
  | subtract => exact BitVec.toInt_sub_of_not_ssubOverflow (Bool.eq_false_iff.mp h)
  | multiply => exact BitVec.toInt_mul_of_not_smulOverflow (Bool.eq_false_iff.mp h)
  | divide =>
    rcases Decidable.not_and_iff_or_not.mp (of_decide_eq_false h) with hsecond | hfirst
    · exact Int64.toInt_div_of_ne_left second first hsecond
    · exact Int64.toInt_div_of_ne_right second first hfirst
  | modulo => exact Int64.toInt_mod second first

theorem overflows_iff (hop : op.isDivision = false) :
    op.overflows second first ↔
      ¬ (-2 ^ 63 ≤ op.exact second.toInt first.toInt ∧
        op.exact second.toInt first.toInt ≤ 2 ^ 63 - 1) := by
  have hoverflows : op.overflows second first =
      (decide (2 ^ 63 ≤ op.exact second.toInt first.toInt) ||
        decide (op.exact second.toInt first.toInt < -2 ^ 63)) := by
    cases op with
    | add | subtract | multiply => rfl
    | divide | modulo => cases hop
  rw [hoverflows, Bool.or_eq_true, decide_eq_true_eq, decide_eq_true_eq]
  omega

theorem overflows_division_iff (hop : op.isDivision) :
    op.overflows second first ↔ second = Int64.minValue ∧ first = -1 := by
  cases op with
  | divide | modulo => exact decide_eq_true_iff
  | add | subtract | multiply => cases hop

theorem fit_exact (h : op.overflows second first = false) :
    fit (op.exact second.toInt first.toInt) = .ok (op.wrapped second first) := by
  rw [← toInt_wrapped second first h, fit, Value.ofInt?_toInt]

theorem fit_of_not_range {n : Int} (h : ¬ (-2 ^ 63 ≤ n ∧ n ≤ 2 ^ 63 - 1)) :
    fit n = .error .arithmeticOverflow := by
  have hnone : Value.ofInt? n = none := by
    rw [Value.ofInt?_eq_none_iff, Value.least, Value.greatest]
    omega
  rw [fit, hnone]

theorem apply_of_not_isDivision (hop : op.isDivision = false) :
    op.apply second first = fit (op.exact second.toInt first.toInt) := by
  cases op with
  | add | subtract | multiply => rfl
  | divide | modulo => cases hop

theorem apply_zero (hop : op.isDivision) : op.apply second 0 = .error .divisionByZero := by
  cases op with
  | divide | modulo => rfl
  | add | subtract | multiply => cases hop

theorem apply_of_isDivision (hop : op.isDivision) (h : first ≠ 0) :
    op.apply second first =
      (fit (divide.exact second.toInt first.toInt)).bind fun _ =>
        fit (op.exact second.toInt first.toInt) := by
  cases op with
  | divide =>
    rw [apply, if_neg h, ← exact]
    cases fit (divide.exact second.toInt first.toInt) <;> rfl
  | modulo =>
    rw [apply, if_neg h]
    rfl
  | add | subtract | multiply => cases hop

theorem applyWords_eq_apply (op : ArithmeticOp) : op.applyWords second first = op.apply second first := by
  unfold applyWords
  cases hop : op.isDivision with
  | false =>
    rw [apply_of_not_isDivision second first hop, if_neg (by simp)]
    cases hoverflows : op.overflows second first with
    | false => rw [fit_exact second first hoverflows, if_neg Bool.false_ne_true]
    | true => rw [fit_of_not_range ((overflows_iff second first hop).mp hoverflows), if_pos rfl]
  | true =>
    by_cases hzero : first = 0
    · rw [if_pos ⟨rfl, hzero⟩, hzero, apply_zero second hop]
    · have hquotient : divide.overflows second first = op.overflows second first := by
        cases op with
        | divide | modulo => rfl
        | add | subtract | multiply => cases hop
      rw [if_neg fun h => hzero h.2, apply_of_isDivision second first hop hzero]
      cases hoverflows : op.overflows second first with
      | false =>
        rw [fit_exact second first (hquotient.trans hoverflows), fit_exact second first hoverflows,
          if_neg Bool.false_ne_true]
        rfl
      | true =>
        obtain ⟨rfl, rfl⟩ := (overflows_division_iff second first hop).mp hoverflows
        rw [if_pos rfl]
        rfl

end Words

theorem tdiv_tmod_spec (second first : Int) (h : first ≠ 0) :
    second = second.tdiv first * first + second.tmod first ∧
      (second.tmod first).natAbs < first.natAbs ∧
      (second.tmod first = 0 ∨ (second.tmod first).sign = second.sign) := by
  refine ⟨(Int.tdiv_mul_add_tmod second first).symm, ?_, ?_⟩
  · rw [Int.natAbs_tmod]
    exact Nat.mod_lt _ (Int.natAbs_pos.mpr h)
  · rw [Int.sign_tmod]
    split
    · next hdvd => exact .inl (Int.tmod_eq_zero_of_dvd hdvd)
    · exact .inr rfl

section Outcomes

variable {second first : Value} {op : ArithmeticOp}

theorem applyWords_of_not_isDivision (hop : op.isDivision = false) :
    op.applyWords second first =
      if op.overflows second first then .error .arithmeticOverflow
      else .ok (op.wrapped second first) :=
  if_neg fun h => Bool.false_ne_true (hop.symm.trans h.1)

theorem applyWords_of_overflows (hop : op.isDivision = false) (h : op.overflows second first) :
    op.applyWords second first = .error .arithmeticOverflow := by
  rw [applyWords_of_not_isDivision hop, if_pos h]

theorem applyWords_of_not_overflows (h : op.overflows second first = false)
    (hzero : first ≠ 0 ∨ op.isDivision = false) :
    op.applyWords second first = .ok (op.wrapped second first) := by
  have hguard : ¬ (op.isDivision ∧ first = 0) := by
    rintro ⟨hop, rfl⟩
    rcases hzero with hne | hne
    · exact hne rfl
    · exact Bool.false_ne_true (hne.symm.trans hop)
  rw [applyWords, if_neg hguard, if_neg (Bool.eq_false_iff.mp h)]

theorem applyWords_of_isDivision (hop : op.isDivision) :
    op.applyWords second first =
      if first = 0 then .error .divisionByZero
      else if second = Int64.minValue ∧ first = -1 then .error .arithmeticOverflow
      else .ok (op.wrapped second first) := by
  unfold applyWords
  simp only [hop, true_and, overflows_division_iff second first hop]

theorem applyWords_eq_divisionByZero_iff (hop : op.isDivision) :
    op.applyWords second first = .error .divisionByZero ↔ first = 0 := by
  rw [applyWords_of_isDivision hop]
  split
  · next hzero => exact iff_of_true rfl hzero
  · next hzero =>
    split
    · exact iff_of_false nofun hzero
    · exact iff_of_false nofun hzero

theorem applyWords_eq_arithmeticOverflow_iff (hop : op.isDivision) :
    op.applyWords second first = .error .arithmeticOverflow ↔
      second = Int64.minValue ∧ first = -1 := by
  rw [applyWords_of_isDivision hop]
  split
  · next hzero =>
    subst hzero
    exact iff_of_false nofun fun h => absurd h.2 (by decide)
  · split
    · next hleast => exact iff_of_true rfl hleast
    · next hleast => exact iff_of_false nofun hleast

theorem applyWords_divide_eq_error_iff {fault : Fault} :
    divide.applyWords second first = .error fault ↔
      modulo.applyWords second first = .error fault := by
  rw [applyWords_of_isDivision rfl, applyWords_of_isDivision rfl]
  split
  · rfl
  · split
    · rfl
    · exact iff_of_false nofun nofun

theorem exists_quotient_remainder (hzero : first ≠ 0)
    (hleast : ¬ (second = Int64.minValue ∧ first = -1)) :
    ∃ quotient remainder : Value, divide.applyWords second first = .ok quotient ∧
      modulo.applyWords second first = .ok remainder ∧
      second.toInt = quotient.toInt * first.toInt + remainder.toInt ∧
      remainder.toInt.natAbs < first.toInt.natAbs ∧
      (remainder.toInt = 0 ∨ remainder.toInt.sign = second.toInt.sign) := by
  have hfits (op : ArithmeticOp) (hop : op.isDivision) : op.overflows second first = false := by
    rw [Bool.eq_false_iff, ne_eq, overflows_division_iff second first hop]
    exact hleast
  have hne : first.toInt ≠ 0 := fun h => hzero (Int64.toInt_inj.mp h)
  have hquotient := toInt_wrapped second first (hfits divide rfl)
  have hremainder := toInt_wrapped second first (hfits modulo rfl)
  refine ⟨_, _, applyWords_of_not_overflows (hfits divide rfl) (.inl hzero),
    applyWords_of_not_overflows (hfits modulo rfl) (.inl hzero), ?_⟩
  rw [hquotient, hremainder]
  exact tdiv_tmod_spec second.toInt first.toInt hne

end Outcomes

end ArithmeticOp

namespace Machine

def Replaces (machine : Machine) (op : ArithmeticOp) (base : List Value) (value : Value) : Prop :=
  machine.perform (.arithmetic op) = { state := { machine with stack := (base ++ [value]).reverse } }

def Refuses (machine : Machine) (op : ArithmeticOp) (fault : Fault) : Prop :=
  machine.perform (.arithmetic op) = machine.fail fault

/-- What arithmetic makes of a machine whose stack ends with two operands. -/
structure Calculates (machine : Machine) (base : List Value) (second first : Value) : Prop where
  fits : ∀ op : ArithmeticOp, op.isDivision = false →
    -2 ^ 63 ≤ op.exact second.toInt first.toInt ∧ op.exact second.toInt first.toInt ≤ 2 ^ 63 - 1 →
      ∃ value : Value, value.toInt = op.exact second.toInt first.toInt ∧
        machine.Replaces op base value
  overflows : ∀ op : ArithmeticOp, op.isDivision = false →
    ¬ (-2 ^ 63 ≤ op.exact second.toInt first.toInt ∧
        op.exact second.toInt first.toInt ≤ 2 ^ 63 - 1) →
      machine.Refuses op .arithmeticOverflow
  /-- Quotient and remainder make up the dividend, and the remainder is smaller than the divisor and has
  the sign of the dividend. -/
  divides : first ≠ 0 → ¬ (second = Int64.minValue ∧ first = -1) →
    ∃ quotient remainder : Value, machine.Replaces .divide base quotient ∧
      machine.Replaces .modulo base remainder ∧
      second.toInt = quotient.toInt * first.toInt + remainder.toInt ∧
      remainder.toInt.natAbs < first.toInt.natAbs ∧
      (remainder.toInt = 0 ∨ remainder.toInt.sign = second.toInt.sign)
  byZero : ∀ op : ArithmeticOp, op.isDivision → (machine.Refuses op .divisionByZero ↔ first = 0)
  leastByMinusOne : ∀ op : ArithmeticOp, op.isDivision →
    (machine.Refuses op .arithmeticOverflow ↔ second = Int64.minValue ∧ first = -1)
  alike : ∀ fault, machine.Refuses .divide fault ↔ machine.Refuses .modulo fault

variable {machine : Machine} {base : List Value} {second first : Value} {op : ArithmeticOp}

theorem refuses_of_length_lt (h : machine.stack.length < 2) :
    machine.Refuses op (.stackUnderflow 2 machine.stack.length) := by
  obtain ⟨program, control, stack, heap, input, output, fuel⟩ := machine
  cases stack with
  | nil => rfl
  | cons first rest =>
    cases rest with
    | nil => rfl
    | cons second rest => exact absurd h (Nat.not_lt.mpr (Nat.le_add_left 2 rest.length))

section Operands

variable (hstack : machine.stack.reverse = base ++ [second, first])

include hstack

theorem run_arithmetic (op : ArithmeticOp) :
    op.run machine.stack = (op.applyWords second first).map (· :: base.reverse) := by
  have htop : machine.stack = first :: second :: base.reverse := by
    rw [← List.reverse_reverse machine.stack, hstack, List.reverse_append]
    rfl
  rw [htop, ArithmeticOp.applyWords_eq_apply]
  rfl

theorem replaces_of_ok {value : Value} (h : op.applyWords second first = .ok value) :
    machine.Replaces op base value := by
  rw [Replaces, perform, run_arithmetic hstack op, h, List.reverse_concat]
  rfl

theorem refuses_iff {fault : Fault} :
    machine.Refuses op fault ↔ op.applyWords second first = .error fault := by
  rw [Refuses, perform, run_arithmetic hstack op]
  cases op.applyWords second first with
  | ok value =>
    apply iff_of_false
    · intro h
      cases congrArg Effect.outcome h
    · intro h
      cases h
  | error found =>
    constructor
    · intro h
      cases congrArg Effect.outcome h
      rfl
    · intro h
      cases h
      rfl

theorem calculates : machine.Calculates base second first where
  fits op hop hrange := by
    have hfits : op.overflows second first = false := by
      rw [Bool.eq_false_iff, ne_eq, ArithmeticOp.overflows_iff second first hop]
      exact not_not.mpr hrange
    exact ⟨_, ArithmeticOp.toInt_wrapped second first hfits,
      replaces_of_ok hstack (ArithmeticOp.applyWords_of_not_overflows hfits (.inr hop))⟩
  overflows op hop hrange := by
    have hoverflows := (ArithmeticOp.overflows_iff second first hop).mpr hrange
    exact (refuses_iff hstack).mpr (ArithmeticOp.applyWords_of_overflows hop hoverflows)
  divides hzero hleast := by
    obtain ⟨quotient, remainder, hquotient, hremainder, hspec⟩ :=
      ArithmeticOp.exists_quotient_remainder hzero hleast
    exact ⟨quotient, remainder, replaces_of_ok hstack hquotient, replaces_of_ok hstack hremainder,
      hspec⟩
  byZero op hop := (refuses_iff hstack).trans (ArithmeticOp.applyWords_eq_divisionByZero_iff hop)
  leastByMinusOne op hop :=
    (refuses_iff hstack).trans (ArithmeticOp.applyWords_eq_arithmeticOverflow_iff hop)
  alike fault := by
    rw [refuses_iff hstack, refuses_iff hstack]
    exact ArithmeticOp.applyWords_divide_eq_error_iff

end Operands

/-- Arithmetic is exact or an error. Fewer than two operands are reported before anything else. Of two
operands, sums, differences and products are exact or overflow; division by zero and the quotient of the
least value by minus one are refused, with the remainder as with the quotient, and otherwise both are
those of division that truncates towards zero. What lies below the operands stays, and a machine that
refuses stays as it is. Words that wrap come to the same with the wrapping cases left out, and steps and
work on arrays come to the same effect. -/
theorem arithmetic_is_exact (machine : Machine) :
    (∀ op : ArithmeticOp, machine.Realizes (.arithmetic op)) ∧
      (machine.stack.length < 2 → ∀ op : ArithmeticOp,
        machine.Refuses op (.stackUnderflow 2 machine.stack.length)) ∧
      ∀ base second first, machine.stack.reverse = base ++ [second, first] →
        machine.Calculates base second first ∧
          ∀ op : ArithmeticOp, op.applyWords second first = op.apply second first :=
  ⟨fun op => machine.realizes (.arithmetic op), fun h _ => refuses_of_length_lt h,
    fun _ second first hstack =>
      ⟨calculates hstack, ArithmeticOp.applyWords_eq_apply second first⟩⟩

theorem arithmetic_is_exact_least_value :
    let machine : Machine := { program := #[], stack := [-1, Int64.minValue, 9] }
    let other : Machine := { program := #[], stack := [2, -7] }
    let short : Machine := { program := #[], stack := [9] }
    (∃ value : Value, value.toInt = -2 ^ 63 + 1 ∧ machine.Replaces .subtract [9] value) ∧
      machine.Refuses .multiply .arithmeticOverflow ∧
      machine.Refuses .divide .arithmeticOverflow ∧ machine.Refuses .modulo .arithmeticOverflow ∧
      (Processor.execute (Instruction.parts (.arithmetic .divide))).run.run machine.processor =
        .ok (.error .arithmeticOverflow, machine.processor) ∧
      (∃ quotient remainder : Value, other.Replaces .divide [] quotient ∧
        other.Replaces .modulo [] remainder ∧ -7 = quotient.toInt * 2 + remainder.toInt ∧
        remainder.toInt.natAbs < 2) ∧
      short.Refuses .divide (.stackUnderflow 2 1) := by
  intro machine other short
  obtain ⟨hrealizes, -, hmachine⟩ := arithmetic_is_exact machine
  obtain ⟨-, -, hother⟩ := arithmetic_is_exact other
  obtain ⟨-, hshort, -⟩ := arithmetic_is_exact short
  obtain ⟨hcalculates, -⟩ := hmachine [9] Int64.minValue (-1) rfl
  have hdivide := (hcalculates.leastByMinusOne .divide rfl).mpr ⟨rfl, rfl⟩
  have harrays := (hrealizes .divide).arrays (.arithmetic .divide) rfl
  rw [hdivide] at harrays
  obtain ⟨quotient, remainder, hquotient, hremainder, hsum, hless, -⟩ :=
    (hother [] (-7) 2 rfl).1.divides (by decide) (by decide)
  exact ⟨hcalculates.fits .subtract rfl (by decide), hcalculates.overflows .multiply rfl (by decide),
    hdivide, (hcalculates.alike .arithmeticOverflow).mp hdivide, harrays,
    ⟨quotient, remainder, hquotient, hremainder, hsum, hless⟩, hshort (by decide) .divide⟩

end Machine

end Whitespace
