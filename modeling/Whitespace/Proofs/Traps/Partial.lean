import Whitespace.Program

/-!
Partial operations. Reading and running a program on arrays takes slices, elements, differences of
lengths and the literal of an instruction that has to have one. Outside its domain such an operation
traps: it has no result, and neither has anything that evaluates it.
-/

namespace Whitespace

inductive Trap where
  | slice
  | index
  | difference
  | operand
  /-- An instruction put together from an operation and a literal that do not agree. -/
  | disagreement
  /-- A loop over the glyphs of a text that has read none of them. -/
  | standstill
  deriving DecidableEq, Repr

namespace Trap

variable {α : Type}

def slice? (items : Array α) (first stop : Nat) : Except Trap (List α) :=
  if first ≤ stop ∧ stop ≤ items.size then .ok ((items.toList.take stop).drop first)
  else .error .slice

def element? (items : Array α) (index : Nat) : Except Trap α :=
  if h : index < items.size then .ok items[index] else .error .index

def swap? (items : Array α) (first second : Nat) : Except Trap (Array α) :=
  if h : first < items.size ∧ second < items.size then .ok (items.swap first second h.1 h.2)
  else .error .index

def difference? (minuend subtrahend : Nat) : Except Trap Nat :=
  if subtrahend ≤ minuend then .ok (minuend - subtrahend) else .error .difference

end Trap

structure Parts where
  opcode : Opcode
  parameter : Option Literal
  deriving DecidableEq, Repr

/-- Puts an operation and a literal together, which must be given if and only if the operation takes
one. -/
def Parts.join? (opcode : Opcode) (parameter : Option Literal) : Except Trap Parts :=
  if opcode.takesOperand = parameter.isSome then .ok ⟨opcode, parameter⟩
  else .error .disagreement

def Instruction.parts (instruction : Instruction) : Parts :=
  ⟨instruction.opcode, instruction.operand?⟩

theorem Instruction.takesOperand_opcode (instruction : Instruction) :
    instruction.opcode.takesOperand = instruction.operand?.isSome := by
  simp [Operation.opcode, Operation.takesOperand]

theorem Operation.takesOperand_of_bare? {opcode : Opcode} {instruction : Instruction}
    (h : opcode.bare? = some instruction) : opcode.takesOperand = false := by
  rw [Bool.eq_false_iff]
  intro htakes
  rw [(Operation.bare?_eq_none_iff opcode).mpr htakes] at h
  cases h

theorem Parts.join?_bare {opcode : Opcode} {instruction : Instruction}
    (h : opcode.bare? = some instruction) : join? opcode none = .ok instruction.parts := by
  rcases opcode with op | op | op | op | op <;> cases op <;> cases h <;> rfl

theorem Parts.join?_withOperand {opcode : Opcode} (h : opcode.takesOperand) (literal : Literal) :
    join? opcode (some literal) = .ok (Instruction.parts (opcode.withOperand literal)) := by
  rcases opcode with op | op | op | op | op <;> cases op <;> cases h <;> rfl

theorem Parts.exists_instruction_of_join? {opcode : Opcode} {parameter : Option Literal}
    {parts : Parts} (h : join? opcode parameter = .ok parts) :
    ∃ instruction : Instruction, instruction.parts = parts := by
  cases hbare : (opcode.bare? : Option Instruction) with
  | some instruction =>
    cases parameter with
    | none =>
      rw [join?_bare hbare] at h
      exact ⟨instruction, Except.ok.inj h⟩
    | some literal =>
      simp [join?, Operation.takesOperand_of_bare? hbare] at h
  | none =>
    have htakes := (Operation.bare?_eq_none_iff opcode).mp hbare
    cases parameter with
    | none => simp [join?, htakes] at h
    | some literal =>
      rw [join?_withOperand htakes] at h
      exact ⟨_, Except.ok.inj h⟩

end Whitespace
