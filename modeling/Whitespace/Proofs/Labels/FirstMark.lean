import Whitespace.Listing.Text

/-!
The first mark of a label. A mark defines a label when its literal has a value, and only the first
mark of a label counts; `Program.labels` lists every label with the index after its first mark.
-/

namespace Whitespace

def Instruction.label? (instruction : Instruction) : Option Value :=
  instruction.mark?.bind fun literal => literal.decode.toOption

theorem Instruction.label?_eq (instruction : Instruction) :
    instruction.label? = instruction.decode.toOption.bind Operation.mark? := by
  unfold Instruction.label? Instruction.decode
  cases instruction with
  | stack op =>
    simp only [Operation.mark?, Operation.traverse]
    cases op.traverse Literal.decode <;> rfl
  | flow op =>
    cases op with
    | ret | stop => rfl
    | mark literal | call literal | jump literal | jumpIfZero literal | jumpIfNegative literal =>
      simp only [Operation.mark?, Operation.traverse, FlowOp.traverse, Option.bind_some]
      cases literal.decode <;> rfl
  | arithmetic op | heap op | io op => rfl

namespace Program

def labelAt? (program : Program) (index : Nat) : Option Value :=
  program[index]?.bind Instruction.label?

/-- The first mark of a label stands at an index. -/
def FirstMark (program : Program) (label : Value) (index : Nat) : Prop :=
  program.labelAt? index = some label ∧ ∀ earlier < index, program.labelAt? earlier ≠ some label

/-- Every mark of the program has a value. -/
def MarksDecode (program : Program) : Prop :=
  ∀ instruction ∈ program, ∀ literal, instruction.mark? = some literal →
    ∃ label, literal.decode = .ok label

variable {program : Program} {label : Value}

theorem lt_size_of_labelAt? {index : Nat} (h : program.labelAt? index = some label) :
    index < program.size := by
  obtain ⟨instruction, hinstruction, -⟩ := Option.bind_eq_some_iff.mp h
  exact (Array.getElem?_eq_some_iff.mp hinstruction).1

theorem labelAt?_of_lt {index : Nat} (h : index < program.size) :
    program.labelAt? index = program[index].label? := by
  rw [labelAt?, Array.getElem?_eq_getElem h, Option.bind_some]

theorem labelAt?_of_decode {index : Nat} (h : index < program.size) {literal : Literal}
    (hmark : program[index].mark? = some literal) (hdecode : literal.decode = .ok label) :
    program.labelAt? index = some label := by
  rw [labelAt?_of_lt h, Instruction.label?, hmark, Option.bind_some, hdecode]
  rfl

theorem labelAt?_of_decode_error {index : Nat} (h : index < program.size) {literal : Literal}
    (hmark : program[index].mark? = some literal) {error : LiteralError}
    (hdecode : literal.decode = .error error) : program.labelAt? index = none := by
  rw [labelAt?_of_lt h, Instruction.label?, hmark, Option.bind_some, hdecode]
  rfl

theorem labelAt?_of_mark?_none {index : Nat} (h : index < program.size)
    (hmark : program[index].mark? = none) : program.labelAt? index = none := by
  rw [labelAt?_of_lt h, Instruction.label?, hmark, Option.bind_none]

theorem FirstMark.lt_size {index : Nat} (h : program.FirstMark label index) :
    index < program.size :=
  lt_size_of_labelAt? h.1

theorem FirstMark.unique {first second : Nat} (hfirst : program.FirstMark label first)
    (hsecond : program.FirstMark label second) : first = second := by
  rcases Nat.lt_trichotomy first second with hlt | heq | hgt
  · exact absurd hfirst.1 (hsecond.2 first hlt)
  · exact heq
  · exact absurd hsecond.1 (hfirst.2 second hgt)

theorem exists_firstMark {index : Nat} (h : program.labelAt? index = some label) :
    ∃ first ≤ index, program.FirstMark label first := by
  induction index using Nat.strongRecOn with
  | ind index ih =>
    by_cases hearlier : ∃ earlier < index, program.labelAt? earlier = some label
    · obtain ⟨earlier, hlt, hlabel⟩ := hearlier
      obtain ⟨first, hle, hfirst⟩ := ih earlier hlt hlabel
      exact ⟨first, by omega, hfirst⟩
    · exact ⟨index, Nat.le_refl _, h, fun earlier hlt hlabel => hearlier ⟨earlier, hlt, hlabel⟩⟩

private theorem collectLabels_cons (index : Nat) (labels : Std.TreeMap Value Nat)
    (instruction : Instruction) (rest : List Instruction) :
    collectLabels index labels (instruction :: rest) =
      collectLabels (index + 1)
        (match instruction.label? with
          | some label => labels.insertIfNew label (index + 1)
          | none => labels) rest := by
  rw [collectLabels, Instruction.label?]
  cases instruction.mark? with
  | none => rfl
  | some literal => cases hdecode : literal.decode <;> simp [hdecode, Except.toOption]

private theorem getElem?_insertIfNew (labels : Std.TreeMap Value Nat) (defined label : Value)
    (target : Nat) :
    (labels.insertIfNew defined target)[label]? =
      labels[label]?.or (if defined = label then some target else none) := by
  simp only [Std.TreeMap.getElem?_insertIfNew, Std.compare_eq_iff_eq]
  by_cases heq : defined = label
  · subst heq
    cases hlabel : labels[defined]? <;>
      simp [Std.TreeMap.mem_iff_isSome_getElem?, hlabel]
  · simp [heq]

private theorem getElem?_collectLabels (index : Nat) (labels : Std.TreeMap Value Nat)
    (instructions : List Instruction) (label : Value) :
    (collectLabels index labels instructions)[label]? =
      labels[label]?.or
        ((instructions.findIdx? fun instruction => instruction.label? == some label).map
          (index + · + 1)) := by
  induction instructions generalizing index labels with
  | nil => simp [collectLabels]
  | cons instruction rest ih =>
    have hshift : (fun i => index + 1 + i + 1) = (fun i => index + i + 1) ∘ (· + 1) := by
      funext i
      simp only [Function.comp_apply]
      omega
    rw [collectLabels_cons, ih, List.findIdx?_cons, hshift, ← Option.map_map]
    cases hlabel : instruction.label? with
    | none => rfl
    | some defined =>
      rw [getElem?_insertIfNew, Option.or_assoc]
      by_cases heq : defined = label <;> simp [heq]

theorem findIdx?_eq_some_iff_firstMark {index : Nat} :
    (program.toList.findIdx? fun instruction => instruction.label? == some label) = some index ↔
      program.FirstMark label index := by
  rw [List.findIdx?_eq_some_iff_getElem]
  simp only [Array.length_toList, Array.getElem_toList, beq_iff_eq]
  constructor
  · rintro ⟨h, hlabel, hearlier⟩
    refine ⟨(labelAt?_of_lt h).trans hlabel, ?_⟩
    intro earlier hlt heq
    rw [labelAt?_of_lt (Nat.lt_trans hlt h)] at heq
    exact hearlier earlier hlt heq
  · intro hfirst
    have h := hfirst.lt_size
    refine ⟨h, (labelAt?_of_lt h).symm.trans hfirst.1, ?_⟩
    intro earlier hlt heq
    exact hfirst.2 earlier hlt ((labelAt?_of_lt (Nat.lt_trans hlt h)).trans heq)

theorem getElem?_labels_eq_some_iff {target : Nat} :
    program.labels[label]? = some target ↔
      ∃ index, program.FirstMark label index ∧ target = index + 1 := by
  rw [labels, getElem?_collectLabels, Std.TreeMap.getElem?_emptyc, Option.none_or,
    Option.map_eq_some_iff]
  apply exists_congr
  intro index
  rw [findIdx?_eq_some_iff_firstMark, Nat.zero_add, eq_comm (b := target)]

end Program

end Whitespace
