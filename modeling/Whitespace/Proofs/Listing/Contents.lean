import Whitespace.Proofs.Listing.Targets
import Whitespace.Proofs.Styling.Colors

/-!
What a listing holds. Its label section is a table of the labels that the program defines, in ascending
order; its code section has a line for every instruction. A line that passes control to a label takes its
target from the same table, so the two sections cannot disagree.
-/

namespace Whitespace

open Palette

def Opcode.branches : List Opcode :=
  [.flow (.call ()), .flow (.jump ()), .flow (.jumpIfZero ()), .flow (.jumpIfNegative ())]

/-- What an instruction is shown as: its mnemonic and the value of its literal, or the letters of the
literal in angle brackets when it has no value. -/
inductive Instruction.ShownAs (instruction : Instruction) : String → Prop
  | bare (hoperand : instruction.operand? = none) : ShownAs instruction instruction.mnemonic
  | value {literal : Literal} {value : Value} (hoperand : instruction.operand? = some literal)
      (hdecode : literal.decode = .ok value) :
      ShownAs instruction (instruction.mnemonic ++ " " ++ value.text)
  | letters {literal : Literal} {error : LiteralError}
      (hoperand : instruction.operand? = some literal) (hdecode : literal.decode = .error error) :
      ShownAs instruction (instruction.mnemonic ++ " " ++ ("<" ++ literal.letters ++ ">"))

theorem Layout.index_ne_empty (layout : Layout) (number : Nat) : layout.index number ≠ "" := by
  intro h
  have hlist := congrArg String.toList h
  simp [index, Text.Decimal.zeroPadded, List.leftpad, Nat.toDigits_ne_nil] at hlist

theorem Layout.exists_gap (line : String) {target : String} (hne : target ≠ "") :
    ∃ gap ≥ 2, withTarget line target = line ++ blanks gap ++ target :=
  ⟨_, Nat.le_max_right _ _, withTarget_of_ne_empty line hne⟩

namespace Listing

/-- What the target column of a line holds, given the entries of the label section. -/
inductive HasTarget (layout : Layout) (entries : List (Value × Nat)) (instruction : Instruction) :
    Option String → Prop
  | none (hopcode : instruction.opcode ∉ Opcode.branches) :
      HasTarget layout entries instruction none
  | index {literal : Literal} {label : Value} {target : Nat}
      (hopcode : instruction.opcode ∈ Opcode.branches)
      (hoperand : instruction.operand? = some literal) (hdecode : literal.decode = .ok label)
      (hentry : (label, target) ∈ entries) :
      HasTarget layout entries instruction (some (layout.index target))
  | unknown {literal : Literal} (hopcode : instruction.opcode ∈ Opcode.branches)
      (hoperand : instruction.operand? = some literal)
      (hentry : ∀ label target, literal.decode = .ok label → (label, target) ∉ entries) :
      HasTarget layout entries instruction (some "?")

/-- A line of the code section: index, symbol, what the instruction is shown as, and its target, if it
has one, behind two blanks or more. -/
def IsCodeLine (layout : Layout) (entries : List (Value × Nat)) (index : Nat)
    (instruction : Instruction) (line : String) : Prop :=
  ∃ text target?, instruction.ShownAs text ∧ HasTarget layout entries instruction target? ∧
    match target? with
    | none => line = layout.numbered index instruction.symbol ++ text
    | some target => ∃ gap ≥ 2,
        line = layout.numbered index instruction.symbol ++ text ++ Layout.blanks gap ++ target

/-- The entries of the label section of a program and the lines of its code section. -/
structure Contents (program : Program) (entries : List (Value × Nat)) (code : List String) :
    Prop where
  /-- Every label that a mark defines, with the index after the first such mark. -/
  mem_entries : ∀ label target, (label, target) ∈ entries ↔
    ∃ mark, program.FirstMark label mark ∧ target = mark + 1
  ascending : entries.Pairwise fun first second => first.1.toInt < second.1.toInt
  length_code : code.length = program.size
  code : ∀ index instruction, program[index]? = some instruction →
    ∃ line, code[index]? = some line ∧
      IsCodeLine (Layout.forCount (program.size + 1)) entries index instruction line

def sections (layout : Layout) (entries : List (Value × Nat)) (code : List String) : List String :=
  (if entries = [] then []
    else "[labels]" ::
      (entries.map fun entry => "L" ++ entry.1.text ++ " = " ++ layout.index entry.2) ++ [""]) ++
    "[code]" :: code

theorem mem_toList_labels {program : Program} {label : Value} {target : Nat} :
    (label, target) ∈ program.labels.toList ↔
      ∃ mark, program.FirstMark label mark ∧ target = mark + 1 := by
  rw [Std.TreeMap.mem_toList_iff_getElem?_eq_some, Program.getElem?_labels_eq_some_iff]

theorem toList_labels_ne_nil_iff {program : Program} :
    program.labels.toList ≠ [] ↔ ∃ instruction ∈ program, ∃ literal label,
      instruction.mark? = some literal ∧ literal.decode = .ok label := by
  constructor
  · intro hne
    obtain ⟨⟨label, target⟩, hentry⟩ := List.exists_mem_of_ne_nil _ hne
    obtain ⟨mark, hmark, -⟩ := mem_toList_labels.mp hentry
    obtain ⟨instruction, hat, hlabel⟩ := Option.bind_eq_some_iff.mp hmark.1
    obtain ⟨literal, hliteral, hvalue⟩ := Option.bind_eq_some_iff.mp hlabel
    refine ⟨instruction, Array.mem_of_getElem? hat, literal, label, hliteral, ?_⟩
    cases hdecode : literal.decode with
    | error error =>
      rw [hdecode] at hvalue
      cases hvalue
    | ok value =>
      rw [hdecode] at hvalue
      cases hvalue
      rfl
  · rintro ⟨instruction, hmem, literal, label, hliteral, hdecode⟩
    obtain ⟨index, hindex, rfl⟩ := Array.mem_iff_getElem.mp hmem
    obtain ⟨first, -, hfirst⟩ :=
      Program.exists_firstMark (Program.labelAt?_of_decode hindex hliteral hdecode)
    exact List.ne_nil_of_mem (mem_toList_labels.mpr ⟨first, hfirst, rfl⟩)

theorem pairwise_toList (labels : Std.TreeMap Value Nat) :
    labels.toList.Pairwise fun first second => first.1.toInt < second.1.toInt := by
  refine labels.ordered_keys_toList.imp ?_
  intro first second hlt
  exact Int64.lt_iff_toInt_lt.mp (Std.compare_eq_lt.mp hlt)

theorem labelLines_plain (layout : Layout) (labels : Std.TreeMap Value Nat) :
    labelLines ⟨false⟩ layout labels =
      if labels.toList = [] then []
      else "[labels]" ::
        (labels.toList.map fun entry => "L" ++ entry.1.text ++ " = " ++ layout.index entry.2) ++
          [""] := by
  have hempty : labels.isEmpty ↔ labels.toList = [] := by
    rw [← Std.TreeMap.isEmpty_toList, List.isEmpty_iff]
  unfold labelLines
  by_cases hnil : labels.toList = []
  · rw [if_pos (hempty.mpr hnil), if_pos hnil]
  · rw [if_neg (mt hempty.mp hnil), if_neg hnil]
    rfl

theorem shownAs_painted (instruction : Instruction) :
    instruction.ShownAs (instruction.painted ⟨false⟩) := by
  unfold Instruction.painted
  cases hoperand : instruction.operand? with
  | none => exact .bare hoperand
  | some literal =>
    simp only [paint, Bool.false_eq_true, if_false, Literal.display]
    cases hdecode : literal.decode with
    | ok value => exact .value hoperand hdecode
    | error error => exact .letters hoperand hdecode

theorem destination?_eq (instruction : Instruction) :
    instruction.destination? =
      if instruction.opcode ∈ Opcode.branches then instruction.operand? else none := by
  rcases instruction with op | op | op | op | op <;> cases op <;> rfl

theorem exists_operand_of_mem_branches {instruction : Instruction}
    (h : instruction.opcode ∈ Opcode.branches) :
    ∃ literal, instruction.operand? = some literal := by
  rw [← Option.isSome_iff_exists]
  revert h
  rcases instruction with op | op | op | op | op <;> cases op <;> simp [Operation.operand?] <;> decide

theorem exists_hasTarget (layout : Layout) (labels : Std.TreeMap Value Nat)
    (instruction : Instruction) :
    ∃ target?, HasTarget layout labels.toList instruction target? ∧
      target layout labels instruction = target?.getD "" ∧ ∀ shown ∈ target?, shown ≠ "" := by
  by_cases hopcode : instruction.opcode ∈ Opcode.branches
  · obtain ⟨literal, hoperand⟩ := exists_operand_of_mem_branches hopcode
    have hdestination : instruction.destination? = some literal := by
      rw [destination?_eq, if_pos hopcode, hoperand]
    have hmark : ∀ shown ∈ some "?", shown ≠ "" := by
      rintro shown ⟨⟩
      decide
    cases hdecode : literal.decode with
    | error error =>
      refine ⟨some "?", .unknown hopcode hoperand ?_, ?_, hmark⟩
      · intro label target hlabel
        rw [hdecode] at hlabel
        cases hlabel
      · simp [target, hdestination, hdecode]
    | ok label =>
      rw [target_of_decode layout labels hdestination hdecode]
      cases hlabel : labels[label]? with
      | some target =>
        refine ⟨some (layout.index target), .index hopcode hoperand hdecode ?_, rfl, ?_⟩
        · exact Std.TreeMap.mem_toList_iff_getElem?_eq_some.mpr hlabel
        · rintro shown ⟨⟩
          exact layout.index_ne_empty target
      | none =>
        refine ⟨some "?", .unknown hopcode hoperand ?_, rfl, hmark⟩
        intro other target hother hentry
        obtain rfl : label = other := Except.ok.inj (hdecode.symm.trans hother)
        rw [Std.TreeMap.mem_toList_iff_getElem?_eq_some, hlabel] at hentry
        cases hentry
  · refine ⟨none, .none hopcode, ?_, ?_⟩
    · rw [target, destination?_eq, if_neg hopcode]
      rfl
    · rintro shown ⟨⟩

theorem isCodeLine_line (layout : Layout) (labels : Std.TreeMap Value Nat) (index : Nat)
    (instruction : Instruction) :
    IsCodeLine layout labels.toList index instruction
      (line ⟨false⟩ layout labels index instruction) := by
  obtain ⟨target?, htarget, heq, hne⟩ := exists_hasTarget layout labels instruction
  refine ⟨instruction.painted ⟨false⟩, target?, shownAs_painted instruction, htarget, ?_⟩
  rw [line, heq]
  cases target? with
  | none => rfl
  | some shown =>
    exact Layout.exists_gap _ (hne shown rfl)

end Listing

/-- A listing is complete and its sections agree. The label section has one entry for every label that a
mark defines, in ascending order and with the index after the first such mark, and is left out when no
mark has a value. The code section has one line for every instruction, in order; what it shows as the
target of a jump or a call is what the label section says, or a question mark. Colours add nothing to
this but escape sequences. -/
theorem Listing.lists_every_label_and_instruction (program : Program) :
    ∃ entries code, Contents program entries code ∧
      (entries ≠ [] ↔ ∃ instruction ∈ program, ∃ literal label,
        instruction.mark? = some literal ∧ literal.decode = .ok label) ∧
      let lines := sections (Layout.forCount (program.size + 1)) entries code
      text ⟨false⟩ program = Printer.page lines ∧
        stripped (text ⟨true⟩ program) = Printer.page lines := by
  let layout := Layout.forCount (program.size + 1)
  let code := program.toList.zipIdx.map fun entry =>
    line ⟨false⟩ layout program.labels entry.2 entry.1
  have hplain : text ⟨false⟩ program = Printer.page (sections layout program.labels.toList code) := by
    rw [text, lines, labelLines_plain]
    rfl
  refine ⟨program.labels.toList, code, ⟨fun _ _ => mem_toList_labels, pairwise_toList _, ?_, ?_⟩, ?_,
    hplain, ?_⟩
  · simp [code]
  · intro index instruction hat
    refine ⟨_, ?_, isCodeLine_line layout program.labels index instruction⟩
    have hline : (codeLines ⟨false⟩ layout program.labels program)[index + 1]? = _ :=
      getElem?_codeLines layout program.labels hat
    rw [codeLines, List.getElem?_cons_succ] at hline
    exact hline
  · exact toList_labels_ne_nil_iff
  · rw [← hplain]
    exact (paints_join (forall₂_lines program)).stripped_eq

/-- Two labels, one of them marked twice, and a call to a third. -/
example : Listing.text ⟨false⟩
    #[.flow (.mark ⟨false, [true]⟩), .flow (.mark ⟨true, [true]⟩), .flow (.mark ⟨false, [true]⟩),
      .flow (.jump ⟨false, [false, true]⟩), .flow (.call ⟨false, []⟩)] =
    "[labels]\nL-1 = 2\nL1 = 1\n\n[code]\n" ++
      "  0   ●   mark 1\n  1   ●   mark -1\n  2   ●   mark 1\n" ++
      "  3   ▷   jump 1                    1\n  4   ▶   call 0                    ?\n" := by
  decide +kernel

end Whitespace
