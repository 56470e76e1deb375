import Whitespace.Listing.Text
import Whitespace.Machine.State
import Whitespace.Proofs.Labels.Search

/-!
The targets of a listing. A line that passes control to a label shows the index behind the first mark of
the label, or a question mark. A machine that has not run yet resolves the label to the same index unless
it meets a mark without a value before that; the listing leaves such marks out.
-/

namespace Whitespace

namespace Layout

theorem index_inj {layout : Layout} {first second : Nat} :
    layout.index first = layout.index second ↔ first = second :=
  Text.Decimal.zeroPadded_inj

theorem index_ne_questionMark (layout : Layout) (number : Nat) : layout.index number ≠ "?" := by
  intro h
  have hmem : '?' ∈ (layout.index number).toList := by rw [h]; decide
  exact absurd (Text.Decimal.isDigit_of_mem_zeroPadded hmem) (by decide)

theorem withTarget_inj {line first second : String} :
    withTarget line first = withTarget line second ↔ first = second := by
  refine ⟨fun h => ?_, fun h => h ▸ rfl⟩
  have hlist := congrArg String.toList h
  by_cases hfirst : first = "" <;> by_cases hsecond : second = ""
  · rw [hfirst, hsecond]
  · simp [withTarget, hfirst, hsecond] at hlist
  · simp [withTarget, hfirst, hsecond] at hlist
  · exact String.toList_inj.mp (by simpa [withTarget, hfirst, hsecond] using hlist)

end Layout

namespace Listing

def Shows (palette : Palette) (program : Program) (index : Nat) (target : String) : Prop :=
  let layout := Layout.forCount (program.size + 1)
  ∃ instruction, program[index]? = some instruction ∧
    (codeLines palette layout program.labels program)[index + 1]? =
      some (Layout.withTarget
        (palette.paint .gutter (layout.numbered index instruction.symbol) ++
          instruction.painted palette) target)

variable {palette : Palette} {program : Program} {index : Nat} {instruction : Instruction}

theorem getElem?_codeLines (layout : Layout) (labels : Std.TreeMap Value Nat)
    (hat : program[index]? = some instruction) :
    (codeLines palette layout labels program)[index + 1]? =
      some (line palette layout labels index instruction) := by
  have hlist : program.toList[index]? = some instruction := by simpa using hat
  simp [codeLines, List.getElem?_zipIdx, hlist]

theorem shows_iff (hat : program[index]? = some instruction) {shown : String} :
    Shows palette program index shown ↔
      target (Layout.forCount (program.size + 1)) program.labels instruction = shown := by
  simp only [Shows, hat, Option.some.injEq, exists_eq_left', getElem?_codeLines _ _ hat, line,
    Layout.withTarget_inj]

variable {literal : Literal} {label : Value}

theorem target_of_decode (layout : Layout) (labels : Std.TreeMap Value Nat)
    (hdestination : instruction.destination? = some literal) (hdecode : literal.decode = .ok label) :
    target layout labels instruction =
      match labels[label]? with
      | some index => layout.index index
      | none => "?" := by
  cases hlabel : labels[label]? <;> simp [target, hdestination, hdecode, hlabel]

theorem shows_index_iff (hat : program[index]? = some instruction)
    (hdestination : instruction.destination? = some literal) (hdecode : literal.decode = .ok label)
    {target : Nat} :
    Shows palette program index ((Layout.forCount (program.size + 1)).index target) ↔
      program.labels[label]? = some target := by
  rw [shows_iff hat, target_of_decode _ _ hdestination hdecode]
  cases program.labels[label]? with
  | some shown => simp [Layout.index_inj]
  | none => simp [(Layout.index_ne_questionMark _ target).symm]

theorem shows_questionMark_iff (hat : program[index]? = some instruction)
    (hdestination : instruction.destination? = some literal) (hdecode : literal.decode = .ok label) :
    Shows palette program index "?" ↔ program.labels[label]? = none := by
  rw [shows_iff hat, target_of_decode _ _ hdestination hdecode]
  cases program.labels[label]? with
  | some shown => simp [Layout.index_ne_questionMark]
  | none => simp

end Listing

namespace Program

theorem getElem?_labels_eq_none_iff {program : Program} {label : Value} :
    program.labels[label]? = none ↔ ∀ index, program.labelAt? index ≠ some label := by
  rw [Option.eq_none_iff_forall_ne_some]
  constructor
  · intro hnone index hlabel
    obtain ⟨first, -, hfirst⟩ := exists_firstMark hlabel
    exact hnone (first + 1) (getElem?_labels_eq_some_iff.mpr ⟨first, hfirst, rfl⟩)
  · intro hne target hlabel
    obtain ⟨mark, hmark, -⟩ := getElem?_labels_eq_some_iff.mp hlabel
    exact hne mark hmark.1

end Program

namespace Machine

variable {program : Program} {input : Input} {output : Output} {limit : Option Nat} {label : Value}

theorem resolve_start (label : Value) :
    ((start program input output limit).resolve label).2 =
      match Program.search label 0 program.toList with
      | .ok (some target) => .ok target
      | .ok none => .error (.undefinedLabel label)
      | .error error => .error (.malformedLiteral error) := by
  have hmiss : LabelTable.get? {} label = none := by simp [LabelTable.get?]
  have htarget : (LabelTable.resolve program label {}).target =
      Program.search label 0 program.toList := LabelTable.target_resolve_of_get?_none hmiss
  rcases hsearch : Program.search label 0 program.toList with error | _ | target <;>
    rw [hsearch] at htarget <;>
    simp only [resolve, start, Resolution.result, htarget]

theorem resolve_start_of_firstMark {mark : Nat} (h : program.FirstMark label mark) :
    ((start program input output limit).resolve label).2 =
      match program.malformedBefore? mark with
      | some error => .error (.malformedLiteral error)
      | none => .ok (mark + 1) := by
  rw [resolve_start, Program.search_of_firstMark h]
  cases program.malformedBefore? mark <;> rfl

theorem resolve_start_of_forall_ne (h : ∀ index, program.labelAt? index ≠ some label) :
    ((start program input output limit).resolve label).2 =
      match program.malformedBefore? program.size with
      | some error => .error (.malformedLiteral error)
      | none => .error (.undefinedLabel label) := by
  rw [resolve_start, Program.search_of_forall_ne h]
  cases program.malformedBefore? program.size <;> rfl

theorem resolve_start_eq_ok_iff {target : Nat} :
    ((start program input output limit).resolve label).2 = .ok target ↔
      ∃ mark, program.FirstMark label mark ∧ program.malformedBefore? mark = none ∧
        target = mark + 1 := by
  constructor
  · intro h
    cases hlabel : program.labels[label]? with
    | none =>
      rw [resolve_start_of_forall_ne (Program.getElem?_labels_eq_none_iff.mp hlabel)] at h
      split at h <;> cases h
    | some known =>
      obtain ⟨mark, hmark, -⟩ := Program.getElem?_labels_eq_some_iff.mp hlabel
      rw [resolve_start_of_firstMark hmark] at h
      split at h
      · cases h
      · next hbefore => exact ⟨mark, hmark, hbefore, (Except.ok.inj h).symm⟩
  · rintro ⟨mark, hmark, hbefore, rfl⟩
    rw [resolve_start_of_firstMark hmark, hbefore]

end Machine

/-- A line that passes control to a label shows the index behind the first mark of the label. A machine
that has not run yet resolves the label to what the line shows if every mark before that one has a value,
and fails for the first that has none otherwise. A line that shows no index shows a question mark, and
then resolving the label fails as well. -/
theorem Listing.shows_target_iff {program : Program} {index : Nat} {instruction : Instruction}
    (hat : program[index]? = some instruction) {literal : Literal}
    (hdestination : instruction.destination? = some literal) {label : Value}
    (hdecode : literal.decode = .ok label) (palette : Palette) (input : Machine.Input)
    (output : Machine.Output) (limit : Option Nat) :
    let layout := Layout.forCount (program.size + 1)
    let fresh := Machine.start program input output limit
    (∀ target, Shows palette program index (layout.index target) ↔
        ∃ mark, program.FirstMark label mark ∧ target = mark + 1) ∧
      (∀ target, (fresh.resolve label).2 = .ok target ↔
        Shows palette program index (layout.index target) ∧
          program.malformedBefore? (target - 1) = none) ∧
      (∀ target error, Shows palette program index (layout.index target) →
        program.malformedBefore? (target - 1) = some error →
        (fresh.resolve label).2 = .error (.malformedLiteral error)) ∧
      (Shows palette program index "?" ↔
        ∀ target, ¬ Shows palette program index (layout.index target)) ∧
      (Shows palette program index "?" → (fresh.resolve label).2 =
        match program.malformedBefore? program.size with
        | some error => .error (.malformedLiteral error)
        | none => .error (.undefinedLabel label)) := by
  intro layout fresh
  simp only [layout, shows_index_iff hat hdestination hdecode,
    shows_questionMark_iff hat hdestination hdecode]
  refine ⟨fun target => Program.getElem?_labels_eq_some_iff, ?_, ?_,
    Option.eq_none_iff_forall_ne_some, ?_⟩
  · intro target
    rw [Machine.resolve_start_eq_ok_iff, Program.getElem?_labels_eq_some_iff]
    constructor
    · rintro ⟨mark, hmark, hbefore, rfl⟩
      exact ⟨⟨mark, hmark, rfl⟩, hbefore⟩
    · rintro ⟨⟨mark, hmark, rfl⟩, hbefore⟩
      exact ⟨mark, hmark, hbefore, rfl⟩
  · intro target error hlabel hbefore
    obtain ⟨mark, hmark, rfl⟩ := Program.getElem?_labels_eq_some_iff.mp hlabel
    rw [Nat.add_sub_cancel] at hbefore
    rw [Machine.resolve_start_of_firstMark hmark, hbefore]
  · intro hnone
    exact Machine.resolve_start_of_forall_ne (Program.getElem?_labels_eq_none_iff.mp hnone)

theorem Listing.shows_target_iff_forward_jump :
    let program : Program :=
      #[.flow (.jump ⟨false, [true]⟩), .flow (.mark ⟨false, []⟩), .flow (.mark ⟨false, [true]⟩),
        .flow (.mark ⟨false, List.replicate 64 true⟩)]
    program[0]? = some (.flow (.jump ⟨false, [true]⟩)) ∧
      Literal.decode ⟨false, [true]⟩ = .ok 1 ∧
      Shows ⟨true⟩ program 0 ((Layout.forCount (program.size + 1)).index 3) ∧
      ((Machine.start program { remaining := [] } {} none).resolve 1).2 = .ok 3 := by
  intro program
  have hat : program[0]? = some (.flow (.jump ⟨false, [true]⟩)) := rfl
  have hdecode : Literal.decode ⟨false, [true]⟩ = .ok 1 := rfl
  obtain ⟨hshows, hresolve, -⟩ :=
    shows_target_iff hat rfl hdecode ⟨true⟩ { remaining := [] } {} none
  have hfirst : program.FirstMark 1 2 := ⟨by decide, by decide⟩
  have hthree := (hshows 3).mpr ⟨2, hfirst, rfl⟩
  exact ⟨hat, hdecode, hthree, (hresolve 3).mpr ⟨hthree, by decide⟩⟩

/-- Before the mark that the jump goes to stands one without a value. The listing shows the target all
the same, and no question mark, but resolving the label fails. -/
theorem Listing.shows_target_of_failing_label :
    let program : Program :=
      #[.flow (.mark ⟨false, List.replicate 64 true⟩), .flow (.mark ⟨false, [true]⟩),
        .flow (.jump ⟨false, [true]⟩)]
    let fresh := Machine.start program { remaining := [] } {} none
    Shows ⟨false⟩ program 2 ((Layout.forCount (program.size + 1)).index 2) ∧
      ¬ Shows ⟨false⟩ program 2 "?" ∧
      (fresh.resolve 1).2 = .error (.malformedLiteral (.overflow 64)) ∧
      (fresh.resolve 1).2 ≠ .ok 2 := by
  intro program fresh
  have hat : program[2]? = some (.flow (.jump ⟨false, [true]⟩)) := rfl
  have hdecode : Literal.decode ⟨false, [true]⟩ = .ok 1 := rfl
  have hfirst : program.FirstMark 1 1 := ⟨by decide, by decide⟩
  have hlabel : program.labels[(1 : Value)]? = some 2 :=
    Program.getElem?_labels_eq_some_iff.mpr ⟨1, hfirst, rfl⟩
  have hresolve : (fresh.resolve 1).2 = .error (.malformedLiteral (.overflow 64)) := by
    rw [Machine.resolve_start_of_firstMark hfirst]
    rfl
  refine ⟨(shows_index_iff hat rfl hdecode).mpr hlabel, ?_, hresolve, ?_⟩
  · rw [shows_questionMark_iff hat rfl hdecode, hlabel]
    exact nofun
  · rw [hresolve]
    exact nofun

end Whitespace
