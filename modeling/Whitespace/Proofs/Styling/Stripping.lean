import Mathlib.Data.List.Forall2
import Whitespace.Layout

/-!
Painted texts and their plain counterparts. A text without escape characters is bare; painting puts
whole escape sequences around bare texts (`Shows`), and stripping takes out exactly those. `Paints` holds
between a text and its plain counterpart even in front of further text, so it goes through everything that
lines are put together with, the padding before a target included.
-/

namespace Whitespace

theorem Layout.withTarget_of_ne_empty (line : String) {target : String} (hne : target ≠ "") :
    withTarget line target =
      line ++ blanks (max (targetColumn - (Palette.visible line).length) targetGap) ++ target :=
  if_neg (by simpa using hne)

namespace Palette

def stripped (text : String) : String := String.ofList (visible text)

def Bare (text : String) : Prop := '\x1b' ∉ text.toList

/-- Stripping `colored` gives `plain`, whatever comes after it, and `plain` itself has nothing to be
stripped. -/
structure Paints (colored plain : String) : Prop where
  bare : Bare plain
  strip_append : ∀ rest, strip false (colored.toList ++ rest) = plain.toList ++ strip false rest

/-- The painted text is made of plain text and whole escape sequences, and `plain` is the plain text
of it. -/
inductive Shows : String → String → Prop
  | plain {text : String} (hbare : Bare text) : Shows text text
  /-- An escape sequence ends with the first `m` behind its escape character. -/
  | sequence (body : String) (hbody : 'm' ∉ body.toList) : Shows ("\x1b" ++ body ++ "m") ""
  | append {painted plain painted' plain' : String} (h : Shows painted plain)
      (h' : Shows painted' plain') : Shows (painted ++ painted') (plain ++ plain')

section Bare

instance (text : String) : Decidable (Bare text) :=
  inferInstanceAs (Decidable ('\x1b' ∉ text.toList))

@[simp] theorem bare_append_iff {first second : String} :
    Bare (first ++ second) ↔ Bare first ∧ Bare second := by
  simp [Bare, not_or]

theorem bare_intercalate {separator : String} (hseparator : Bare separator) {texts : List String}
    (h : ∀ text ∈ texts, Bare text) : Bare (separator.intercalate texts) := by
  induction texts with
  | nil => simp [Bare]
  | cons text rest ih =>
    rw [List.forall_mem_cons] at h
    cases rest with
    | nil => simpa using h.1
    | cons next rest =>
      rw [String.intercalate_cons_cons, bare_append_iff, bare_append_iff]
      exact ⟨⟨h.1, hseparator⟩, ih h.2⟩

theorem bare_of_isAlpha {text : String} (h : text.toList.all Char.isAlpha) : Bare text :=
  fun hmem => absurd (List.all_eq_true.mp h _ hmem) (by decide)

@[simp] theorem bare_repr (number : Nat) : Bare number.repr := by
  intro hmem
  rw [Nat.toList_repr] at hmem
  exact absurd (Text.Decimal.isDigit_of_mem_toDigits hmem) (by decide)

@[simp] theorem bare_text (value : Value) : Bare value.text := by
  unfold Value.text Int.repr
  split
  · exact bare_repr _
  · exact bare_append_iff.mpr ⟨by decide, bare_repr _⟩

@[simp] theorem bare_index (layout : Layout) (number : Nat) : Bare (layout.index number) :=
  fun hmem => absurd (Text.Decimal.isDigit_of_mem_zeroPadded hmem) (by decide)

@[simp] theorem bare_blanks (count : Nat) : Bare (Layout.blanks count) := by
  intro hmem
  rw [Layout.blanks, String.toList_ofList] at hmem
  exact absurd (List.eq_of_mem_replicate hmem) (by decide)

@[simp] theorem bare_column (symbol : Symbol) : Bare symbol.column := by
  cases symbol <;> decide

@[simp] theorem bare_mnemonic {α : Type} (operation : Operation α) : Bare operation.mnemonic :=
  bare_of_isAlpha operation.isAlpha_mnemonic

@[simp] theorem bare_letters (literal : Literal) : Bare literal.letters :=
  bare_of_isAlpha literal.isAlpha_letters

@[simp] theorem bare_display (literal : Literal) : Bare literal.display := by
  unfold Literal.display
  split
  · exact bare_text _
  · simp +decide

@[simp] theorem bare_display_instruction (instruction : Instruction) :
    Bare instruction.display := by
  unfold Instruction.display
  split <;> simp +decide

@[simp] theorem bare_labelName (label : Value) : Bare (Layout.labelName label) := by
  simp +decide [Layout.labelName]

@[simp] theorem bare_stack (values : List Value) : Bare (Layout.stack values) := by
  have hvalues : Bare (" ".intercalate (values.reverse.map Value.text)) := by
    refine bare_intercalate (by decide) fun text htext => ?_
    obtain ⟨value, -, rfl⟩ := List.mem_map.mp htext
    exact bare_text value
  simp only [Layout.stack, bare_append_iff]
  exact ⟨⟨by decide, hvalues⟩, by decide⟩

@[simp] theorem bare_numbered (layout : Layout) (number : Nat) (symbol : Symbol) :
    Bare (layout.numbered number symbol) := by
  simp +decide [Layout.numbered]

@[simp] theorem bare_unnumbered (layout : Layout) (symbol : Symbol) :
    Bare (layout.unnumbered symbol) := by
  simp +decide [Layout.unnumbered]

end Bare

section Paints

theorem strip_of_notMem {run : List Char} (h : '\x1b' ∉ run) (rest : List Char) :
    strip false (run ++ rest) = run ++ strip false rest := by
  induction run with
  | nil => rfl
  | cons c run ih =>
    obtain ⟨hc, hrun⟩ := not_or.mp (mt List.mem_cons.mpr h)
    rw [List.cons_append, strip, if_neg Bool.false_ne_true, if_neg (Ne.symm hc), ih hrun,
      List.cons_append]

theorem strip_sequence {body : List Char} (hbody : 'm' ∉ body) (rest : List Char) :
    strip true (body ++ 'm' :: rest) = strip false rest := by
  induction body with
  | nil => rfl
  | cons c body ih =>
    obtain ⟨hc, hbody⟩ := not_or.mp (mt List.mem_cons.mpr hbody)
    have hopen : (c != 'm') = true := by simpa using Ne.symm hc
    rw [List.cons_append, strip, if_pos rfl, hopen, ih hbody]

theorem Bare.paints {text : String} (h : Bare text) : Paints text text := ⟨h, strip_of_notMem h⟩

variable {colored plain : String}

theorem Paints.append {colored' plain' : String} (h : Paints colored plain)
    (h' : Paints colored' plain') : Paints (colored ++ colored') (plain ++ plain') where
  bare := bare_append_iff.mpr ⟨h.bare, h'.bare⟩
  strip_append rest := by
    simp only [String.toList_append, List.append_assoc, h.strip_append, h'.strip_append]

theorem Shows.paints (h : Shows colored plain) : Paints colored plain := by
  induction h with
  | plain hbare => exact hbare.paints
  | sequence body hbody =>
    refine ⟨by decide, fun rest => ?_⟩
    have hsequence : ("\x1b" ++ body ++ "m").toList ++ rest =
        '\x1b' :: (body.toList ++ 'm' :: rest) := by simp
    rw [hsequence, strip, if_neg Bool.false_ne_true, if_pos rfl, strip_sequence hbody]
    rfl
  | append _ _ ih ih' => exact ih.append ih'

theorem shows_paint {text : String} (hbare : Bare text) (palette : Palette) (role : Role) :
    Shows (palette.paint role text) text := by
  unfold paint
  split
  · have hescape : Shows role.escape "" := by
      cases role with
      | gutter => exact .sequence "[2" (by decide)
      | operand => exact .sequence "[36" (by decide)
      | label => exact .sequence "[33" (by decide)
      | halt => exact .sequence "[32" (by decide)
      | heading => exact .sequence "[1" (by decide)
    have hreset : Shows reset "" := .sequence "[0" (by decide)
    simpa using (hescape.append (.plain hbare)).append hreset
  · exact .plain hbare

theorem paints_paint {text : String} (h : Bare text) (role : Role) :
    Paints (paint ⟨true⟩ role text) (paint ⟨false⟩ role text) :=
  (shows_paint h ⟨true⟩ role).paints

theorem Paints.visible_eq (h : Paints colored plain) : visible colored = plain.toList := by
  simpa [visible, strip] using h.strip_append []

theorem Paints.stripped_eq (h : Paints colored plain) : stripped colored = plain := by
  rw [stripped, h.visible_eq, String.ofList_toList]

/-- The padding before a target is counted without the escape sequences, so the target stands in the
same column. -/
theorem Paints.withTarget (h : Paints colored plain) {target : String} (htarget : Bare target) :
    Paints (Layout.withTarget colored target) (Layout.withTarget plain target) := by
  have hwidth : (visible colored).length = (visible plain).length := by
    rw [h.visible_eq, h.bare.paints.visible_eq]
  unfold Layout.withTarget
  split
  · exact h
  · rw [hwidth]
    exact (h.append (bare_blanks _).paints).append htarget.paints

theorem shows_painted (palette : Palette) (instruction : Instruction) :
    Shows (instruction.painted palette) (instruction.painted ⟨false⟩) := by
  unfold Instruction.painted
  split
  · next literal _ =>
    have hmnemonic : Bare (instruction.mnemonic ++ " ") := by simp +decide
    exact (Shows.plain hmnemonic).append (shows_paint (bare_display literal) palette .operand)
  · exact .plain (bare_mnemonic instruction)

theorem paints_painted (instruction : Instruction) :
    Paints (instruction.painted ⟨true⟩) (instruction.painted ⟨false⟩) :=
  (shows_painted ⟨true⟩ instruction).paints

theorem paints_join {colored plain : List String} (h : List.Forall₂ Paints colored plain) :
    Paints (String.join (colored.map (· ++ "\n"))) (String.join (plain.map (· ++ "\n"))) := by
  induction h with
  | nil =>
    have hempty : Bare "" := by decide
    exact hempty.paints
  | cons hline _ ih =>
    have hend : Bare "\n" := by decide
    simp only [List.map_cons, String.join_cons]
    exact (hline.append hend.paints).append ih

theorem map_stripped {colored plain : List String} (h : List.Forall₂ Paints colored plain) :
    colored.map stripped = plain := by
  induction h with
  | nil => rfl
  | cons hline _ ih => rw [List.map_cons, hline.stripped_eq, ih]

end Paints

end Palette

end Whitespace
