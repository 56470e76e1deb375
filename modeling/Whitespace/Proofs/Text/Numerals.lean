import Mathlib.Data.List.TakeWhile
import Whitespace.Text.CodePoints
import Whitespace.Text.Decimal

/-!
Decimal numerals and the white space around them. `Numeral` says which texts are read as an integer and as
which one, and `Trims` says what trimming leaves of a text. Numerals have no white space in them, so a
numeral between blanks is found again.
-/

namespace Whitespace.Text

structure Trims (text core : List Char) : Prop where
  blanks : ∃ before after, text = before ++ core ++ after ∧ ∀ c ∈ before ++ after, isBlank c
  first : ∀ c rest, core = c :: rest → ¬ isBlank c
  last : ∀ c rest, core = rest ++ [c] → ¬ isBlank c

section Trimming

variable {text core rest : List Char} {c : Char}

theorem not_isBlank_of_dropWhile (h : text.dropWhile isBlank = c :: rest) : ¬ isBlank c := by
  have hhead := List.head?_dropWhile_not isBlank text
  rw [h] at hhead
  simpa using hhead

theorem trims_trim (text : List Char) : Trims text (trim text) := by
  let rest := text.dropWhile isBlank
  let after := (rest.reverse.takeWhile isBlank).reverse
  have hrest : rest = trim text ++ after := by
    calc rest
        = (rest.reverse.takeWhile isBlank ++ rest.reverse.dropWhile isBlank).reverse := by
          rw [List.takeWhile_append_dropWhile, List.reverse_reverse]
      _ = trim text ++ after := List.reverse_append
  refine ⟨⟨text.takeWhile isBlank, after, ?_, ?_⟩, ?_, ?_⟩
  · rw [List.append_assoc, ← hrest, List.takeWhile_append_dropWhile]
  · intro c hc
    rw [List.mem_append, List.mem_reverse] at hc
    exact hc.elim List.mem_takeWhile_imp List.mem_takeWhile_imp
  · intro c tail hfirst
    rw [hfirst, List.cons_append] at hrest
    exact not_isBlank_of_dropWhile hrest
  · intro c front hlast
    have hreverse := congrArg List.reverse hlast
    rw [trim, List.reverse_reverse, List.reverse_append] at hreverse
    exact not_isBlank_of_dropWhile hreverse

theorem dropWhile_append_of_first (hfirst : ∀ c rest, core = c :: rest → ¬ isBlank c)
    (hne : core ≠ []) (text : List Char) :
    (core ++ text).dropWhile isBlank = core ++ text := by
  obtain ⟨c, rest, rfl⟩ := List.exists_cons_of_ne_nil hne
  exact List.dropWhile_cons_of_neg (hfirst c rest rfl)

theorem Trims.eq_trim (h : Trims text core) : trim text = core := by
  obtain ⟨⟨before, after, rfl, hblanks⟩, hfirst, hlast⟩ := h
  have hbefore : ∀ c ∈ before, isBlank c := fun c hc => hblanks c (List.mem_append_left _ hc)
  have hafter : ∀ c ∈ after, isBlank c := fun c hc => hblanks c (List.mem_append_right _ hc)
  rw [trim, List.append_assoc, List.dropWhile_append_of_pos hbefore]
  rcases List.eq_nil_or_concat core with rfl | ⟨rest, c, rfl⟩
  · rw [List.nil_append, List.dropWhile_eq_nil_iff.mpr hafter]
    rfl
  · rw [List.concat_eq_append] at hfirst hlast ⊢
    rw [dropWhile_append_of_first hfirst (by simp), List.reverse_append,
      List.dropWhile_append_of_pos (by simpa using hafter), List.reverse_append,
      List.reverse_singleton, List.singleton_append,
      List.dropWhile_cons_of_neg (hlast c rest rfl), List.reverse_cons, List.reverse_reverse]

end Trimming

namespace Decimal

/-- One or more digits, with or without one sign before them, and the integer that they denote. -/
inductive Numeral : List Char → Int → Prop
  | plain {digits : List Char} (hne : digits ≠ []) (hdigits : ∀ c ∈ digits, c.isDigit) :
      Numeral digits (Nat.ofDigitChars 10 digits 0)
  | plus {digits : List Char} (hne : digits ≠ []) (hdigits : ∀ c ∈ digits, c.isDigit) :
      Numeral ('+' :: digits) (Nat.ofDigitChars 10 digits 0)
  | minus {digits : List Char} (hne : digits ≠ []) (hdigits : ∀ c ∈ digits, c.isDigit) :
      Numeral ('-' :: digits) (-(Nat.ofDigitChars 10 digits 0 : Int))

section Numerals

variable {text : List Char} {number : Nat} {n : Int}

theorem readDigits_eq_some_iff {found : Nat} :
    readDigits number text = some found ↔
      (∀ c ∈ text, c.isDigit) ∧ found = Nat.ofDigitChars 10 text number := by
  constructor
  · intro h
    have hdigits : ∀ c ∈ text, c.isDigit := by
      induction text generalizing number with
      | nil => exact nofun
      | cons c rest ih =>
        rw [readDigits] at h
        split at h
        · next hc => exact List.forall_mem_cons.mpr ⟨hc, ih h⟩
        · cases h
    rw [readDigits_of_isDigit hdigits] at h
    exact ⟨hdigits, (Option.some.inj h).symm⟩
  · rintro ⟨hdigits, rfl⟩
    exact readDigits_of_isDigit hdigits number

theorem digits?_eq_some_iff :
    digits? text = some number ↔
      text ≠ [] ∧ (∀ c ∈ text, c.isDigit) ∧ number = Nat.ofDigitChars 10 text 0 := by
  cases text with
  | nil => simp [digits?]
  | cons c rest =>
    rw [digits?, if_neg (by simp), readDigits_eq_some_iff]
    simp

theorem integer?_minus (digits : List Char) :
    integer? ('-' :: digits) = (digits? digits).map fun n : Nat => -(n : Int) := by
  change Option.map (fun n : Int => -n) ((digits? digits).bind fun n => some (n : Int)) = _
  cases digits? digits <;> rfl

theorem integer?_plus (digits : List Char) :
    integer? ('+' :: digits) = (digits? digits).map Int.ofNat := rfl

theorem integer?_unsigned (hminus : ∀ digits, text ≠ '-' :: digits)
    (hplus : ∀ digits, text ≠ '+' :: digits) : integer? text = (digits? text).map Int.ofNat := by
  unfold integer? natural?
  split
  · exact absurd rfl (hminus _)
  · split
    · exact absurd rfl (hplus _)
    · rfl

theorem integer?_of_isDigit (hdigits : ∀ c ∈ text, c.isDigit) :
    integer? text = (digits? text).map Int.ofNat := by
  apply integer?_unsigned
  · rintro digits rfl
    cases hdigits '-' List.mem_cons_self
  · rintro digits rfl
    cases hdigits '+' List.mem_cons_self

theorem numeral_of_integer? (h : integer? text = some n) : Numeral text n := by
  by_cases hminus : ∃ digits, text = '-' :: digits
  · obtain ⟨digits, rfl⟩ := hminus
    rw [integer?_minus] at h
    obtain ⟨number, hnumber, rfl⟩ := Option.map_eq_some_iff.mp h
    obtain ⟨hne, hdigits, rfl⟩ := digits?_eq_some_iff.mp hnumber
    exact .minus hne hdigits
  by_cases hplus : ∃ digits, text = '+' :: digits
  · obtain ⟨digits, rfl⟩ := hplus
    rw [integer?_plus] at h
    obtain ⟨number, hnumber, rfl⟩ := Option.map_eq_some_iff.mp h
    obtain ⟨hne, hdigits, rfl⟩ := digits?_eq_some_iff.mp hnumber
    exact .plus hne hdigits
  · rw [integer?_unsigned (not_exists.mp hminus) (not_exists.mp hplus)] at h
    obtain ⟨number, hnumber, rfl⟩ := Option.map_eq_some_iff.mp h
    obtain ⟨hne, hdigits, rfl⟩ := digits?_eq_some_iff.mp hnumber
    exact .plain hne hdigits

theorem integer?_eq_some_iff : integer? text = some n ↔ Numeral text n := by
  refine ⟨numeral_of_integer?, fun h => ?_⟩
  cases h with
  | plain hne hdigits =>
    rw [integer?_of_isDigit hdigits, digits?_eq_some_iff.mpr ⟨hne, hdigits, rfl⟩]
    rfl
  | plus hne hdigits =>
    rw [integer?_plus, digits?_eq_some_iff.mpr ⟨hne, hdigits, rfl⟩]
    rfl
  | minus hne hdigits =>
    rw [integer?_minus, digits?_eq_some_iff.mpr ⟨hne, hdigits, rfl⟩]
    rfl

theorem not_isBlank_of_isDigit {c : Char} (h : c.isDigit) : ¬ isBlank c := by
  have hrange : 48 ≤ c.toNat ∧ c.toNat ≤ 57 := by
    simpa [Char.isDigit, UInt32.le_iff_toNat_le] using h
  simp only [isBlank, CodePoints.contains, blanks, List.any_cons, List.any_nil, Bool.or_eq_true,
    Bool.and_eq_true, decide_eq_true_eq, Bool.false_eq_true, or_false]
  omega

theorem Numeral.not_isBlank (h : Numeral text n) {c : Char} (hc : c ∈ text) : ¬ isBlank c := by
  cases h with
  | plain hne hdigits => exact not_isBlank_of_isDigit (hdigits c hc)
  | plus hne hdigits | minus hne hdigits =>
    rcases List.mem_cons.mp hc with rfl | hc
    · decide
    · exact not_isBlank_of_isDigit (hdigits c hc)

theorem Numeral.trims {before after : List Char} (h : Numeral text n)
    (hblanks : ∀ c ∈ before ++ after, isBlank c) : Trims (before ++ text ++ after) text := by
  refine ⟨⟨before, after, rfl, hblanks⟩, ?_, ?_⟩
  · rintro c rest rfl
    exact h.not_isBlank List.mem_cons_self
  · rintro c rest rfl
    exact h.not_isBlank (List.mem_append_right _ (List.mem_singleton.mpr rfl))

end Numerals

end Decimal

end Whitespace.Text
