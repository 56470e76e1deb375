import Whitespace.Proofs.Literals.Words

/-!
Validation of literals. A text is checked for foreign characters when a literal is made of it, and again
when a text is decoded; the one search counts bytes, the other counts characters and reads digits on its
way. Every text is a run of digits with or without a foreign character behind it, and up to that character
each digit is one byte wide. So both find the same character at the same position, unless the digits
before it overflow first.
-/

namespace Whitespace.Literal

/-- The first character that is neither a space nor a tab, and the bytes before it in a text of which
`offset` bytes have been searched. -/
def foreign? (offset : Nat) : List Char → Option (Char × Nat)
  | [] => none
  | c :: rest => if c ≠ ' ' ∧ c ≠ '\t' then some (c, offset) else foreign? (offset + c.utf8Size) rest

def validate (raw : String) : Except LiteralError String :=
  if raw = "" then .error .empty
  else
    match foreign? 0 raw.toList with
    | some (found, offset) => .error (.invalidGlyph found offset)
    | none => .ok raw

def leadingDigits (raw : String) : List Char :=
  (raw.toList.takeWhile fun c => c = ' ' ∨ c = '\t').tail

theorem bit?_eq_none_iff {c : Char} : bit? c = none ↔ c ≠ ' ' ∧ c ≠ '\t' := by
  unfold bit?
  split <;> simp_all

section Runs

variable (bits : List Bool) (text : List Char)

@[simp] theorem bitChars_nil : bitChars [] = [] := rfl

@[simp] theorem bitChars_cons (bit : Bool) :
    bitChars (bit :: bits) = (bitGlyph bit).toChar :: bitChars bits := rfl

@[simp] theorem length_bitChars : (bitChars bits).length = bits.length := List.length_map _

theorem add_length_cons (count : Nat) (bit : Bool) :
    count + (bit :: bits).length = count + 1 + bits.length := by
  rw [List.length_cons, Nat.add_comm bits.length, Nat.add_assoc]

theorem eq_space_or_tab_of_mem_bitChars {c : Char} (h : c ∈ bitChars bits) : c = ' ' ∨ c = '\t' := by
  obtain ⟨bit, -, rfl⟩ := List.mem_map.mp h
  cases bit with
  | false => exact .inl rfl
  | true => exact .inr rfl

theorem exists_bitChars :
    ∃ bits, text = bitChars bits ∨
      ∃ found after, bit? found = none ∧ text = bitChars bits ++ found :: after := by
  induction text with
  | nil => exact ⟨[], .inl rfl⟩
  | cons c rest ih =>
    cases hbit : bit? c with
    | none => exact ⟨[], .inr ⟨c, rest, hbit, rfl⟩⟩
    | some bit =>
      have hc : c = (bitGlyph bit).toChar := by
        unfold bit? at hbit
        split at hbit <;> cases hbit <;> rfl
      obtain ⟨bits, rfl | ⟨found, after, hfound, rfl⟩⟩ := ih
      · exact ⟨bit :: bits, .inl (by rw [hc, bitChars_cons])⟩
      · exact ⟨bit :: bits, .inr ⟨found, after, hfound, by rw [hc, bitChars_cons, List.cons_append]⟩⟩

theorem takeWhile_bitChars_append {found : Char} (hfound : bit? found = none) (after : List Char) :
    (bitChars bits ++ found :: after).takeWhile (fun c => c = ' ' ∨ c = '\t') = bitChars bits := by
  have hstop : ¬ (found = ' ' ∨ found = '\t') := not_or.mpr (bit?_eq_none_iff.mp hfound)
  rw [List.takeWhile_append_of_pos, List.takeWhile_cons_of_neg (by simpa using hstop),
    List.append_nil]
  intro c hc
  simpa using eq_space_or_tab_of_mem_bitChars bits hc

theorem foreign?_append (offset : Nat) :
    foreign? offset (bitChars bits ++ text) = foreign? (offset + bits.length) text := by
  induction bits generalizing offset with
  | nil => rfl
  | cons bit bits ih =>
    have hnext := ih (offset + 1)
    rw [add_length_cons, ← hnext]
    cases bit <;> rfl

theorem readBits_append (position : Nat) :
    readBits position (bitChars bits ++ text) =
      (readBits (position + bits.length) text).map (bits ++ ·) := by
  induction bits generalizing position with
  | nil =>
    rw [bitChars_nil, List.nil_append, List.length_nil, Nat.add_zero]
    cases readBits position text <;> rfl
  | cons bit bits ih =>
    rw [bitChars_cons, List.cons_append, readBits, bit?_bitGlyph, ih, add_length_cons]
    cases readBits (position + 1 + bits.length) text <;> rfl

theorem readMagnitude_append (length position magnitude : Nat) (hstart : magnitude < UInt64.size) :
    readMagnitude length position magnitude (bitChars bits ++ text) =
      if magnitudeFrom magnitude bits < UInt64.size then
        readMagnitude length (position + bits.length) (magnitudeFrom magnitude bits) text
      else .error (.overflow length) := by
  induction bits generalizing position magnitude with
  | nil => exact (if_pos hstart).symm
  | cons bit bits ih =>
    rw [bitChars_cons, List.cons_append, readMagnitude, bit?_bitGlyph, add_length_cons,
      magnitudeFrom_cons]
    simp only
    split
    · next hnext => exact ih (position + 1) (2 * magnitude + bit.toNat) hnext
    · next hlarge =>
      have hle := le_magnitudeFrom (2 * magnitude + bit.toNat) bits
      rw [if_neg (by omega)]

theorem denoted_bitChars (negative : Bool) :
    denoted (bitGlyph negative).toChar (bitChars bits) = toInt ⟨negative, bits⟩ := by
  have hdigit (bit : Bool) : (if (bitGlyph bit).toChar = '\t' then 1 else 0) = bit.toNat := by
    cases bit <;> rfl
  have hsign : (bitGlyph negative).toChar = '\t' ↔ negative = true := by
    cases negative <;> decide
  simp only [denoted, toInt, signed, magnitudeFrom_eq_ofDigits, bitChars, ← List.map_reverse,
    List.map_map, Function.comp_def, hdigit, hsign]

end Runs

theorem text_cases (raw : String) :
    raw = "" ∨ (∃ literal : Literal, raw = literal.text) ∨
      ∃ bits found after, bit? found = none ∧
        raw = String.ofList (bitChars bits ++ found :: after) := by
  obtain ⟨bits, hwhole | ⟨found, after, hfound, hbroken⟩⟩ := exists_bitChars raw.toList
  · cases bits with
    | nil => exact .inl (String.toList_inj.mp hwhole)
    | cons negative bits =>
      refine .inr (.inl ⟨⟨negative, bits⟩, ?_⟩)
      apply String.toList_inj.mp
      rw [hwhole, toList_text, bitChars_cons]
  · refine .inr (.inr ⟨bits, found, after, hfound, ?_⟩)
    rw [← hbroken, String.ofList_toList]

section Foreign

variable {found : Char} (hfound : bit? found = none) (bits : List Bool) (after : List Char)

include hfound

theorem validate_of_foreign :
    validate (String.ofList (bitChars bits ++ found :: after)) =
      .error (.invalidGlyph found bits.length) := by
  have hne : String.ofList (bitChars bits ++ found :: after) ≠ "" := by
    rw [ne_eq, ← String.toList_eq_nil_iff, String.toList_ofList]
    exact List.append_ne_nil_of_right_ne_nil _ (List.cons_ne_nil _ _)
  rw [validate, if_neg hne, String.toList_ofList, foreign?_append, foreign?,
    if_pos (bit?_eq_none_iff.mp hfound), Nat.zero_add]

theorem ofText_of_foreign :
    ofText (String.ofList (bitChars bits ++ found :: after)) =
      .error (.invalidGlyph found bits.length) := by
  unfold ofText
  rw [String.toList_ofList]
  cases bits with
  | nil => simp only [bitChars_nil, List.nil_append, hfound, List.length_nil]
  | cons negative bits =>
    simp only [bitChars_cons, List.cons_append, bit?_bitGlyph, readBits_append, readBits, hfound,
      List.length_cons, Nat.add_comm 1]
    rfl

theorem decodeText_of_foreign :
    decodeText (String.ofList (bitChars bits ++ found :: after)) =
      if magnitudeFrom 0 bits.tail < UInt64.size then .error (.invalidGlyph found bits.length)
      else .error (.overflow (bits.length + after.length)) := by
  unfold decodeText
  rw [String.toList_ofList]
  cases bits with
  | nil =>
    simp only [bitChars_nil, List.nil_append, hfound, List.length_nil, List.tail_nil]
    rfl
  | cons negative bits =>
    have hlength : (bitChars bits ++ found :: after).length =
        (negative :: bits).length + after.length := by
      simp only [List.length_append, length_bitChars, List.length_cons]
      omega
    simp only [bitChars_cons, List.cons_append, bit?_bitGlyph, hlength,
      readMagnitude_append _ _ _ _ 0 (by decide), readMagnitude, hfound]
    change _ = if magnitudeFrom 0 bits < UInt64.size then _ else _
    split
    · rw [List.length_cons, Nat.add_comm]
      rfl
    · rfl

end Foreign

theorem validate_text (literal : Literal) : validate literal.text = .ok literal.text := by
  have htext := literal.toList_text
  rw [← bitChars_cons, ← List.append_nil (bitChars _)] at htext
  have hne : literal.text ≠ "" := by
    rw [ne_eq, ← String.toList_eq_nil_iff, toList_text]
    exact List.cons_ne_nil _ _
  rw [validate, if_neg hne, htext, foreign?_append, foreign?]

theorem leadingDigits_of_foreign {found : Char} (hfound : bit? found = none) (bits : List Bool)
    (after : List Char) :
    leadingDigits (String.ofList (bitChars bits ++ found :: after)) = bitChars bits.tail := by
  rw [leadingDigits, String.toList_ofList, takeWhile_bitChars_append bits hfound, bitChars,
    ← List.map_tail, ← bitChars]

theorem validate_eq (raw : String) : validate raw = (ofText raw).map text := by
  obtain rfl | ⟨literal, rfl⟩ | ⟨bits, found, after, hfound, rfl⟩ := text_cases raw
  · rfl
  · rw [validate_text, ofText_text]
    rfl
  · rw [validate_of_foreign hfound, ofText_of_foreign hfound]
    rfl

theorem ofText_eq_ok_iff {raw : String} {literal : Literal} :
    ofText raw = .ok literal ↔ raw = literal.text := by
  constructor
  · intro h
    obtain rfl | ⟨other, rfl⟩ | ⟨bits, found, after, hfound, rfl⟩ := text_cases raw
    · cases h
    · rw [ofText_text] at h
      rw [Except.ok.inj h]
    · rw [ofText_of_foreign hfound] at h
      cases h
  · rintro rfl
    exact literal.ofText_text

theorem exists_ofText_eq_ok_iff (raw : String) :
    (∃ literal, ofText raw = .ok literal) ↔ raw ≠ "" ∧ ∀ c ∈ raw.toList, c = ' ' ∨ c = '\t' := by
  simp only [ofText_eq_ok_iff]
  constructor
  · rintro ⟨literal, rfl⟩
    have htext := literal.toList_text
    rw [← bitChars_cons] at htext
    constructor
    · rw [ne_eq, ← String.toList_eq_nil_iff, htext]
      exact List.cons_ne_nil _ _
    · rw [htext]
      exact fun c hc => eq_space_or_tab_of_mem_bitChars _ hc
  · rintro ⟨hne, hglyphs⟩
    obtain rfl | hliteral | ⟨bits, found, after, hfound, rfl⟩ := text_cases raw
    · exact absurd rfl hne
    · exact hliteral
    · obtain ⟨hspace, htab⟩ := bit?_eq_none_iff.mp hfound
      rcases hglyphs found (by simp) with h | h
      · exact absurd h hspace
      · exact absurd h htab

theorem decode_ne_error (literal : Literal) {error : LiteralError}
    (h : ∀ bits, error ≠ .overflow bits) : literal.decode ≠ .error error := by
  unfold decode
  split
  · exact nofun
  · exact fun heq => h _ (Except.error.inj heq).symm

theorem decodeText_of_ofText_error {raw : String} {error : LiteralError}
    (h : ofText raw = .error error) :
    decodeText raw =
      if 2 ^ 64 ≤ denoted ' ' (leadingDigits raw) then .error (.overflow (raw.length - 1))
      else .error error := by
  obtain rfl | ⟨literal, rfl⟩ | ⟨bits, found, after, hfound, rfl⟩ := text_cases raw
  · cases h
    rfl
  · rw [ofText_text] at h
    cases h
  · rw [ofText_of_foreign hfound] at h
    cases h
    have hnumber : denoted ' ' (bitChars bits.tail) = magnitudeFrom 0 bits.tail :=
      denoted_bitChars bits.tail false
    have hlength : (String.ofList (bitChars bits ++ found :: after)).length - 1 =
        bits.length + after.length := by
      simp only [String.length_ofList, List.length_append, length_bitChars, List.length_cons]
      omega
    rw [decodeText_of_foreign hfound, leadingDigits_of_foreign hfound, hnumber, hlength]
    have hlarge : (2 ^ 64 : Int) ≤ magnitudeFrom 0 bits.tail ↔
        ¬ magnitudeFrom 0 bits.tail < UInt64.size := by
      rw [UInt64.size]
      omega
    simp only [hlarge, ite_not]

/-- Validation and decoding agree on what a text is. A text is accepted as a literal if and only if it
consists of spaces and tabs and is not empty, and then decoding can complain of nothing but overflow. A
text that is not accepted is refused by decoding for the same reason, with the same character at the same
position, unless the digits before that character denote `2 ^ 64` or more. Counting bytes up to the
character or counting characters comes to the same. -/
theorem validation_agrees_with_decoding (raw : String) :
    validate raw = (ofText raw).map text ∧
      ((∃ literal, ofText raw = .ok literal) ↔
        raw ≠ "" ∧ ∀ c ∈ raw.toList, c = ' ' ∨ c = '\t') ∧
      (∀ literal, ofText raw = .ok literal →
        literal.text = raw ∧ decodeText raw = literal.decode ∧
          literal.decode ≠ .error .empty ∧
          ∀ found position, literal.decode ≠ .error (.invalidGlyph found position)) ∧
      ∀ error, ofText raw = .error error →
        decodeText raw =
          if 2 ^ 64 ≤ denoted ' ' (leadingDigits raw) then .error (.overflow (raw.length - 1))
          else .error error := by
  refine ⟨validate_eq raw, exists_ofText_eq_ok_iff raw, ?_, fun _ => decodeText_of_ofText_error⟩
  intro literal h
  obtain rfl := ofText_eq_ok_iff.mp h
  exact ⟨rfl, literal.decodeText_text, literal.decode_ne_error nofun,
    fun _ _ => literal.decode_ne_error nofun⟩

theorem validation_agrees_with_decoding_ones :
    let behind (ones : Nat) :=
      String.ofList (bitChars (false :: List.replicate ones true) ++ ['é'])
    ofText "\t" = .ok ⟨true, []⟩ ∧ decodeText "\t" ≠ .error .empty ∧
      ofText (behind 64) = .error (.invalidGlyph 'é' 65) ∧
      decodeText (behind 64) = .error (.invalidGlyph 'é' 65) ∧
      ofText (behind 65) = .error (.invalidGlyph 'é' 66) ∧
      decodeText (behind 65) = .error (.overflow 66) := by
  intro behind
  have hfound : bit? 'é' = none := rfl
  have hsign : ofText "\t" = .ok ⟨true, []⟩ := rfl
  have hfew : ofText (behind 64) = .error (.invalidGlyph 'é' 65) := ofText_of_foreign hfound _ []
  have hmany : ofText (behind 65) = .error (.invalidGlyph 'é' 66) := ofText_of_foreign hfound _ []
  obtain ⟨-, -, hliteral, -⟩ := validation_agrees_with_decoding "\t"
  obtain ⟨-, -, -, hfits⟩ := validation_agrees_with_decoding (behind 64)
  obtain ⟨-, -, -, hlarge⟩ := validation_agrees_with_decoding (behind 65)
  obtain ⟨-, hdecode, hempty, -⟩ := hliteral _ hsign
  have hlength : (behind 65).length = 67 := String.length_ofList
  have hfew' := hfits _ hfew
  have hmany' := hlarge _ hmany
  rw [leadingDigits_of_foreign hfound, if_neg (by decide)] at hfew'
  rw [leadingDigits_of_foreign hfound, if_pos (by decide), hlength] at hmany'
  exact ⟨hsign, by rwa [hdecode], hfew, hfew', hmany, hmany'⟩

end Whitespace.Literal
