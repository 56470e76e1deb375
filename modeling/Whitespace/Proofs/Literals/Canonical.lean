import Whitespace.Proofs.Literals.Validation

/-!
Canonical literals. Binary digits are determined by their number up to zeros in front, and the sign by
the value unless that is zero. So what decodes to a value is its encoding with zeros between sign and
digits, which makes the encoding the shortest text of the value, and for every value but zero the only
text of that length.
-/

namespace Whitespace

/-- The magnitude of a value. The least value has one too, as words reach further than values. -/
def Word.magnitude (value : Value) : Word := value.abs.toUInt64

theorem Word.toNat_magnitude (value : Value) : (magnitude value).toNat = value.toInt.natAbs := by
  have habs : (magnitude value).toNat = value.toBitVec.abs.toNat := rfl
  have hint : value.toInt = value.toBitVec.toInt := rfl
  have hlt := value.toBitVec.isLt
  rw [habs, hint, BitVec.toNat_abs, BitVec.toInt_eq_msb_cond]
  split
  · omega
  · omega

namespace Literal

def encodeWords (value : Value) : String :=
  let magnitude := Word.magnitude value
  let sign := if value < 0 then '\t' else ' '
  let digits := if magnitude = 0 then [] else Nat.toDigits 2 magnitude.toNat
  String.ofList (sign :: digits.map fun digit => if digit = '1' then '\t' else ' ')

theorem binaryDigits_zero : binaryDigits 0 = [] := by
  rw [binaryDigits, if_pos rfl]

theorem binaryDigits_double_add {n : Nat} {bit : Bool} (h : 2 * n + bit.toNat ≠ 0) :
    binaryDigits (2 * n + bit.toNat) = binaryDigits n ++ [bit] := by
  have hhalf : (2 * n + bit.toNat) / 2 = n := by
    have hbit := bit.toNat_lt
    omega
  have hlast : ((2 * n + bit.toNat) % 2 == 1) = bit := by
    cases bit <;> simp
  rw [binaryDigits, if_neg h, hhalf, hlast]

theorem exists_eq_replicate_append_binaryDigits (bits : List Bool) :
    ∃ zeros, bits = List.replicate zeros false ++ binaryDigits (magnitudeFrom 0 bits) := by
  induction bits using List.reverseRecOn with
  | nil => exact ⟨0, by rw [magnitudeFrom_nil, binaryDigits_zero]; rfl⟩
  | append_singleton bits bit ih =>
    obtain ⟨zeros, hbits⟩ := ih
    have hnumber : magnitudeFrom 0 (bits ++ [bit]) = 2 * magnitudeFrom 0 bits + bit.toNat := by
      rw [magnitudeFrom_append, magnitudeFrom_cons, magnitudeFrom_nil]
    by_cases hzero : 2 * magnitudeFrom 0 bits + bit.toNat = 0
    · have hmagnitude : magnitudeFrom 0 bits = 0 := by omega
      have hbit : bit = false := by
        cases bit with
        | false => rfl
        | true => simp at hzero
      rw [hmagnitude, binaryDigits_zero, List.append_nil] at hbits
      refine ⟨zeros + 1, ?_⟩
      rw [hnumber, hzero, binaryDigits_zero, List.append_nil, List.replicate_succ', ← hbits, hbit]
    · refine ⟨zeros, ?_⟩
      rw [hnumber, binaryDigits_double_add hzero, ← List.append_assoc, ← hbits]

/-- The literal with more zeros in front of its digits. -/
def padded (literal : Literal) (zeros : Nat) : Literal :=
  { literal with bits := List.replicate zeros false ++ literal.bits }

theorem magnitudeFrom_replicate_false (zeros : Nat) :
    magnitudeFrom 0 (List.replicate zeros false) = 0 := by
  induction zeros with
  | zero => rfl
  | succ zeros ih => exact ih

theorem toInt_padded (literal : Literal) (zeros : Nat) :
    (literal.padded zeros).toInt = literal.toInt := by
  simp only [toInt, padded, magnitudeFrom_append, magnitudeFrom_replicate_false]

theorem decode_eq_ok_iff {literal : Literal} {value : Value} :
    literal.decode = .ok value ↔ Value.ofInt? literal.toInt = some value := by
  unfold decode
  split <;> simp_all

theorem decode_padded_eq_ok_iff {literal : Literal} {zeros : Nat} {value : Value} :
    (literal.padded zeros).decode = .ok value ↔ literal.decode = .ok value := by
  rw [decode_eq_ok_iff, decode_eq_ok_iff, toInt_padded]

theorem decode_zeros (negative : Bool) (zeros : Nat) :
    (⟨negative, List.replicate zeros false⟩ : Literal).decode = .ok 0 := by
  rw [decode_eq_ok_iff, toInt, magnitudeFrom_replicate_false]
  cases negative <;> rfl

theorem map_toDigits_eq_bitChars {n : Nat} (h : n ≠ 0) :
    ((Nat.toDigits 2 n).map fun digit => if digit = '1' then '\t' else ' ') =
      bitChars (binaryDigits n) := by
  fun_induction binaryDigits n with
  | case1 => exact absurd rfl h
  | case2 n _ ih =>
    have hlast : (if (n % 2).digitChar = '1' then '\t' else ' ') =
        (bitGlyph (n % 2 == 1)).toChar := by
      rcases Nat.mod_two_eq_zero_or_one n with hbit | hbit
      · rw [hbit]
        rfl
      · rw [hbit]
        rfl
    rw [bitChars, List.map_append, ← bitChars, List.map_singleton, ← hlast]
    by_cases hone : n < 2
    · have hhalf : n / 2 = 0 := by omega
      rw [Nat.toDigits_of_lt_base hone, hhalf, binaryDigits_zero, Nat.mod_eq_of_lt hone]
      rfl
    · rw [Nat.toDigits_of_base_le (by decide) (Nat.le_of_not_lt hone), List.map_append,
        ih (by omega), List.map_singleton]

theorem toChar_negative_encode (value : Value) :
    (bitGlyph (encode value).negative).toChar = if value < 0 then '\t' else ' ' := by
  have hlt : value < 0 ↔ value.toInt < 0 := Int64.lt_iff_toInt_lt
  by_cases h : value.toInt < 0
  · rw [encode, if_pos (hlt.mpr h), decide_eq_true h]
    rfl
  · rw [encode, if_neg (mt hlt.mp h), decide_eq_false h]
    rfl

theorem encodeWords_eq (value : Value) : encodeWords value = (encode value).text := by
  have hzero : Word.magnitude value = 0 ↔ value.toInt.natAbs = 0 := by
    rw [← UInt64.toNat_inj, Word.toNat_magnitude]
    rfl
  apply String.toList_inj.mp
  rw [encodeWords, String.toList_ofList, toList_text, toChar_negative_encode]
  refine congrArg (List.cons _) ?_
  simp only [encode, hzero, Word.toNat_magnitude]
  split
  · next h => rw [h, binaryDigits_zero, List.map_nil, bitChars_nil]
  · next h => rw [map_toDigits_eq_bitChars h]

/-- A literal denotes a value if it has its digits, zeros in front apart, and its sign, unless the value
is zero. -/
theorem toInt_eq_iff {literal : Literal} {value : Value} :
    literal.toInt = value.toInt ↔
      (value ≠ 0 → literal.negative = (encode value).negative) ∧
        ∃ zeros, literal.bits = List.replicate zeros false ++ (encode value).bits := by
  have hzero : value = 0 ↔ value.toInt = 0 := by
    rw [← Int64.toInt_inj, Int64.toInt_zero]
  constructor
  · intro h
    have habs : magnitudeFrom 0 literal.bits = value.toInt.natAbs := by
      rw [← h, toInt, signed]
      split
      · omega
      · omega
    refine ⟨fun hne => ?_, ?_⟩
    · rw [ne_eq, hzero] at hne
      rw [toInt, signed] at h
      cases hnegative : literal.negative with
      | true =>
        rw [hnegative, if_pos rfl] at h
        exact (decide_eq_true (by omega)).symm
      | false =>
        rw [hnegative, if_neg Bool.false_ne_true] at h
        exact (decide_eq_false (by omega)).symm
    · obtain ⟨zeros, hbits⟩ := exists_eq_replicate_append_binaryDigits literal.bits
      rw [habs] at hbits
      exact ⟨zeros, hbits⟩
  · rintro ⟨hsign, zeros, hbits⟩
    have habs : magnitudeFrom 0 literal.bits = value.toInt.natAbs := by
      rw [hbits, magnitudeFrom_append, magnitudeFrom_replicate_false, encode,
        magnitudeFrom_binaryDigits]
    rw [toInt, habs]
    by_cases hne : value = 0
    · rw [hzero.mp hne]
      cases literal.negative <;> rfl
    · rw [hsign hne, encode, signed]
      simp only [decide_eq_true_eq]
      split
      · omega
      · omega

theorem decodeText_eq_ok_iff {raw : String} {value : Value} :
    decodeText raw = .ok value ↔
      ∃ literal : Literal, raw = literal.text ∧ literal.toInt = value.toInt := by
  constructor
  · intro h
    obtain rfl | ⟨literal, rfl⟩ | ⟨bits, found, after, hfound, rfl⟩ := text_cases raw
    · cases h
    · rw [decodeText_text, decode_eq_ok_iff] at h
      exact ⟨literal, rfl, (Value.toInt_of_ofInt? h).symm⟩
    · rw [decodeText_of_foreign hfound] at h
      split at h
      · cases h
      · cases h
  · rintro ⟨literal, rfl, h⟩
    rw [decodeText_text, decode_eq_ok_iff, h, Value.ofInt?_toInt]

theorem toList_text_padded (negative : Bool) (bits : List Bool) (zeros : Nat) :
    (padded ⟨negative, bits⟩ zeros).text.toList =
      (bitGlyph negative).toChar :: (List.replicate zeros ' ' ++ bitChars bits) := by
  have hzeros : bitChars (List.replicate zeros false) = List.replicate zeros ' ' := List.map_replicate
  rw [toList_text, padded, bitChars, List.map_append, ← bitChars, hzeros, ← bitChars]

theorem decodeText_eq_ok_iff_padded {raw : String} {value : Value} :
    decodeText raw = .ok value ↔
      ∃ negative zeros, (value ≠ 0 → negative = (encode value).negative) ∧
        raw = (padded ⟨negative, (encode value).bits⟩ zeros).text := by
  rw [decodeText_eq_ok_iff]
  constructor
  · rintro ⟨⟨negative, bits⟩, rfl, h⟩
    obtain ⟨hsign, zeros, rfl⟩ := toInt_eq_iff.mp h
    exact ⟨negative, zeros, hsign, rfl⟩
  · rintro ⟨negative, zeros, hsign, rfl⟩
    exact ⟨_, rfl, toInt_eq_iff.mpr ⟨hsign, zeros, rfl⟩⟩

theorem length_text (literal : Literal) : literal.text.length = literal.bits.length + 1 := by
  rw [← String.length_toList, toList_text, List.length_cons, length_bitChars]

theorem length_encode_le {raw : String} {value : Value} (h : decodeText raw = .ok value) :
    (encode value).text.length ≤ raw.length ∧
      (value ≠ 0 → raw.length = (encode value).text.length → raw = (encode value).text) := by
  obtain ⟨negative, zeros, hsign, rfl⟩ := decodeText_eq_ok_iff_padded.mp h
  simp only [length_text, padded, List.length_append, List.length_replicate]
  refine ⟨by omega, fun hne hequal => ?_⟩
  have hzeros : zeros = 0 := by omega
  rw [hsign hne, hzeros]
  rfl

/-- Encoding is undone by decoding, and gives the canonical literal of a value. A text decodes to the
value if and only if it has the digits of the encoding behind a sign and any number of zeros, where the
sign can differ only if the value is zero. So the encoding is the shortest such text, and the only one of
its length if the value is not zero. Printing the magnitude, which the least value has in a word, gives
this encoding. -/
theorem encoding_is_canonical (value : Value) :
    ∃ digits, (encode value).text = String.ofList ((if value < 0 then '\t' else ' ') :: digits) ∧
      encodeWords value = (encode value).text ∧
      decodeText (encode value).text = .ok value ∧
      ofText (encode value).text = .ok (encode value) ∧
      (∀ raw, decodeText raw = .ok value ↔
        ∃ sign zeros, (sign = ' ' ∨ sign = '\t') ∧
          (value ≠ 0 → sign = if value < 0 then '\t' else ' ') ∧
          raw = String.ofList (sign :: (List.replicate zeros ' ' ++ digits))) ∧
      ∀ raw, decodeText raw = .ok value →
        (encode value).text.length ≤ raw.length ∧
          (value ≠ 0 → raw.length = (encode value).text.length → raw = (encode value).text) := by
  refine ⟨bitChars (encode value).bits, ?_, encodeWords_eq value, ?_, ofText_text _, ?_,
    fun raw => length_encode_le⟩
  · rw [← toChar_negative_encode, ← toList_text, String.ofList_toList]
  · rw [decodeText_text, decode_encode]
  · intro raw
    rw [decodeText_eq_ok_iff_padded, ← toChar_negative_encode]
    constructor
    · rintro ⟨negative, zeros, hsign, rfl⟩
      refine ⟨(bitGlyph negative).toChar, zeros, ?_, fun hne => by rw [hsign hne], ?_⟩
      · cases negative with
        | false => exact .inl rfl
        | true => exact .inr rfl
      · rw [← toList_text_padded, String.ofList_toList]
    · rintro ⟨sign, zeros, hglyph, hsign, rfl⟩
      refine ⟨sign = '\t', zeros, fun hne => ?_, ?_⟩
      · rw [hsign hne]
        cases (encode value).negative <;> rfl
      · apply String.toList_inj.mp
        rw [toList_text_padded, String.toList_ofList, bitGlyph_decide hglyph]

theorem encoding_is_canonical_minus_two :
    ((-2 : Value) ≠ 0 ∧ decodeText "\t\t " = .ok (-2) ∧ "\t\t " = (encode (-2)).text) ∧
      decodeText "\t \t " = .ok (-2) ∧ (encode (-2)).text.length ≤ 4 := by
  have hne : (-2 : Value) ≠ 0 := by decide
  have hshort : decodeText "\t\t " = .ok (-2) := rfl
  have hlong : decodeText "\t \t " = .ok (-2) := rfl
  have hdigits : (encode (-2)).bits = [true, false] := by
    have habs : (-2 : Value).toInt.natAbs = 2 := rfl
    rw [encode, habs]
    simp [binaryDigits]
  have hlength : "\t\t ".length = (encode (-2)).text.length := by
    rw [length_text, hdigits]
    rfl
  obtain ⟨-, -, -, -, -, -, hshortest⟩ := encoding_is_canonical (-2)
  exact ⟨⟨hne, hshort, (hshortest _ hshort).2 hne hlength⟩, hlong, (hshortest _ hlong).1⟩

end Literal

end Whitespace
