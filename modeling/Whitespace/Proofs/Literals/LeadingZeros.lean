import Mathlib.Data.Nat.Size
import Whitespace.Proofs.Literals.Canonical

/-!
Zeros in front of the digits of a literal. They change neither the number nor whether 64 bits hold it. A
literal that overflows is reported with the count of all its digits, though: the zeros are counted, and
the count is that of the bits of the magnitude only where there are none.
-/

namespace Whitespace.Literal

def textBehindZeros (sign : Char) (zeros : Nat) (digits : List Char) : String :=
  String.ofList (sign :: (List.replicate zeros ' ' ++ digits))

/-- The digits from the first one on. -/
def significant (digits : List Char) : List Char := digits.dropWhile (· = ' ')

theorem size_magnitudeFrom {start : Nat} (hstart : start ≠ 0) (bits : List Bool) :
    (magnitudeFrom start bits).size = start.size + bits.length := by
  induction bits generalizing start with
  | nil => rfl
  | cons bit bits ih =>
    have hdouble : 2 * start + bit.toNat = Nat.bit bit start := by
      cases bit <;> simp [Nat.bit]
    have hne : Nat.bit bit start ≠ 0 := by
      rw [← hdouble]
      omega
    rw [magnitudeFrom_cons, hdouble, ih hne, Nat.size_bit hne, List.length_cons]
    omega

theorem size_magnitude (bits : List Bool) :
    (magnitudeFrom 0 bits).size = (bits.dropWhile (! ·)).length := by
  induction bits with
  | nil => rfl
  | cons bit bits ih =>
    cases bit with
    | false => exact ih
    | true =>
      have hone : magnitudeFrom 0 (true :: bits) = magnitudeFrom 1 bits := rfl
      rw [hone, size_magnitudeFrom Nat.one_ne_zero, Nat.size_one, Nat.add_comm]
      rfl

theorem natAbs_toInt (literal : Literal) :
    literal.toInt.natAbs = magnitudeFrom 0 literal.bits := by
  unfold toInt signed
  split <;> simp

theorem significant_bitChars (bits : List Bool) :
    significant (bitChars bits) = bitChars (bits.dropWhile (! ·)) := by
  have hzero (bit : Bool) : decide ((bitGlyph bit).toChar = ' ') = !bit := by cases bit <;> rfl
  simp only [significant, bitChars, List.dropWhile_map, Function.comp_def, hzero]

theorem length_eq_significant_iff (digits : List Char) :
    digits.length = (significant digits).length ↔ digits.head? ≠ some ' ' := by
  cases digits with
  | nil => simp [significant]
  | cons c rest =>
    have hle := (List.dropWhile_suffix (p := (· = ' ')) (l := rest)).length_le
    by_cases hc : c = ' '
    · rw [significant, List.dropWhile_cons_of_pos (by simpa using hc), List.length_cons,
        List.head?_cons, hc]
      simp only [ne_eq, not_true, iff_false]
      omega
    · rw [significant, List.dropWhile_cons_of_neg (by simpa using hc), List.head?_cons, ne_eq,
        Option.some.injEq]
      simp only [hc, not_false_eq_true]

theorem decode_eq_error_iff {literal : Literal} {error : LiteralError} :
    literal.decode = .error error ↔
      (∀ value, literal.decode ≠ .ok value) ∧ error = .overflow literal.bits.length := by
  unfold decode
  split
  · simp
  · simp [eq_comm]

theorem decode_padded_eq_error_iff {literal : Literal} {zeros : Nat} {error : LiteralError} :
    (literal.padded zeros).decode = .error error ↔
      literal.decode = .error (.overflow literal.bits.length) ∧
        error = .overflow (zeros + literal.bits.length) := by
  have hlength : (literal.padded zeros).bits.length = zeros + literal.bits.length := by
    simp [padded]
  simp [decode_eq_error_iff, decode_padded_eq_ok_iff, hlength]

theorem decode_padded_eq_iff {literal : Literal} {zeros : Nat} :
    (literal.padded zeros).decode = literal.decode ↔
      zeros = 0 ∨ ∃ value, literal.decode = .ok value := by
  cases hdecode : literal.decode with
  | ok value => simp [decode_padded_eq_ok_iff, hdecode]
  | error error =>
    obtain rfl := (decode_eq_error_iff.mp hdecode).2
    simp [decode_padded_eq_error_iff, hdecode]

section Zeros

variable {sign : Char} {digits : List Char}

/-- Zeros between the sign and the digits of a text change neither its value nor whether it has one. The
count that an overflow is reported with takes them in, so with and without them the text is decoded alike
if and only if there are none or it has a value. That count is the number of bits of the magnitude, which
is that of the digits from the first one on, only if the first digit is not a zero. -/
theorem zeros_in_front_are_only_counted (hsign : sign = ' ' ∨ sign = '\t')
    (hdigits : ∀ c ∈ digits, c = ' ' ∨ c = '\t') (zeros : Nat) :
    (∀ value, decodeText (textBehindZeros sign zeros digits) = .ok value ↔
        decodeText (String.ofList (sign :: digits)) = .ok value) ∧
      (∀ error, decodeText (textBehindZeros sign zeros digits) = .error error ↔
        decodeText (String.ofList (sign :: digits)) = .error (.overflow digits.length) ∧
          error = .overflow (zeros + digits.length)) ∧
      (decodeText (textBehindZeros sign zeros digits) = decodeText (String.ofList (sign :: digits)) ↔
        zeros = 0 ∨ ∃ value, decodeText (String.ofList (sign :: digits)) = .ok value) ∧
      (denoted sign digits).natAbs.size = (significant digits).length ∧
      ∀ count, decodeText (String.ofList (sign :: digits)) = .error (.overflow count) →
        count = digits.length ∧
          (count = (significant digits).length ↔ digits.head? ≠ some ' ') := by
  obtain ⟨literal, htext, hnumber, -⟩ := exists_literal hsign hdigits
  have hlist := congrArg String.toList htext
  rw [toList_text, String.toList_ofList, List.cons.injEq] at hlist
  obtain ⟨rfl, rfl⟩ := hlist
  have hlong : textBehindZeros (bitGlyph literal.negative).toChar zeros (bitChars literal.bits) =
      (literal.padded zeros).text := by
    rw [textBehindZeros, ← toList_text_padded, String.ofList_toList]
  rw [hlong, ← htext, decodeText_text, decodeText_text, length_bitChars]
  refine ⟨fun _ => decode_padded_eq_ok_iff, fun _ => decode_padded_eq_error_iff,
    decode_padded_eq_iff, ?_, ?_⟩
  · rw [← hnumber, natAbs_toInt, size_magnitude, ← length_bitChars, ← significant_bitChars]
  · intro count hcount
    obtain ⟨-, hcount⟩ := decode_eq_error_iff.mp hcount
    obtain rfl : count = literal.bits.length := by simpa using hcount
    refine ⟨rfl, ?_⟩
    rw [← length_bitChars]
    exact length_eq_significant_iff _

/-- A zero in front of minus five is harmless; two more in front of 64 ones are counted, and so is the one
that was there. -/
theorem zeros_in_front_are_only_counted_ones :
    let five := ['\t', ' ', '\t']
    let ones := ' ' :: List.replicate 64 '\t'
    (∀ c ∈ five, c = ' ' ∨ c = '\t') ∧ (∀ c ∈ ones, c = ' ' ∨ c = '\t') ∧
      decodeText (textBehindZeros '\t' 1 five) = .ok (-5) ∧
      decodeText (textBehindZeros '\t' 2 ones) = .error (.overflow 67) ∧
      (denoted '\t' ones).natAbs.size = 64 := by
  intro five ones
  have hfive : ∀ c ∈ five, c = ' ' ∨ c = '\t' := by simp [five]
  have hones : ∀ c ∈ ones, c = ' ' ∨ c = '\t' := by simp +contextual [ones]
  have hvalue : decodeText (String.ofList ('\t' :: five)) = .ok (-5) :=
    (decodeText_text ⟨true, [true, false, true]⟩).trans (by decide)
  have herror : decodeText (String.ofList ('\t' :: ones)) = .error (.overflow 65) :=
    (decodeText_text ⟨true, false :: List.replicate 64 true⟩).trans (by decide)
  obtain ⟨hvalues, -⟩ := zeros_in_front_are_only_counted (.inr rfl) hfive 1
  obtain ⟨-, herrors, -, hsize, -⟩ := zeros_in_front_are_only_counted (.inr rfl) hones 2
  exact ⟨hfive, hones, (hvalues (-5)).mpr hvalue, (herrors _).mpr ⟨herror, rfl⟩, hsize⟩

/-- One zero in front of 64 ones: the magnitude still has 64 bits, but 65 are reported. -/
theorem zero_in_front_is_counted :
    let ones := List.replicate 64 '\t'
    decodeText (textBehindZeros ' ' 1 ones) ≠ decodeText (String.ofList (' ' :: ones)) ∧
      decodeText (String.ofList (' ' :: ones)) = .error (.overflow 64) ∧
      decodeText (textBehindZeros ' ' 1 ones) = .error (.overflow 65) ∧
      (significant (' ' :: ones)).length = 64 := by
  intro ones
  have hshort : decodeText (String.ofList (' ' :: ones)) = .error (.overflow 64) :=
    (decodeText_text ⟨false, List.replicate 64 true⟩).trans (by decide)
  have hlong : decodeText (textBehindZeros ' ' 1 ones) = .error (.overflow 65) :=
    (decodeText_text ⟨false, false :: List.replicate 64 true⟩).trans (by decide)
  refine ⟨?_, hshort, hlong, by decide⟩
  rw [hlong, hshort]
  decide

end Zeros

end Whitespace.Literal
