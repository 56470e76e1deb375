import Mathlib.Data.List.Induction
import Mathlib.Data.Nat.Digits.Defs
import Whitespace.Literal

/-!
Decoding in 64-bit words. The magnitude of a literal is kept in an unsigned word; every doubling and
every addition of a digit is checked, and so is the step from the magnitude to a signed value, where the
negative side reaches one further than the positive. Whatever passes a check is exact, so decoding gives
the number a text denotes, however many digits it has, or nothing at all.
-/

namespace Whitespace

theorem Value.ofInt?_eq_some_iff {n : Int} {value : Value} :
    ofInt? n = some value ↔ value.toInt = n := by
  constructor
  · exact toInt_of_ofInt?
  · rintro rfl
    exact ofInt?_toInt value

theorem Value.isSome_ofInt?_iff {n : Int} : (ofInt? n).isSome ↔ least ≤ n ∧ n ≤ greatest := by
  rw [Option.isSome_iff_ne_none, ne_eq, ofInt?_eq_none_iff]
  omega

abbrev Word := UInt64

namespace Word

def mul? (first second : Word) : Option Word :=
  if first.toNat * second.toNat < UInt64.size then some (first * second) else none

def add? (first second : Word) : Option Word :=
  if first.toNat + second.toNat < UInt64.size then some (first + second) else none

def value? (word : Word) : Option Value :=
  if word.toNat < 2 ^ 63 then some word.toInt64 else none

def negated? (word : Word) : Option Value :=
  if word.toNat ≤ 2 ^ 63 then some (0 - word.toInt64) else none

variable {first second word result : Word} {value : Value}

theorem mul?_eq_some_iff : mul? first second = some result ↔
    result.toNat = first.toNat * second.toNat := by
  have hresult := result.toNat_lt_size
  unfold mul?
  split
  · next hfits =>
    rw [Option.some.injEq, ← UInt64.toNat_inj, UInt64.toNat_mul, Nat.mod_eq_of_lt hfits]
    exact eq_comm
  · simp only [reduceCtorEq, false_iff]
    omega

theorem add?_eq_some_iff : add? first second = some result ↔
    result.toNat = first.toNat + second.toNat := by
  have hresult := result.toNat_lt_size
  unfold add?
  split
  · next hfits =>
    rw [Option.some.injEq, ← UInt64.toNat_inj, UInt64.toNat_add, Nat.mod_eq_of_lt hfits]
    exact eq_comm
  · simp only [reduceCtorEq, false_iff]
    omega

private theorem toInt_toInt64 (word : Word) : word.toInt64.toInt = Int.bmod word.toNat (2 ^ 64) :=
  BitVec.toInt_eq_toNat_bmod word.toBitVec

theorem value?_eq_some_iff : value? word = some value ↔ value.toInt = word.toNat := by
  have hgreatest := value.toInt_le_greatest
  unfold value?
  split
  · next hfits =>
    rw [Option.some.injEq, ← Int64.toInt_inj, toInt_toInt64,
      Int.bmod_eq_of_le (by omega) (by omega)]
    exact eq_comm
  · simp only [reduceCtorEq, false_iff]
    rw [Value.greatest] at hgreatest
    omega

theorem negated?_eq_some_iff : negated? word = some value ↔ value.toInt = -word.toNat := by
  have hleast := value.least_le_toInt
  unfold negated?
  split
  · next hfits =>
    rw [Option.some.injEq, ← Int64.toInt_inj, Int64.toInt_sub, toInt_toInt64, Int64.toInt_zero,
      Int.sub_bmod_bmod, Int.zero_sub, Int.bmod_eq_of_le (by omega) (by omega)]
    exact eq_comm
  · simp only [reduceCtorEq, false_iff]
    rw [Value.least] at hleast
    omega

end Word

namespace Literal

def doubled? (magnitude : Word) (bit : Bool) : Option Word :=
  (Word.mul? magnitude 2).bind (Word.add? · bit.toUInt64)

def signed? (negative : Bool) (magnitude : Word) : Option Value :=
  if negative then magnitude.negated? else magnitude.value?

def readWord (length position : Nat) (magnitude : Word) : List Char → Except LiteralError Word
  | [] => .ok magnitude
  | c :: rest =>
    match bit? c with
    | none => .error (.invalidGlyph c position)
    | some bit =>
      match doubled? magnitude bit with
      | some next => readWord length (position + 1) next rest
      | none => .error (.overflow length)

def decodeWords (raw : String) : Except LiteralError Value :=
  match raw.toList with
  | [] => .error .empty
  | c :: rest =>
    match bit? c with
    | none => .error (.invalidGlyph c 0)
    | some negative => do
      let magnitude ← readWord rest.length 1 0 rest
      match signed? negative magnitude with
      | some value => .ok value
      | none => .error (.overflow rest.length)

theorem doubled?_eq_some_iff {magnitude next : Word} {bit : Bool} :
    doubled? magnitude bit = some next ↔ next.toNat = 2 * magnitude.toNat + bit.toNat := by
  have htwo : (2 : Word).toNat = 2 := rfl
  have hbit : bit.toUInt64.toNat = bit.toNat := by cases bit <;> rfl
  simp only [doubled?, Option.bind_eq_some_iff, Word.mul?_eq_some_iff, Word.add?_eq_some_iff, htwo,
    hbit]
  constructor
  · rintro ⟨double, hdouble, hnext⟩
    omega
  · intro hnext
    have hlt := next.toNat_lt
    have hdouble : (UInt64.ofNat (magnitude.toNat * 2)).toNat = magnitude.toNat * 2 := by
      rw [UInt64.toNat_ofNat', Nat.mod_eq_of_lt (by omega)]
    exact ⟨_, hdouble, by omega⟩

theorem doubled?_eq_none_iff {magnitude : Word} {bit : Bool} :
    doubled? magnitude bit = none ↔ UInt64.size ≤ 2 * magnitude.toNat + bit.toNat := by
  rw [Option.eq_none_iff_forall_ne_some]
  constructor
  · intro hnone
    by_contra hlt
    refine hnone (UInt64.ofNat (2 * magnitude.toNat + bit.toNat)) (doubled?_eq_some_iff.mpr ?_)
    rw [UInt64.toNat_ofNat', Nat.mod_eq_of_lt (Nat.lt_of_not_le hlt)]
  · intro hlarge next hnext
    have hlt := next.toNat_lt_size
    rw [doubled?_eq_some_iff] at hnext
    omega

theorem signed?_eq (negative : Bool) (magnitude : Word) :
    signed? negative magnitude = Value.ofInt? (signed negative magnitude.toNat) := by
  apply Option.ext
  intro value
  cases negative with
  | true => exact Word.negated?_eq_some_iff.trans Value.ofInt?_eq_some_iff.symm
  | false => exact Word.value?_eq_some_iff.trans Value.ofInt?_eq_some_iff.symm

theorem readWord_eq (length position : Nat) (magnitude : Word) (text : List Char) :
    (readWord length position magnitude text).map UInt64.toNat =
      readMagnitude length position magnitude.toNat text := by
  induction text generalizing position magnitude with
  | nil => rfl
  | cons c rest ih =>
    cases hbit : bit? c with
    | none => simp only [readWord, readMagnitude, hbit, Except.map]
    | some bit =>
      cases hnext : doubled? magnitude bit with
      | some next =>
        have heq := doubled?_eq_some_iff.mp hnext
        have hlt := next.toNat_lt_size
        simp only [readWord, readMagnitude, hbit, hnext, ih, ← heq, if_pos hlt]
      | none =>
        have hlarge := doubled?_eq_none_iff.mp hnext
        simp only [readWord, readMagnitude, hbit, hnext, if_neg (Nat.not_lt.mpr hlarge), Except.map]

/-- Words decode every text as numbers do: no step on the way wraps. -/
theorem decodeWords_eq_decodeText (raw : String) : decodeWords raw = decodeText raw := by
  cases hraw : raw.toList with
  | nil => simp only [decodeWords, decodeText, hraw]
  | cons c rest =>
    cases hbit : bit? c with
    | none => simp only [decodeWords, decodeText, hraw, hbit]
    | some negative =>
      have hread : _ = readMagnitude rest.length 1 0 rest := readWord_eq rest.length 1 0 rest
      simp only [decodeWords, decodeText, hraw, hbit, ← hread, signed?_eq]
      cases readWord rest.length 1 0 rest <;> rfl

theorem magnitudeFrom_eq_ofDigits (bits : List Bool) :
    magnitudeFrom 0 bits = Nat.ofDigits 2 (bits.reverse.map Bool.toNat) := by
  induction bits using List.reverseRecOn with
  | nil => rfl
  | append_singleton bits bit ih =>
    rw [magnitudeFrom_append, ih]
    simp [Nat.ofDigits_cons, Nat.add_comm]

/-- The number of a sign and digits, each a space or a tab, written in base two. -/
def denoted (sign : Char) (digits : List Char) : Int :=
  let magnitude : Nat := Nat.ofDigits 2 (digits.reverse.map fun c => if c = '\t' then 1 else 0)
  if sign = '\t' then -magnitude else magnitude

section Exactness

variable {sign : Char} {digits : List Char}

theorem bitGlyph_decide {c : Char} (hc : c = ' ' ∨ c = '\t') :
    (bitGlyph (c = '\t')).toChar = c := by
  rcases hc with rfl | rfl <;> rfl

theorem decode_of_range {literal : Literal}
    (h : -2 ^ 63 ≤ literal.toInt ∧ literal.toInt ≤ 2 ^ 63 - 1) :
    ∃ value, literal.decode = .ok value ∧ value.toInt = literal.toInt := by
  obtain ⟨value, hvalue⟩ := Option.isSome_iff_exists.mp (Value.isSome_ofInt?_iff.mpr h)
  refine ⟨value, ?_, Value.toInt_of_ofInt? hvalue⟩
  rw [decode, hvalue]

theorem decode_of_not_range {literal : Literal}
    (h : ¬ (-2 ^ 63 ≤ literal.toInt ∧ literal.toInt ≤ 2 ^ 63 - 1)) :
    literal.decode = .error (.overflow literal.bits.length) := by
  have hnone := mt Value.isSome_ofInt?_iff.mp h
  rw [Bool.not_eq_true, Option.isSome_eq_false_iff, Option.isNone_iff_eq_none] at hnone
  rw [decode, hnone]

theorem exists_literal (hsign : sign = ' ' ∨ sign = '\t')
    (hdigits : ∀ c ∈ digits, c = ' ' ∨ c = '\t') :
    ∃ literal : Literal, literal.text = String.ofList (sign :: digits) ∧
      literal.toInt = denoted sign digits ∧ literal.bits.length = digits.length := by
  refine ⟨⟨sign = '\t', digits.map fun c => c = '\t'⟩, ?_, ?_, by simp⟩
  · apply String.toList_inj.mp
    rw [toList_text, String.toList_ofList, bitGlyph_decide hsign, bitChars, List.map_map]
    congr 1
    exact (List.map_congr_left fun c hc => bitGlyph_decide (hdigits c hc)).trans (List.map_id _)
  · have hdigit (c : Char) : (decide (c = '\t')).toNat = if c = '\t' then 1 else 0 := by
      split <;> simp [*]
    simp only [toInt, magnitudeFrom_eq_ofDigits, signed, denoted, decide_eq_true_eq,
      ← List.map_reverse, List.map_map, Function.comp_def, hdigit]

/-- Decoding a sign and digits is exact: there is a value if and only if 64 bits hold the number that
they denote, and then the value is that number. Otherwise decoding says that it overflows, and nothing
else. Computing in words comes to the same. -/
theorem decodeText_exact (hsign : sign = ' ' ∨ sign = '\t')
    (hdigits : ∀ c ∈ digits, c = ' ' ∨ c = '\t') :
    decodeWords (String.ofList (sign :: digits)) = decodeText (String.ofList (sign :: digits)) ∧
      (-2 ^ 63 ≤ denoted sign digits ∧ denoted sign digits ≤ 2 ^ 63 - 1 →
        ∃ value, decodeText (String.ofList (sign :: digits)) = .ok value ∧
          value.toInt = denoted sign digits) ∧
      (¬ (-2 ^ 63 ≤ denoted sign digits ∧ denoted sign digits ≤ 2 ^ 63 - 1) →
        decodeText (String.ofList (sign :: digits)) = .error (.overflow digits.length)) := by
  obtain ⟨literal, htext, hnumber, hlength⟩ := exists_literal hsign hdigits
  have hdecode : decodeText (String.ofList (sign :: digits)) = literal.decode := by
    rw [← decodeText_text, htext]
  simp only [decodeWords_eq_decodeText, hdecode, ← hnumber, ← hlength]
  exact ⟨trivial, decode_of_range, decode_of_not_range⟩

/-- A zero, a one and 63 more zeros are the least value below zero and too much above it. -/
theorem decodeText_exact_least :
    let digits := ' ' :: '\t' :: List.replicate 63 ' '
    (∀ c ∈ digits, c = ' ' ∨ c = '\t') ∧ denoted '\t' digits = -2 ^ 63 ∧
      (∃ value, decodeText (String.ofList ('\t' :: digits)) = .ok value ∧
        value.toInt = -2 ^ 63) ∧
      decodeText (String.ofList (' ' :: digits)) = .error (.overflow 65) := by
  intro digits
  have hdigits : ∀ c ∈ digits, c = ' ' ∨ c = '\t' := by simp +contextual [digits]
  have hminus : denoted '\t' digits = -2 ^ 63 := by decide
  have hplus : denoted ' ' digits = 2 ^ 63 := by decide
  obtain ⟨-, hleast, -⟩ := decodeText_exact (.inr rfl) hdigits
  obtain ⟨-, -, hoverflow⟩ := decodeText_exact (.inl rfl) hdigits
  rw [hminus] at hleast
  rw [hplus] at hoverflow
  exact ⟨hdigits, hminus, hleast (by decide), hoverflow (by decide)⟩

end Exactness

end Literal

end Whitespace
