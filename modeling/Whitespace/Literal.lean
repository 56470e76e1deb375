import Whitespace.Glyph
import Whitespace.Text.Quoted

/-!
Literals are a sign followed by binary digits, most significant first. A space is plus or zero, a tab
is minus or one. A literal keeps its digits as written, leading zeros included, and is only turned
into a value when it is used; no digits at all read as zero.

`Literal.decodeText` reads any text as a number, so it also meets foreign characters;
`decodeText_text` says that on the text of a literal it is `Literal.decode`.
-/

namespace Whitespace

abbrev Value := Int64

namespace Value

def least : Int := -9223372036854775808

def greatest : Int := 9223372036854775807

def ofInt? (n : Int) : Option Value :=
  if least ≤ n ∧ n ≤ greatest then some (Int64.ofInt n) else none

def text (value : Value) : String := Int.repr value.toInt

theorem least_le_toInt (value : Value) : least ≤ value.toInt := Int64.le_toInt value

theorem toInt_le_greatest (value : Value) : value.toInt ≤ greatest :=
  Int.le_of_lt_add_one (Int64.toInt_lt value)

theorem toInt_of_ofInt? {n : Int} {value : Value} (h : ofInt? n = some value) :
    value.toInt = n := by
  unfold ofInt? at h
  split at h
  · next hrange =>
    cases h
    exact Int64.toInt_ofInt_of_le hrange.1 (Int.lt_add_one_of_le hrange.2)
  · cases h

@[simp] theorem ofInt?_toInt (value : Value) : ofInt? value.toInt = some value := by
  rw [ofInt?, if_pos ⟨least_le_toInt value, toInt_le_greatest value⟩, Int64.ofInt_toInt]

theorem ofInt?_eq_none_iff {n : Int} : ofInt? n = none ↔ n < least ∨ greatest < n := by
  unfold ofInt?
  split <;> simp <;> omega

end Value

inductive LiteralError where
  | empty
  /-- A character that is neither a space nor a tab, with the number of characters before it. -/
  | invalidGlyph (found : Char) (position : Nat)
  /-- The value does not fit in 64 bits; `bits` counts every digit, leading zeros included. -/
  | overflow (bits : Nat)
  deriving DecidableEq, Repr

def LiteralError.message : LiteralError → String
  | .empty => "malformed literal: missing sign glyph"
  | .invalidGlyph found position =>
    s!"malformed literal: unexpected {Text.Quoted.char found} at position {position}"
  | .overflow bits =>
    s!"malformed literal: {bits}-bit magnitude does not fit in a 64-bit integer"

structure Literal where
  negative : Bool
  bits : List Bool
  deriving DecidableEq, Repr, Inhabited

namespace Literal

def bitGlyph (bit : Bool) : Glyph := if bit then .tab else .space

def bit? : Char → Option Bool
  | ' ' => some false
  | '\t' => some true
  | _ => none

@[simp] theorem bit?_bitGlyph (bit : Bool) : bit? (bitGlyph bit).toChar = some bit := by
  cases bit <;> rfl

/-- Sign glyph, then digit glyphs. The closing line feed is not part of a literal. -/
def glyphs (literal : Literal) : List Glyph :=
  bitGlyph literal.negative :: literal.bits.map bitGlyph

def text (literal : Literal) : String := Glyph.source literal.glyphs

def letters (literal : Literal) : String := Glyph.letters literal.glyphs

def magnitudeFrom (start : Nat) (bits : List Bool) : Nat :=
  bits.foldl (fun magnitude bit => 2 * magnitude + bit.toNat) start

def signed (negative : Bool) (magnitude : Nat) : Int :=
  if negative then -magnitude else magnitude

def toInt (literal : Literal) : Int :=
  signed literal.negative (magnitudeFrom 0 literal.bits)

def decode (literal : Literal) : Except LiteralError Value :=
  match Value.ofInt? literal.toInt with
  | some value => .ok value
  | none => .error (.overflow literal.bits.length)

def binaryDigits (n : Nat) : List Bool :=
  if n = 0 then [] else binaryDigits (n / 2) ++ [n % 2 == 1]
termination_by n
decreasing_by omega

def encode (value : Value) : Literal where
  negative := value.toInt < 0
  bits := binaryDigits value.toInt.natAbs

def display (literal : Literal) : String :=
  match literal.decode with
  | .ok value => value.text
  | .error _ => "<" ++ literal.letters ++ ">"

theorem isAlpha_letters (literal : Literal) : literal.letters.toList.all Char.isAlpha := by
  simp only [letters, Glyph.letters, String.toList_ofList, List.all_map, List.all_eq_true]
  intro glyph _
  cases glyph <;> rfl

@[simp] theorem magnitudeFrom_nil (start : Nat) : magnitudeFrom start [] = start := rfl

@[simp] theorem magnitudeFrom_cons (start : Nat) (bit : Bool) (bits : List Bool) :
    magnitudeFrom start (bit :: bits) = magnitudeFrom (2 * start + bit.toNat) bits := rfl

theorem magnitudeFrom_append (start : Nat) (first second : List Bool) :
    magnitudeFrom start (first ++ second) = magnitudeFrom (magnitudeFrom start first) second := by
  simp [magnitudeFrom]

theorem le_magnitudeFrom (start : Nat) (bits : List Bool) : start ≤ magnitudeFrom start bits := by
  induction bits generalizing start with
  | nil => exact Nat.le_refl _
  | cons bit bits ih => exact Nat.le_trans (by omega) (ih (2 * start + bit.toNat))

@[simp] theorem magnitudeFrom_binaryDigits (n : Nat) : magnitudeFrom 0 (binaryDigits n) = n := by
  fun_induction binaryDigits n with
  | case1 => rfl
  | case2 n _ ih =>
    rw [magnitudeFrom_append, ih]
    rcases Nat.mod_two_eq_zero_or_one n with hbit | hbit <;> simp [hbit] <;> omega

@[simp] theorem decode_encode (value : Value) : (encode value).decode = .ok value := by
  have hint : (encode value).toInt = value.toInt := by
    simp only [encode, toInt, signed, magnitudeFrom_binaryDigits, decide_eq_true_eq]
    split <;> omega
  rw [decode, hint, Value.ofInt?_toInt]

def readBits (position : Nat) : List Char → Except LiteralError (List Bool)
  | [] => .ok []
  | c :: rest =>
    match bit? c with
    | none => .error (.invalidGlyph c position)
    | some bit => (readBits (position + 1) rest).map (bit :: ·)

def ofText (raw : String) : Except LiteralError Literal :=
  match raw.toList with
  | [] => .error .empty
  | c :: rest =>
    match bit? c with
    | none => .error (.invalidGlyph c 0)
    | some negative => (readBits 1 rest).map (⟨negative, ·⟩)

def ofGlyphs (run : List Glyph) : Except LiteralError Literal := ofText (Glyph.source run)

/-- Reads the digits of a text of `length` digits onto a magnitude, giving up at the first digit
that takes it past 64 bits, whatever follows. -/
def readMagnitude (length position magnitude : Nat) : List Char → Except LiteralError Nat
  | [] => .ok magnitude
  | c :: rest =>
    match bit? c with
    | none => .error (.invalidGlyph c position)
    | some bit =>
      let next := 2 * magnitude + bit.toNat
      if next < UInt64.size then readMagnitude length (position + 1) next rest
      else .error (.overflow length)

/-- The value of a text of one sign and digits. -/
def decodeText (raw : String) : Except LiteralError Value :=
  match raw.toList with
  | [] => .error .empty
  | c :: rest =>
    match bit? c with
    | none => .error (.invalidGlyph c 0)
    | some negative => do
      let magnitude ← readMagnitude rest.length 1 0 rest
      match Value.ofInt? (signed negative magnitude) with
      | some value => .ok value
      | none => .error (.overflow rest.length)

def bitChars (bits : List Bool) : List Char := bits.map fun bit => (bitGlyph bit).toChar

theorem toList_text (literal : Literal) :
    literal.text.toList = (bitGlyph literal.negative).toChar :: bitChars literal.bits := by
  simp [text, Glyph.source, glyphs, bitChars]

theorem readBits_bitChars (position : Nat) (bits : List Bool) :
    readBits position (bitChars bits) = .ok bits := by
  induction bits generalizing position with
  | nil => rfl
  | cons bit bits ih =>
    have hrest := ih (position + 1)
    simp only [bitChars] at hrest
    simp [readBits, bitChars, hrest, Except.map]

@[simp] theorem ofText_text (literal : Literal) : ofText literal.text = .ok literal := by
  simp [ofText, toList_text, readBits_bitChars, Except.map]

theorem readMagnitude_bitChars (length position magnitude : Nat) (bits : List Bool)
    (hstart : magnitude < UInt64.size) :
    readMagnitude length position magnitude (bitChars bits) =
      if magnitudeFrom magnitude bits < UInt64.size then .ok (magnitudeFrom magnitude bits)
      else .error (.overflow length) := by
  induction bits generalizing position magnitude with
  | nil => exact (if_pos hstart).symm
  | cons bit bits ih =>
    rw [magnitudeFrom_cons]
    simp only [bitChars, List.map_cons, readMagnitude, bit?_bitGlyph]
    split
    · next hnext => exact ih (position + 1) (2 * magnitude + bit.toNat) hnext
    · next hlarge =>
      have hle := le_magnitudeFrom (2 * magnitude + bit.toNat) bits
      rw [if_neg (by omega)]

theorem decodeText_text (literal : Literal) : decodeText literal.text = literal.decode := by
  have hlength : (bitChars literal.bits).length = literal.bits.length := by simp [bitChars]
  simp only [decodeText, toList_text, bit?_bitGlyph, hlength,
    readMagnitude_bitChars _ _ 0 literal.bits (by decide)]
  split
  · rfl
  · next hlarge =>
    have hnone : Value.ofInt? literal.toInt = none := by
      simp only [UInt64.size] at hlarge
      rw [Value.ofInt?_eq_none_iff, toInt, signed, Value.least, Value.greatest]
      split <;> omega
    simp [decode, hnone, bind, Except.bind]

end Literal

end Whitespace
