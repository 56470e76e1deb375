/-!
UTF-8. The first byte of a sequence fixes its length, and the second byte is bounded so that no
character has two encodings, no surrogate has one and nothing lies beyond the last code point.
-/

namespace Whitespace.Text.Utf8

def scalar? (point : Nat) : Option Char :=
  if point.isValidChar then some (Char.ofNat point) else none

theorem scalar?_eq_some_iff {point : Nat} {c : Char} : scalar? point = some c ↔ c.toNat = point := by
  unfold scalar?
  constructor
  · intro h
    split at h <;> cases h
    next hvalid =>
      rw [Char.ofNat, dif_pos hvalid]
      rfl
  · rintro rfl
    have hvalid : c.toNat.isValidChar := c.valid
    rw [if_pos hvalid, Char.ofNat_toNat]

def encode (c : Char) : List UInt8 :=
  let point := c.toNat
  if point < 0x80 then [.ofNat point]
  else if point < 0x800 then [.ofNat (0xC0 + point / 64), .ofNat (0x80 + point % 64)]
  else if point < 0x10000 then
    [.ofNat (0xE0 + point / 4096), .ofNat (0x80 + point / 64 % 64), .ofNat (0x80 + point % 64)]
  else
    [.ofNat (0xF0 + point / 262144), .ofNat (0x80 + point / 4096 % 64),
      .ofNat (0x80 + point / 64 % 64), .ofNat (0x80 + point % 64)]

/-- How many bytes a sequence beginning with `lead` has; not every byte begins one. -/
def width? (lead : UInt8) : Option Nat :=
  let lead := lead.toNat
  if lead ≤ 0x7F then some 1
  else if 0xC2 ≤ lead ∧ lead ≤ 0xDF then some 2
  else if 0xE0 ≤ lead ∧ lead ≤ 0xEF then some 3
  else if 0xF0 ≤ lead ∧ lead ≤ 0xF4 then some 4
  else none

theorem width?_pos {lead : UInt8} {width : Nat} (h : width? lead = some width) : 0 < width := by
  simp only [width?] at h
  split at h
  · cases h; decide
  split at h
  · cases h; decide
  split at h
  · cases h; decide
  split at h
  · cases h; decide
  · cases h

def seconds (lead byte : UInt8) : Bool :=
  let least := if lead = 0xE0 then 0xA0 else if lead = 0xF0 then 0x90 else 0x80
  let greatest := if lead = 0xED then 0x9F else if lead = 0xF4 then 0x8F else 0xBF
  least ≤ byte.toNat && byte.toNat ≤ greatest

def continues (byte : UInt8) : Bool := 0x80 ≤ byte.toNat && byte.toNat ≤ 0xBF

/-- The character of a sequence as long as its first byte asks, or the number of bytes before the
first one that cannot stand where it does. -/
def decodeSequence : List UInt8 → Except Nat Char
  | [a] => .ok (.ofNat a.toNat)
  | [a, b] =>
    if seconds a b then .ok (.ofNat (a.toNat % 32 * 64 + b.toNat % 64)) else .error 1
  | [a, b, c] =>
    if !seconds a b then .error 1
    else if !continues c then .error 2
    else .ok (.ofNat (a.toNat % 16 * 4096 + b.toNat % 64 * 64 + c.toNat % 64))
  | [a, b, c, d] =>
    if !seconds a b then .error 1
    else if !continues c then .error 2
    else if !continues d then .error 3
    else .ok (.ofNat
      (a.toNat % 8 * 262144 + b.toNat % 64 * 4096 + c.toNat % 64 * 64 + d.toNat % 64))
  | _ => .error 0

def decodeOnto? (done : List Char) (bytes : List UInt8) : Option (List Char) :=
  match bytes with
  | [] => some done.reverse
  | lead :: rest =>
    match _h : width? lead with
    | none => none
    | some width =>
      let unit := (lead :: rest).take width
      if unit.length = width then
        match decodeSequence unit with
        | .ok c => decodeOnto? (c :: done) ((lead :: rest).drop width)
        | .error _ => none
      else none
termination_by bytes.length
decreasing_by
  have := width?_pos ‹width? lead = some width›
  simp only [List.length_drop, List.length_cons]
  omega

def decode? (bytes : List UInt8) : Option (List Char) := decodeOnto? [] bytes

def encodeText (text : String) : List UInt8 := text.toList.flatMap encode

end Whitespace.Text.Utf8
