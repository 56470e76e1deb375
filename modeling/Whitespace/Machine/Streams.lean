import Whitespace.Text.Quoted
import Whitespace.Text.Utf8

/-!
Input and output of a program. Input is read one character or one line at a time. Output goes to a device
that may fail at any write or flush, and whose answers may depend on all that it was asked before.
-/

namespace Whitespace

inductive SystemError where
  | notFound
  | accessDenied
  | notDirectory
  | isDirectory
  | nameTooLong
  /-- A file name holds a character with code zero. -/
  | zeroInName
  | other (description : String)
  deriving DecidableEq, Repr

def SystemError.ofCode (code : Nat) (description : String) : SystemError :=
  match code with
  | 2 => .notFound
  | 13 => .accessDenied
  | 20 => .notDirectory
  | 21 => .isDirectory
  | 36 => .nameTooLong
  | _ => .other s!"{description} (os error {code})"

def SystemError.message : SystemError → String
  | .notFound => "No such file or directory (os error 2)"
  | .accessDenied => "Permission denied (os error 13)"
  | .notDirectory => "Not a directory (os error 20)"
  | .isDirectory => "Is a directory (os error 21)"
  | .nameTooLong => "File name too long (os error 36)"
  | .zeroInName => "file name contained an unexpected NUL byte"
  | .other description => description

namespace Machine

open Text

inductive StreamError where
  | invalidLead (byte : UInt8)
  /-- A sequence whose first `length` bytes are right and the next one is not. -/
  | invalidSequence (length : Nat)
  | invalidLine
  | full
  | system (error : SystemError)
  deriving DecidableEq, Repr

def StreamError.message : StreamError → String
  | .invalidLead byte => "invalid UTF-8 lead byte 0x" ++ Hexadecimal.zeroPadded 2 byte.toNat
  | .invalidSequence length => s!"invalid utf-8 sequence of {length} bytes from index 0"
  | .invalidLine => "stream did not contain valid UTF-8"
  | .full => "failed to write whole buffer"
  | .system error => error.message

/-- Bytes still to be read and the number of those already taken. `failure` is what reading past the
last byte meets when it is not simply the end. -/
structure Input where
  remaining : List UInt8
  consumed : Nat := 0
  failure : Option SystemError := none
  deriving DecidableEq, Repr

namespace Input

def advance (input : Input) (count : Nat) : Input :=
  { input with remaining := input.remaining.drop count, consumed := input.consumed + count }

def feed (input : Input) (bytes : List UInt8) : Input :=
  { input with remaining := input.remaining ++ bytes }

/-- Whether what a read of a character finds is settled, whatever bytes may still arrive. -/
def holdsChar (input : Input) : Bool :=
  match input.remaining with
  | [] => false
  | lead :: _ =>
    match Utf8.width? lead with
    | none => true
    | some width => (input.remaining.take width).length == width

def holdsLine (input : Input) : Bool := input.remaining.contains 10

def exhausted {α : Type} (input : Input) : Except StreamError (Option α) :=
  match input.failure with
  | none => .ok none
  | some error => .error (.system error)

/-- Reads one character. An input that ends partway through a character is used up and counts as
ended; a byte that begins no character is left where it is. -/
def readChar (input : Input) : Input × Except StreamError (Option Char) :=
  match input.remaining with
  | [] => (input, input.exhausted)
  | lead :: _ =>
    match Utf8.width? lead with
    | none => (input, .error (.invalidLead lead))
    | some width =>
      let unit := input.remaining.take width
      let after := input.advance unit.length
      if unit.length < width then (after, after.exhausted)
      else
        match Utf8.decodeSequence unit with
        | .ok c => (after, .ok (some c))
        | .error length => (after, .error (.invalidSequence length))

def line (bytes : List UInt8) : List UInt8 :=
  bytes.takeWhile (· != 10) ++ (bytes.dropWhile (· != 10)).take 1

/-- Reads one line with its line feed. The end of the input closes a line as well, but a failure does
not, and the bytes before it are lost. -/
def readLine (input : Input) : Input × Except StreamError (Option (List Char)) :=
  let bytes := line input.remaining
  let after := input.advance bytes.length
  if bytes = [] ∨ bytes.getLast? ≠ some 10 ∧ input.failure.isSome then (after, after.exhausted)
  else
    match Utf8.decode? bytes with
    | some text => (after, .ok (some text))
    | none => (after, .error .invalidLine)

end Input

inductive Device.Request where
  | write (bytes : List UInt8)
  | flush
  deriving DecidableEq, Repr

/-- How a device answers, given what it was asked before, last request first. Where a write goes wrong,
`breaksOff?` tells how many of its bytes are taken first. -/
structure Device where
  breaksOff? : List Device.Request → List UInt8 → Option (Nat × StreamError) := fun _ _ => none
  flush : List Device.Request → Except StreamError Unit := fun _ => .ok ()

/-- A device, what it took so far and what it was asked so far. With a limit, it is offered no more
bytes than the limit allows altogether. -/
structure Output where
  written : Array UInt8 := #[]
  limit : Option Nat := none
  device : Device := {}
  asked : List Device.Request := []

namespace Output

def admitted (output : Output) (bytes : List UInt8) : List UInt8 :=
  match output.limit with
  | none => bytes
  | some limit => bytes.take (limit - output.written.size)

def write (output : Output) (bytes : List UInt8) : Output × Except StreamError Unit :=
  let admitted := output.admitted bytes
  let asked := .write admitted :: output.asked
  match output.device.breaksOff? output.asked admitted with
  | some (count, error) =>
    ({ output with written := output.written ++ admitted.take count, asked }, .error error)
  | none =>
    ({ output with written := output.written ++ admitted, asked },
      if admitted.length < bytes.length then .error .full else .ok ())

def flush (output : Output) : Output × Except StreamError Unit :=
  ({ output with asked := .flush :: output.asked }, output.device.flush output.asked)

def print (output : Output) (bytes : List UInt8) : Output × Except StreamError Unit :=
  match output.write bytes with
  | (written, .ok ()) => written.flush
  | failed => failed

/-- There is no limit, and at the device nothing goes wrong. -/
structure TakesAll (output : Output) : Prop where
  limit : output.limit = none
  device : output.device = {}

theorem TakesAll.write {output : Output} (h : output.TakesAll) (bytes : List UInt8) :
    output.write bytes =
      ({ output with
          written := output.written ++ bytes
          asked := .write bytes :: output.asked }, .ok ()) := by
  simp [Output.write, admitted, h.limit, h.device]

theorem admitted_prefix (output : Output) (bytes : List UInt8) :
    output.admitted bytes <+: bytes := by
  unfold admitted
  split
  · exact List.prefix_refl bytes
  · exact List.take_prefix _ bytes

theorem exists_part_write (output : Output) (bytes : List UInt8) :
    ∃ part request, part <+: bytes ∧ ((output.write bytes).2 = .ok () → part = bytes) ∧
      (output.write bytes).1 =
        { output with written := output.written ++ part, asked := request :: output.asked } := by
  have hadmitted := output.admitted_prefix bytes
  unfold write
  simp only
  split
  · next count error hbreaks =>
    exact ⟨_, _, (List.take_prefix count _).trans hadmitted, nofun, rfl⟩
  · refine ⟨_, _, hadmitted, fun hok => ?_, rfl⟩
    split at hok
    · cases hok
    · next hall => exact hadmitted.eq_of_length_le (Nat.le_of_not_lt hall)

theorem write_of_print {output : Output} {bytes : List UInt8} (h : (output.print bytes).2 = .ok ()) :
    (output.write bytes).2 = .ok () := by
  unfold print at h
  split at h
  · next hwrite => rw [hwrite]
  · exact h

/-- A flush that fails comes after all bytes were taken. -/
theorem exists_part_print (output : Output) (bytes : List UInt8) :
    ∃ part requests, part <+: bytes ∧ ((output.write bytes).2 = .ok () → part = bytes) ∧
      (output.print bytes).1 =
        { output with written := output.written ++ part, asked := requests ++ output.asked } := by
  obtain ⟨part, request, hpart, hall, hwritten⟩ := output.exists_part_write bytes
  unfold print
  split
  · next written hwrite =>
    rw [hwrite] at hall hwritten
    subst hwritten
    exact ⟨part, [.flush, request], hpart, fun _ => hall rfl, rfl⟩
  · exact ⟨part, [request], hpart, hall, hwritten⟩

end Output

end Machine

end Whitespace
