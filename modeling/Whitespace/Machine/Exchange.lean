import Whitespace.Machine.State
import Whitespace.Text.Decimal

/-!
Input and output operations. A value to be written is taken off the stack before it is written; an
address to read to is taken off only after something was read.
-/

namespace Whitespace

namespace Machine

def scalar? (value : Value) : Option Char :=
  if value < 0 then none else Text.Utf8.scalar? value.toInt.toNat

def write (machine : Machine) (rest : Stack) (bytes : List UInt8) : Effect Machine :=
  let result := machine.output.print bytes
  { state := { machine with stack := rest, output := result.1 }
    outcome :=
      match result.2 with
      | .ok () => .ok .next
      | .error error => .error (.stream error) }

def fail (machine : Machine) (fault : Fault) : Effect Machine :=
  { state := machine, outcome := .error fault }

def writeChar (machine : Machine) : Effect Machine :=
  match machine.stack with
  | top :: rest =>
    match scalar? top with
    | some c => machine.write rest (Text.Utf8.encode c)
    | none => machine.fail (.invalidCharacter top)
  | [] => machine.fail (.stackUnderflow 1 0)

def writeNumber (machine : Machine) : Effect Machine :=
  match machine.stack with
  | top :: rest => machine.write rest (Text.Utf8.encodeText top.text)
  | [] => machine.fail (.stackUnderflow 1 0)

def numberOfLine (line : List Char) : Except Fault Value :=
  let text := Text.trim line
  match (Text.Decimal.integer? text).bind Value.ofInt? with
  | some value => .ok value
  | none => .error (.invalidNumber text)

/-- Stores what `read` finds in the input at the address on top of the stack. -/
def readTo {α : Type} (machine : Machine)
    (read : Input → Input × Except StreamError (Option α)) (value : α → Except Fault Value) :
    Effect Machine :=
  match machine.stack with
  | address :: rest =>
    let result := read machine.input
    let machine := { machine with input := result.1 }
    match result.2 with
    | .error error => machine.fail (.stream error)
    | .ok none => machine.fail .endOfInput
    | .ok (some found) =>
      match value found with
      | .error fault => machine.fail fault
      | .ok value =>
        { state := { machine with stack := rest, heap := machine.heap.insert address value } }
  | [] => machine.fail (.stackUnderflow 1 0)

def readChar (machine : Machine) : Effect Machine :=
  machine.readTo Input.readChar fun c => .ok (Int64.ofNat c.toNat)

def readNumber (machine : Machine) : Effect Machine :=
  machine.readTo Input.readLine numberOfLine

end Machine

def IoOp.run (machine : Machine) : IoOp → Machine.Effect Machine
  | .writeChar => machine.writeChar
  | .writeNumber => machine.writeNumber
  | .readChar => machine.readChar
  | .readNumber => machine.readNumber

end Whitespace
