import Whitespace.Machine.Effect
import Whitespace.Operation
import Std.Data.TreeMap

/-!
The operand stack, top first, the heap, and the operations that see nothing else. An operation that fails
gives no new stack, so the old one stays as it was.
-/

namespace Whitespace

namespace Machine

abbrev Stack := List Value

abbrev Heap := Std.TreeMap Value Value

namespace Stack

def depth (operand : Value) : Except Fault Nat :=
  if operand < 0 then .error (.invalidStackIndex operand) else .ok operand.toInt.toNat

def underflow {α : Type} (stack : Stack) (required : Nat) : Except Fault α :=
  .error (.stackUnderflow required stack.length)

end Stack

end Machine

open Machine

def StackOp.run (stack : Stack) : StackOp Value → Except Fault Stack
  | .push value => .ok (value :: stack)
  | .duplicate =>
    match stack with
    | top :: _ => .ok (top :: stack)
    | [] => stack.underflow 1
  | .copy operand => do
    let depth ← Stack.depth operand
    match stack[depth]? with
    | some value => .ok (value :: stack)
    | none => stack.underflow (depth + 1)
  | .swap =>
    match stack with
    | first :: second :: rest => .ok (second :: first :: rest)
    | _ => stack.underflow 2
  | .discard =>
    match stack with
    | _ :: rest => .ok rest
    | [] => stack.underflow 1
  | .slide operand => do
    let depth ← Stack.depth operand
    match stack, stack[depth]? with
    | top :: rest, some _ => .ok (top :: rest.drop depth)
    | _, _ => stack.underflow (depth + 1)

namespace ArithmeticOp

def fit (result : Int) : Except Fault Value :=
  match Value.ofInt? result with
  | some value => .ok value
  | none => .error .arithmeticOverflow

/-- The exact result of an operation. Division truncates towards zero, and the remainder exists
only where the quotient does. -/
def apply (second first : Value) : ArithmeticOp → Except Fault Value
  | .add => fit (second.toInt + first.toInt)
  | .subtract => fit (second.toInt - first.toInt)
  | .multiply => fit (second.toInt * first.toInt)
  | .divide =>
    if first = 0 then .error .divisionByZero else fit (second.toInt.tdiv first.toInt)
  | .modulo => do
    if first = 0 then .error .divisionByZero
    let _ ← fit (second.toInt.tdiv first.toInt)
    fit (second.toInt.tmod first.toInt)

def run (stack : Stack) (op : ArithmeticOp) : Except Fault Stack :=
  match stack with
  | first :: second :: rest => (op.apply second first).map (· :: rest)
  | _ => stack.underflow 2

end ArithmeticOp

def HeapOp.run (stack : Stack) (heap : Heap) : HeapOp → Except Fault (Stack × Heap)
  | .store =>
    match stack with
    | value :: address :: rest => .ok (rest, heap.insert address value)
    | _ => stack.underflow 2
  | .retrieve =>
    match stack with
    | address :: rest =>
      match heap[address]? with
      | some value => .ok (value :: rest, heap)
      | none => .error (.uninitializedAddress address)
    | [] => stack.underflow 1

end Whitespace
