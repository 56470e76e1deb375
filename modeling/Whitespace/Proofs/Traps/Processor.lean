import Whitespace.Machine.Step
import Whitespace.Proofs.Traps.Partial

/-!
A machine on arrays. The stack and the return indices grow at the end, so the top is an index from the
end, sizes are subtracted, and an operand is asked for where an instruction needs it. Every such
operation can trap; the checks that come before it are what keeps it from doing so.
-/

namespace Whitespace

open Machine

/-- The state of a machine on arrays: the stack has its top last, and the innermost return index comes
last. -/
structure Processor where
  program : Array Parts
  pc : Nat := 0
  stack : Array Value := #[]
  heap : Heap := ∅
  calls : Array Nat := #[]
  labels : LabelTable := {}
  input : Input
  output : Output
  fuel : Option Fuel

namespace Processor

def start (program : Array Parts) (input : Input) (output : Output) (limit : Option Nat) :
    Processor :=
  { program, input, output, fuel := limit.map fun limit => ⟨limit, limit⟩ }

/-- Work on a processor, which can fail with a fault and leaves a processor behind either way, unless it
traps. -/
abbrev Action (α : Type) := ExceptT Fault (StateT Processor (Except Trap)) α

def saturatingSucc (n : Nat) : Nat := min (n + 1) (UInt64.size - 1)

def require (count : Nat) : Action Unit := do
  let available := (← get).stack.size
  if available < count then throw (.stackUnderflow count available)

def peek (depth : Nat) : Action Value := do
  require (saturatingSucc depth)
  let stack := (← get).stack
  let last ← Trap.difference? stack.size 1
  Trap.element? stack (← Trap.difference? last depth)

def pop : Action Value := do
  match (← get).stack.back? with
  | none => throw (.stackUnderflow 1 0)
  | some top =>
    modify fun processor => { processor with stack := processor.stack.pop }
    return top

def push (value : Value) : Action Unit :=
  modify fun processor => { processor with stack := processor.stack.push value }

def truncate (size : Nat) : Action Unit :=
  modify fun processor => { processor with stack := processor.stack.take size }

def operand (parts : Parts) : Action Value :=
  match parts.parameter with
  | none => (throw Trap.operand : Except Trap Value)
  | some literal => ofExcept (literal.decode.mapError .malformedLiteral)

def stackOp (parts : Parts) : StackOp Unit → Action Unit
  | .push () => do push (← operand parts)
  | .duplicate => do push (← peek 0)
  | .copy () => do
    let depth ← ofExcept (Stack.depth (← operand parts))
    push (← peek depth)
  | .swap => do
    require 2
    let stack := (← get).stack
    let first ← Trap.difference? stack.size 1
    let second ← Trap.difference? stack.size 2
    let swapped ← Trap.swap? stack first second
    modify ({ · with stack := swapped })
  | .discard => do
    let _ ← pop
  | .slide () => do
    let depth ← ofExcept (Stack.depth (← operand parts))
    require (saturatingSucc depth)
    let top ← pop
    truncate (← Trap.difference? (← get).stack.size depth)
    push top

def arithmeticOp (op : ArithmeticOp) : Action Unit := do
  require 2
  let first ← peek 0
  let second ← peek 1
  let result ← ofExcept (op.apply second first)
  truncate (← Trap.difference? (← get).stack.size 2)
  push result

def insert (address value : Value) : Action Unit :=
  modify fun processor => { processor with heap := processor.heap.insert address value }

def heapOp : HeapOp → Action Unit
  | .store => do
    require 2
    let value ← pop
    let address ← pop
    insert address value
  | .retrieve => do
    let address ← peek 0
    match (← get).heap[address]? with
    | none => throw (.uninitializedAddress address)
    | some value =>
      let _ ← pop
      push value

def scan (program : Array Parts) (label : Value) (table : LabelTable) :
    Except Trap (LabelTable × Except LiteralError (Option Nat)) :=
  if h : table.scanned < program.size then
    let next := { table with scanned := table.scanned + 1 }
    if program[table.scanned].opcode ≠ .flow (.mark ()) then scan program label next
    else
      match program[table.scanned].parameter with
      | none => .error .operand
      | some literal =>
        match literal.decode with
        | .error error => .ok (next, .error error)
        | .ok mark =>
          let recorded := (next.record mark (table.scanned + 1)).1
          if mark = label then .ok (recorded, .ok (recorded.get? label))
          else scan program label recorded
  else .ok (table, .ok none)
termination_by program.size - table.scanned
decreasing_by
  · exact Nat.sub_succ_lt_self _ _ h
  · rw [LabelTable.scanned_record]
    exact Nat.sub_succ_lt_self _ _ h

def resolve (label : Value) : Action Nat := do
  let processor ← get
  match processor.labels.get? label with
  | some target => return target
  | none =>
    let (table, target) ← scan processor.program label processor.labels
    set { processor with labels := table }
    match target with
    | .error error => throw (.malformedLiteral error)
    | .ok none => throw (.undefinedLabel label)
    | .ok (some target) => return target

def jump (label : Value) : Action Signal := do
  let target ← resolve label
  modify ({ · with pc := target })
  return .next

def branch (parts : Parts) (test : Value → Bool) : Action Signal := do
  let label ← operand parts
  let top ← pop
  if test top then jump label else return .next

def flowOp (parts : Parts) : FlowOp Unit → Action Signal
  | .mark () => do
    let label ← operand parts
    modify fun processor =>
      { processor with labels := (processor.labels.record label processor.pc).1 }
    return .next
  | .call () => do
    let target ← resolve (← operand parts)
    modify fun processor =>
      { processor with calls := processor.calls.push processor.pc, pc := target }
    return .next
  | .jump () => do jump (← operand parts)
  | .jumpIfZero () => branch parts (· = 0)
  | .jumpIfNegative () => branch parts (· < 0)
  | .ret => do
    match (← get).calls.back? with
    | none => throw .returnWithoutCall
    | some target =>
      modify fun processor => { processor with calls := processor.calls.pop, pc := target }
      return .next
  | .stop => return .halt

def write (bytes : List UInt8) : Action Unit := do
  let written := (← get).output.write bytes
  modify ({ · with output := written.1 })
  ofExcept (written.2.mapError .stream)

def flush : Action Unit := do
  let flushed := (← get).output.flush
  modify ({ · with output := flushed.1 })
  ofExcept (flushed.2.mapError .stream)

def print (bytes : List UInt8) : Action Unit := do
  write bytes
  flush

def readTo {α : Type} (read : Input → Input × Except StreamError (Option α))
    (value : α → Except Fault Value) : Action Unit := do
  let address ← peek 0
  let result := read (← get).input
  modify ({ · with input := result.1 })
  match result.2 with
  | .error error => throw (.stream error)
  | .ok none => throw .endOfInput
  | .ok (some found) =>
    let value ← ofExcept (value found)
    let _ ← pop
    insert address value

def ioOp : IoOp → Action Unit
  | .writeChar => do
    let value ← peek 0
    match scalar? value with
    | none => throw (.invalidCharacter value)
    | some c =>
      let _ ← pop
      print (Text.Utf8.encode c)
  | .writeNumber => do
    let value ← pop
    print (Text.Utf8.encodeText value.text)
  | .readChar => readTo Input.readChar fun c => .ok (Int64.ofNat c.toNat)
  | .readNumber => readTo Input.readLine numberOfLine

def execute (parts : Parts) : Action Signal :=
  match parts.opcode with
  | .stack op => do
    stackOp parts op
    return .next
  | .arithmetic op => do
    arithmeticOp op
    return .next
  | .heap op => do
    heapOp op
    return .next
  | .flow op => flowOp parts op
  | .io op => do
    ioOp op
    return .next

structure Failure where
  index : Nat
  parts : Parts
  fault : Fault
  deriving DecidableEq, Repr

def spend (processor : Processor) : Except Trap (Except Nat Processor) :=
  match processor.fuel with
  | none => return .ok processor
  | some fuel => do
    if fuel.left = 0 then return .error fuel.limit
    let left ← Trap.difference? fuel.left 1
    return .ok { processor with fuel := some ⟨fuel.limit, left⟩ }

def step (processor : Processor) :
    Except Trap (Except Failure (Option Halt) × Processor) := do
  let index := processor.pc
  match processor.program[index]? with
  | none => return (.ok (some .endOfProgram), processor)
  | some parts =>
    match ← processor.spend with
    | .error limit => return (.error ⟨index, parts, .outOfFuel limit⟩, processor)
    | .ok fuelled =>
      let (outcome, after) ← (execute parts).run.run { fuelled with pc := fuelled.pc + 1 }
      match outcome with
      | .ok .next => return (.ok none, after)
      | .ok .halt => return (.ok (some .stop), after)
      | .error fault => return (.error ⟨index, parts, fault⟩, after)

def runFor : Nat → Processor → Except Trap (Option (Except Failure Halt) × Processor)
  | 0, processor => return (none, processor)
  | count + 1, processor => do
    let (outcome, after) ← processor.step
    match outcome with
    | .error failure => return (some (.error failure), after)
    | .ok (some halt) => return (some (.ok halt), after)
    | .ok none => runFor count after

/-- What steps, runs to the end and label lookups make of a processor, in any order and also after
faults and halts. -/
inductive Reaches (first : Processor) : Processor → Prop
  | refl : Reaches first first
  | step {processor after : Processor} {outcome : Except Failure (Option Halt)}
      (hreaches : Reaches first processor) (hstep : processor.step = .ok (outcome, after)) :
      Reaches first after
  | execute {processor after : Processor} {count : Nat} {ending : Except Failure Halt}
      (hreaches : Reaches first processor)
      (hrun : processor.runFor count = .ok (some ending, after)) : Reaches first after
  | resolve {processor after : Processor} {label : Value} {answer : Except Fault Nat}
      (hreaches : Reaches first processor)
      (hresolve : (resolve label).run.run processor = .ok (answer, after)) : Reaches first after

end Processor

end Whitespace
