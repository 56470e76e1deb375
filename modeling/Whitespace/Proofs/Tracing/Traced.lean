import Whitespace.Proofs.Machine.Calls
import Whitespace.Trace

/-!
Reading and running under a tracer. A tracer is told of every event at the moment it happens and is
handed on from one to the next, through the loop that reads a source text, through scans for labels and
through the steps of a run; nothing is kept for it. A `Printer` is the tracer that writes the lines of a
trace to a sink. A write to the sink may fail, and then a line is cut off or lost.
-/

namespace Whitespace

open Machine

class Tracer (τ : Type) where
  hear : τ → Event → τ

structure Printer where
  trace : Trace
  sink : Output := {}

/-- Writes the line of an event, if it is shown, whether or not the sink takes it. -/
def Printer.hear (printer : Printer) (event : Event) : Printer where
  trace := printer.trace.after event
  sink :=
    match printer.trace.shown? event with
    | some line => (printer.sink.write (Text.Utf8.encodeText (line ++ "\n"))).1
    | none => printer.sink

instance : Tracer Printer := ⟨Printer.hear⟩

namespace Traced

variable {τ : Type} [Tracer τ]

def tell (event : Event) : StateM τ Unit := modify (Tracer.hear · event)

def readFrom (byteOffset : Nat → Nat) (position : Nat) (found : Program) (input : List Glyph) :
    StateM τ (Except SourceError Program) :=
  if input.isEmpty then return .ok found
  else
    match _h : Instruction.read input with
    | .error (before, cause) => return .error ⟨found.size, byteOffset (position + before), cause⟩
    | .ok (instruction, rest) => do
      tell (.decoded found.size (byteOffset position) instruction)
      readFrom byteOffset (position + instruction.glyphs.length) (found.push instruction) rest
termination_by input.length
decreasing_by exact Instruction.length_lt_of_read ‹_›

def read (source : String) : StateM τ (Except SourceError Program) :=
  let lexemes := Lexeme.ofSource source
  readFrom (Lexeme.byteOffset lexemes source) 0 #[] (lexemes.toList.map Lexeme.glyph)

def record (table : LabelTable) (label : Value) (target : Nat) : StateM τ LabelTable :=
  match table.get? label with
  | some _ => return table
  | none => do
    tell (.label label target)
    return { table with targets := table.targets.insert label target }

theorem scanned_record (table : LabelTable) (label : Value) (target : Nat) (tracer : τ) :
    ((record table label target).run tracer).1.scanned = table.scanned := by
  unfold record
  split <;> rfl

def scan (program : Program) (label : Value) (table : LabelTable) :
    StateM τ (LabelTable × Except LiteralError (Option Nat)) := fun tracer =>
  if h : table.scanned < program.size then
    let next := { table with scanned := table.scanned + 1 }
    match program[table.scanned].mark? with
    | none => scan program label next tracer
    | some literal =>
      match literal.decode with
      | .error error => ((next, .error error), tracer)
      | .ok mark =>
        let told := (record next mark (table.scanned + 1)).run tracer
        if mark = label then ((told.1, .ok (told.1.get? label)), told.2)
        else scan program label told.1 told.2
  else ((table, .ok none), tracer)
termination_by program.size - table.scanned
decreasing_by
  · exact Nat.sub_succ_lt_self _ _ h
  · rw [scanned_record]
    exact Nat.sub_succ_lt_self _ _ h

def resolve (program : Program) (label : Value) (table : LabelTable) :
    StateM τ (LabelTable × Except Fault Nat) :=
  match table.get? label with
  | some target => return (table, .ok target)
  | none => do
    match ← scan program label table with
    | (table, .ok (some target)) => return (table, .ok target)
    | (table, .ok none) => return (table, .error (.undefinedLabel label))
    | (table, .error error) => return (table, .error (.malformedLiteral error))

def transfer (program : Program) (control : Control) (label : Value) (calls : List Nat)
    (event : Value → Nat → Event) : StateM τ (Control × Except Fault Signal) := do
  match ← resolve program label control.labels with
  | (labels, .ok target) =>
    tell (event label target)
    return (⟨target, calls, labels⟩, .ok .next)
  | (labels, .error fault) => return ({ control with labels }, .error fault)

def branch (program : Program) (control : Control) (stack : Stack) (label : Value)
    (test : Value → Bool) : StateM τ ((Control × Stack) × Except Fault Signal) :=
  match stack with
  | top :: rest =>
    if test top then do
      let result ← transfer program control label control.calls .jump
      return ((result.1, rest), result.2)
    else return ((control, rest), .ok .next)
  | [] => return ((control, stack), .error (.stackUnderflow 1 0))

def flow (program : Program) (control : Control) (stack : Stack) :
    FlowOp Value → StateM τ ((Control × Stack) × Except Fault Signal)
  | .mark label => do
    let labels ← record control.labels label control.pc
    return (({ control with labels }, stack), .ok .next)
  | .call label => do
    let result ← transfer program control label (control.pc :: control.calls) .call
    return ((result.1, stack), result.2)
  | .jump label => do
    let result ← transfer program control label control.calls .jump
    return ((result.1, stack), result.2)
  | .jumpIfZero label => branch program control stack label (· = 0)
  | .jumpIfNegative label => branch program control stack label (· < 0)
  | .ret =>
    match control.calls with
    | target :: rest => do
      tell (.ret target)
      return (({ control with pc := target, calls := rest }, stack), .ok .next)
    | [] => return ((control, stack), .error .returnWithoutCall)
  | .stop => return ((control, stack), .ok .halt)

def perform (machine : Machine) : Operation Value → StateM τ (Machine × Except Fault Signal)
  | .flow op => do
    let result ← flow machine.program machine.control machine.stack op
    return ({ machine with control := result.1.1, stack := result.1.2 }, result.2)
  | operation =>
    let effect := machine.perform operation
    return (effect.state, effect.outcome)

def execute (machine : Machine) (instruction : Instruction) :
    StateM τ (Machine × Except Fault Signal) :=
  match instruction.decode with
  | .ok operation => perform machine operation
  | .error error => return (machine, .error (.malformedLiteral error))

def step (machine : Machine) : StateM τ (Machine × Except RuntimeError (Option Halt)) :=
  let index := machine.pc
  match machine.program[index]? with
  | none => do
    tell (.halt index false)
    return (machine, .ok (some .endOfProgram))
  | some instruction =>
    match machine.spend with
    | .error limit => return (machine, .error ⟨index, instruction, .outOfFuel limit⟩)
    | .ok fuelled => do
      tell (.instruction index instruction)
      match ← execute fuelled.advance instruction with
      | (after, .ok .next) =>
        tell (.stack after.stack)
        return (after, .ok none)
      | (after, .ok .halt) =>
        tell (.halt index true)
        return (after, .ok (some .stop))
      | (after, .error fault) => return (after, .error ⟨index, instruction, fault⟩)

def runFor : Nat → Machine → StateM τ (Machine × Option (Except RuntimeError Halt))
  | 0, machine => return (machine, none)
  | count + 1, machine => do
    match ← step machine with
    | (after, .error error) => return (after, some (.error error))
    | (after, .ok (some halt)) => return (after, some (.ok halt))
    | (after, .ok none) => runFor count after

def execution (count : Nat) (machine : Machine) :
    StateM τ (Machine × Option (Except RuntimeError Halt)) := do
  tell (.program machine.program.size)
  runFor count machine

/-- A call on a machine under a tracer is answered and leaves machine and tracer behind. Lookups that
are asked for from outside are not traced. -/
inductive Performs (machine : Machine) (tracer : τ) : Call → Answer → Machine → τ → Prop
  | step {outcome : Except RuntimeError (Option Halt)} {after : Machine} {told : τ}
      (h : (step machine).run tracer = ((after, outcome), told)) :
      Performs machine tracer .step (.step outcome) after told
  | execute {count : Nat} {ending : Except RuntimeError Halt} {after : Machine} {told : τ}
      (h : (execution count machine).run tracer = ((after, some ending), told)) :
      Performs machine tracer .execute (.execute ending) after told
  | resolve (label : Value) :
      Performs machine tracer (.resolve label) (.resolve (machine.resolve label).2)
        (machine.resolve label).1 tracer

inductive Calls (first : Machine) (tracer : τ) : List (Call × Answer) → Machine → τ → Prop
  | nil : Calls first tracer [] first tracer
  | snoc {log machine call answer after} {told told' : τ}
      (hcalls : Calls first tracer log machine told)
      (hcall : Performs machine told call answer after told') :
      Calls first tracer (log ++ [(call, answer)]) after told'

end Traced

end Whitespace
