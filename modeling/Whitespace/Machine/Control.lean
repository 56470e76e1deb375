import Whitespace.Machine.Effect
import Whitespace.Machine.Labels
import Whitespace.Machine.Stack

/-!
Control: where execution stands, where subroutines return to, and which labels are known. Flow
operations see only this, the program and the operand stack.
-/

namespace Whitespace

namespace Machine

structure Control where
  pc : Nat := 0
  calls : List Nat := []
  labels : LabelTable := {}

namespace Control

/-- Passes control to a label, with `calls` as the return indices there. Labels recorded by an
unsuccessful search stay recorded. -/
def transfer (program : Program) (control : Control) (label : Value) (calls : List Nat)
    (event : Value → Nat → Event) : Effect Control :=
  let resolution := control.labels.resolve program label
  let recorded := resolution.recorded.toList.map fun entry => .label entry.1 entry.2
  match resolution.result label with
  | .ok target =>
    { state := ⟨target, calls, resolution.table⟩, events := recorded ++ [event label target] }
  | .error fault =>
    { state := { control with labels := resolution.table }
      events := recorded
      outcome := .error fault }

def call (program : Program) (control : Control) (label : Value) : Effect Control :=
  control.transfer program label (control.pc :: control.calls) .call

def jump (program : Program) (control : Control) (label : Value) : Effect Control :=
  control.transfer program label control.calls .jump

def mark (control : Control) (label : Value) : Effect Control :=
  let entry := control.labels.record label control.pc
  { state := { control with labels := entry.1 }
    events := if entry.2 then [.label label control.pc] else [] }

def ret (control : Control) : Effect Control :=
  match control.calls with
  | target :: rest =>
    { state := { control with pc := target, calls := rest }, events := [.ret target] }
  | [] => { state := control, outcome := .error .returnWithoutCall }

/-- Takes the top of the stack and jumps if it passes a test. The top is gone even if the jump
fails. -/
def branch (program : Program) (control : Control) (stack : Stack) (label : Value)
    (test : Value → Bool) : Effect (Control × Stack) :=
  match stack with
  | top :: rest =>
    if test top then (control.jump program label).within (·, rest) else { state := (control, rest) }
  | [] => Effect.ofExcept (control, stack) id (stack.underflow 1)

end Control

end Machine

open Machine

/-- The effect of a flow operation on control and stack; `control` already stands at the next
instruction. -/
def FlowOp.run (program : Program) (control : Control) (stack : Stack) :
    FlowOp Value → Effect (Control × Stack)
  | .mark label => (control.mark label).within (·, stack)
  | .call label => (control.call program label).within (·, stack)
  | .jump label => (control.jump program label).within (·, stack)
  | .jumpIfZero label => control.branch program stack label (· = 0)
  | .jumpIfNegative label => control.branch program stack label (· < 0)
  | .ret => control.ret.within (·, stack)
  | .stop => { state := (control, stack), outcome := .ok .halt }

end Whitespace
