import Whitespace.Listing.Text
import Whitespace.Proofs.Machine.Calls

/-!
The machine that labels are meant for. It takes the map of all labels from the program before it runs,
never changes it and looks every label up in it; it has no table to fill and nothing to scan. Only flow
operations differ from those of `Machine`, and marks do nothing.
-/

namespace Whitespace.Machine

structure Eager where
  program : Program
  targets : Std.TreeMap Value Nat
  pc : Nat := 0
  calls : List Nat := []
  stack : Stack := []
  heap : Heap := ∅
  input : Input
  output : Output
  fuel : Option Fuel

namespace Eager

def start (program : Program) (input : Input) (output : Output) (limit : Option Nat) : Eager :=
  { program, targets := program.labels, input, output
    fuel := limit.map fun limit => ⟨limit, limit⟩ }

def resolve (eager : Eager) (label : Value) : Except Fault Nat :=
  match eager.targets[label]? with
  | some target => .ok target
  | none => .error (.undefinedLabel label)

def transfer (eager : Eager) (label : Value) (calls : List Nat) : Eager × Except Fault Signal :=
  match eager.resolve label with
  | .ok target => ({ eager with pc := target, calls }, .ok .next)
  | .error fault => (eager, .error fault)

def branch (eager : Eager) (label : Value) (test : Value → Bool) : Eager × Except Fault Signal :=
  match eager.stack with
  | top :: rest =>
    let popped := { eager with stack := rest }
    if test top then popped.transfer label popped.calls else (popped, .ok .next)
  | [] => (eager, .error (.stackUnderflow 1 0))

def ret (eager : Eager) : Eager × Except Fault Signal :=
  match eager.calls with
  | target :: rest => ({ eager with pc := target, calls := rest }, .ok .next)
  | [] => (eager, .error .returnWithoutCall)

def flow (eager : Eager) : FlowOp Value → Eager × Except Fault Signal
  | .mark _ => (eager, .ok .next)
  | .call label => eager.transfer label (eager.pc :: eager.calls)
  | .jump label => eager.transfer label eager.calls
  | .jumpIfZero label => eager.branch label (· = 0)
  | .jumpIfNegative label => eager.branch label (· < 0)
  | .ret => eager.ret
  | .stop => (eager, .ok .halt)

def operands (eager : Eager) : Machine :=
  { program := #[], stack := eager.stack, heap := eager.heap, input := eager.input
    output := eager.output }

def withOperands (eager : Eager) (operands : Machine) : Eager :=
  { eager with
    stack := operands.stack, heap := operands.heap, input := operands.input
    output := operands.output }

def perform (eager : Eager) : Operation Value → Eager × Except Fault Signal
  | .flow op => eager.flow op
  | operation =>
    let effect := eager.operands.perform operation
    (eager.withOperands effect.state, effect.outcome)

def execute (eager : Eager) (instruction : Instruction) : Eager × Except Fault Signal :=
  match instruction.decode with
  | .ok operation => eager.perform operation
  | .error error => (eager, .error (.malformedLiteral error))

def spend (eager : Eager) : Except Nat Eager :=
  match eager.fuel with
  | none => .ok eager
  | some ⟨limit, 0⟩ => .error limit
  | some ⟨limit, left + 1⟩ => .ok { eager with fuel := some ⟨limit, left⟩ }

def step (eager : Eager) : Eager × Except RuntimeError (Option Halt) :=
  match eager.program[eager.pc]? with
  | none => (eager, .ok (some .endOfProgram))
  | some instruction =>
    match eager.spend with
    | .error limit => (eager, .error ⟨eager.pc, instruction, .outOfFuel limit⟩)
    | .ok fuelled =>
      let result := { fuelled with pc := fuelled.pc + 1 }.execute instruction
      match result.2 with
      | .ok .next => (result.1, .ok none)
      | .ok .halt => (result.1, .ok (some .stop))
      | .error fault => (result.1, .error ⟨eager.pc, instruction, fault⟩)

def runFor : Nat → Eager → Eager × Option (Except RuntimeError Halt)
  | 0, eager => (eager, none)
  | count + 1, eager =>
    match eager.step with
    | (after, .error error) => (after, some (.error error))
    | (after, .ok (some halt)) => (after, some (.ok halt))
    | (after, .ok none) => runFor count after

inductive Performs (eager : Eager) : Call → Answer → Eager → Prop
  | step : Performs eager .step (.step eager.step.2) eager.step.1
  | execute {count : Nat} {ending : Except RuntimeError Halt}
      (hending : (eager.runFor count).2 = some ending) :
      Performs eager .execute (.execute ending) (eager.runFor count).1
  | resolve (label : Value) : Performs eager (.resolve label) (.resolve (eager.resolve label)) eager

inductive Calls (first : Eager) : List (Call × Answer) → Eager → Prop
  | nil : Calls first [] first
  | snoc {log eager call answer after} (hcalls : Calls first log eager)
      (hcall : Performs eager call answer after) : Calls first (log ++ [(call, answer)]) after

end Eager

end Whitespace.Machine
