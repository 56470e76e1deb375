import Whitespace.Machine.Control
import Whitespace.Machine.Stack
import Whitespace.Machine.Streams

namespace Whitespace

structure Machine.Fuel where
  limit : Nat
  left : Nat
  deriving DecidableEq, Repr

/-- A program with its control, operand stack, heap, input, output and fuel. Without fuel the run is
not bounded. -/
structure Machine where
  program : Program
  control : Machine.Control := {}
  stack : Machine.Stack := []
  heap : Machine.Heap := ∅
  input : Machine.Input := { remaining := [] }
  output : Machine.Output := {}
  fuel : Option Machine.Fuel := none

namespace Machine

def start (program : Program) (input : Input) (output : Output) (limit : Option Nat) : Machine :=
  { program, input, output, fuel := limit.map fun limit => ⟨limit, limit⟩ }

def pc (machine : Machine) : Nat := machine.control.pc

def resolve (machine : Machine) (label : Value) : Machine × Except Fault Nat :=
  let resolution := machine.control.labels.resolve machine.program label
  ({ machine with control := { machine.control with labels := resolution.table } },
    resolution.result label)

end Machine

end Whitespace
