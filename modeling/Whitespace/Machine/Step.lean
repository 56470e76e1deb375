import Whitespace.Machine.Exchange

/-!
One step of a machine, and runs of so many steps. The end of the program is noticed before fuel is asked
for, and fuel is spent before the instruction executes, so an instruction that fails has used up its fuel.
-/

namespace Whitespace

namespace Machine

inductive Halt where
  | stop
  | endOfProgram
  deriving DecidableEq, Repr

structure RuntimeError where
  index : Nat
  instruction : Instruction
  fault : Fault
  deriving DecidableEq, Repr

def RuntimeError.message (error : RuntimeError) : String :=
  s!"instruction {error.index} `{error.instruction.display}`: {error.fault.message}"

def perform (machine : Machine) : Operation Value → Effect Machine
  | .stack op => Effect.ofExcept machine ({ machine with stack := · }) (op.run machine.stack)
  | .arithmetic op => Effect.ofExcept machine ({ machine with stack := · }) (op.run machine.stack)
  | .heap op =>
    Effect.ofExcept machine (fun state => { machine with stack := state.1, heap := state.2 })
      (op.run machine.stack machine.heap)
  | .flow op =>
    (op.run machine.program machine.control machine.stack).within fun state =>
      { machine with control := state.1, stack := state.2 }
  | .io op => op.run machine

/-- The effect of an instruction. An operand without a value is noticed before anything else. -/
def execute (machine : Machine) (instruction : Instruction) : Effect Machine :=
  match instruction.decode with
  | .ok operation => machine.perform operation
  | .error error => machine.fail (.malformedLiteral error)

def spend (machine : Machine) : Except Nat Machine :=
  match machine.fuel with
  | none => .ok machine
  | some ⟨limit, 0⟩ => .error limit
  | some ⟨limit, left + 1⟩ => .ok { machine with fuel := some ⟨limit, left⟩ }

def advance (machine : Machine) : Machine :=
  { machine with control := { machine.control with pc := machine.control.pc + 1 } }

/-- The machine after a step, what a trace tells of the step, and how it ended: in a fault, in a
halt, or so that another step can follow. -/
structure Step where
  machine : Machine
  events : List Event
  outcome : Except RuntimeError (Option Halt)

def step (machine : Machine) : Step :=
  let index := machine.pc
  match machine.program[index]? with
  | none => ⟨machine, [.halt index false], .ok (some .endOfProgram)⟩
  | some instruction =>
    match machine.spend with
    | .error limit => ⟨machine, [], .error ⟨index, instruction, .outOfFuel limit⟩⟩
    | .ok fuelled =>
      let effect := fuelled.advance.execute instruction
      let events := .instruction index instruction :: effect.events
      match effect.outcome with
      | .ok .next => ⟨effect.state, events ++ [.stack effect.state.stack], .ok none⟩
      | .ok .halt => ⟨effect.state, events ++ [.halt index true], .ok (some .stop)⟩
      | .error fault => ⟨effect.state, events, .error ⟨index, instruction, fault⟩⟩

/-- Whether the next step would read past the bytes that have arrived so far. -/
def awaitsInput (machine : Machine) : Bool :=
  !machine.stack.isEmpty && machine.spend.toBool &&
    match machine.program[machine.pc]? with
    | some (.io .readChar) => !machine.input.holdsChar
    | some (.io .readNumber) => !machine.input.holdsLine
    | _ => false

structure Run where
  machine : Machine
  events : List Event
  ending : Option (Except RuntimeError Halt)

def runFor : Nat → Machine → Run
  | 0, machine => ⟨machine, [], none⟩
  | count + 1, machine =>
    let step := machine.step
    match step.outcome with
    | .error error => ⟨step.machine, step.events, some (.error error)⟩
    | .ok (some halt) => ⟨step.machine, step.events, some (.ok halt)⟩
    | .ok none =>
      let rest := runFor count step.machine
      ⟨rest.machine, step.events ++ rest.events, rest.ending⟩

def Run.carryOn (run : Run) (count : Nat) : Run :=
  match run.ending with
  | some _ => run
  | none =>
    let rest := runFor count run.machine
    ⟨rest.machine, run.events ++ rest.events, rest.ending⟩

/-- A longer run is a shorter one carried on. -/
theorem runFor_add (first second : Nat) (machine : Machine) :
    runFor (first + second) machine = (runFor first machine).carryOn second := by
  induction first generalizing machine with
  | zero => simp [runFor, Run.carryOn]
  | succ first ih =>
    rw [Nat.succ_add, runFor, runFor]
    cases machine.step.outcome with
    | error error => rfl
    | ok halt =>
      cases halt with
      | some halt => rfl
      | none =>
        simp only [ih, Run.carryOn]
        cases hending : (runFor first machine.step.machine).ending <;> simp [hending]

end Machine

end Whitespace
