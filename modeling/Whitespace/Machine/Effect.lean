import Whitespace.Machine.Streams
import Whitespace.Program

/-!
Effects are what executing one operation comes to. A state is left behind in either case: some faults
come after part of the work is done. The wording of each fault is in `Fault.message`.
-/

namespace Whitespace.Machine

inductive Fault where
  | stackUnderflow (required available : Nat)
  /-- A negative operand of `copy` or `slide`. -/
  | invalidStackIndex (index : Value)
  | divisionByZero
  | arithmeticOverflow
  | uninitializedAddress (address : Value)
  | undefinedLabel (label : Value)
  | returnWithoutCall
  | endOfInput
  | invalidCharacter (value : Value)
  | invalidNumber (text : List Char)
  | malformedLiteral (error : LiteralError)
  | outOfFuel (limit : Nat)
  | stream (error : StreamError)
  deriving DecidableEq, Repr

def Fault.message : Fault → String
  | .stackUnderflow required available =>
    s!"stack underflow: needs {required} value(s), stack holds {available}"
  | .invalidStackIndex index => s!"invalid stack index {index.text}"
  | .divisionByZero => "division by zero"
  | .arithmeticOverflow => "arithmetic overflow"
  | .uninitializedAddress address => s!"uninitialized heap address {address.text}"
  | .undefinedLabel label => s!"undefined label {label.text}"
  | .returnWithoutCall => "return without call"
  | .endOfInput => "unexpected end of input"
  | .invalidCharacter value => s!"{value.text} is not a valid character"
  | .invalidNumber text => s!"invalid number input {Text.Quoted.text text}"
  | .malformedLiteral error => error.message
  | .outOfFuel limit => s!"execution limit of {limit} steps exceeded"
  | .stream error => s!"i/o error: {error.message}"

inductive Signal where
  | next
  | halt
  deriving DecidableEq, Repr

/-- The state an operation leaves, what a trace tells of it, and how it ended. -/
structure Effect (σ : Type) where
  state : σ
  events : List Event := []
  outcome : Except Fault Signal := .ok .next

def Effect.within {σ τ : Type} (effect : Effect σ) (embed : σ → τ) : Effect τ where
  state := embed effect.state
  events := effect.events
  outcome := effect.outcome

def Effect.ofExcept {σ τ : Type} (old : τ) (embed : σ → τ) : Except Fault σ → Effect τ
  | .ok state => { state := embed state }
  | .error fault => { state := old, outcome := .error fault }

end Whitespace.Machine
