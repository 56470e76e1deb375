import Whitespace.CommandLine.Arguments
import Whitespace.CommandLine.Origin
import Whitespace.Trace

namespace Whitespace.CommandLine

structure RunOptions where
  origin : Origin
  input : Option String
  fuel : Option Nat
  color : ColorChoice
  deriving DecidableEq, Repr

inductive Request where
  | exec (options : RunOptions) (debug : Bool)
  /-- Run with a trace; `verbose` counts how often more was asked for. -/
  | trace (options : RunOptions) (verbose : Nat)
  | dump (origin : Origin) (json compact : Bool) (color : ColorChoice)
  | check (origin : Origin)
  deriving DecidableEq, Repr

namespace Settings

def origin (settings : Settings) : Origin :=
  ⟨settings.path, settings.text, settings.letters⟩

def colorChoice (settings : Settings) : ColorChoice := settings.color.getD .auto

def runOptions (settings : Settings) : RunOptions :=
  ⟨settings.origin, settings.input, settings.fuel, settings.colorChoice⟩

def request (settings : Settings) : Command → Request
  | .exec => .exec settings.runOptions settings.debug
  | .trace => .trace settings.runOptions settings.verbose
  | .dump => .dump settings.origin settings.json settings.compact settings.colorChoice
  | .check => .check settings.origin

end Settings

def Request.parse (arguments : List String) : Except UsageError Request :=
  (CommandLine.parse arguments).map fun parsed => parsed.2.request parsed.1

def Request.origin : Request → Origin
  | .exec options _ | .trace options _ => options.origin
  | .dump origin _ _ _ | .check origin => origin

def Request.readsStdin : Request → Bool
  | .exec options _ | .trace options _ => options.input.isNone && !options.origin.usesStdin
  | .dump .. | .check _ => false

/-- Colours, if not asked for or forbidden, are for terminals only: a trace piped on should hold no
escape sequences. -/
def ColorChoice.palette (choice : ColorChoice) (environment : Environment) : Palette where
  colored :=
    match choice with
    | .always => true
    | .never => false
    | .auto => environment.stdoutIsTerminal && environment.stderrIsTerminal

end Whitespace.CommandLine
