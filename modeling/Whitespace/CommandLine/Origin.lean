import Whitespace.CommandLine.Files
import Whitespace.Reading

/-!
Where a program comes from: text given inline, standard input, or a file; as source text or in letters.
-/

namespace Whitespace.CommandLine

structure Environment where
  files : Files
  stdin : List UInt8 := []
  stdoutIsTerminal : Bool := false
  stderrIsTerminal : Bool := false

/-- The place of a program. Inline text wins over a path, and a lone dash is standard input. -/
structure Origin where
  path : Option String := none
  text : Option String := none
  letters : Bool := false
  deriving DecidableEq, Repr

inductive LoadError where
  | missing
  | stdin (reason : ReadError)
  | file (path : String) (reason : ReadError)
  | source (error : SourceError)
  deriving DecidableEq, Repr

def LoadError.message : LoadError → String
  | .missing => "program is required: use a positional argument or -s/--source"
  | .stdin reason => s!"failed to read stdin: {reason.message}"
  | .file path reason => s!"failed to read '{path}': {reason.message}"
  | .source error => error.message

namespace Origin

def stdinPath : String := "-"

def usesStdin (origin : Origin) : Bool :=
  origin.text.isNone && origin.path == some stdinPath

def content (origin : Origin) (environment : Environment) : Except LoadError String :=
  match origin.text, origin.path with
  | some text, _ => .ok text
  | none, none => .error .missing
  | none, some path =>
    if path = stdinPath then (textOfBytes environment.stdin).mapError .stdin
    else (environment.files.readText path).mapError (.file path)

def source (origin : Origin) (environment : Environment) : Except LoadError String :=
  (origin.content environment).map fun text =>
    if origin.letters then sourceOfLetters text else text

def reading (origin : Origin) (environment : Environment) : Except LoadError Reading :=
  (origin.source environment).map Reading.ofSource

def load (origin : Origin) (environment : Environment) : Except LoadError Program := do
  let reading ← origin.reading environment
  reading.program.mapError .source

theorem load_of_source {origin : Origin} {environment : Environment} {source : String}
    (h : origin.source environment = .ok source) :
    origin.load environment = (Program.ofSource source).mapError .source := by
  simp only [load, reading, h]
  rfl

end Origin

end Whitespace.CommandLine
