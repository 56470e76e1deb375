import Whitespace.CommandLine.Request
import Whitespace.Listing.Json
import Whitespace.Listing.Text
import Whitespace.Machine.Step

/-!
Jobs carry out requests. Loading, listing and checking are done at once; a run goes on step by step,
and the text it writes so far is kept in the job.
-/

namespace Whitespace.CommandLine

/-- What a finished job leaves: exit code, standard output and standard error. -/
structure Report where
  exitCode : Nat
  stdout : Array UInt8 := #[]
  stderr : String := ""
  deriving DecidableEq, Repr

namespace Report

def diagnostic (message : String) : String := "error: " ++ message ++ "\n"

def failure (stderr message : String) (stdout : Array UInt8 := #[]) : Report :=
  ⟨1, stdout, stderr ++ diagnostic message⟩

def success (text : String := "") : Report :=
  { exitCode := 0, stdout := (Text.Utf8.encodeText text).toArray }

end Report

/-- The text of a trace so far. Without a trace nothing is ever written. -/
structure Log where
  trace : Option Trace
  text : String := ""

def Log.tell (log : Log) (events : List Event) : Log :=
  match log.trace with
  | none => log
  | some trace => ⟨some (trace.afterAll events), log.text ++ trace.text events⟩

structure Session where
  machine : Machine
  log : Log

inductive Job where
  | running (session : Session)
  | finished (report : Report)

def Session.advance (session : Session) (count : Nat) : Job :=
  let run := session.machine.runFor count
  let log := session.log.tell run.events
  let stdout := run.machine.output.written
  match run.ending with
  | none => .running ⟨run.machine, log⟩
  | some (.ok _) => .finished ⟨0, stdout, log.text⟩
  | some (.error error) => .finished (.failure log.text error.message stdout)

/-- Takes what was written so far off the session. -/
def Session.drain (session : Session) : Array UInt8 × String × Session :=
  let machine := session.machine
  (machine.output.written, session.log.text,
    { machine := { machine with output := { machine.output with written := #[], asked := [] } }
      log := { session.log with text := "" } })

def Session.feed (session : Session) (bytes : List UInt8) : Session :=
  let machine := session.machine
  { session with machine := { machine with input := machine.input.feed bytes } }

namespace Job

def advance (count : Nat) : Job → Job
  | running session => session.advance count
  | finished report => finished report

def openInput (environment : Environment) (options : RunOptions) :
    Except String Machine.Input :=
  match options.input with
  | none =>
    .ok { remaining := if options.origin.usesStdin then [] else environment.stdin }
  | some path =>
    match environment.files path with
    | .ok (.file bytes) => .ok { remaining := bytes }
    | .ok .directory => .ok { remaining := [], failure := some .isDirectory }
    | .error error => .error s!"failed to open '{path}': {error.message}"

def run (environment : Environment) (options : RunOptions) (trace : Option Trace) : Job :=
  match options.origin.reading environment with
  | .error error => .finished (.failure "" error.message)
  | .ok reading =>
    let log := Log.tell ⟨trace, ""⟩ reading.events
    match reading.program with
    | .error error => .finished (.failure log.text error.message)
    | .ok program =>
      match openInput environment options with
      | .error message => .finished (.failure log.text message)
      | .ok input =>
        .running ⟨.start program input {} options.fuel, log.tell [.program program.size]⟩

def start (environment : Environment) : Request → Job
  | .exec options debug =>
    let trace := ⟨.quiet, options.color.palette environment, Trace.initialLayout⟩
    run environment options (if debug then some trace else none)
  | .trace options verbose =>
    run environment options
      (some ⟨.ofCount verbose, options.color.palette environment, Trace.initialLayout⟩)
  | .dump origin json compact color =>
    match origin.load environment with
    | .error error => .finished (.failure "" error.message)
    | .ok program =>
      if json then
        let indented := !compact && environment.stdoutIsTerminal
        .finished (.success (Listing.Json.text indented program ++ "\n"))
      else .finished (.success (Listing.text (color.palette environment) program))
  | .check origin =>
    match origin.load environment with
    | .error error => .finished (.failure "" error.message)
    | .ok _ => .finished .success

end Job

end Whitespace.CommandLine
