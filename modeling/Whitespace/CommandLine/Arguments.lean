import Whitespace.Text.Decimal

/-!
The grammar of command lines. Every command accepts the same arguments, so that switching commands
never breaks a command line; which of them a command uses is decided later.

The value of an option that stands in an argument of its own is checked only when the next option or
positional argument comes, or at the end. An argument that is unknown, or a flag that is given a value,
is therefore reported before a wrong value just before it.
-/

namespace Whitespace.CommandLine

inductive Command where
  | exec
  | trace
  | dump
  | check
  deriving DecidableEq, Repr

def Command.ofName? : String → Option Command
  | "exec" => some .exec
  | "trace" => some .trace
  | "dump" => some .dump
  | "check" => some .check
  | _ => none

inductive UsageError where
  | help
  | version
  | missingCommand
  | unknownCommand
  | unknownArgument
  /-- An argument given twice, or two that exclude each other. -/
  | conflict
  | invalidValue
  /-- A value that is not the number it should be. -/
  | malformedValue
  | unexpectedValue
  deriving DecidableEq, Repr

def UsageError.exitCode : UsageError → Nat
  | .help | .version => 0
  | _ => 2

inductive ColorChoice where
  | auto
  | always
  | never
  deriving DecidableEq, Repr

inductive Parameter where
  | path
  | text
  | input
  | fuel
  | color
  deriving DecidableEq, Repr

inductive Switch where
  | letters
  | debug
  | json
  | compact
  deriving DecidableEq, Repr

inductive Argument where
  | parameter (parameter : Parameter)
  | switch (switch : Switch)
  | verbose
  | help
  deriving DecidableEq, Repr

def Argument.ofLong? : String → Option Argument
  | "source" => some (.parameter .text)
  | "input" => some (.parameter .input)
  | "fuel" => some (.parameter .fuel)
  | "color" => some (.parameter .color)
  | "notation" => some (.switch .letters)
  | "debug" => some (.switch .debug)
  | "json" => some (.switch .json)
  | "compact" => some (.switch .compact)
  | "help" => some .help
  | _ => none

def Argument.ofShort? : Char → Option Argument
  | 's' => some (.parameter .text)
  | 'd' => some (.switch .debug)
  | 'v' => some .verbose
  | 'h' => some .help
  | _ => none

structure Settings where
  path : Option String := none
  text : Option String := none
  input : Option String := none
  fuel : Option Nat := none
  color : Option ColorChoice := none
  letters : Bool := false
  debug : Bool := false
  json : Bool := false
  compact : Bool := false
  verbose : Nat := 0
  deriving DecidableEq, Repr

namespace Settings

def has (settings : Settings) : Parameter → Bool
  | .path => settings.path.isSome
  | .text => settings.text.isSome
  | .input => settings.input.isSome
  | .fuel => settings.fuel.isSome
  | .color => settings.color.isSome

def checkPath (value : String) : Except UsageError String :=
  if value.isEmpty then .error .invalidValue else .ok value

def checkFuel (value : String) : Except UsageError Nat :=
  match Text.Decimal.natural? value.toList with
  | some number => if number < UInt64.size then .ok number else .error .malformedValue
  | none => .error .malformedValue

def checkColor : String → Except UsageError ColorChoice
  | "auto" => .ok .auto
  | "always" => .ok .always
  | "never" => .ok .never
  | _ => .error .invalidValue

def assign (settings : Settings) (parameter : Parameter) (value : String) :
    Except UsageError Settings :=
  if settings.has parameter then .error .conflict
  else
    match parameter with
    | .path => (checkPath value).map ({ settings with path := some · })
    | .text => .ok { settings with text := some value }
    | .input => (checkPath value).map ({ settings with input := some · })
    | .fuel => (checkFuel value).map ({ settings with fuel := some · })
    | .color => (checkColor value).map ({ settings with color := some · })

def turnOn (settings : Settings) : Switch → Except UsageError Settings
  | .letters => if settings.letters then .error .conflict else .ok { settings with letters := true }
  | .debug => if settings.debug then .error .conflict else .ok { settings with debug := true }
  | .json => if settings.json then .error .conflict else .ok { settings with json := true }
  | .compact => if settings.compact then .error .conflict else .ok { settings with compact := true }

def moreVerbose (settings : Settings) : Settings :=
  { settings with verbose := min (settings.verbose + 1) 255 }

end Settings

/-- The arguments taken so far, and one that still waits for its value or for its value to be
checked. -/
structure Progress where
  settings : Settings := {}
  pending : Option (Parameter × Option String) := none
  deriving DecidableEq, Repr

namespace Progress

def settle (progress : Progress) : Except UsageError Settings :=
  match progress.pending with
  | none => .ok progress.settings
  | some (_, none) => .error .invalidValue
  | some (parameter, some value) => progress.settings.assign parameter value

def hasPath (progress : Progress) : Bool :=
  progress.settings.has .path || progress.pending.any (·.1 = .path)

def take (progress : Progress) : Argument → Option String → Except UsageError Progress
  | .parameter parameter, some value => do
    let settings ← (← progress.settle).assign parameter value
    .ok { settings }
  | .parameter parameter, none => do
    let settings ← progress.settle
    .ok { settings, pending := some (parameter, none) }
  | _, some _ => .error .unexpectedValue
  | .switch switch, none => do
    let settings ← (← progress.settle).turnOn switch
    .ok { settings }
  | .verbose, none => do
    let settings ← progress.settle
    .ok { settings := settings.moreVerbose }
  | .help, none => do
    let _ ← progress.settle
    .error .help

def takeLong (progress : Progress) (body : List Char) : Except UsageError Progress :=
  let name := String.ofList (body.takeWhile (· != '='))
  match Argument.ofLong? name, body.dropWhile (· != '=') with
  | none, _ => .error .unknownArgument
  | some argument, [] => progress.take argument none
  | some argument, _ :: value => progress.take argument (some (String.ofList value))

def attached? : List Char → Option String
  | [] => none
  | '=' :: value => some (String.ofList value)
  | value => some (String.ofList value)

def takeCluster (progress : Progress) : List Char → Except UsageError Progress
  | [] => .ok progress
  | c :: rest =>
    match Argument.ofShort? c with
    | none => .error .unknownArgument
    | some (.parameter parameter) => progress.take (.parameter parameter) (attached? rest)
    | some argument => do takeCluster (← progress.take argument none) rest

def takePath (progress : Progress) (value : String) : Except UsageError Progress :=
  if progress.hasPath then .error .unknownArgument
  else do
    let settings ← progress.settle
    .ok { settings, pending := some (.path, some value) }

def finish (progress : Progress) : Except UsageError Settings := do
  let settings ← progress.settle
  if settings.path.isSome && settings.text.isSome then .error .conflict else .ok settings

def takePositional (progress : Progress) : List String → Except UsageError Settings
  | [] => progress.finish
  | argument :: rest => do takePositional (← progress.takePath argument) rest

/-- Takes arguments. A lone dash and the empty text are values, not options. -/
def takeAll (progress : Progress) : List String → Except UsageError Settings
  | [] => progress.finish
  | argument :: rest =>
    match argument.toList with
    | ['-', '-'] => progress.takePositional rest
    | '-' :: '-' :: body => do takeAll (← progress.takeLong body) rest
    | '-' :: c :: letters => do takeAll (← progress.takeCluster (c :: letters)) rest
    | _ =>
      match progress.pending with
      | some (parameter, none) =>
        takeAll { progress with pending := some (parameter, some argument) } rest
      | _ => do takeAll (← progress.takePath argument) rest

end Progress

def Settings.ofArguments (arguments : List String) : Except UsageError Settings :=
  Progress.takeAll {} arguments

def isCommandWord (word : String) : Bool := word == "help" || (Command.ofName? word).isSome

/-- What `help` with further words amounts to: commands have no commands of their own. -/
def helpFor : List String → UsageError
  | [] => .help
  | [word] => if isCommandWord word then .help else .unknownCommand
  | _ => .unknownCommand

/-- What a first argument that is no command amounts to. -/
def withoutCommand (first : List Char) (rest : List String) : UsageError :=
  match first with
  | ['-', '-'] =>
    match rest with
    | [] => .missingCommand
    | word :: _ => if isCommandWord word then .unknownArgument else .unknownCommand
  | '-' :: '-' :: body =>
    match String.ofList (body.takeWhile (· != '=')), body.contains '=' with
    | "help", false => .help
    | "version", false => .version
    | "help", true | "version", true => .unexpectedValue
    | _, _ => .unknownArgument
  | ['-'] => .unknownCommand
  | '-' :: 'h' :: _ => .help
  | '-' :: 'V' :: _ => .version
  | '-' :: _ => .unknownArgument
  | _ => .unknownCommand

def parse : List String → Except UsageError (Command × Settings)
  | [] => .error .missingCommand
  | first :: rest =>
    match Command.ofName? first with
    | some command => (Settings.ofArguments rest).map (command, ·)
    | none =>
      .error (if first == "help" then helpFor rest else withoutCommand first.toList rest)

def versionText : String := "whitespace 0.1.0\n"

def helpText : String :=
  String.join <| List.map (· ++ "\n")
    ["Interpreter for the Whitespace programming language",
      "",
      "Usage: whitespace <COMMAND> [PROGRAM] [OPTIONS]",
      "",
      "Commands:",
      "  exec   Run a program",
      "  trace  Run a program and trace execution to stderr",
      "  dump   Show the decoded instruction listing",
      "  check  Check that a program decodes",
      "",
      "Options:",
      "  -s, --source <TEXT>  Inline program text",
      "      --notation       Read the program as S/T/L letters (space, tab, line feed)",
      "      --input <FILE>   Read program input from a file instead of stdin",
      "      --fuel <N>       Stop after executing N instructions (default: unlimited)",
      "  -d, --debug          Print an execution trace to stderr",
      "  -v                   Verbosity level (-v for verbose, -vv for very verbose)",
      "      --color <WHEN>   Colorize output (auto, always or never)",
      "      --json           Output instructions as JSON",
      "      --compact        Output compact JSON (default: pretty when stdout is a terminal)",
      "  -h, --help           Print help"]

def UsageError.message : UsageError → String
  | .help => helpText
  | .version => versionText
  | .missingCommand => helpText
  | .unknownCommand => "error: unrecognized subcommand\n"
  | .unknownArgument => "error: unexpected argument\n"
  | .conflict => "error: an argument is given twice or cannot be used with another one\n"
  | .invalidValue => "error: a value is missing, empty or not allowed\n"
  | .malformedValue => "error: a value is not a number in range\n"
  | .unexpectedValue => "error: an argument that takes no value is given one\n"

end Whitespace.CommandLine
