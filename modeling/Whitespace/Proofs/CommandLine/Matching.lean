import Mathlib.Logic.Function.Basic
import Whitespace.Proofs.CommandLine.Signatures

/-!
Matching arguments against what a command declares, whatever that is: which values and flags a command line
gives (`Signature.parse`), and what each command reads from them. No command uses what its help leaves out
(`Matches.request_congr`).
-/

namespace Whitespace.CommandLine

inductive Found where
  | text (value : String)
  | number (value : Nat)
  | given
  | times (count : Nat)
  deriving DecidableEq, Repr

def Found.ofFlag : Bool → Option Found
  | true => some .given
  | false => none

@[simp] theorem Found.isSome_ofFlag (flag : Bool) : (ofFlag flag).isSome = flag := by
  cases flag <;> rfl

/-- What is stored for each argument that is given. -/
abbrev Matches := Argument → Option Found

def ValueParser.check (value : String) : ValueParser → Except UsageError Found
  | .path => (Settings.checkPath value).map .text
  | .text => .ok (.text value)
  | .number => (Settings.checkFuel value).map .number
  | .oneOf allowed => if value ∈ allowed then .ok (.text value) else .error .invalidValue

theorem check_fallback {argument : Argument} {value : String}
    (h : argument.declaration.fallback = some value) :
    ∃ parser, argument.declaration.action = .set parser ∧ parser.check value = .ok (.text value) := by
  have hcolor : ∀ argument ∈ Argument.all, ∀ value ∈ argument.declaration.fallback,
      argument = .parameter .color ∧ value = "auto" := by decide
  obtain ⟨rfl, rfl⟩ := hcolor argument argument.mem_all value h
  exact ⟨_, rfl, rfl⟩

namespace Matches

variable (found : Matches) (argument : Argument)

def has : Bool := (found argument).isSome

def store (stored : Found) : Matches := Function.update found argument (some stored)

def assign (declaration : Declaration) (value : String) : Except UsageError Matches :=
  if found.has declaration.argument then .error .conflict
  else
    match declaration.action with
    | .set parser => (parser.check value).map (found.store declaration.argument)
    | _ => .error .unexpectedValue

def turnOn : Except UsageError Matches :=
  if found.has argument then .error .conflict else .ok (found.store argument .given)

def count : Nat :=
  match found argument with
  | some (.times count) => count
  | _ => 0

def oneMore : Matches := found.store argument (.times (min (found.count argument + 1) 255))

def withFallbacks (signature : Signature) : Matches :=
  fun argument => (found argument).or ((signature.fallback? argument).map .text)

end Matches

/-- What is stored so far, and an argument that still waits for its value or for its value to be
checked. -/
structure Taking where
  found : Matches := fun _ => none
  pending : Option (Declaration × Option String) := none

namespace Taking

variable (taking : Taking)

def settle : Except UsageError Matches :=
  match taking.pending with
  | none => .ok taking.found
  | some (_, none) => .error .invalidValue
  | some (declaration, some value) => taking.found.assign declaration value

def given (argument : Argument) : Bool :=
  taking.found.has argument || taking.pending.any (·.1.argument = argument)

def take (declaration : Declaration) (attached : Option String) : Except UsageError Taking :=
  match declaration.action, attached with
  | .set _, some value => do
    let found ← (← taking.settle).assign declaration value
    .ok { found }
  | .set _, none => do
    let found ← taking.settle
    .ok { found, pending := some (declaration, none) }
  | _, some _ => .error .unexpectedValue
  | .setTrue, none => do
    let found ← (← taking.settle).turnOn declaration.argument
    .ok { found }
  | .count, none => do
    let found ← taking.settle
    .ok { found := found.oneMore declaration.argument }
  | .help, none => do
    let _ ← taking.settle
    .error .help

end Taking

namespace Signature

variable (signature : Signature)

def takeLong (taking : Taking) (body : List Char) : Except UsageError Taking :=
  let name := String.ofList (body.takeWhile (· != '='))
  match signature.long? name, body.dropWhile (· != '=') with
  | none, _ => .error .unknownArgument
  | some declaration, [] => taking.take declaration none
  | some declaration, _ :: value => taking.take declaration (some (String.ofList value))

def takeCluster (taking : Taking) : List Char → Except UsageError Taking
  | [] => .ok taking
  | c :: rest =>
    match signature.short? c with
    | none => .error .unknownArgument
    | some declaration =>
      match declaration.action with
      | .set _ => taking.take declaration (Progress.attached? rest)
      | _ => do takeCluster (← taking.take declaration none) rest

def takeNext (taking : Taking) (value : String) : Except UsageError Taking :=
  match signature.positional? taking.given with
  | none => .error .unknownArgument
  | some declaration => do
    let found ← taking.settle
    .ok { found, pending := some (declaration, some value) }

def finish (taking : Taking) : Except UsageError Matches := do
  let found ← taking.settle
  if signature.conflicting found.has then .error .conflict else .ok (found.withFallbacks signature)

def takePositional (taking : Taking) : List String → Except UsageError Matches
  | [] => signature.finish taking
  | argument :: rest => do takePositional (← signature.takeNext taking argument) rest

def takeAll (taking : Taking) : List String → Except UsageError Matches
  | [] => signature.finish taking
  | argument :: rest =>
    match argument.toList with
    | ['-', '-'] => signature.takePositional taking rest
    | '-' :: '-' :: body => do takeAll (← signature.takeLong taking body) rest
    | '-' :: c :: letters => do takeAll (← signature.takeCluster taking (c :: letters)) rest
    | _ =>
      match taking.pending with
      | some (declaration, none) =>
        takeAll { taking with pending := some (declaration, some argument) } rest
      | _ => do takeAll (← signature.takeNext taking argument) rest

def parse (arguments : List String) : Except UsageError Matches := signature.takeAll {} arguments

end Signature

namespace Matches

variable (found : Matches)

def text? (argument : Argument) : Option String :=
  match found argument with
  | some (.text value) => some value
  | _ => none

def number? (argument : Argument) : Option Nat :=
  match found argument with
  | some (.number value) => some value
  | _ => none

def color : ColorChoice :=
  match found.text? (.parameter .color) with
  | some "always" => .always
  | some "never" => .never
  | _ => .auto

def origin : Origin :=
  ⟨found.text? (.parameter .path), found.text? (.parameter .text), found.has (.switch .letters)⟩

def runOptions : RunOptions :=
  ⟨found.origin, found.text? (.parameter .input), found.number? (.parameter .fuel), found.color⟩

def request : Command → Request
  | .exec => .exec found.runOptions (found.has (.switch .debug))
  | .trace => .trace found.runOptions (found.count .verbose)
  | .dump =>
    .dump found.origin (found.has (.switch .json)) (found.has (.switch .compact)) found.color
  | .check => .check found.origin

theorem request_congr {command : Command} {found found' : Matches}
    (h : ∀ entry ∈ command.listed, entry.hidden = false →
      found entry.declaration.argument = found' entry.declaration.argument) :
    found.request command = found'.request command := by
  have hshown {argument : Argument} (hlisted : ⟨argument.declaration, false⟩ ∈ command.listed) :
      found argument = found' argument := by
    simpa using h _ hlisted rfl
  have horigin : found.origin = found'.origin := by
    have hprogram : ∀ argument ∈ [Argument.parameter .path, .parameter .text, .switch .letters],
        ⟨argument.declaration, false⟩ ∈ command.listed := by
      cases command <;> decide
    simp only [List.forall_mem_cons] at hprogram
    simp only [origin, text?, has, hshown hprogram.1, hshown hprogram.2.1, hshown hprogram.2.2.1]
  have hrun (hlisted : ∀ argument ∈ [Argument.parameter .input, .parameter .fuel, .parameter .color],
      ⟨argument.declaration, false⟩ ∈ command.listed) : found.runOptions = found'.runOptions := by
    simp only [List.forall_mem_cons] at hlisted
    simp only [runOptions, horigin, text?, number?, color, hshown hlisted.1, hshown hlisted.2.1,
      hshown hlisted.2.2.1]
  cases command with
  | exec =>
    have hdebug : found (.switch .debug) = found' (.switch .debug) := hshown (by decide)
    simp only [request, hrun (by decide), has, hdebug]
  | trace =>
    have hverbose : found .verbose = found' .verbose := hshown (by decide)
    simp only [request, hrun (by decide), count, hverbose]
  | dump =>
    have hjson : found (.switch .json) = found' (.switch .json) := hshown (by decide)
    have hcompact : found (.switch .compact) = found' (.switch .compact) := hshown (by decide)
    have hcolor : found (.parameter .color) = found' (.parameter .color) := hshown (by decide)
    simp only [request, horigin, has, color, text?, hjson, hcompact, hcolor]
  | check => simp only [request, horigin]

end Matches

def Command.parse (command : Command) (arguments : List String) : Except UsageError Request :=
  (command.signature.parse arguments).map (·.request command)

end Whitespace.CommandLine
