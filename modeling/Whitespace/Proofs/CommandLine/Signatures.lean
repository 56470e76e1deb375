import Whitespace.CommandLine.Request

/-!
The arguments that each command declares. The four commands put their arguments together in different
ways, but each of them declares every argument (`Command.complete_signature`), so an option or a flag means
the same to all of them. They differ in what their help leaves out.
-/

namespace Whitespace.CommandLine

inductive ValueParser where
  | path
  | text
  | number
  | oneOf (allowed : List String)
  deriving DecidableEq, Repr

inductive Action where
  | set (parser : ValueParser)
  | setTrue
  | count
  | help
  deriving DecidableEq, Repr

/-- An argument as declared. Without a name of either kind it is positional. -/
structure Declaration where
  argument : Argument
  short : Option Char := none
  long : Option String := none
  action : Action
  fallback : Option String := none
  conflictsWith : List Argument := []
  deriving DecidableEq, Repr

def Declaration.isPositional (declaration : Declaration) : Bool :=
  declaration.short.isNone && declaration.long.isNone

def Argument.declaration : Argument → Declaration
  | .parameter .path => { argument := .parameter .path, action := .set .path }
  | .parameter .text =>
    { argument := .parameter .text, short := some 's', long := some "source", action := .set .text,
      conflictsWith := [.parameter .path] }
  | .parameter .input =>
    { argument := .parameter .input, long := some "input", action := .set .path }
  | .parameter .fuel =>
    { argument := .parameter .fuel, long := some "fuel", action := .set .number }
  | .parameter .color =>
    { argument := .parameter .color, long := some "color",
      action := .set (.oneOf ["auto", "always", "never"]), fallback := some "auto" }
  | .switch .letters =>
    { argument := .switch .letters, long := some "notation", action := .setTrue }
  | .switch .debug =>
    { argument := .switch .debug, short := some 'd', long := some "debug", action := .setTrue }
  | .switch .json => { argument := .switch .json, long := some "json", action := .setTrue }
  | .switch .compact => { argument := .switch .compact, long := some "compact", action := .setTrue }
  | .verbose => { argument := .verbose, short := some 'v', action := .count }
  | .help => { argument := .help, short := some 'h', long := some "help", action := .help }

structure Listed where
  declaration : Declaration
  /-- Left out of the help of the command. -/
  hidden : Bool
  deriving DecidableEq, Repr

def shown (arguments : List Argument) : List Listed := arguments.map fun a => ⟨a.declaration, false⟩

def hidden (arguments : List Argument) : List Listed := arguments.map fun a => ⟨a.declaration, true⟩

def withProgram (listed : List Listed) : List Listed :=
  listed ++ shown [.parameter .path, .parameter .text, .switch .letters]

def withHiddenRun (listed : List Listed) : List Listed :=
  listed ++ hidden [.parameter .input, .parameter .fuel]

def withHiddenTrace (listed : List Listed) : List Listed :=
  listed ++ hidden [.verbose, .switch .debug]

def withHiddenDump (listed : List Listed) : List Listed :=
  listed ++ hidden [.switch .json, .switch .compact]

abbrev Signature := List Declaration

namespace Command

def listed : Command → List Listed
  | .exec =>
    withHiddenDump <| withProgram <|
      shown [.parameter .input, .parameter .fuel, .switch .debug, .parameter .color] ++
        hidden [.verbose]
  | .trace =>
    withHiddenDump <| withProgram <|
      shown [.parameter .input, .parameter .fuel, .verbose, .parameter .color] ++
        hidden [.switch .debug]
  | .dump =>
    withHiddenTrace <| withHiddenRun <| withProgram <|
      shown [.switch .json, .switch .compact, .parameter .color]
  | .check =>
    withHiddenDump <| withHiddenTrace <| withHiddenRun <| withProgram <| hidden [.parameter .color]

/-- What a command declares, and the flag for help that every command has. -/
def signature (command : Command) : Signature :=
  command.listed.map (·.declaration) ++ [Argument.help.declaration]

end Command

def Argument.all : List Argument :=
  [.parameter .path, .parameter .text, .parameter .input, .parameter .fuel, .parameter .color,
    .switch .letters, .switch .debug, .switch .json, .switch .compact, .verbose, .help]

theorem Argument.mem_all (argument : Argument) : argument ∈ Argument.all := by
  rcases argument with parameter | switch | _ | _
  · cases parameter <;> decide
  · cases switch <;> decide
  · decide
  · decide

/-- The declarations are those of all arguments. -/
def Signature.Complete (signature : Signature) : Prop :=
  ∀ declaration, declaration ∈ signature ↔ ∃ argument : Argument, argument.declaration = declaration

namespace Command

theorem arguments_perm (command : Command) :
    (command.signature.map (·.argument)).Perm Argument.all := by
  cases command <;> decide

theorem signature_eq (command : Command) :
    command.signature = (command.signature.map (·.argument)).map Argument.declaration := by
  cases command <;> rfl

theorem complete_signature (command : Command) : command.signature.Complete := by
  intro declaration
  rw [signature_eq, List.mem_map]
  constructor
  · rintro ⟨argument, -, heq⟩
    exact ⟨argument, heq⟩
  · rintro ⟨argument, heq⟩
    exact ⟨argument, command.arguments_perm.mem_iff.mpr argument.mem_all, heq⟩

end Command

namespace Argument

@[simp] theorem argument_declaration (argument : Argument) :
    argument.declaration.argument = argument := by
  have h : ∀ argument ∈ all, argument.declaration.argument = argument := by decide
  exact h argument argument.mem_all

theorem long_declaration_eq_iff {argument : Argument} {name : String} :
    argument.declaration.long = some name ↔ ofLong? name = some argument := by
  constructor
  · intro hlong
    have h : ∀ argument ∈ all, argument.declaration.long.bind ofLong? =
        argument.declaration.long.map fun _ => argument := by decide
    simpa [hlong] using h argument argument.mem_all
  · intro h
    unfold ofLong? at h
    split at h <;> cases h <;> rfl

theorem short_declaration_eq_iff {argument : Argument} {letter : Char} :
    argument.declaration.short = some letter ↔ ofShort? letter = some argument := by
  constructor
  · intro hshort
    have h : ∀ argument ∈ all, argument.declaration.short.bind ofShort? =
        argument.declaration.short.map fun _ => argument := by decide
    simpa [hshort] using h argument argument.mem_all
  · intro h
    unfold ofShort? at h
    split at h <;> cases h <;> rfl

theorem isPositional_declaration_iff {argument : Argument} :
    argument.declaration.isPositional ↔ argument = .parameter .path := by
  have h : ∀ argument ∈ all,
      argument.declaration.isPositional ↔ argument = .parameter .path := by decide
  exact h argument argument.mem_all

theorem mem_conflictsWith_declaration_iff {argument other : Argument} :
    other ∈ argument.declaration.conflictsWith ↔
      argument = .parameter .text ∧ other = .parameter .path := by
  have h : ∀ argument ∈ all, ∀ other ∈ all, other ∈ argument.declaration.conflictsWith ↔
      argument = .parameter .text ∧ other = .parameter .path := by decide
  exact h argument argument.mem_all other other.mem_all

end Argument

namespace Signature

def long? (signature : Signature) (name : String) : Option Declaration :=
  signature.find? (·.long == some name)

def short? (signature : Signature) (letter : Char) : Option Declaration :=
  signature.find? (·.short == some letter)

def positional? (signature : Signature) (given : Argument → Bool) : Option Declaration :=
  signature.find? fun declaration => declaration.isPositional && !given declaration.argument

def fallback? (signature : Signature) (argument : Argument) : Option String :=
  (signature.find? (·.argument == argument)).bind (·.fallback)

def conflicting (signature : Signature) (given : Argument → Bool) : Bool :=
  signature.any fun declaration =>
    given declaration.argument && declaration.conflictsWith.any given

variable {signature : Signature}

theorem Complete.find?_eq (h : signature.Complete) {p : Declaration → Bool} {sought : Option Argument}
    (hp : ∀ argument : Argument, p argument.declaration ↔ sought = some argument) :
    signature.find? p = sought.map Argument.declaration := by
  cases hfound : signature.find? p with
  | none =>
    rw [List.find?_eq_none] at hfound
    cases sought with
    | none => rfl
    | some argument =>
      exact absurd ((hp argument).mpr rfl) (hfound _ ((h _).mpr ⟨argument, rfl⟩))
  | some declaration =>
    obtain ⟨argument, rfl⟩ := (h _).mp (List.mem_of_find?_eq_some hfound)
    rw [(hp argument).mp (List.find?_some hfound), Option.map_some]

theorem Complete.long?_eq (h : signature.Complete) (name : String) :
    signature.long? name = (Argument.ofLong? name).map Argument.declaration :=
  h.find?_eq fun _ => beq_iff_eq.trans Argument.long_declaration_eq_iff

theorem Complete.short?_eq (h : signature.Complete) (letter : Char) :
    signature.short? letter = (Argument.ofShort? letter).map Argument.declaration :=
  h.find?_eq fun _ => beq_iff_eq.trans Argument.short_declaration_eq_iff

theorem Complete.positional?_eq (h : signature.Complete) (given : Argument → Bool) :
    signature.positional? given =
      if given (.parameter .path) then none else some (Argument.declaration (.parameter .path)) := by
  have hpath : ∀ argument : Argument,
      (argument.declaration.isPositional && !given argument.declaration.argument) = true ↔
        (if given (.parameter .path) then none else some (.parameter .path)) = some argument := by
    intro argument
    rw [Bool.and_eq_true, Argument.isPositional_declaration_iff, Argument.argument_declaration]
    split
    · next hgiven =>
      refine iff_of_false ?_ nofun
      rintro ⟨rfl, hnot⟩
      simp [hgiven] at hnot
    · next hgiven =>
      rw [Option.some.injEq, eq_comm, and_iff_left_iff_imp]
      rintro rfl
      simp [hgiven]
  rw [positional?, h.find?_eq hpath]
  split <;> rfl

theorem Complete.fallback?_eq (h : signature.Complete) (argument : Argument) :
    signature.fallback? argument = argument.declaration.fallback := by
  have hkey : ∀ other : Argument,
      (other.declaration.argument == argument) = true ↔ some argument = some other := by
    intro other
    rw [beq_iff_eq, Argument.argument_declaration, Option.some.injEq, eq_comm]
  rw [fallback?, h.find?_eq hkey]
  rfl

theorem Complete.conflicting_eq (h : signature.Complete) (given : Argument → Bool) :
    signature.conflicting given =
      (given (.parameter .path) && given (.parameter .text)) := by
  rw [Bool.eq_iff_iff, conflicting, List.any_eq_true, Bool.and_eq_true]
  constructor
  · rintro ⟨declaration, hmem, hboth⟩
    obtain ⟨argument, rfl⟩ := (h declaration).mp hmem
    rw [Bool.and_eq_true, List.any_eq_true, Argument.argument_declaration] at hboth
    obtain ⟨hargument, other, hexcluded, hother⟩ := hboth
    obtain ⟨rfl, rfl⟩ := Argument.mem_conflictsWith_declaration_iff.mp hexcluded
    exact ⟨hother, hargument⟩
  · rintro ⟨hpath, htext⟩
    refine ⟨Argument.declaration (.parameter .text), (h _).mpr ⟨_, rfl⟩, ?_⟩
    simp [Argument.declaration, hpath, htext]

end Signature

end Whitespace.CommandLine
