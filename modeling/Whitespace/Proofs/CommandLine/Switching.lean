import Whitespace.Proofs.CommandLine.Matching

/-!
Switching commands. For a command that declares every argument, matching a command line against its
declarations comes down to `Settings.ofArguments` (`Signature.Complete.parse_eq`), and all four are such. A
command line therefore fails for all of them in the same way or for none, and they agree on what they share
(`Request.parse_switch`).
-/

namespace Whitespace.CommandLine

private theorem map_map_eq {ε α β β' γ : Type} {result : Except ε α} {f : α → β} {g : β → γ}
    {f' : α → β'} {g' : β' → γ} (h : ∀ a, g (f a) = g' (f' a)) :
    (result.map f).map g = (result.map f').map g' := by
  cases result with
  | error error => rfl
  | ok a => exact congrArg Except.ok (h a)

private theorem bind_map_eq {ε α α' β β' : Type} {result : Except ε α} {f : α → α'}
    {next : α' → Except ε β'} {g : β → β'} {next' : α → Except ε β}
    (h : ∀ a, next (f a) = (next' a).map g) : (result.map f >>= next) = (result >>= next').map g := by
  cases result with
  | error error => rfl
  | ok a => exact h a

def ColorChoice.name : ColorChoice → String
  | .auto => "auto"
  | .always => "always"
  | .never => "never"

theorem ValueParser.check_color (value : String) :
    (oneOf ["auto", "always", "never"]).check value =
      (Settings.checkColor value).map fun choice => .text choice.name := by
  unfold Settings.checkColor
  split
  · rfl
  · rfl
  · rfl
  · next hauto halways hnever =>
    have hnot : value ∉ ["auto", "always", "never"] := by
      simpa using ⟨hauto, halways, hnever⟩
    rw [check, if_neg hnot]
    rfl

namespace Settings

def found (settings : Settings) : Matches
  | .parameter .path => settings.path.map .text
  | .parameter .text => settings.text.map .text
  | .parameter .input => settings.input.map .text
  | .parameter .fuel => settings.fuel.map .number
  | .parameter .color => settings.color.map fun choice => .text choice.name
  | .switch .letters => Found.ofFlag settings.letters
  | .switch .debug => Found.ofFlag settings.debug
  | .switch .json => Found.ofFlag settings.json
  | .switch .compact => Found.ofFlag settings.compact
  | .verbose => if settings.verbose = 0 then none else some (.times settings.verbose)
  | .help => none

theorem store_found {settings settings' : Settings} {argument : Argument} {stored : Found}
    (hstored : settings'.found argument = some stored)
    (h : ∀ other ∈ Argument.all, other ≠ argument → settings'.found other = settings.found other) :
    settings.found.store argument stored = settings'.found := by
  funext other
  by_cases hother : other = argument
  · subst hother
    rw [Matches.store, Function.update_self, hstored]
  · rw [Matches.store, Function.update_of_ne hother, h other other.mem_all hother]

theorem has_found (settings : Settings) (parameter : Parameter) :
    settings.found.has (.parameter parameter) = settings.has parameter := by
  cases parameter <;> simp [Matches.has, found, has]

theorem assign_found (settings : Settings) (parameter : Parameter) (value : String) :
    settings.found.assign (Argument.declaration (.parameter parameter)) value =
      (settings.assign parameter value).map found := by
  simp only [Matches.assign, Argument.argument_declaration, has_found, Settings.assign]
  split
  · rfl
  · cases parameter with
    | path => exact map_map_eq fun _ => store_found rfl (by simp [Argument.all, found])
    | text => exact congrArg Except.ok (store_found rfl (by simp [Argument.all, found]))
    | input => exact map_map_eq fun _ => store_found rfl (by simp [Argument.all, found])
    | fuel => exact map_map_eq fun _ => store_found rfl (by simp [Argument.all, found])
    | color =>
      simp only [Argument.declaration, ValueParser.check_color]
      exact map_map_eq fun _ => store_found rfl (by simp [Argument.all, found])

theorem turnOn_found (settings : Settings) (switch : Switch) :
    settings.found.turnOn (.switch switch) = (settings.turnOn switch).map found := by
  cases switch <;> simp only [Matches.turnOn, Matches.has, found, Found.isSome_ofFlag, turnOn] <;>
    split <;> first
      | rfl
      | exact congrArg Except.ok (store_found rfl (by simp [Argument.all, found]))

theorem count_found (settings : Settings) : settings.found.count .verbose = settings.verbose := by
  by_cases hzero : settings.verbose = 0 <;> simp [Matches.count, found, hzero]

theorem oneMore_found (settings : Settings) :
    settings.found.oneMore .verbose = settings.moreVerbose.found := by
  refine store_found ?_ (by simp [Argument.all, found, moreVerbose])
  simp [found, moreVerbose, count_found]

def resolved (settings : Settings) : Matches :=
  fun argument => (settings.found argument).or (argument.declaration.fallback.map .text)

theorem text?_resolved (settings : Settings) :
    settings.resolved.text? (.parameter .path) = settings.path ∧
      settings.resolved.text? (.parameter .text) = settings.text ∧
      settings.resolved.text? (.parameter .input) = settings.input := by
  refine ⟨?_, ?_, ?_⟩
  · cases hpath : settings.path <;>
      simp [Matches.text?, resolved, found, hpath, Argument.declaration]
  · cases htext : settings.text <;>
      simp [Matches.text?, resolved, found, htext, Argument.declaration]
  · cases hinput : settings.input <;>
      simp [Matches.text?, resolved, found, hinput, Argument.declaration]

theorem number?_resolved (settings : Settings) :
    settings.resolved.number? (.parameter .fuel) = settings.fuel := by
  cases hfuel : settings.fuel <;>
    simp [Matches.number?, resolved, found, hfuel, Argument.declaration]

theorem color_resolved (settings : Settings) :
    settings.resolved.color = settings.colorChoice := by
  rcases hcolor : settings.color with _ | _ | _ | _ <;>
    simp [Matches.color, Matches.text?, resolved, found, hcolor, Argument.declaration, colorChoice,
      ColorChoice.name]

theorem has_resolved (settings : Settings) :
    settings.resolved.has (.switch .letters) = settings.letters ∧
      settings.resolved.has (.switch .debug) = settings.debug ∧
      settings.resolved.has (.switch .json) = settings.json ∧
      settings.resolved.has (.switch .compact) = settings.compact := by
  simp [Matches.has, resolved, found, Argument.declaration]

theorem request_resolved (settings : Settings) (command : Command) :
    settings.resolved.request command = settings.request command := by
  obtain ⟨hpath, htext, hinput⟩ := settings.text?_resolved
  obtain ⟨hletters, hdebug, hjson, hcompact⟩ := settings.has_resolved
  have horigin : settings.resolved.origin = settings.origin := by
    simp [Matches.origin, origin, hpath, htext, hletters]
  have hrun : settings.resolved.runOptions = settings.runOptions := by
    simp [Matches.runOptions, runOptions, horigin, hinput, number?_resolved, color_resolved]
  have hverbose : settings.resolved.count .verbose = settings.verbose := by
    simpa [Matches.count, resolved, Argument.declaration] using settings.count_found
  cases command <;>
    simp [Matches.request, request, hrun, horigin, hverbose, color_resolved, hdebug, hjson, hcompact]

end Settings

namespace Progress

def taking (progress : Progress) : Taking where
  found := progress.settings.found
  pending := progress.pending.map fun entry => (Argument.declaration (.parameter entry.1), entry.2)

theorem settle_taking (progress : Progress) :
    progress.taking.settle = progress.settle.map Settings.found := by
  rcases hpending : progress.pending with _ | ⟨parameter, _ | value⟩
  · simp [Taking.settle, settle, taking, hpending, Except.map]
  · simp [Taking.settle, settle, taking, hpending, Except.map]
  · simp [Taking.settle, settle, taking, hpending, Settings.assign_found]

theorem action_parameter (parameter : Parameter) :
    ∃ parser, (Argument.declaration (.parameter parameter)).action = .set parser := by
  cases parameter <;> exact ⟨_, rfl⟩

theorem action_switch (switch : Switch) :
    (Argument.declaration (.switch switch)).action = .setTrue := by
  cases switch <;> rfl

theorem take_taking (progress : Progress) (argument : Argument) (attached : Option String) :
    progress.taking.take argument.declaration attached =
      (progress.take argument attached).map taking := by
  cases argument with
  | parameter parameter =>
    obtain ⟨parser, haction⟩ := action_parameter parameter
    cases attached with
    | none =>
      simp only [Taking.take, haction, settle_taking, take]
      exact bind_map_eq fun _ => rfl
    | some value =>
      simp only [Taking.take, haction, settle_taking, take]
      refine bind_map_eq fun settings => ?_
      rw [Settings.assign_found]
      exact bind_map_eq fun _ => rfl
  | switch switch =>
    cases attached with
    | none =>
      simp only [Taking.take, action_switch, settle_taking, take, Argument.argument_declaration]
      refine bind_map_eq fun settings => ?_
      rw [Settings.turnOn_found]
      exact bind_map_eq fun _ => rfl
    | some value => simp only [Taking.take, action_switch, take, Except.map]
  | verbose =>
    cases attached with
    | none =>
      simp only [Taking.take, settle_taking, take, Argument.declaration]
      refine bind_map_eq fun settings => ?_
      rw [Settings.oneMore_found]
      rfl
    | some value => rfl
  | help =>
    cases attached with
    | none =>
      simp only [Taking.take, settle_taking, take, Argument.declaration]
      exact bind_map_eq fun _ => rfl
    | some value => rfl

theorem given_taking (progress : Progress) :
    progress.taking.given (.parameter .path) = progress.hasPath := by
  have hpending : progress.taking.pending.any (·.1.argument = .parameter .path) =
      progress.pending.any (·.1 = .path) := by
    rcases hpending : progress.pending with _ | ⟨parameter, value⟩ <;> simp [taking, hpending]
  rw [Taking.given, hasPath, hpending, taking, Settings.has_found]

section Complete

variable {signature : Signature} (h : signature.Complete) (progress : Progress)

include h

theorem takeLong_taking (body : List Char) :
    signature.takeLong progress.taking body = (progress.takeLong body).map taking := by
  simp only [Signature.takeLong, takeLong, h.long?_eq]
  cases Argument.ofLong? (String.ofList (body.takeWhile (· != '='))) with
  | none => rfl
  | some argument =>
    cases body.dropWhile (· != '=') with
    | nil => exact take_taking progress argument none
    | cons _ value => exact take_taking progress argument (some (String.ofList value))

theorem takeCluster_taking (letters : List Char) :
    signature.takeCluster progress.taking letters = (progress.takeCluster letters).map taking := by
  induction letters generalizing progress with
  | nil => rfl
  | cons c rest ih =>
    simp only [Signature.takeCluster, takeCluster, h.short?_eq]
    cases Argument.ofShort? c with
    | none => rfl
    | some argument =>
      cases argument with
      | parameter parameter =>
        obtain ⟨parser, haction⟩ := action_parameter parameter
        simp only [Option.map_some, haction]
        exact take_taking progress _ _
      | switch switch =>
        simp only [Option.map_some, action_switch, take_taking]
        exact bind_map_eq ih
      | verbose =>
        have haction : Argument.verbose.declaration.action = .count := rfl
        simp only [Option.map_some, haction, take_taking]
        exact bind_map_eq ih
      | help =>
        have haction : Argument.help.declaration.action = .help := rfl
        simp only [Option.map_some, haction, take_taking]
        exact bind_map_eq ih

theorem takeNext_taking (value : String) :
    signature.takeNext progress.taking value = (progress.takePath value).map taking := by
  simp only [Signature.takeNext, takePath, h.positional?_eq, given_taking]
  cases progress.hasPath with
  | true => rfl
  | false =>
    simp only [settle_taking]
    exact bind_map_eq fun _ => rfl

theorem finish_taking :
    signature.finish progress.taking = progress.finish.map Settings.resolved := by
  simp only [Signature.finish, finish, settle_taking]
  refine bind_map_eq fun settings => ?_
  rw [h.conflicting_eq, Settings.has_found, Settings.has_found, Settings.has, Settings.has]
  split
  · rfl
  · refine congrArg Except.ok (funext fun argument => ?_)
    rw [Matches.withFallbacks, h.fallback?_eq, Settings.resolved]

theorem takePositional_taking (arguments : List String) :
    signature.takePositional progress.taking arguments =
      (progress.takePositional arguments).map Settings.resolved := by
  induction arguments generalizing progress with
  | nil => exact finish_taking h progress
  | cons argument rest ih =>
    rw [Signature.takePositional, takePositional, takeNext_taking h]
    exact bind_map_eq ih

theorem takeAll_taking (arguments : List String) :
    signature.takeAll progress.taking arguments =
      (progress.takeAll arguments).map Settings.resolved := by
  induction arguments generalizing progress with
  | nil => exact finish_taking h progress
  | cons argument rest ih =>
    unfold Signature.takeAll takeAll
    generalize argument.toList = letters
    split
    · exact takePositional_taking h progress rest
    · simp only [takeLong_taking h]
      exact bind_map_eq ih
    · simp only [takeCluster_taking h]
      exact bind_map_eq ih
    · simp only [takeNext_taking h]
      rcases hpending : progress.pending with _ | ⟨parameter, _ | value⟩
      · simp only [taking, hpending, Option.map_none]
        exact bind_map_eq ih
      · simp only [taking, hpending, Option.map_some]
        exact ih { progress with pending := some (parameter, some argument) }
      · simp only [taking, hpending, Option.map_some]
        exact bind_map_eq ih

end Complete

end Progress

theorem Signature.Complete.parse_eq {signature : Signature} (h : signature.Complete)
    (arguments : List String) :
    signature.parse arguments = (Settings.ofArguments arguments).map Settings.resolved := by
  have hfresh : ({} : Taking) = Progress.taking {} := by
    have hfound : (fun _ => none : Matches) = Settings.found {} := by
      funext argument
      have hnone : ∀ argument ∈ Argument.all, none = Settings.found {} argument := by decide
      exact hnone argument argument.mem_all
    rw [Progress.taking, ← hfound]
    rfl
  rw [parse, hfresh, Progress.takeAll_taking h, Settings.ofArguments]

def Command.name : Command → String
  | .exec => "exec"
  | .trace => "trace"
  | .dump => "dump"
  | .check => "check"

@[simp] theorem Command.ofName?_name (command : Command) :
    Command.ofName? command.name = some command := by
  cases command <;> rfl

namespace Request

theorem parse_name_cons (command : Command) (rest : List String) :
    parse (command.name :: rest) =
      (Settings.ofArguments rest).map fun settings => settings.request command := by
  rw [parse, CommandLine.parse, Command.ofName?_name]
  cases Settings.ofArguments rest <;> rfl

theorem parse_eq_command_parse (command : Command) (rest : List String) :
    parse (command.name :: rest) = command.parse rest := by
  rw [parse_name_cons, Command.parse, command.complete_signature.parse_eq]
  cases Settings.ofArguments rest with
  | error error => rfl
  | ok settings => exact congrArg Except.ok (settings.request_resolved command).symm

def command : Request → Command
  | .exec .. => .exec
  | .trace .. => .trace
  | .dump .. => .dump
  | .check _ => .check

def input? : Request → Option (Option String)
  | .exec options _ | .trace options _ => some options.input
  | .dump .. | .check _ => none

def fuel? : Request → Option (Option Nat)
  | .exec options _ | .trace options _ => some options.fuel
  | .dump .. | .check _ => none

def color? : Request → Option ColorChoice
  | .exec options _ | .trace options _ => some options.color
  | .dump _ _ _ color => some color
  | .check _ => none

/-- Requests that differ only in what not both commands use. -/
structure Agrees (first second : Request) : Prop where
  path : first.origin.path = second.origin.path
  text : first.origin.text = second.origin.text
  letters : first.origin.letters = second.origin.letters
  input : ∀ input ∈ first.input?, ∀ input' ∈ second.input?, input = input'
  fuel : ∀ fuel ∈ first.fuel?, ∀ fuel' ∈ second.fuel?, fuel = fuel'
  color : ∀ color ∈ first.color?, ∀ color' ∈ second.color?, color = color'

theorem agrees_request (settings : Settings) (first second : Command) :
    (settings.request first).Agrees (settings.request second) := by
  constructor <;> cases first <;> cases second <;>
    simp [Settings.request, origin, Settings.runOptions, input?, fuel?, color?]

/-- A command line fails for two commands in the same way, or makes requests of both that agree on the
program and on all that both use. Each command parses it by what it declares itself. -/
theorem parse_switch (first second : Command) (rest : List String) :
    parse (first.name :: rest) = first.parse rest ∧
      parse (second.name :: rest) = second.parse rest ∧
      ((∃ error, first.parse rest = .error error ∧ second.parse rest = .error error) ∨
        ∃ request request', first.parse rest = .ok request ∧ second.parse rest = .ok request' ∧
          request.command = first ∧ request'.command = second ∧ request.Agrees request') := by
  refine ⟨parse_eq_command_parse first rest, parse_eq_command_parse second rest, ?_⟩
  rw [← parse_eq_command_parse, ← parse_eq_command_parse, parse_name_cons, parse_name_cons]
  cases Settings.ofArguments rest with
  | error error => exact .inl ⟨error, rfl, rfl⟩
  | ok settings =>
    refine .inr ⟨_, _, rfl, rfl, ?_, ?_, agrees_request settings first second⟩
    · cases first <;> rfl
    · cases second <;> rfl

example : Command.check.parse ["hello.ws", "--json", "--fuel", "3", "-vv", "--color", "always"] =
    .ok (.check { path := some "hello.ws" }) := by
  rfl

end Request

end Whitespace.CommandLine
