import Whitespace.Proofs.Styling.Colors
import Whitespace.Proofs.Tracing.Faithful

/-!
Verbosity filters lines. Whatever the verbosity, a printer is told the same events and goes through the
same layouts; the verbosity decides for each event whether its line is written and has no part in what
the line says. So the lines at one verbosity are those at the next, with the lines of two kinds of events
left out.
-/

namespace Whitespace

open Machine

namespace Event

def isDecodedOrStack : Event → Bool
  | .decoded .. | .stack .. => true
  | _ => false

def isLabelOrJump : Event → Bool
  | .label .. | .jump .. => true
  | _ => false

def isProgram : Event → Bool
  | .program _ => true
  | _ => false

end Event

namespace Trace

/-- The lines of events, each with the event that it is written for. -/
def entries (trace : Trace) : List Event → List (Event × String)
  | [] => []
  | event :: rest => (trace.shown? event).toList.map (event, ·) ++ entries (trace.after event) rest

theorem map_snd_entries (trace : Trace) (events : List Event) :
    (trace.entries events).map Prod.snd = trace.lines events := by
  induction events generalizing trace with
  | nil => rfl
  | cons event rest ih => simp [entries, lines, ih, Function.comp_def]

variable {palette : Palette} {low high : Verbosity} {dropped : Event → Bool}

theorem shown?_eq_of_shows (h : ∀ event, low.shows event = (high.shows event && !dropped event))
    (layout : Layout) (event : Event) :
    shown? ⟨low, palette, layout⟩ event =
      if dropped event then none else shown? ⟨high, palette, layout⟩ event := by
  simp only [shown?, h]
  cases dropped event <;> simp

theorem entries_eq_filter (h : ∀ event, low.shows event = (high.shows event && !dropped event))
    (layout : Layout) (events : List Event) :
    entries ⟨low, palette, layout⟩ events =
      (entries ⟨high, palette, layout⟩ events).filter fun entry => !dropped entry.1 := by
  induction events generalizing layout with
  | nil => rfl
  | cons event rest ih =>
    -- Both traces go on with the layout after the event, shown or not.
    have hrest : entries (after ⟨low, palette, layout⟩ event) rest =
        (entries (after ⟨high, palette, layout⟩ event) rest).filter fun entry => !dropped entry.1 :=
      ih (layoutAfter layout event)
    rw [entries, entries, List.filter_append, hrest, shown?_eq_of_shows h]
    congr 1
    cases hdropped : dropped event <;> simp [List.filter_map, Function.comp_def, hdropped]

theorem shows_verbose (event : Event) :
    Verbosity.verbose.shows event = (Verbosity.veryVerbose.shows event && !event.isDecodedOrStack) := by
  cases event <;> rfl

theorem shows_quiet (event : Event) :
    Verbosity.quiet.shows event = (Verbosity.verbose.shows event && !event.isLabelOrJump) := by
  cases event <;> rfl

theorem map_fst_entries_veryVerbose (layout : Layout) (events : List Event) :
    (entries ⟨.veryVerbose, palette, layout⟩ events).map Prod.fst =
      events.filter fun event => !event.isProgram := by
  induction events generalizing layout with
  | nil => rfl
  | cons event rest ih =>
    have hrest : (entries (after ⟨.veryVerbose, palette, layout⟩ event) rest).map Prod.fst = _ :=
      ih (layoutAfter layout event)
    rw [entries, List.map_append, hrest]
    cases event with
    | halt pc explicit => cases explicit <;> rfl
    | _ => rfl

end Trace

namespace Traced

variable {τ : Type} [Tracer τ]

def readAndRun (source : String) (input : Input) (output : Output) (limit : Option Nat)
    (count : Nat) :
    StateM τ (Except SourceError (Machine × Option (Except RuntimeError Halt))) := do
  match ← read source with
  | .error error => return .error error
  | .ok program => return .ok (← execution count (.start program input output limit))

def toldOf (source : String) (input : Input) (output : Output) (limit : Option Nat)
    (count : Nat) : List Event :=
  (Reading.ofSource source).events ++
    match Program.ofSource source with
    | .error _ => []
    | .ok program =>
      .program program.size :: (Machine.runFor count (start program input output limit)).events

theorem run_readAndRun (source : String) (input : Input) (output : Output) (limit : Option Nat)
    (count : Nat) (tracer : τ) :
    ((readAndRun source input output limit count).run tracer).2 =
      hearAll tracer (toldOf source input output limit count) := by
  simp only [readAndRun, toldOf, StateT.run_bind, run_read, hearAll_append]
  cases Program.ofSource source with
  | error error => rfl
  | ok program =>
    exact congrArg Prod.snd (run_execution count (start program input output limit) _)

/-- Three printers that differ only in their verbosity print, while a text is read and the program in it
is run, the same lines except for those that their verbosity leaves out. The very verbose one has a line
for every event that there is but the announcement of the program; the verbose one leaves out the lines
for decoding and stacks, and the quiet one those for labels and jumps as well. -/
theorem verbosity_filters_lines (source : String) (input : Input) (output : Output)
    (limit : Option Nat) (count : Nat) (palette : Palette) :
    let recorded := ((readAndRun source input output limit count).run ({} : Recorder)).2
    let printed verbosity :=
      ((readAndRun source input output limit count).run (Printer.fresh verbosity palette)).2
    let entries verbosity := (Printer.fresh verbosity palette).trace.entries recorded.events
    (∀ verbosity, (printed verbosity).Wrote ((entries verbosity).map Prod.snd)) ∧
      (entries .veryVerbose).map Prod.fst =
        recorded.events.filter (fun event => !event.isProgram) ∧
      entries .verbose =
        (entries .veryVerbose).filter (fun entry => !entry.1.isDecodedOrStack) ∧
      entries .quiet = (entries .verbose).filter (fun entry => !entry.1.isLabelOrJump) := by
  intro recorded printed entries
  have hevents : recorded.events = toldOf source input output limit count := by
    simp only [recorded, run_readAndRun, events_hearAll]
    rfl
  refine ⟨fun verbosity => ?_, Trace.map_fst_entries_veryVerbose _ _,
    Trace.entries_eq_filter Trace.shows_verbose _ _,
    Trace.entries_eq_filter Trace.shows_quiet _ _⟩
  simp only [entries, printed, run_readAndRun, hevents, Trace.map_snd_entries]
  exact Printer.wrote_hearAll_fresh verbosity palette _

end Traced

end Whitespace
