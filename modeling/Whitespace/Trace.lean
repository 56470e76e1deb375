import Whitespace.Program
import Whitespace.Layout
import Whitespace.Reading

/-!
Traces: events written as lines. Higher verbosities show more kinds of events and change nothing in
the lines of the others. Only the event that announces a program changes how later lines look, by
the width of their index column.
-/

namespace Whitespace

/-- How much a trace tells: executed instructions, calls, returns and the halt; labels and taken
jumps as well; decoding and stacks as well. -/
inductive Verbosity where
  | quiet
  | verbose
  | veryVerbose
  deriving DecidableEq, Repr

namespace Verbosity

def level : Verbosity → Nat
  | .quiet => 0
  | .verbose => 1
  | .veryVerbose => 2

def ofCount : Nat → Verbosity
  | 0 => .quiet
  | 1 => .verbose
  | _ => .veryVerbose

def required : Event → Verbosity
  | .decoded .. | .stack .. => .veryVerbose
  | .label .. | .jump .. => .verbose
  | _ => .quiet

def shows (verbosity : Verbosity) (event : Event) : Bool :=
  (required event).level ≤ verbosity.level

end Verbosity

namespace Trace

def layoutAfter (layout : Layout) : Event → Layout
  | .program size => .forCount (size + 1)
  | _ => layout

/-- The lines before a program is announced have one index column. -/
def initialLayout : Layout := ⟨1⟩

def labelLine (palette : Palette) (layout : Layout) (symbol : Symbol) (label : Value)
    (target : Nat) : String :=
  Layout.withTarget
    (layout.unnumbered symbol ++ palette.paint .label (Layout.labelName label))
    (layout.index target)

def line? (palette : Palette) (layout : Layout) : Event → Option String
  | .decoded index offset instruction =>
    some (layout.numbered index .decode ++ instruction.display ++ " " ++
      palette.paint .gutter s!"@{offset}")
  | .program _ => none
  | .instruction pc instruction =>
    some (palette.paint .gutter (layout.numbered pc .empty) ++ instruction.painted palette)
  | .stack values =>
    some (layout.unnumbered .stack ++ palette.paint .gutter (Layout.stack values))
  | .label label target => some (labelLine palette layout .label label target)
  | .jump label target => some (labelLine palette layout .jump label target)
  | .call label target => some (labelLine palette layout .call label target)
  | .ret target => some (Layout.withTarget (layout.unnumbered .ret) (layout.index target))
  | .halt pc explicit =>
    if explicit then some (layout.unnumbered .halt ++ palette.paint .halt "end")
    else
      some (palette.paint .gutter (layout.numbered pc .halt) ++
        palette.paint .halt "end of program")

end Trace

structure Trace where
  verbosity : Verbosity
  palette : Palette
  layout : Layout := Trace.initialLayout
  deriving DecidableEq, Repr

namespace Trace

def shown? (trace : Trace) (event : Event) : Option String :=
  if trace.verbosity.shows event then line? trace.palette trace.layout event else none

def after (trace : Trace) (event : Event) : Trace :=
  { trace with layout := layoutAfter trace.layout event }

def afterAll (trace : Trace) (events : List Event) : Trace := events.foldl after trace

def lines (trace : Trace) : List Event → List String
  | [] => []
  | event :: rest => (trace.shown? event).toList ++ lines (trace.after event) rest

def text (trace : Trace) (events : List Event) : String :=
  String.join ((trace.lines events).map (· ++ "\n"))

end Trace

def Reading.events (reading : Reading) : List Event :=
  reading.found.toList.zipIdx.map fun entry =>
    .decoded entry.2 entry.1.offset entry.1.instruction

end Whitespace
