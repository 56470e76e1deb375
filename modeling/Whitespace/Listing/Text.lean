import Whitespace.Layout
import Whitespace.Program
import Std.Data.TreeMap

/-!
Listings of a program for people: the labels in ascending order with the index after the first mark of
each, then a line for every instruction, with the target of those that pass control to a label.
-/

namespace Whitespace

namespace Program

/-- The labels of instructions that begin at an index, onto those known already. The first mark of a
label counts, and a mark whose literal has no value defines none. -/
def collectLabels (index : Nat) (labels : Std.TreeMap Value Nat) :
    List Instruction → Std.TreeMap Value Nat
  | [] => labels
  | instruction :: rest =>
    match instruction.mark?.map Literal.decode with
    | some (.ok label) => collectLabels (index + 1) (labels.insertIfNew label (index + 1)) rest
    | _ => collectLabels (index + 1) labels rest

def labels (program : Program) : Std.TreeMap Value Nat := collectLabels 0 ∅ program.toList

end Program

def Instruction.symbol : Instruction → Symbol
  | .flow (.mark _) => .label
  | .flow (.call _) => .call
  | .flow (.jump _) | .flow (.jumpIfZero _) | .flow (.jumpIfNegative _) => .jump
  | .flow .ret => .ret
  | .flow .stop => .halt
  | _ => .empty

namespace Listing

/-- What a line shows as its target: an index, a question mark when the label has none, or nothing
when the instruction goes to no label. -/
def target (layout : Layout) (labels : Std.TreeMap Value Nat) (instruction : Instruction) :
    String :=
  match instruction.destination?.map Literal.decode with
  | none => ""
  | some (.error _) => "?"
  | some (.ok label) =>
    match labels[label]? with
    | some index => layout.index index
    | none => "?"

def line (palette : Palette) (layout : Layout) (labels : Std.TreeMap Value Nat) (index : Nat)
    (instruction : Instruction) : String :=
  Layout.withTarget
    (palette.paint .gutter (layout.numbered index instruction.symbol) ++
      instruction.painted palette)
    (target layout labels instruction)

def labelLine (palette : Palette) (layout : Layout) (label : Value) (index : Nat) : String :=
  palette.paint .label (Layout.labelName label) ++ " = " ++ layout.index index

def labelLines (palette : Palette) (layout : Layout) (labels : Std.TreeMap Value Nat) :
    List String :=
  if labels.isEmpty then []
  else
    palette.paint .heading "[labels]" ::
      (labels.toList.map fun entry => labelLine palette layout entry.1 entry.2) ++ [""]

def codeLines (palette : Palette) (layout : Layout) (labels : Std.TreeMap Value Nat)
    (program : Program) : List String :=
  palette.paint .heading "[code]" ::
    program.toList.zipIdx.map fun entry => line palette layout labels entry.2 entry.1

def lines (palette : Palette) (program : Program) : List String :=
  let layout := Layout.forCount (program.size + 1)
  labelLines palette layout program.labels ++ codeLines palette layout program.labels program

def text (palette : Palette) (program : Program) : String :=
  String.join ((lines palette program).map (· ++ "\n"))

end Listing

end Whitespace
