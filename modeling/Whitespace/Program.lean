import Whitespace.Marker

/-!
Programs are sequences of instructions. `Program.source` writes one as bare source text, without
comments; events are what a trace can tell of reading and running one, in the order in which it happens.
-/

namespace Whitespace

abbrev Program := Array Instruction

def Instruction.glyphs (instruction : Instruction) : List Glyph :=
  instruction.category.marker ++ instruction.marker ++
    match instruction.operand? with
    | some literal => literal.glyphs ++ [.lineFeed]
    | none => []

namespace Program

def glyphs (program : Program) : List Glyph := program.toList.flatMap Instruction.glyphs

def source (program : Program) : String := Glyph.source program.glyphs

@[simp] theorem glyphs_append (first second : Program) :
    glyphs (first ++ second) = first.glyphs ++ second.glyphs := by
  simp [glyphs]

end Program

inductive Event where
  /-- An instruction was read that begins at a byte offset. -/
  | decoded (index offset : Nat) (instruction : Instruction)
  | program (size : Nat)
  | instruction (pc : Nat) (instruction : Instruction)
  /-- An instruction has completed and left these values, topmost first. -/
  | stack (values : List Value)
  | label (label : Value) (target : Nat)
  | jump (label : Value) (target : Nat)
  | call (label : Value) (target : Nat)
  | ret (target : Nat)
  /-- The run is over, by an instruction if `explicit` and past the last one otherwise. -/
  | halt (pc : Nat) (explicit : Bool)
  deriving DecidableEq, Repr

end Whitespace
