import Whitespace.Operation
import Whitespace.Text.Decimal

/-!
Listings and traces share one column layout: two blanks, the index, a blank, a symbol five columns
wide, a blank, the content, and for some lines a target at the right.
-/

namespace Whitespace

inductive Role where
  | gutter
  | operand
  | label
  | halt
  | heading
  deriving DecidableEq, Repr

structure Palette where
  colored : Bool
  deriving DecidableEq, Repr

def Role.escape : Role → String
  | .gutter => "\x1b[2m"
  | .operand => "\x1b[36m"
  | .label => "\x1b[33m"
  | .halt => "\x1b[32m"
  | .heading => "\x1b[1m"

namespace Palette

def reset : String := "\x1b[0m"

def paint (palette : Palette) (role : Role) (text : String) : String :=
  if palette.colored then role.escape ++ text ++ reset else text

/-- Removes escape sequences, each from its escape character through the next `m`. -/
def strip (escaped : Bool) : List Char → List Char
  | [] => []
  | c :: rest =>
    if escaped then strip (c != 'm') rest
    else if c = '\x1b' then strip true rest
    else c :: strip false rest

def visible (text : String) : List Char := strip false text.toList

end Palette

inductive Symbol where
  | label
  | jump
  | call
  | ret
  | stack
  | decode
  | halt
  | empty
  deriving DecidableEq, Repr

def Symbol.mark : Symbol → Char
  | .label => '●'
  | .jump => '▷'
  | .call => '▶'
  | .ret => '◀'
  | .stack => '⬥'
  | .decode => '⬦'
  | .halt => '◼'
  | .empty => ' '

def Symbol.column (symbol : Symbol) : String :=
  "  " ++ String.singleton symbol.mark ++ "  "

structure Layout where
  indexWidth : Nat
  deriving DecidableEq, Repr

namespace Layout

def blanks (count : Nat) : String := String.ofList (List.replicate count ' ')

/-- The column at which targets begin, unless the content is too long for that. -/
def targetColumn : Nat := 36

def targetGap : Nat := 2

/-- How far below the `power`-th power of ten a number may lie and still be given the width of that
power. Widths come from a logarithm in double precision, which cannot tell such a number from the
power; from the fifteenth power on there are some. -/
def slack (power : Nat) : Nat :=
  match power with
  | 15 => 2
  | 16 => 21
  | 17 => 407
  | 18 => 4160
  | 19 => 41984
  | _ => 0

/-- The width that holds every number below `count`: one column, and one more for each power of ten
that the greatest of them reaches. -/
def widthForCount (count : Nat) : Nat :=
  1 + (List.range' 1 20).countP fun power => Nat.pow 10 power ≤ count - 1 + slack power

def forCount (count : Nat) : Layout := ⟨widthForCount count⟩

/-- An index in as many digits as the index column is wide. -/
def index (layout : Layout) (number : Nat) : String :=
  Text.Decimal.zeroPadded layout.indexWidth number

def numbered (layout : Layout) (number : Nat) (symbol : Symbol) : String :=
  "  " ++ layout.index number ++ " " ++ symbol.column ++ " "

def unnumbered (layout : Layout) (symbol : Symbol) : String :=
  blanks (2 + layout.indexWidth + 1) ++ symbol.column ++ " "

def withTarget (line target : String) : String :=
  if target.isEmpty then line
  else line ++ blanks (max (targetColumn - (Palette.visible line).length) targetGap) ++ target

/-- A stack given top first, shown bottom first. -/
def stack (values : List Value) : String :=
  "[" ++ " ".intercalate (values.reverse.map Value.text) ++ "]"

def labelName (label : Value) : String := "L" ++ label.text

end Layout

def Instruction.painted (palette : Palette) (instruction : Instruction) : String :=
  match instruction.operand? with
  | some literal => instruction.mnemonic ++ " " ++ palette.paint .operand literal.display
  | none => instruction.mnemonic

end Whitespace
