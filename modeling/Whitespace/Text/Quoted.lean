import Whitespace.Text.CodePoints
import Whitespace.Text.Unprintable

/-!
Quoted text in messages, and the hexadecimal numerals in it. The quote itself and the backslash are
written with a backslash, the common controls by letter, and anything that would not show, or would
attach to its neighbour, by code point.
-/

namespace Whitespace.Text

def Hexadecimal.zeroPadded (width number : Nat) : String :=
  String.ofList (List.leftpad width '0' (Nat.toDigits 16 number))

namespace Quoted

/-- Grapheme extenders that are letters with a place of their own: the halfwidth katakana sound
marks. -/
def spacingExtenders : CodePoints := [(0xFF9E, 0xFF9F)]

def attaches (c : Char) : Bool := graphemeExtenders.contains c && !spacingExtenders.contains c

def hidden (c : Char) : Bool := unprintable.contains c || defaultIgnorables.contains c

def escape (quote c : Char) : String :=
  if c = quote ∨ c = '\\' then String.ofList ['\\', c]
  else if c = '\x00' then "\\0"
  else if c = '\t' then "\\t"
  else if c = '\r' then "\\r"
  else if c = '\n' then "\\n"
  else if attaches c || hidden c then
    "\\u\x7b" ++ Hexadecimal.zeroPadded 1 c.toNat ++ "\x7d"
  else String.singleton c

def char (c : Char) : String := "'" ++ escape '\'' c ++ "'"

def text (content : List Char) : String :=
  "\"" ++ String.join (content.map (escape '"')) ++ "\""

end Quoted

end Whitespace.Text
