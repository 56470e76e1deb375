import Whitespace.Program

/-!
Listings of a program for other programs: a JSON array with one object for each instruction. The value
of a literal is left out when 64 bits do not hold it, and both literal and value when there is none.
-/

namespace Whitespace.Listing.Json

/-- What a field of a record holds. Texts are names and glyph letters, which need no escaping. -/
inductive Scalar where
  | number (value : Int)
  | text (content : String)
  deriving DecidableEq, Repr

def quote (content : String) : String := "\"" ++ content ++ "\""

def Scalar.render : Scalar → String
  | .number value => Int.repr value
  | .text content => quote content

abbrev Record := List (String × Scalar)

def record (index : Nat) (instruction : Instruction) : Record :=
  [("index", .number index), ("category", .text instruction.category.name),
    ("operation", .text instruction.mnemonic)] ++
    match instruction.operand? with
    | none => []
    | some literal =>
      ("parameter", .text literal.letters) ::
        match literal.decode with
        | .ok value => [("value", .number value.toInt)]
        | .error _ => []

def records (program : Program) : List Record :=
  program.toList.zipIdx.map fun entry => record entry.2 entry.1

def compactRecord (fields : Record) : String :=
  let field (entry : String × Scalar) := quote entry.1 ++ ":" ++ entry.2.render
  "\x7b" ++ ",".intercalate (fields.map field) ++ "\x7d"

def compact (records : List Record) : String :=
  "[" ++ ",".intercalate (records.map compactRecord) ++ "]"

def prettyRecord (fields : Record) : String :=
  let field (entry : String × Scalar) := "    " ++ quote entry.1 ++ ": " ++ entry.2.render
  "  \x7b\n" ++ ",\n".intercalate (fields.map field) ++ "\n  \x7d"

def pretty (records : List Record) : String :=
  if records.isEmpty then "[]"
  else "[\n" ++ ",\n".intercalate (records.map prettyRecord) ++ "\n]"

def text (indented : Bool) (program : Program) : String :=
  if indented then pretty (records program) else compact (records program)

end Whitespace.Listing.Json
