import Whitespace.Program

/-!
Reading a source text as a program. Each instruction is a category marker, an operation marker and,
where the operation takes one, a literal closed by a line feed. Reading stops at the first glyphs that
are no instruction; a program is read completely or not at all, but `Reading` keeps the instructions
that came before a failure, since a trace shows them.
-/

namespace Whitespace

structure Lexeme where
  glyph : Glyph
  offset : Nat
  deriving DecidableEq, Repr

namespace Lexeme

def scan (offset : Nat) (found : Array Lexeme) : List Char → Array Lexeme
  | [] => found
  | c :: rest =>
    match Glyph.ofChar? c with
    | some glyph => scan (offset + c.utf8Size) (found.push ⟨glyph, offset⟩) rest
    | none => scan (offset + c.utf8Size) found rest

def ofSource (source : String) : Array Lexeme := scan 0 #[] source.toList

/-- The byte offset of the glyph with a given number, or the end of the source after the last. -/
def byteOffset (lexemes : Array Lexeme) (source : String) (position : Nat) : Nat :=
  match lexemes[position]? with
  | some lexeme => lexeme.offset
  | none => source.utf8ByteSize

theorem map_glyph_scan (offset : Nat) (found : Array Lexeme) (text : List Char) :
    (scan offset found text).toList.map glyph =
      found.toList.map glyph ++ text.filterMap Glyph.ofChar? := by
  induction text generalizing offset found with
  | nil => simp [scan]
  | cons c rest ih =>
    cases h : Glyph.ofChar? c <;> simp [scan, h, ih]

theorem map_glyph_ofSource (source : String) :
    (ofSource source).toList.map glyph = Glyph.ofSource source := by
  simp [ofSource, map_glyph_scan, Glyph.ofSource]

end Lexeme

inductive Malformation where
  | unknownCategory (found : List Glyph)
  | unknownOperation (category : Category) (found : List Glyph)
  | unterminated (operation : Opcode)
  | malformedLiteral (operation : Opcode) (error : LiteralError)
  deriving DecidableEq, Repr

/-- The instruction that could not be read, and where its unreadable part begins. -/
structure SourceError where
  index : Nat
  offset : Nat
  cause : Malformation
  deriving DecidableEq, Repr

namespace SourceError

def describe (found : List Glyph) : String :=
  if found.isEmpty then "<end of input>" else "`" ++ Glyph.letters found ++ "`"

def message (error : SourceError) : String :=
  s!"instruction {error.index}: " ++
    match error.cause with
    | .unknownCategory found =>
      s!"unknown category marker {describe found} at byte {error.offset}"
    | .unknownOperation category found =>
      s!"unknown {category.name} operation marker {describe found} at byte {error.offset}"
    | .unterminated operation =>
      s!"`{operation.mnemonic}` parameter at byte {error.offset} has no line-feed terminator"
    | .malformedLiteral operation cause =>
      s!"`{operation.mnemonic}` parameter at byte {error.offset}: {cause.message}"

end SourceError

def Marker.excerptLength : Nat := 2

namespace Literal

def read (operation : Opcode) (input : List Glyph) :
    Except Malformation (Literal × List Glyph) :=
  match input.dropWhile (· != .lineFeed) with
  | [] => .error (.unterminated operation)
  | _ :: rest =>
    match ofGlyphs (input.takeWhile (· != .lineFeed)) with
    | .ok literal => .ok (literal, rest)
    | .error error => .error (.malformedLiteral operation error)

theorem length_lt_of_read {operation : Opcode} {input rest : List Glyph} {literal : Literal}
    (h : read operation input = .ok (literal, rest)) : rest.length < input.length := by
  unfold read at h
  split at h
  · cases h
  · next c tail hdrop =>
    split at h
    · cases h
      have hle := (List.dropWhile_suffix (p := (· != Glyph.lineFeed)) (l := input)).length_le
      rw [hdrop, List.length_cons] at hle
      omega
    · cases h

end Literal

/-- Reads one instruction. A failure comes with the number of glyphs before the unreadable part. -/
def Instruction.read (input : List Glyph) :
    Except (Nat × Malformation) (Instruction × List Glyph) :=
  match Category.table.lookup? input with
  | none => .error (0, .unknownCategory (input.take Marker.excerptLength))
  | some (first, category) =>
    let input := input.drop first.length
    match category.operations.lookup? input with
    | none =>
      .error (first.length, .unknownOperation category (input.take Marker.excerptLength))
    | some (second, opcode) =>
      let input := input.drop second.length
      match opcode.bare? with
      | some instruction => .ok (instruction, input)
      | none =>
        match Literal.read opcode input with
        | .ok (literal, rest) => .ok (opcode.withOperand literal, rest)
        | .error cause => .error (first.length + second.length, cause)

theorem Category.length_pos_of_mem_table {entry : Marker × Category}
    (h : entry ∈ Category.table) : 0 < entry.1.length := by
  revert entry
  decide

theorem Instruction.length_lt_of_read {input rest : List Glyph} {instruction : Instruction}
    (h : Instruction.read input = .ok (instruction, rest)) : rest.length < input.length := by
  unfold Instruction.read at h
  split at h
  · cases h
  · next first category hcategory =>
    obtain ⟨hmem, hprefix⟩ := MarkerTable.isPrefix_of_lookup? hcategory
    have hpos := Category.length_pos_of_mem_table hmem
    have hle := hprefix.length_le
    simp only at h hpos hle
    split at h
    · cases h
    · next second opcode _ =>
      split at h
      · cases h
        simp only [List.length_drop]
        omega
      · split at h
        · next hliteral =>
          cases h
          have hshorter := Literal.length_lt_of_read hliteral
          simp only [List.length_drop] at hshorter
          omega
        · cases h

structure Located where
  offset : Nat
  instruction : Instruction
  deriving DecidableEq, Repr

structure Reading where
  found : Array Located
  error : Option SourceError
  deriving DecidableEq, Repr

namespace Reading

def advance (position : Nat) (found : Array Located) (input : List Glyph) : Reading :=
  if input.isEmpty then ⟨found, none⟩
  else
    match _h : Instruction.read input with
    | .error (before, cause) => ⟨found, some ⟨found.size, position + before, cause⟩⟩
    | .ok (instruction, rest) =>
      advance (position + instruction.glyphs.length) (found.push ⟨position, instruction⟩) rest
termination_by input.length
decreasing_by exact Instruction.length_lt_of_read ‹_›

def ofGlyphs (input : List Glyph) : Reading := advance 0 #[] input

def mapOffset (f : Nat → Nat) (reading : Reading) : Reading where
  found := reading.found.map fun located => { located with offset := f located.offset }
  error := reading.error.map fun error => { error with offset := f error.offset }

def ofSource (source : String) : Reading :=
  let lexemes := Lexeme.ofSource source
  (ofGlyphs (lexemes.toList.map Lexeme.glyph)).mapOffset (Lexeme.byteOffset lexemes source)

def program (reading : Reading) : Except SourceError Program :=
  match reading.error with
  | none => .ok (reading.found.map Located.instruction)
  | some error => .error error

end Reading

def Program.ofSource (source : String) : Except SourceError Program :=
  (Reading.ofSource source).program

end Whitespace
