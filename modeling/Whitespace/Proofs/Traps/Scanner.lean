import Whitespace.Proofs.Reading.RoundTrip
import Whitespace.Proofs.Traps.Partial

/-!
Reading a source text from an array. A tape has the glyphs of a text and a position among them, so
markers and literals are slices, and an instruction is put together from what was read. On lists none of
this can go wrong; on a tape it does not either, because every position is the length of something that
was read (`Holds.append`), and what is read is the same (`instructions_ofSource`).
-/

namespace Whitespace

/-- The glyphs of a text and the byte offset of each; the text has `length` bytes. -/
structure Tape where
  glyphs : Array Glyph
  offsets : Array Nat
  length : Nat

namespace Tape

def ofSource (source : String) : Tape where
  glyphs := (Lexeme.ofSource source).map Lexeme.glyph
  offsets := (Lexeme.ofSource source).map Lexeme.offset
  length := source.utf8ByteSize

def offset (tape : Tape) (position : Nat) : Nat := tape.offsets[position]?.getD tape.length

def rest (tape : Tape) (position : Nat) : Except Trap (List Glyph) :=
  Trap.slice? tape.glyphs position tape.glyphs.size

def excerpt (tape : Tape) (position : Nat) : Except Trap (List Glyph) :=
  Trap.slice? tape.glyphs position (min (position + Marker.excerptLength) tape.glyphs.size)

def literal (tape : Tape) (index position : Nat) (operation : Opcode) :
    Except Trap (Except SourceError (Literal × Nat)) := do
  let offset := tape.offset position
  match (← tape.rest position).findIdx? (· == .lineFeed) with
  | none => return .error ⟨index, offset, .unterminated operation⟩
  | some length =>
    let digits ← Trap.slice? tape.glyphs position (position + length)
    match Literal.ofGlyphs digits with
    | .error error => return .error ⟨index, offset, .malformedLiteral operation error⟩
    | .ok literal => return .ok (literal, position + length + 1)

def instruction (tape : Tape) (index position : Nat) :
    Except Trap (Except SourceError (Parts × Nat)) := do
  match Category.table.lookup? (← tape.rest position) with
  | none =>
    return .error ⟨index, tape.offset position, .unknownCategory (← tape.excerpt position)⟩
  | some (first, category) =>
    let position := position + first.length
    match category.operations.lookup? (← tape.rest position) with
    | none =>
      let found ← tape.excerpt position
      return .error ⟨index, tape.offset position, .unknownOperation category found⟩
    | some (second, opcode) =>
      let position := position + second.length
      if opcode.takesOperand then
        match ← tape.literal index position opcode with
        | .error error => return .error error
        | .ok (literal, next) => return .ok (← Parts.join? opcode (some literal), next)
      else return .ok (← Parts.join? opcode none, position)

def instructions (tape : Tape) (found : Array Parts) (position : Nat) :
    Except Trap (Except SourceError (Array Parts)) :=
  if tape.glyphs.size ≤ position then .ok (.ok found)
  else
    match tape.instruction found.size position with
    | .error trap => .error trap
    | .ok (.error error) => .ok (.error error)
    | .ok (.ok (parts, next)) =>
      if position < next then instructions tape (found.push parts) next else .error .standstill
termination_by tape.glyphs.size - position

structure Holds (tape : Tape) (position : Nat) (input : List Glyph) : Prop where
  le_size : position ≤ tape.glyphs.size
  drop_eq : tape.glyphs.toList.drop position = input

namespace Holds

variable {tape : Tape} {position : Nat} {input run after : List Glyph}

theorem add_length (h : tape.Holds position input) :
    position + input.length = tape.glyphs.size := by
  have hlength := congrArg List.length h.drop_eq
  have hle := h.le_size
  simp only [List.length_drop, Array.length_toList] at hlength
  omega

theorem size_le_iff (h : tape.Holds position input) :
    tape.glyphs.size ≤ position ↔ input = [] := by
  rw [← h.add_length, ← List.length_eq_zero_iff]
  omega

theorem append (h : tape.Holds position (run ++ after)) :
    tape.Holds (position + run.length) after where
  le_size := by
    have hsize := h.add_length
    rw [List.length_append] at hsize
    omega
  drop_eq := by rw [← List.drop_drop, h.drop_eq, List.drop_left]

theorem slice? (h : tape.Holds position input) (count : Nat) (hcount : count ≤ input.length) :
    Trap.slice? tape.glyphs position (position + count) = .ok (input.take count) := by
  have hsize := h.add_length
  rw [Trap.slice?, if_pos ⟨Nat.le_add_right _ _, by omega⟩, List.drop_take, h.drop_eq,
    Nat.add_sub_cancel_left]

theorem rest (h : tape.Holds position input) : tape.rest position = .ok input := by
  rw [Tape.rest, ← h.add_length, h.slice? _ (Nat.le_refl _), List.take_length]

theorem excerpt (h : tape.Holds position input) :
    tape.excerpt position = .ok (input.take Marker.excerptLength) := by
  have hstop : min (position + Marker.excerptLength) tape.glyphs.size =
      position + min Marker.excerptLength input.length := by
    rw [← h.add_length]
    omega
  rw [Tape.excerpt, hstop, h.slice? _ (Nat.min_le_right _ _), ← List.take_eq_take_min]

end Holds

def result (tape : Tape) (index position : Nat) :
    Except (Nat × Malformation) (Instruction × List Glyph) → Except SourceError (Parts × Nat)
  | .error (before, cause) => .error ⟨index, tape.offset (position + before), cause⟩
  | .ok (instruction, _) => .ok (instruction.parts, position + instruction.glyphs.length)

section Instructions

variable {tape : Tape} {position : Nat} {input : List Glyph}

private theorem findIdx?_of_notMem {run : List Glyph} (hrun : .lineFeed ∉ run) :
    run.findIdx? (· == .lineFeed) = none := by
  rw [List.findIdx?_eq_none_iff]
  intro glyph hmem
  exact beq_false_of_ne fun heq => hrun (heq ▸ hmem)

private theorem literal_of_run {run after : List Glyph}
    (h : tape.Holds position (run ++ .lineFeed :: after)) (hrun : .lineFeed ∉ run)
    (index : Nat) (operation : Opcode) :
    tape.literal index position operation =
      .ok (match Literal.ofGlyphs run with
        | .error error => .error ⟨index, tape.offset position, .malformedLiteral operation error⟩
        | .ok literal => .ok (literal, position + run.length + 1)) := by
  have hfound : (run ++ .lineFeed :: after).findIdx? (· == .lineFeed) = some run.length := by
    rw [List.findIdx?_append, findIdx?_of_notMem hrun, List.findIdx?_cons]
    simp
  have hslice := h.slice? run.length (by simp)
  rw [List.take_left] at hslice
  simp only [literal, h.rest, hfound, hslice, bind, Except.bind]
  cases Literal.ofGlyphs run <;> rfl

theorem literal_eq (h : tape.Holds position input) (index : Nat) (operation : Opcode) :
    tape.literal index position operation =
      .ok (match Literal.read operation input with
        | .error cause => .error ⟨index, tape.offset position, cause⟩
        | .ok (literal, _) => .ok (literal, position + literal.glyphs.length + 1)) := by
  rcases Literal.place_cases input with hnone | ⟨after, rfl⟩ | ⟨literal, after, rfl⟩
  · rw [Literal.read_of_notMem operation hnone]
    simp [Tape.literal, h.rest, findIdx?_of_notMem hnone, bind, Except.bind, pure, Except.pure]
  · rw [Literal.read_lineFeed]
    exact @literal_of_run tape position [] after h List.not_mem_nil index operation
  · rw [Literal.read_glyphs_append, literal_of_run h literal.lineFeed_notMem_glyphs,
      Literal.ofGlyphs_glyphs]

theorem instruction_eq (h : tape.Holds position input) (index : Nat) :
    tape.instruction index position =
      .ok (tape.result index position (Instruction.read input)) := by
  rcases Instruction.markers_cases input with hnone | ⟨category, after, rfl, hnone⟩ |
    ⟨opcode, after, rfl⟩
  · rw [Instruction.read_of_category_none hnone]
    simp [instruction, h.rest, hnone, h.excerpt, result, bind, Except.bind, pure, Except.pure]
  · rw [Instruction.read_of_operation_none category hnone]
    simp [instruction, h.rest, Category.lookup?_marker, h.append.rest, h.append.excerpt, hnone,
      result, bind, Except.bind, pure, Except.pure]
  · cases hbare : (opcode.bare? : Option Instruction) with
    | some instruction =>
      have hlength := congrArg List.length (Instruction.glyphs_of_bare? hbare)
      rw [Instruction.read_markers_of_bare? hbare]
      simp [Tape.instruction, h.rest, Category.lookup?_marker, Opcode.lookup?_marker, h.append.rest,
        Operation.takesOperand_of_bare? hbare, Parts.join?_bare hbare, result, hlength, bind,
        Except.bind, pure, Except.pure, ← Nat.add_assoc]
    | none =>
      have htakes := (Operation.bare?_eq_none_iff opcode).mp hbare
      have hliteral := literal_eq h.append.append index opcode
      cases hread : Literal.read opcode after with
      | error cause =>
        rw [hread] at hliteral
        rw [Instruction.read_markers_of_literal_error htakes hread]
        simp [Tape.instruction, h.rest, Category.lookup?_marker, Opcode.lookup?_marker,
          h.append.rest, htakes, hliteral, result, bind, Except.bind, pure, Except.pure,
          ← Nat.add_assoc]
      | ok found =>
        obtain ⟨literal, next⟩ := found
        have hlength := congrArg List.length (Instruction.glyphs_withOperand htakes literal)
        rw [hread] at hliteral
        rw [Instruction.read_markers_of_literal_ok htakes hread]
        simp [Tape.instruction, h.rest, Category.lookup?_marker, Opcode.lookup?_marker,
          h.append.rest, htakes, hliteral, Parts.join?_withOperand htakes, result, hlength, bind,
          Except.bind, pure, Except.pure, ← Nat.add_assoc]

-- Past the end of the tape there is nothing to read, not even an error.
example : (Tape.mk #[.space] #[0] 1).instruction 0 2 = .error .slice := rfl

theorem lt_of_instruction (h : tape.Holds position input) {index next : Nat} {parts : Parts}
    (hread : tape.instruction index position = .ok (.ok (parts, next))) :
    position < next ∧ next ≤ tape.glyphs.size := by
  rw [instruction_eq h] at hread
  cases hinput : Instruction.read input with
  | error failure => simp [hinput, result] at hread
  | ok found =>
    obtain ⟨instruction, after⟩ := found
    obtain rfl := Instruction.read_eq_ok_iff.mp hinput
    have hpos := List.length_pos_iff.mpr instruction.glyphs_ne_nil
    have hle := h.append.le_size
    simp only [hinput, result, Except.ok.injEq, Prod.mk.injEq] at hread
    omega

end Instructions

section Texts

variable {tape : Tape} {position : Nat}

theorem instructions_nil (h : tape.Holds position []) (found : Array Parts) :
    tape.instructions found position = .ok (.ok found) := by
  rw [instructions, if_pos (h.size_le_iff.mpr rfl)]

theorem instructions_of_error {input : List Glyph} (h : tape.Holds position input)
    (hne : input ≠ []) {before : Nat} {cause : Malformation}
    (hread : Instruction.read input = .error (before, cause)) (found : Array Parts) :
    tape.instructions found position =
      .ok (.error ⟨found.size, tape.offset (position + before), cause⟩) := by
  rw [instructions, if_neg (by rwa [h.size_le_iff]), instruction_eq h, hread]
  rfl

theorem instructions_glyphs_append {instruction : Instruction} {after : List Glyph}
    (h : tape.Holds position (instruction.glyphs ++ after)) (found : Array Parts) :
    tape.instructions found position =
      tape.instructions (found.push instruction.parts) (position + instruction.glyphs.length) := by
  have hne : instruction.glyphs ++ after ≠ [] := by simp [instruction.glyphs_ne_nil]
  have hpos := List.length_pos_iff.mpr instruction.glyphs_ne_nil
  rw [instructions, if_neg (by rwa [h.size_le_iff]), instruction_eq h,
    Instruction.read_glyphs_append]
  exact if_pos (Nat.lt_add_of_pos_right hpos)

theorem instructions_flatMap_append (instructions : List Instruction) {after : List Glyph}
    (h : tape.Holds position (instructions.flatMap Instruction.glyphs ++ after))
    (found : Array Parts) :
    tape.instructions found position =
      tape.instructions (found ++ instructions.map Instruction.parts)
        (position + (instructions.flatMap Instruction.glyphs).length) := by
  induction instructions generalizing position found with
  | nil => simp
  | cons instruction rest ih =>
    rw [List.flatMap_cons, List.append_assoc] at h
    rw [instructions_glyphs_append h, ih h.append]
    simp [Nat.add_assoc]

theorem holds_ofSource (source : String) :
    (ofSource source).Holds 0 (Glyph.ofSource source) where
  le_size := Nat.zero_le _
  drop_eq := by simp [ofSource, ← Lexeme.map_glyph_ofSource]

theorem offset_ofSource (source : String) (position : Nat) :
    (ofSource source).offset position =
      Lexeme.byteOffset (Lexeme.ofSource source) source position := by
  simp only [offset, ofSource, Lexeme.byteOffset, Array.getElem?_map]
  cases (Lexeme.ofSource source)[position]? <;> rfl

theorem instructions_ofSource (source : String) :
    (ofSource source).instructions #[] 0 =
      .ok ((Program.ofSource source).map (·.map Instruction.parts)) := by
  obtain ⟨instructions, after, hsource, hafter⟩ :=
    Reading.exists_instructions (Glyph.ofSource source)
  have hstart := holds_ofSource source
  rw [hsource] at hstart
  rw [instructions_flatMap_append instructions hstart]
  by_cases hne : after = []
  · subst hne
    rw [List.append_nil] at hsource
    rw [instructions_nil hstart.append, Program.ofSource_of_glyphs hsource]
    simp [Except.map]
  · obtain ⟨before, cause, hread⟩ := hafter.resolve_left hne
    rw [instructions_of_error hstart.append hne hread,
      Program.ofSource_of_failure hne hread hsource]
    simp [offset_ofSource, Except.map]

end Texts

end Tape

end Whitespace
