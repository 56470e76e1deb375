import Mathlib.Data.List.TakeWhile
import Whitespace.Reading

/-!
Encodings of single instructions. `Instruction.read` accepts exactly what `Instruction.glyphs` writes,
whatever comes after it, so an encoding is cut off the front of an input in one way only.
-/

namespace Whitespace

namespace Literal

theorem glyphs_ne_nil (literal : Literal) : literal.glyphs ≠ [] := List.cons_ne_nil _ _

theorem bitGlyph_ne_lineFeed (bit : Bool) : bitGlyph bit ≠ .lineFeed := by
  cases bit <;> decide

theorem lineFeed_notMem_glyphs (literal : Literal) : Glyph.lineFeed ∉ literal.glyphs := by
  intro hmem
  rcases List.mem_cons.mp hmem with hsign | hbits
  · exact bitGlyph_ne_lineFeed _ hsign.symm
  · obtain ⟨bit, _, hbit⟩ := List.mem_map.mp hbits
    exact bitGlyph_ne_lineFeed bit hbit

private theorem exists_bits {run : List Glyph} (hrun : Glyph.lineFeed ∉ run) :
    ∃ bits : List Bool, run = bits.map bitGlyph := by
  induction run with
  | nil => exact ⟨[], rfl⟩
  | cons glyph rest ih =>
    simp only [List.mem_cons, not_or] at hrun
    obtain ⟨bits, rfl⟩ := ih hrun.2
    cases glyph with
    | space => exact ⟨false :: bits, rfl⟩
    | tab => exact ⟨true :: bits, rfl⟩
    | lineFeed => exact absurd rfl hrun.1

theorem exists_glyphs_eq {run : List Glyph} (hrun : Glyph.lineFeed ∉ run) (hne : run ≠ []) :
    ∃ literal : Literal, literal.glyphs = run := by
  obtain ⟨bits, rfl⟩ := exists_bits hrun
  cases bits with
  | nil => exact absurd rfl hne
  | cons negative bits => exact ⟨⟨negative, bits⟩, rfl⟩

theorem ofGlyphs_glyphs (literal : Literal) : ofGlyphs literal.glyphs = .ok literal :=
  ofText_text literal

theorem place_cases (input : List Glyph) :
    Glyph.lineFeed ∉ input ∨ (∃ rest, input = .lineFeed :: rest) ∨
      ∃ (literal : Literal) (rest : List Glyph), input = literal.glyphs ++ .lineFeed :: rest := by
  by_cases hmem : Glyph.lineFeed ∈ input
  · right
    obtain ⟨run, rest, rfl, hrun⟩ := List.eq_append_cons_of_mem hmem
    cases run with
    | nil => exact .inl ⟨rest, rfl⟩
    | cons glyph run =>
      obtain ⟨literal, hliteral⟩ := exists_glyphs_eq hrun (List.cons_ne_nil _ _)
      exact .inr ⟨literal, rest, by rw [hliteral]⟩
  · exact .inl hmem

private theorem ne_lineFeed_of_notMem {run : List Glyph} (hrun : Glyph.lineFeed ∉ run) :
    ∀ glyph ∈ run, (glyph != .lineFeed) = true := by
  intro glyph hmem
  exact bne_iff_ne.mpr fun h => hrun (h ▸ hmem)

theorem read_of_notMem (operation : Opcode) {input : List Glyph}
    (hinput : Glyph.lineFeed ∉ input) :
    read operation input = .error (.unterminated operation) := by
  rw [read, List.dropWhile_eq_nil_iff.mpr (ne_lineFeed_of_notMem hinput)]

theorem read_lineFeed (operation : Opcode) (rest : List Glyph) :
    read operation (.lineFeed :: rest) = .error (.malformedLiteral operation .empty) := rfl

theorem read_glyphs_append (operation : Opcode) (literal : Literal) (rest : List Glyph) :
    read operation (literal.glyphs ++ .lineFeed :: rest) = .ok (literal, rest) := by
  have hrun := ne_lineFeed_of_notMem literal.lineFeed_notMem_glyphs
  rw [read, List.dropWhile_append_of_pos hrun, List.takeWhile_append_of_pos hrun]
  simp [ofGlyphs_glyphs]

end Literal

namespace MarkerTable

theorem lookup?_eq_none_iff {α : Type} {table : MarkerTable α} {input : List Glyph} :
    table.lookup? input = none ↔ ∀ entry ∈ table, ¬ entry.1 <+: input := by
  simp [lookup?, List.find?_eq_none]

end MarkerTable

theorem Category.mem_table_iff {first : Marker} {category : Category} :
    (first, category) ∈ Category.table ↔ first = category.marker := by
  constructor
  · intro hmem
    obtain ⟨_, _, heq⟩ := List.mem_map.mp hmem
    cases heq
    rfl
  · rintro rfl
    exact List.mem_map_of_mem (f := fun category => (category.marker, category)) category.mem_all

theorem Category.mem_opcodes_iff {category : Category} {opcode : Opcode} :
    opcode ∈ category.opcodes ↔ opcode.category = category := by
  constructor
  · intro hmem
    revert opcode
    cases category <;> decide
  · rintro rfl
    exact opcode.mem_opcodes

theorem Category.mem_operations_iff {category : Category} {second : Marker} {opcode : Opcode} :
    (second, opcode) ∈ category.operations ↔
      opcode.category = category ∧ second = opcode.marker := by
  simp only [Category.operations, List.mem_map, Category.mem_opcodes_iff, Prod.mk.injEq]
  constructor
  · rintro ⟨_, hcategory, rfl, rfl⟩
    exact ⟨hcategory, rfl⟩
  · rintro ⟨hcategory, rfl⟩
    exact ⟨opcode, hcategory, rfl, rfl⟩

namespace Instruction

theorem glyphs_of_bare? {opcode : Opcode} {instruction : Instruction}
    (h : opcode.bare? = some instruction) :
    instruction.glyphs = opcode.category.marker ++ opcode.marker := by
  rcases opcode with op | op | op | op | op <;> cases op <;> cases h <;> rfl

theorem glyphs_withOperand {opcode : Opcode} (htakes : opcode.takesOperand) (literal : Literal) :
    glyphs (opcode.withOperand literal) =
      opcode.category.marker ++ (opcode.marker ++ (literal.glyphs ++ [.lineFeed])) := by
  obtain ⟨operand, hoperand⟩ := Option.isSome_iff_exists.mp htakes
  simp [glyphs, hoperand]

theorem bare?_or_withOperand (instruction : Instruction) :
    instruction.opcode.bare? = some instruction ∨
      ∃ literal, instruction.opcode.takesOperand ∧
        instruction.opcode.withOperand literal = instruction := by
  have hparts := instruction.ofParts?_opcode_operand?
  cases hoperand : instruction.operand? with
  | none =>
    rw [hoperand] at hparts
    exact .inl hparts
  | some literal =>
    rw [hoperand, ofParts?] at hparts
    split at hparts
    · next htakes => exact .inr ⟨literal, htakes, Option.some.inj hparts⟩
    · cases hparts

theorem read_of_category_none {input : List Glyph} (h : Category.table.lookup? input = none) :
    read input = .error (0, .unknownCategory (input.take Marker.excerptLength)) := by
  rw [read, h]

theorem read_of_operation_none (category : Category) {rest : List Glyph}
    (h : category.operations.lookup? rest = none) :
    read (category.marker ++ rest) =
      .error (category.marker.length,
        .unknownOperation category (rest.take Marker.excerptLength)) := by
  simp [read, Category.lookup?_marker, h]

theorem read_markers_of_bare? {opcode : Opcode} {instruction : Instruction}
    (h : opcode.bare? = some instruction) (rest : List Glyph) :
    read (opcode.category.marker ++ (opcode.marker ++ rest)) = .ok (instruction, rest) := by
  simp [read, Category.lookup?_marker, Opcode.lookup?_marker, h]

theorem read_markers_of_literal_ok {opcode : Opcode} (htakes : opcode.takesOperand)
    {input rest : List Glyph} {literal : Literal}
    (h : Literal.read opcode input = .ok (literal, rest)) :
    read (opcode.category.marker ++ (opcode.marker ++ input)) =
      .ok (opcode.withOperand literal, rest) := by
  have hbare := (Operation.bare?_eq_none_iff (β := Literal) opcode).mpr htakes
  simp [read, Category.lookup?_marker, Opcode.lookup?_marker, hbare, h]

theorem read_markers_of_literal_error {opcode : Opcode} (htakes : opcode.takesOperand)
    {input : List Glyph} {cause : Malformation} (h : Literal.read opcode input = .error cause) :
    read (opcode.category.marker ++ (opcode.marker ++ input)) =
      .error (opcode.category.marker.length + opcode.marker.length, cause) := by
  have hbare := (Operation.bare?_eq_none_iff (β := Literal) opcode).mpr htakes
  simp [read, Category.lookup?_marker, Opcode.lookup?_marker, hbare, h]

theorem read_glyphs_append (instruction : Instruction) (rest : List Glyph) :
    read (instruction.glyphs ++ rest) = .ok (instruction, rest) := by
  rcases bare?_or_withOperand instruction with hbare | ⟨literal, htakes, hwith⟩
  · rw [glyphs_of_bare? hbare, List.append_assoc, read_markers_of_bare? hbare]
  · have hglyphs := glyphs_withOperand htakes literal
    rw [hwith] at hglyphs
    rw [hglyphs]
    simp only [List.append_assoc, List.singleton_append]
    rw [read_markers_of_literal_ok htakes (Literal.read_glyphs_append _ literal rest), hwith]

/-- An input begins with no category marker, with a category marker and none of its operation markers,
or with the two markers of an operation. -/
theorem markers_cases (input : List Glyph) :
    Category.table.lookup? input = none ∨
      (∃ (category : Category) (rest : List Glyph),
        input = category.marker ++ rest ∧ category.operations.lookup? rest = none) ∨
      ∃ (opcode : Opcode) (rest : List Glyph),
        input = opcode.category.marker ++ (opcode.marker ++ rest) := by
  cases hcategory : Category.table.lookup? input with
  | none => exact .inl rfl
  | some entry =>
    obtain ⟨first, category⟩ := entry
    obtain ⟨hmem, rest, rfl⟩ := MarkerTable.isPrefix_of_lookup? hcategory
    obtain rfl := Category.mem_table_iff.mp hmem
    right
    cases hoperation : category.operations.lookup? rest with
    | none => exact .inl ⟨category, rest, rfl, hoperation⟩
    | some entry =>
      obtain ⟨second, opcode⟩ := entry
      obtain ⟨hmem, rest, rfl⟩ := MarkerTable.isPrefix_of_lookup? hoperation
      obtain ⟨rfl, rfl⟩ := Category.mem_operations_iff.mp hmem
      exact .inr ⟨opcode, rest, rfl⟩

theorem read_markers_cases (opcode : Opcode) (input : List Glyph) :
    (∃ (instruction : Instruction) (rest : List Glyph),
        opcode.category.marker ++ (opcode.marker ++ input) = instruction.glyphs ++ rest) ∨
      opcode.takesOperand ∧
        (Glyph.lineFeed ∉ input ∨ ∃ rest, input = .lineFeed :: rest) := by
  cases hbare : (opcode.bare? : Option Instruction) with
  | some instruction =>
    exact .inl ⟨instruction, input, by rw [glyphs_of_bare? hbare, List.append_assoc]⟩
  | none =>
    have htakes := (Operation.bare?_eq_none_iff opcode).mp hbare
    rcases Literal.place_cases input with hnone | hempty | ⟨literal, rest, rfl⟩
    · exact .inr ⟨htakes, .inl hnone⟩
    · exact .inr ⟨htakes, .inr hempty⟩
    · exact .inl ⟨opcode.withOperand literal, rest, by simp [glyphs_withOperand htakes]⟩

theorem read_eq_ok_iff {input rest : List Glyph} {instruction : Instruction} :
    read input = .ok (instruction, rest) ↔ input = instruction.glyphs ++ rest := by
  constructor
  · intro h
    rcases markers_cases input with hnone | ⟨category, tail, rfl, hnone⟩ | ⟨opcode, tail, rfl⟩
    · rw [read_of_category_none hnone] at h
      cases h
    · rw [read_of_operation_none category hnone] at h
      cases h
    · rcases read_markers_cases opcode tail with ⟨found, after, heq⟩ | ⟨htakes, hnone | ⟨_, rfl⟩⟩
      · rw [heq, read_glyphs_append] at h
        cases h
        exact heq
      · rw [read_markers_of_literal_error htakes (Literal.read_of_notMem opcode hnone)] at h
        cases h
      · rw [read_markers_of_literal_error htakes (Literal.read_lineFeed opcode _)] at h
        cases h
  · rintro rfl
    exact read_glyphs_append instruction rest

theorem glyphs_ne_nil (instruction : Instruction) : instruction.glyphs ≠ [] := by
  intro h
  have hread := read_glyphs_append instruction []
  rw [h] at hread
  simpa using length_lt_of_read hread

end Instruction

end Whitespace
