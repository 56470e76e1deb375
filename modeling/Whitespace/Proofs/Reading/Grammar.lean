import Mathlib.Data.Set.List
import Whitespace.Proofs.Reading.Offsets
import Whitespace.Proofs.Reading.RoundTrip
import Whitespace.Trace

/-!
The grammar of source texts, stated on glyphs and marker tables alone. A text is a program when its
glyphs are encodings one after the other; where they are not, what is left after the last whole
encoding determines the error. `Program.ofSource_follows_grammar` says both of the reader, and that it
announces exactly the instructions before a failure.
-/

namespace Whitespace

def Opcode.HasMarkers (opcode : Opcode) (markers : List Glyph) : Prop :=
  ∃ first second : Marker, markers = first ++ second ∧
    (first, opcode.category) ∈ Category.table ∧ (second, opcode) ∈ opcode.category.operations

/-- The glyphs of one whole instruction. -/
inductive IsEncoding : List Glyph → Prop
  | bare {opcode : Opcode} {markers : List Glyph} (hmarkers : opcode.HasMarkers markers)
      (hbare : ¬ opcode.takesOperand) : IsEncoding markers
  | withLiteral {opcode : Opcode} {markers digits : List Glyph}
      (hmarkers : opcode.HasMarkers markers) (htakes : opcode.takesOperand) (hne : digits ≠ [])
      (hdigits : .lineFeed ∉ digits) : IsEncoding (markers ++ (digits ++ [.lineFeed]))

/-- What glyphs at which no whole encoding begins look like when reading them fails for a cause, and
how many of them come before the failing marker or literal. -/
def Malformation.Explains (rest : List Glyph) (before : Nat) : Malformation → Prop
  | .unknownCategory found => rest = [.tab] ∧ before = 0 ∧ found = [.tab]
  | .unknownOperation category found =>
    ∃ first after : List Glyph, rest = first ++ after ∧ (first, category) ∈ Category.table ∧
      (∀ entry ∈ category.operations, ¬ entry.1 <+: after) ∧
      before = first.length ∧ found = after.take 2
  | .unterminated operation =>
    ∃ markers after : List Glyph, rest = markers ++ after ∧ operation.HasMarkers markers ∧
      operation.takesOperand ∧ .lineFeed ∉ after ∧ before = markers.length
  | .malformedLiteral operation error =>
    ∃ markers after : List Glyph, rest = markers ++ .lineFeed :: after ∧
      operation.HasMarkers markers ∧ operation.takesOperand ∧ error = .empty ∧
      before = markers.length

/-- Events that announce encodings as instructions of a source, in order and from the first. -/
def Announces (source : String) (encodings : List (List Glyph)) (events : List Event) : Prop :=
  events.length = encodings.length ∧
    ∀ (index : Nat) (run : List Glyph), encodings[index]? = some run →
      ∃ (offset : Nat) (instruction : Instruction),
        events[index]? = some (.decoded index offset instruction) ∧ instruction.glyphs = run ∧
          Lexeme.StandsAt source (encodings.take index).flatten.length offset

theorem Opcode.hasMarkers_iff {opcode : Opcode} {markers : List Glyph} :
    opcode.HasMarkers markers ↔ markers = opcode.category.marker ++ opcode.marker := by
  simp only [HasMarkers, Category.mem_table_iff, Category.mem_operations_iff, true_and]
  constructor
  · rintro ⟨_, _, rfl, rfl, rfl⟩
    rfl
  · rintro rfl
    exact ⟨_, _, rfl, rfl, rfl⟩

theorem isEncoding_iff {run : List Glyph} :
    IsEncoding run ↔ ∃ instruction : Instruction, instruction.glyphs = run := by
  constructor
  · rintro (⟨hmarkers, hbare⟩ | ⟨hmarkers, htakes, hne, hdigits⟩)
    · rename_i opcode
      rw [← Operation.bare?_eq_none_iff (β := Literal)] at hbare
      obtain ⟨instruction, hinstruction⟩ := Option.ne_none_iff_exists'.mp hbare
      refine ⟨instruction, ?_⟩
      rw [Instruction.glyphs_of_bare? hinstruction, Opcode.hasMarkers_iff.mp hmarkers]
    · rename_i opcode _ _
      obtain ⟨literal, rfl⟩ := Literal.exists_glyphs_eq hdigits hne
      refine ⟨opcode.withOperand literal, ?_⟩
      rw [Instruction.glyphs_withOperand htakes, Opcode.hasMarkers_iff.mp hmarkers,
        List.append_assoc]
  · rintro ⟨instruction, rfl⟩
    rcases instruction.bare?_or_withOperand with hbare | ⟨literal, htakes, hwith⟩
    · have hnot : ¬ instruction.opcode.takesOperand := by
        rw [← Operation.bare?_eq_none_iff (β := Literal), hbare]
        exact Option.some_ne_none instruction
      rw [Instruction.glyphs_of_bare? hbare]
      exact .bare (Opcode.hasMarkers_iff.mpr rfl) hnot
    · rw [← hwith, Instruction.glyphs_withOperand htakes, ← List.append_assoc]
      exact .withLiteral (Opcode.hasMarkers_iff.mpr rfl) htakes literal.glyphs_ne_nil
        literal.lineFeed_notMem_glyphs

theorem exists_instructions_of_isEncoding {encodings : List (List Glyph)}
    (h : ∀ run ∈ encodings, IsEncoding run) :
    ∃ instructions : List Instruction, instructions.map Instruction.glyphs = encodings := by
  have hrange : encodings ∈ Set.range (List.map Instruction.glyphs) := by
    rw [Set.range_list_map]
    exact fun run hmem => isEncoding_iff.mp (h run hmem)
  exact hrange

theorem isEncoding_of_mem_map {instructions : List Instruction} :
    ∀ run ∈ instructions.map Instruction.glyphs, IsEncoding run := by
  intro run hmem
  obtain ⟨instruction, _, hglyphs⟩ := List.mem_map.mp hmem
  exact isEncoding_iff.mpr ⟨instruction, hglyphs⟩

theorem Category.marker_ne_nil (category : Category) : category.marker ≠ [] := by
  cases category <;> exact List.cons_ne_nil _ _

theorem Opcode.HasMarkers.ne_nil {opcode : Opcode} {markers : List Glyph}
    (h : opcode.HasMarkers markers) : markers ≠ [] := by
  rw [hasMarkers_iff.mp h]
  exact List.append_ne_nil_of_left_ne_nil opcode.category.marker_ne_nil _

theorem Malformation.Explains.ne_nil {cause : Malformation} {rest : List Glyph} {before : Nat}
    (h : cause.Explains rest before) : rest ≠ [] := by
  cases cause with
  | unknownCategory found =>
    obtain ⟨rfl, -, -⟩ := h
    exact List.cons_ne_nil _ _
  | unknownOperation category found =>
    obtain ⟨first, after, rfl, hcategory, -⟩ := h
    obtain rfl := Category.mem_table_iff.mp hcategory
    exact List.append_ne_nil_of_left_ne_nil category.marker_ne_nil after
  | unterminated operation =>
    obtain ⟨markers, after, rfl, hmarkers, -⟩ := h
    exact List.append_ne_nil_of_left_ne_nil hmarkers.ne_nil after
  | malformedLiteral operation error =>
    obtain ⟨markers, after, rfl, hmarkers, -⟩ := h
    exact List.append_ne_nil_of_left_ne_nil hmarkers.ne_nil _

theorem Malformation.Explains.le_length {cause : Malformation} {rest : List Glyph} {before : Nat}
    (h : cause.Explains rest before) : before ≤ rest.length := by
  cases cause with
  | unknownCategory found =>
    obtain ⟨-, rfl, -⟩ := h
    exact Nat.zero_le _
  | unknownOperation category found =>
    obtain ⟨first, after, rfl, -, -, rfl, -⟩ := h
    simp
  | unterminated operation =>
    obtain ⟨markers, after, rfl, -, -, -, rfl⟩ := h
    simp
  | malformedLiteral operation error =>
    obtain ⟨markers, after, rfl, -, -, -, rfl⟩ := h
    simp

theorem Category.lookup?_eq_none_iff {input : List Glyph} :
    Category.table.lookup? input = none ↔ input = [] ∨ input = [.tab] := by
  rcases input with _ | ⟨first, _ | ⟨second, rest⟩⟩
  · decide
  · cases first <;> decide
  · have hnone : Category.table.lookup? (first :: second :: rest) ≠ none := by
      cases first <;> cases second <;> exact Option.some_ne_none _
    simp [hnone]

namespace Instruction

/-- The glyphs that a reading fails at determine its error, and the error tells what they are. -/
theorem read_eq_error_iff {input : List Glyph} (hne : input ≠ []) {before : Nat}
    {cause : Malformation} :
    read input = .error (before, cause) ↔ cause.Explains input before := by
  constructor
  · intro h
    rcases markers_cases input with hnone | ⟨category, tail, rfl, hnone⟩ | ⟨opcode, tail, rfl⟩
    · rw [read_of_category_none hnone] at h
      cases h
      obtain rfl := (Category.lookup?_eq_none_iff.mp hnone).resolve_left hne
      exact ⟨rfl, rfl, rfl⟩
    · rw [read_of_operation_none category hnone] at h
      cases h
      exact ⟨category.marker, tail, rfl, Category.mem_table_iff.mpr rfl,
        MarkerTable.lookup?_eq_none_iff.mp hnone, rfl, rfl⟩
    · have hmarkers : opcode.HasMarkers (opcode.category.marker ++ opcode.marker) :=
        Opcode.hasMarkers_iff.mpr rfl
      rcases read_markers_cases opcode tail with
        ⟨found, after, heq⟩ | ⟨htakes, hnone | ⟨after, rfl⟩⟩
      · rw [heq, read_glyphs_append] at h
        cases h
      · rw [read_markers_of_literal_error htakes (Literal.read_of_notMem opcode hnone)] at h
        cases h
        exact ⟨_, tail, (List.append_assoc _ _ _).symm, hmarkers, htakes, hnone,
          List.length_append.symm⟩
      · rw [read_markers_of_literal_error htakes (Literal.read_lineFeed opcode after)] at h
        cases h
        exact ⟨_, after, (List.append_assoc _ _ _).symm, hmarkers, htakes, rfl,
          List.length_append.symm⟩
  · intro h
    cases cause with
    | unknownCategory found =>
      obtain ⟨rfl, rfl, rfl⟩ := h
      rfl
    | unknownOperation category found =>
      obtain ⟨first, after, rfl, hcategory, hnone, rfl, rfl⟩ := h
      obtain rfl := Category.mem_table_iff.mp hcategory
      exact read_of_operation_none category (MarkerTable.lookup?_eq_none_iff.mpr hnone)
    | unterminated operation =>
      obtain ⟨markers, after, rfl, hmarkers, htakes, hnone, rfl⟩ := h
      obtain rfl := Opcode.hasMarkers_iff.mp hmarkers
      rw [List.append_assoc, List.length_append]
      exact read_markers_of_literal_error htakes (Literal.read_of_notMem operation hnone)
    | malformedLiteral operation error =>
      obtain ⟨markers, after, rfl, hmarkers, htakes, rfl, rfl⟩ := h
      obtain rfl := Opcode.hasMarkers_iff.mp hmarkers
      rw [List.append_assoc, List.length_append]
      exact read_markers_of_literal_error htakes (Literal.read_lineFeed operation after)

end Instruction

namespace Reading

theorem getElem?_locate (position : Nat) (instructions : List Instruction) (index : Nat) :
    (locate position instructions)[index]? =
      instructions[index]?.map fun instruction =>
        ⟨position + ((instructions.take index).flatMap Instruction.glyphs).length, instruction⟩ := by
  induction instructions generalizing position index with
  | nil => rfl
  | cons instruction rest ih =>
    cases index with
    | zero => simp [locate]
    | succ index => simp [locate, ih, Nat.add_assoc]

theorem announces_events {source : String} {instructions : List Instruction}
    {rest : List Glyph}
    (hsource : Glyph.ofSource source = instructions.flatMap Instruction.glyphs ++ rest)
    (error : Option SourceError) :
    Announces source (instructions.map Instruction.glyphs)
      (mapOffset (Lexeme.byteOffset (Lexeme.ofSource source) source)
        ⟨(locate 0 instructions).toArray, error⟩).events := by
  refine ⟨by simp [events, mapOffset], ?_⟩
  intro index run hrun
  obtain ⟨instruction, hinstruction, rfl⟩ := Option.map_eq_some_iff.mp (List.getElem?_map ▸ hrun)
  have hsplit : instructions.flatMap Instruction.glyphs =
      (instructions.take index).flatMap Instruction.glyphs ++
        (instructions.drop index).flatMap Instruction.glyphs := by
    rw [← List.flatMap_append, List.take_append_drop]
  have hplace := Lexeme.standsAt_byteOffset source
    ((instructions.take index).flatMap Instruction.glyphs).length (by
      rw [hsource, hsplit]
      simp only [List.length_append]
      omega)
  refine ⟨_, instruction, ?_, rfl, by simpa [List.map_take, List.flatMap_def] using hplace⟩
  simp [events, mapOffset, getElem?_locate, hinstruction, List.flatMap_def, List.map_take]

end Reading

namespace Program

theorem exists_ofSource_eq_ok_iff {source : String} :
    (∃ program, ofSource source = .ok program) ↔
      ∃ encodings : List (List Glyph), (∀ run ∈ encodings, IsEncoding run) ∧
        Glyph.ofSource source = encodings.flatten := by
  constructor
  · rintro ⟨program, h⟩
    refine ⟨program.toList.map Instruction.glyphs, isEncoding_of_mem_map, ?_⟩
    rw [ofSource_eq_ok_iff.mp h, glyphs, List.flatMap_def]
  · rintro ⟨encodings, hencodings, h⟩
    obtain ⟨instructions, rfl⟩ := exists_instructions_of_isEncoding hencodings
    rw [← List.flatMap_def] at h
    exact ⟨_, ofSource_of_glyphs h⟩

theorem ofSource_eq_error_iff {source : String} {error : SourceError} :
    ofSource source = .error error ↔
      ∃ (encodings : List (List Glyph)) (rest : List Glyph) (before : Nat),
        (∀ run ∈ encodings, IsEncoding run) ∧
          Glyph.ofSource source = encodings.flatten ++ rest ∧
          error.cause.Explains rest before ∧ error.index = encodings.length ∧
          Lexeme.StandsAt source (encodings.flatten.length + before) error.offset := by
  have hplace {run rest : List Glyph} {before : Nat} (hle : before ≤ rest.length)
      (hsource : Glyph.ofSource source = run ++ rest) :=
    Lexeme.standsAt_byteOffset source (run.length + before) (by
      rw [hsource, List.length_append]
      omega)
  constructor
  · intro h
    obtain ⟨instructions, rest, hsource, hrest⟩ :=
      Reading.exists_instructions (Glyph.ofSource source)
    by_cases hne : rest = []
    · subst hne
      rw [List.append_nil] at hsource
      rw [ofSource_of_glyphs hsource] at h
      cases h
    · obtain ⟨before, cause, hread⟩ := hrest.resolve_left hne
      have hexplains := (Instruction.read_eq_error_iff hne).mp hread
      rw [ofSource_of_failure hne hread hsource] at h
      cases h
      rw [List.flatMap_def] at hsource ⊢
      exact ⟨instructions.map Instruction.glyphs, rest, before, isEncoding_of_mem_map, hsource,
        hexplains, (List.length_map _).symm, hplace hexplains.le_length hsource⟩
  · rintro ⟨encodings, rest, before, hencodings, hsource, hexplains, hindex, hoffset⟩
    obtain ⟨instructions, rfl⟩ := exists_instructions_of_isEncoding hencodings
    have hread := (Instruction.read_eq_error_iff hexplains.ne_nil).mpr hexplains
    have hoffset' := (hplace hexplains.le_length hsource).unique hoffset
    rw [← List.flatMap_def] at hsource hoffset'
    rw [List.length_map] at hindex
    rw [ofSource_of_failure hexplains.ne_nil hread hsource, hoffset', ← hindex]

theorem announces_ofSource {source : String} {encodings : List (List Glyph)} {rest : List Glyph}
    (hencodings : ∀ run ∈ encodings, IsEncoding run)
    (hsource : Glyph.ofSource source = encodings.flatten ++ rest)
    (hrest : rest = [] ∨ ∃ (cause : Malformation) (before : Nat), cause.Explains rest before) :
    Announces source encodings (Reading.ofSource source).events := by
  obtain ⟨instructions, rfl⟩ := exists_instructions_of_isEncoding hencodings
  rw [← List.flatMap_def] at hsource
  have hevents := Reading.announces_events hsource
  rcases hrest with rfl | ⟨cause, before, hexplains⟩
  · rw [List.append_nil] at hsource
    rw [Reading.ofSource_eq, hsource, Reading.ofGlyphs_flatMap]
    exact hevents none
  · have hread := (Instruction.read_eq_error_iff hexplains.ne_nil).mpr hexplains
    rw [Reading.ofSource_eq, hsource,
      Reading.ofGlyphs_flatMap_append instructions hexplains.ne_nil hread]
    exact hevents _

/-- The reader follows the grammar. It accepts the sources whose glyphs are whole encodings. It refuses
a source just when what is left after some whole encodings explains the cause; the error then bears
their number and the place of the failing marker or literal. In either case it has announced the
instructions that those encodings are, and nothing else. -/
theorem ofSource_follows_grammar (source : String) :
    ((∃ program, ofSource source = .ok program) ↔
      ∃ encodings : List (List Glyph), (∀ run ∈ encodings, IsEncoding run) ∧
        Glyph.ofSource source = encodings.flatten) ∧
    (∀ error : SourceError, ofSource source = .error error ↔
      ∃ (encodings : List (List Glyph)) (rest : List Glyph) (before : Nat),
        (∀ run ∈ encodings, IsEncoding run) ∧
          Glyph.ofSource source = encodings.flatten ++ rest ∧
          error.cause.Explains rest before ∧ error.index = encodings.length ∧
          Lexeme.StandsAt source (encodings.flatten.length + before) error.offset) ∧
    ∀ (encodings : List (List Glyph)) (rest : List Glyph),
      (∀ run ∈ encodings, IsEncoding run) →
      Glyph.ofSource source = encodings.flatten ++ rest →
      (rest = [] ∨ ∃ (cause : Malformation) (before : Nat), cause.Explains rest before) →
      Announces source encodings (Reading.ofSource source).events :=
  ⟨exists_ofSource_eq_ok_iff, fun _ => ofSource_eq_error_iff,
    fun _ _ hencodings hsource hrest => announces_ofSource hencodings hsource hrest⟩

/-- A push is announced, then an operation of the `io` category is not found; the comment before it
takes two bytes. -/
theorem ofSource_follows_grammar_unknown_io :
    ofSource "  \t\né\t\n\n" = .error ⟨1, 8, .unknownOperation .io [.lineFeed]⟩ ∧
      Announces "  \t\né\t\n\n" [[.space, .space, .tab, .lineFeed]]
        (Reading.ofSource "  \t\né\t\n\n").events := by
  have hmarkers : Opcode.HasMarkers (.stack (.push ())) [.space, .space] :=
    ⟨[.space], [.space], rfl, by decide, by decide⟩
  have hpush : IsEncoding ([.space, .space] ++ ([.tab] ++ [.lineFeed])) :=
    .withLiteral hmarkers rfl (by decide) (by decide)
  have hencodings : ∀ run ∈ [[.space, .space, .tab, .lineFeed]], IsEncoding run := by
    intro run hrun
    rwa [List.mem_singleton.mp hrun]
  have hsource : Glyph.ofSource "  \t\né\t\n\n" =
      [[.space, .space, .tab, .lineFeed]].flatten ++ [.tab, .lineFeed, .lineFeed] := by decide
  have hexplains : (Malformation.unknownOperation .io [.lineFeed]).Explains
      [.tab, .lineFeed, .lineFeed] 2 :=
    ⟨[.tab, .lineFeed], [.lineFeed], rfl, by decide, by decide, rfl, rfl⟩
  have hplace : Lexeme.StandsAt "  \t\né\t\n\n" 6 8 := by
    refine ⟨"  \t\né\t\n", "\n", by decide, by decide, by decide, ?_⟩
    intro c hc
    obtain rfl : '\n' = c := Option.some.inj hc
    rfl
  obtain ⟨-, herror, hevents⟩ := ofSource_follows_grammar "  \t\né\t\n\n"
  exact ⟨(herror _).mpr ⟨_, _, 2, hencodings, hsource, hexplains, rfl, hplace⟩,
    hevents _ _ hencodings hsource (.inr ⟨_, 2, hexplains⟩)⟩

end Program

end Whitespace
