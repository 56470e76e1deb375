import Whitespace.Proofs.Reading.Encoding

/-!
Writing and reading programs. A text is read as a program exactly when the program's glyphs are the
glyphs of the text, so reading undoes writing, and writing undoes reading up to comments.
-/

namespace Whitespace

theorem Glyph.isSome_ofChar?_iff {c : Char} :
    (Glyph.ofChar? c).isSome ↔ c = ' ' ∨ c = '\t' ∨ c = '\n' := by
  constructor
  · intro h
    obtain ⟨glyph, hglyph⟩ := Option.isSome_iff_exists.mp h
    rw [← Glyph.toChar_of_ofChar? hglyph]
    cases glyph <;> decide
  · rintro (rfl | rfl | rfl) <;> rfl

theorem Glyph.source_ofSource (text : String) :
    Glyph.source (Glyph.ofSource text) =
      String.ofList (text.toList.filter fun c => c = ' ' ∨ c = '\t' ∨ c = '\n') := by
  rw [Glyph.source, Glyph.ofSource]
  apply congrArg String.ofList
  induction text.toList with
  | nil => rfl
  | cons c rest ih =>
    cases hglyph : Glyph.ofChar? c with
    | none =>
      have hcomment : ¬ (c = ' ' ∨ c = '\t' ∨ c = '\n') := by
        rw [← Glyph.isSome_ofChar?_iff, hglyph]
        decide
      rw [List.filterMap_cons_none hglyph, List.filter_cons_of_neg (by simpa using hcomment), ih]
    | some glyph =>
      have hglyph' : c = ' ' ∨ c = '\t' ∨ c = '\n' := by
        rw [← Glyph.isSome_ofChar?_iff, hglyph]
        rfl
      rw [List.filterMap_cons_some hglyph, List.filter_cons_of_pos (by simpa using hglyph'),
        List.map_cons, Glyph.toChar_of_ofChar? hglyph, ih]

namespace Reading

def locate (position : Nat) : List Instruction → List Located
  | [] => []
  | instruction :: rest =>
    ⟨position, instruction⟩ :: locate (position + instruction.glyphs.length) rest

@[simp] theorem map_instruction_locate (position : Nat) (instructions : List Instruction) :
    (locate position instructions).map Located.instruction = instructions := by
  induction instructions generalizing position with
  | nil => rfl
  | cons instruction rest ih => simp [locate, ih]

@[simp] theorem length_locate (position : Nat) (instructions : List Instruction) :
    (locate position instructions).length = instructions.length := by
  rw [← List.length_map (f := Located.instruction), map_instruction_locate]

theorem advance_nil (position : Nat) (found : Array Located) :
    advance position found [] = ⟨found, none⟩ := by
  rw [advance]
  simp

theorem advance_of_error {input : List Glyph} (hne : input ≠ []) {before : Nat}
    {cause : Malformation} (h : Instruction.read input = .error (before, cause)) (position : Nat)
    (found : Array Located) :
    advance position found input = ⟨found, some ⟨found.size, position + before, cause⟩⟩ := by
  rw [advance, if_neg (by simpa using hne)]
  split
  · next heq =>
    rw [h] at heq
    cases heq
    rfl
  · next heq =>
    rw [h] at heq
    cases heq

theorem advance_glyphs_append (instruction : Instruction) (position : Nat)
    (found : Array Located) (rest : List Glyph) :
    advance position found (instruction.glyphs ++ rest) =
      advance (position + instruction.glyphs.length) (found.push ⟨position, instruction⟩) rest := by
  have hread := Instruction.read_glyphs_append instruction rest
  rw [advance, if_neg (by simp [instruction.glyphs_ne_nil])]
  split
  · next heq =>
    rw [hread] at heq
    cases heq
  · next heq =>
    rw [hread] at heq
    cases heq
    rfl

theorem advance_flatMap_append (instructions : List Instruction) (position : Nat)
    (found : Array Located) (rest : List Glyph) :
    advance position found (instructions.flatMap Instruction.glyphs ++ rest) =
      advance (position + (instructions.flatMap Instruction.glyphs).length)
        (found ++ locate position instructions) rest := by
  induction instructions generalizing position found with
  | nil => simp [locate]
  | cons instruction tail ih =>
    rw [List.flatMap_cons, List.append_assoc, advance_glyphs_append, ih]
    simp [locate, Nat.add_assoc]

theorem exists_instructions (input : List Glyph) :
    ∃ (instructions : List Instruction) (rest : List Glyph),
      input = instructions.flatMap Instruction.glyphs ++ rest ∧
        (rest = [] ∨ ∃ before cause, Instruction.read rest = .error (before, cause)) := by
  cases hread : Instruction.read input with
  | error failure => exact ⟨[], input, rfl, .inr ⟨failure.1, failure.2, hread⟩⟩
  | ok result =>
    have hshorter := Instruction.length_lt_of_read hread
    obtain ⟨instructions, rest, htail, hrest⟩ := exists_instructions result.2
    refine ⟨result.1 :: instructions, rest, ?_, hrest⟩
    rw [Instruction.read_eq_ok_iff.mp hread, htail, List.flatMap_cons, List.append_assoc]
termination_by input.length

theorem ofGlyphs_flatMap (instructions : List Instruction) :
    ofGlyphs (instructions.flatMap Instruction.glyphs) = ⟨(locate 0 instructions).toArray, none⟩ := by
  have h := advance_flatMap_append instructions 0 #[] []
  rw [List.append_nil, advance_nil] at h
  simpa [ofGlyphs] using h

theorem ofGlyphs_flatMap_append (instructions : List Instruction) {rest : List Glyph}
    (hne : rest ≠ []) {before : Nat} {cause : Malformation}
    (h : Instruction.read rest = .error (before, cause)) :
    ofGlyphs (instructions.flatMap Instruction.glyphs ++ rest) =
      ⟨(locate 0 instructions).toArray,
        some ⟨instructions.length,
          (instructions.flatMap Instruction.glyphs).length + before, cause⟩⟩ := by
  rw [ofGlyphs, advance_flatMap_append, advance_of_error hne h]
  simp

theorem ofSource_eq (source : String) :
    ofSource source =
      (ofGlyphs (Glyph.ofSource source)).mapOffset
        (Lexeme.byteOffset (Lexeme.ofSource source) source) := by
  rw [ofSource, Lexeme.map_glyph_ofSource]

end Reading

namespace Program

theorem ofSource_of_glyphs {source : String} {instructions : List Instruction}
    (h : Glyph.ofSource source = instructions.flatMap Instruction.glyphs) :
    ofSource source = .ok instructions.toArray := by
  rw [ofSource, Reading.ofSource_eq, h, Reading.ofGlyphs_flatMap]
  simp [Reading.mapOffset, Reading.program, Function.comp_def]

theorem ofSource_of_failure {source : String} {instructions : List Instruction}
    {rest : List Glyph} {before : Nat} {cause : Malformation} (hne : rest ≠ [])
    (hread : Instruction.read rest = .error (before, cause))
    (h : Glyph.ofSource source = instructions.flatMap Instruction.glyphs ++ rest) :
    ofSource source =
      .error ⟨instructions.length,
        Lexeme.byteOffset (Lexeme.ofSource source) source
          ((instructions.flatMap Instruction.glyphs).length + before), cause⟩ := by
  rw [ofSource, Reading.ofSource_eq, h, Reading.ofGlyphs_flatMap_append instructions hne hread]
  rfl

theorem ofSource_eq_ok_iff {source : String} {program : Program} :
    ofSource source = .ok program ↔ Glyph.ofSource source = program.glyphs := by
  constructor
  · intro h
    obtain ⟨instructions, rest, heq, hrest⟩ := Reading.exists_instructions (Glyph.ofSource source)
    by_cases hne : rest = []
    · subst hne
      rw [List.append_nil] at heq
      rw [ofSource_of_glyphs heq] at h
      cases h
      exact heq
    · obtain ⟨before, cause, hread⟩ := hrest.resolve_left hne
      rw [ofSource_of_failure hne hread heq] at h
      cases h
  · intro h
    exact ofSource_of_glyphs h

/-- Reading and writing are inverse to each other. Writing gives a text that is read as the program it
was written from; a text that is read as a program holds, comments apart, what is written for that
program; and texts are read as the same program just when they have the same glyphs. -/
theorem source_ofSource_inverse :
    (∀ program : Program, ofSource program.source = .ok program) ∧
      (∀ (text : String) (program : Program), ofSource text = .ok program →
        program.source =
          String.ofList (text.toList.filter fun c => c = ' ' ∨ c = '\t' ∨ c = '\n')) ∧
      ∀ (first second : String) (program : Program), ofSource first = .ok program →
        (ofSource second = .ok program ↔ Glyph.ofSource first = Glyph.ofSource second) := by
  refine ⟨?_, ?_, ?_⟩
  · intro program
    rw [ofSource_eq_ok_iff, source, Glyph.ofSource_source]
  · intro text program h
    rw [source, ← ofSource_eq_ok_iff.mp h, Glyph.source_ofSource]
  · intro first second program h
    rw [ofSource_eq_ok_iff, ofSource_eq_ok_iff.mp h, eq_comm]

theorem source_ofSource_inverse_minus_zero :
    ofSource "  \t \n" = .ok #[.stack (.push ⟨true, [false]⟩)] ∧
      (ofSource "  \t x\n" = .ok #[.stack (.push ⟨true, [false]⟩)] ↔
        Glyph.ofSource "  \t \n" = Glyph.ofSource "  \t x\n") := by
  have hread : ofSource "  \t \n" = .ok #[.stack (.push ⟨true, [false]⟩)] :=
    ofSource_eq_ok_iff.mpr (by decide)
  exact ⟨hread, source_ofSource_inverse.2.2 _ "  \t x\n" _ hread⟩

end Program

end Whitespace
