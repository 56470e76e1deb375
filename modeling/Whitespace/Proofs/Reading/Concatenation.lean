import Whitespace.Proofs.Reading.Grammar

/-!
Texts one behind the other. Where a whole program ends, reading goes on as it begins, with more
instructions found and more glyphs passed (`Reading.advance_eq`); no marker and no literal reaches across
the seam. So a text behind a program is read as it is alone, and only its indices and offsets are counted
on (`Reading.ofSource_append`).
-/

namespace Whitespace

def Located.shift (length : Nat) (located : Located) : Located :=
  { located with offset := length + located.offset }

def SourceError.shift (instructions length : Nat) (error : SourceError) : SourceError :=
  { error with index := instructions + error.index, offset := length + error.offset }

namespace Reading

def followedBy (first : Reading) (length : Nat) (second : Reading) : Reading where
  found := first.found ++ second.found.map (Located.shift length)
  error := second.error.map (SourceError.shift first.found.size length)

structure Within (length : Nat) (reading : Reading) : Prop where
  found : ∀ located ∈ reading.found, located.offset < length
  error : ∀ error ∈ reading.error, error.offset ≤ length

theorem map_shift_locate (length position : Nat) (instructions : List Instruction) :
    (locate position instructions).map (Located.shift length) =
      locate (length + position) instructions := by
  induction instructions generalizing position with
  | nil => rfl
  | cons instruction rest ih => simp [locate, Located.shift, ih, Nat.add_assoc]

theorem offset_lt_of_mem_locate {position : Nat} {instructions : List Instruction}
    {located : Located} (h : located ∈ locate position instructions) :
    located.offset < position + (instructions.flatMap Instruction.glyphs).length := by
  induction instructions generalizing position with
  | nil => cases h
  | cons instruction rest ih =>
    have hpos := List.length_pos_iff.mpr instruction.glyphs_ne_nil
    rw [List.flatMap_cons, List.length_append]
    rcases List.mem_cons.mp h with rfl | hrest
    · simp only
      omega
    · have hlt := ih hrest
      omega

/-- What the loop does with an input does not hang on what it did before: it finds the same instructions
and the same error as from the start, counted on from its position. -/
theorem advance_eq (position : Nat) (found : Array Located) (input : List Glyph) :
    advance position found input = followedBy ⟨found, none⟩ position (ofGlyphs input) := by
  obtain ⟨instructions, rest, rfl, hrest⟩ := exists_instructions input
  have hfound : (found ++ locate position instructions : Array Located) =
      found ++ (locate 0 instructions).toArray.map (Located.shift position) := by
    apply Array.ext'
    simp [map_shift_locate]
  by_cases hne : rest = []
  · subst hne
    rw [advance_flatMap_append, advance_nil, List.append_nil, ofGlyphs_flatMap, hfound]
    rfl
  · obtain ⟨before, cause, hread⟩ := hrest.resolve_left hne
    rw [advance_flatMap_append, advance_of_error hne hread,
      ofGlyphs_flatMap_append instructions hne hread, hfound]
    simp [followedBy, SourceError.shift, Nat.add_assoc]

theorem ofGlyphs_append {instructions : List Instruction} (input : List Glyph) :
    ofGlyphs (instructions.flatMap Instruction.glyphs ++ input) =
      (ofGlyphs (instructions.flatMap Instruction.glyphs)).followedBy
        (instructions.flatMap Instruction.glyphs).length (ofGlyphs input) := by
  rw [ofGlyphs, advance_flatMap_append, advance_eq, ofGlyphs_flatMap]
  simp

theorem within_ofGlyphs (input : List Glyph) : (ofGlyphs input).Within input.length := by
  obtain ⟨instructions, rest, rfl, hrest⟩ := exists_instructions input
  have hfound : ∀ located ∈ (locate 0 instructions).toArray,
      located.offset < (instructions.flatMap Instruction.glyphs ++ rest).length := by
    intro located hmem
    have hlt := offset_lt_of_mem_locate (List.mem_toArray.mp hmem)
    rw [List.length_append]
    omega
  by_cases hne : rest = []
  · subst hne
    rw [List.append_nil] at hfound ⊢
    rw [ofGlyphs_flatMap]
    exact ⟨hfound, nofun⟩
  · obtain ⟨before, cause, hread⟩ := hrest.resolve_left hne
    have hle := ((Instruction.read_eq_error_iff hne).mp hread).le_length
    rw [ofGlyphs_flatMap_append instructions hne hread]
    refine ⟨hfound, ?_⟩
    rintro error ⟨⟩
    rw [List.length_append]
    exact Nat.add_le_add_left hle _

end Reading

namespace Lexeme

theorem byteOffset_append_of_lt (first second : String) {position : Nat}
    (hlt : position < (Glyph.ofSource first).length) :
    byteOffset (ofSource (first ++ second)) (first ++ second) position =
      byteOffset (ofSource first) first position := by
  obtain ⟨before, after, glyph, hfirst, hcount, hoffset⟩ :=
    (standsAt_byteOffset first position (Nat.le_of_lt hlt)).exists_glyph hlt
  have hsplit : first ++ second =
      before ++ (String.singleton glyph.toChar ++ (after ++ second)) := by
    rw [hfirst]
    simp only [String.append_assoc]
  have hplace := standsAt_glyph before (after ++ second) glyph
  rw [← hsplit, hcount, hoffset] at hplace
  refine (standsAt_byteOffset _ position ?_).unique hplace
  rw [Glyph.ofSource_append, List.length_append]
  omega

theorem byteOffset_append_add (first second : String) {position : Nat}
    (hle : position ≤ (Glyph.ofSource second).length) :
    byteOffset (ofSource (first ++ second)) (first ++ second)
        ((Glyph.ofSource first).length + position) =
      first.utf8ByteSize + byteOffset (ofSource second) second position := by
  refine (standsAt_byteOffset _ _ ?_).unique
    ((standsAt_byteOffset second position hle).append_left first)
  rw [Glyph.ofSource_append, List.length_append]
  exact Nat.add_le_add_left hle _

end Lexeme

namespace Reading

theorem mapOffset_followedBy {first second : Reading} {length bytes : Nat}
    {offset firstOffset secondOffset : Nat → Nat} {last : Nat} (hsecond : second.Within last)
    (hfound : ∀ located ∈ first.found, offset located.offset = firstOffset located.offset)
    (hoffset : ∀ position ≤ last, offset (length + position) = bytes + secondOffset position) :
    (first.followedBy length second).mapOffset offset =
      (first.mapOffset firstOffset).followedBy bytes (second.mapOffset secondOffset) := by
  have hfirst : first.found.map (fun located => { located with offset := offset located.offset }) =
      first.found.map fun located => { located with offset := firstOffset located.offset } := by
    apply Array.map_congr_left
    intro located hmem
    rw [hfound located hmem]
  have hshifted : (second.found.map (Located.shift length)).map
        (fun located => { located with offset := offset located.offset }) =
      (second.found.map fun located => { located with offset := secondOffset located.offset }).map
        (Located.shift bytes) := by
    rw [Array.map_map, Array.map_map]
    apply Array.map_congr_left
    intro located hmem
    simp only [Function.comp_apply, Located.shift,
      hoffset _ (Nat.le_of_lt (hsecond.found located hmem))]
  have herror : (second.error.map (SourceError.shift first.found.size length)).map
        (fun error => { error with offset := offset error.offset }) =
      (second.error.map fun error => { error with offset := secondOffset error.offset }).map
        (SourceError.shift first.found.size bytes) := by
    rw [Option.map_map, Option.map_map]
    apply Option.map_congr
    intro error hmem
    simp only [Function.comp_apply, SourceError.shift, hoffset _ (hsecond.error error hmem)]
  simp only [mapOffset, followedBy, Array.map_append, hfirst, hshifted, herror, Array.size_map]

theorem ofSource_append {first : String} {program : Program}
    (hfirst : Program.ofSource first = .ok program) (second : String) :
    ofSource (first ++ second) =
      (ofSource first).followedBy first.utf8ByteSize (ofSource second) := by
  have hglyphs : Glyph.ofSource first = program.toList.flatMap Instruction.glyphs :=
    Program.ofSource_eq_ok_iff.mp hfirst
  rw [ofSource_eq, ofSource_eq first, ofSource_eq second, Glyph.ofSource_append, hglyphs,
    ofGlyphs_append]
  refine mapOffset_followedBy (within_ofGlyphs _) ?_ ?_
  · intro located hmem
    have hlt := (within_ofGlyphs _).found located hmem
    rw [← hglyphs] at hlt
    exact Lexeme.byteOffset_append_of_lt first second hlt
  · intro position hle
    rw [← hglyphs]
    exact Lexeme.byteOffset_append_add first second hle

theorem program_ofSource {source : String} {program : Program}
    (h : Program.ofSource source = .ok program) :
    (ofSource source).found.map Located.instruction = program := by
  unfold Program.ofSource Reading.program at h
  split at h
  · exact Except.ok.inj h
  · cases h

end Reading

/-- Of two texts one behind the other, the first of which is a program, the whole is the two programs one
behind the other if the second text is a program, and is refused with the error of the second text if it
is not, the index counted on by the instructions and the offset by the bytes of the first. -/
theorem Program.texts_are_read_in_turn {first : String} {program : Program}
    (hfirst : ofSource first = .ok program) (second : String) :
    ofSource (first ++ second) =
      match ofSource second with
      | .ok rest => .ok (program ++ rest)
      | .error error => .error { error with
          index := error.index + program.size
          offset := error.offset + first.utf8ByteSize } := by
  have hprogram := Reading.program_ofSource hfirst
  rw [ofSource, Reading.ofSource_append hfirst, ofSource, Reading.program, Reading.program,
    Reading.followedBy]
  cases (Reading.ofSource second).error with
  | none =>
    simp only [Option.map_none, Array.map_append, Array.map_map, hprogram]
    rfl
  | some error =>
    simp only [Option.map_some, SourceError.shift, ← hprogram, Array.size_map,
      Nat.add_comm error.index, Nat.add_comm error.offset]

theorem Program.texts_are_read_in_turn_unclosed_push :
    ofSource "  \t\né" = .ok #[.stack (.push ⟨true, []⟩)] ∧
      ofSource "  é" = .error ⟨0, 4, .unterminated (.stack (.push ()))⟩ ∧
      ofSource ("  \t\né" ++ "  é") = .error ⟨1, 10, .unterminated (.stack (.push ()))⟩ := by
  have hfirst : ofSource "  \t\né" = .ok #[.stack (.push ⟨true, []⟩)] :=
    ofSource_eq_ok_iff.mpr (by decide)
  have hsecond : ofSource "  é" = .error ⟨0, 4, .unterminated (.stack (.push ()))⟩ :=
    @ofSource_of_failure "  é" [] [.space, .space] 2 _ (by decide) rfl (by decide)
  refine ⟨hfirst, hsecond, ?_⟩
  have h := texts_are_read_in_turn hfirst "  é"
  rw [hsecond] at h
  exact h

end Whitespace
