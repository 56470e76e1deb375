import Whitespace.Proofs.Reading.Grammar

/-!
Comments. The bare text of a source is what is left of it when it is written in letters and back. A source
and its bare text hold the same glyphs, so they are read alike; the only thing that comments move is the
byte offset of an error, which stays at the same glyph.
-/

namespace Whitespace

theorem Glyph.utf8ByteSize_source (run : List Glyph) :
    (Glyph.source run).utf8ByteSize = run.length := by
  induction run with
  | nil => rfl
  | cons glyph rest ih =>
    have hone : glyph.toChar.utf8Size = 1 := by cases glyph <;> rfl
    rw [Glyph.source, List.map_cons, String.ofList_cons, String.utf8ByteSize_append,
      String.utf8ByteSize_singleton, ← Glyph.source, ih, hone, List.length_cons, Nat.add_comm]

namespace Lexeme

theorem size_ofSource (source : String) : (ofSource source).size = (Glyph.ofSource source).length := by
  rw [← map_glyph_ofSource, List.length_map, Array.length_toList]

theorem byteOffset_of_getElem? {source : String} {position : Nat} {lexeme : Lexeme}
    (h : (ofSource source)[position]? = some lexeme) :
    byteOffset (ofSource source) source position = lexeme.offset := by
  rw [byteOffset, h]

theorem standsAt_of_getElem? {source : String} {position : Nat} {lexeme : Lexeme}
    (h : (ofSource source)[position]? = some lexeme) :
    StandsAt source position lexeme.offset := by
  have hlt := (Array.getElem?_eq_some_iff.mp h).1
  rw [size_ofSource] at hlt
  have hplace := standsAt_byteOffset source position (Nat.le_of_lt hlt)
  rwa [byteOffset_of_getElem? h] at hplace

theorem exists_split_of_getElem? {source : String} {position : Nat} {lexeme : Lexeme}
    (h : (ofSource source)[position]? = some lexeme) :
    ∃ before after : String, source = before ++ String.singleton lexeme.glyph.toChar ++ after ∧
      (Glyph.ofSource before).length = position ∧ before.utf8ByteSize = lexeme.offset := by
  have hglyph : (Glyph.ofSource source)[position]? = some lexeme.glyph := by
    rw [← map_glyph_ofSource, List.getElem?_map, Array.getElem?_toList, h]
    rfl
  obtain ⟨before, after, glyph, rfl, rfl, hoffset⟩ :=
    (standsAt_of_getElem? h).exists_glyph (List.getElem?_eq_some_iff.mp hglyph).1
  have hsame : glyph = lexeme.glyph := by simpa [Glyph.ofSource] using hglyph
  exact ⟨before, after, by rw [hsame, String.append_assoc], rfl, hoffset⟩

theorem pairwise_offset_ofSource (source : String) :
    (ofSource source).toList.Pairwise fun first second => first.offset < second.offset := by
  rw [List.pairwise_iff_getElem]
  intro first second hfirst hsecond hlt
  exact (standsAt_of_getElem? (Array.getElem?_eq_getElem hfirst)).lt
    (standsAt_of_getElem? (Array.getElem?_eq_getElem hsecond)) hlt

theorem standsAt_source {run : List Glyph} {position : Nat} (hle : position ≤ run.length) :
    StandsAt (Glyph.source run) position position := by
  refine ⟨Glyph.source (run.take position), Glyph.source (run.drop position), ?_, ?_, ?_, ?_⟩
  · simp only [Glyph.source]
    rw [← String.ofList_append, ← List.map_append, List.take_append_drop]
  · rw [Glyph.ofSource_source, List.length_take_of_le hle]
  · rw [Glyph.utf8ByteSize_source, List.length_take_of_le hle]
  · intro c hc
    simp only [Glyph.source, String.toList_ofList, List.head?_map, Option.mem_def,
      Option.map_eq_some_iff] at hc
    obtain ⟨glyph, -, rfl⟩ := hc
    rw [Glyph.ofChar?_toChar]
    rfl

/-- A byte of a source answers to a byte of its bare text: counted from zero, the glyph that stands at the
one has the other for its number, or both texts end. -/
def AnswersTo (source bare : String) (offset bareOffset : Nat) : Prop :=
  (∃ lexeme, (ofSource source)[bareOffset]? = some lexeme ∧ offset = lexeme.offset) ∨
    bareOffset = bare.utf8ByteSize ∧ offset = source.utf8ByteSize

theorem answersTo_byteOffset (source : String) {position : Nat}
    (hle : position ≤ (Glyph.ofSource source).length) :
    AnswersTo source (Glyph.source (Glyph.ofSource source))
      (byteOffset (ofSource source) source position) position := by
  cases hlexeme : (ofSource source)[position]? with
  | some lexeme => exact .inl ⟨lexeme, hlexeme, byteOffset_of_getElem? hlexeme⟩
  | none =>
    have hge := Array.getElem?_eq_none_iff.mp hlexeme
    rw [size_ofSource] at hge
    refine .inr ⟨?_, by rw [byteOffset, hlexeme]⟩
    rw [Glyph.utf8ByteSize_source]
    exact Nat.le_antisymm hle hge

end Lexeme

theorem Program.exists_position_of_error {first second : String}
    (hglyphs : Glyph.ofSource first = Glyph.ofSource second) {error : SourceError}
    (herror : ofSource first = .error error) :
    ∃ position ≤ (Glyph.ofSource second).length, Lexeme.StandsAt first position error.offset ∧
      ofSource second =
        .error { error with
          offset := Lexeme.byteOffset (Lexeme.ofSource second) second position } := by
  obtain ⟨encodings, rest, before, hencodings, hsplit, hexplains, hindex, hplace⟩ :=
    ofSource_eq_error_iff.mp herror
  rw [hglyphs] at hsplit
  have hle : encodings.flatten.length + before ≤ (Glyph.ofSource second).length := by
    rw [hsplit, List.length_append]
    exact Nat.add_le_add_left hexplains.le_length _
  exact ⟨_, hle, hplace, ofSource_eq_error_iff.mpr ⟨encodings, rest, before, hencodings, hsplit,
    hexplains, hindex, Lexeme.standsAt_byteOffset second _ hle⟩⟩

/-- Comments move offsets and nothing else. Through letters and back a source loses all characters but
its glyphs; its lexemes are the glyphs of what is left, in order, each with the place of that glyph in
the source. Both texts are read as the same program or refused with the same error, up to the offset,
which in the source is that of the same glyph. -/
theorem comments_move_offsets_only (source : String) :
    let bare := sourceOfLetters (lettersOfSource source)
    let lexemes := Lexeme.ofSource source
    bare = String.ofList (source.toList.filter fun c => c = ' ' ∨ c = '\t' ∨ c = '\n') ∧
      lexemes.toList.map Lexeme.glyph = (Lexeme.ofSource bare).toList.map Lexeme.glyph ∧
      Glyph.source (lexemes.toList.map Lexeme.glyph) = bare ∧
      lexemes.toList.Pairwise (fun first second => first.offset < second.offset) ∧
      (∀ lexeme ∈ lexemes, ∃ before after : String,
        source = before ++ String.singleton lexeme.glyph.toChar ++ after ∧
          before.utf8ByteSize = lexeme.offset) ∧
      match Program.ofSource bare with
      | .ok program => Program.ofSource source = .ok program
      | .error error => ∃ offset, Program.ofSource source = .error { error with offset } ∧
          Lexeme.AnswersTo source bare offset error.offset := by
  intro bare lexemes
  have hbare : bare = Glyph.source (Glyph.ofSource source) := by
    simp [bare, sourceOfLetters, lettersOfSource]
  have hglyphs : Glyph.ofSource bare = Glyph.ofSource source :=
    ofSource_sourceOfLetters_lettersOfSource source
  refine ⟨?_, ?_, ?_, Lexeme.pairwise_offset_ofSource source, ?_, ?_⟩
  · rw [hbare, Glyph.source_ofSource]
  · rw [Lexeme.map_glyph_ofSource, Lexeme.map_glyph_ofSource, hglyphs]
  · rw [Lexeme.map_glyph_ofSource, hbare]
  · intro lexeme hmem
    obtain ⟨position, hposition⟩ := Array.mem_iff_getElem?.mp hmem
    obtain ⟨before, after, hsplit, -, hoffset⟩ := Lexeme.exists_split_of_getElem? hposition
    exact ⟨before, after, hsplit, hoffset⟩
  · cases hread : Program.ofSource bare with
    | ok program =>
      rw [Program.ofSource_eq_ok_iff, hglyphs] at hread
      exact Program.ofSource_eq_ok_iff.mpr hread
    | error error =>
      obtain ⟨position, hle, hplace, herror⟩ := Program.exists_position_of_error hglyphs hread
      have hposition : error.offset = position := by
        rw [hbare] at hplace
        exact hplace.unique (Lexeme.standsAt_source hle)
      refine ⟨_, herror, ?_⟩
      rw [hposition, hbare]
      exact Lexeme.answersTo_byteOffset source hle

end Whitespace
