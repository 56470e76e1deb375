import Whitespace.CommandLine.Origin
import Whitespace.Proofs.Reading.Comments

/-!
Where a text is refused. The glyphs of a text that is no program cannot be read on from some glyph, and
the error tells the place of that glyph. In a source the place is counted in bytes. A text in letters is
made into a bare source first, so there it is counted in letters, and it falls short of the bytes by those
of the comments that stand before it (`Glyph.utf8ByteSize_eq`).
-/

namespace Whitespace

/-- The error of glyphs that cannot be read on: behind as many whole encodings as its index says there
is what explains its cause, and the failing marker or literal begins with glyph number `position`. -/
def SourceError.ArisesAt (error : SourceError) (run : List Glyph) (position : Nat) : Prop :=
  ∃ (encodings : List (List Glyph)) (rest : List Glyph) (before : Nat),
    (∀ encoding ∈ encodings, IsEncoding encoding) ∧ run = encodings.flatten ++ rest ∧
      error.cause.Explains rest before ∧ error.index = encodings.length ∧
      position = encodings.flatten.length + before

def Glyph.comments (text : String) : String :=
  String.ofList (text.toList.filter fun c => c ≠ 'S' ∧ c ≠ 'T' ∧ c ≠ 'L')

theorem SourceError.ArisesAt.le_length {error : SourceError} {run : List Glyph} {position : Nat}
    (h : error.ArisesAt run position) : position ≤ run.length := by
  obtain ⟨encodings, rest, before, -, rfl, hexplains, -, rfl⟩ := h
  rw [List.length_append]
  exact Nat.add_le_add_left hexplains.le_length _

namespace Glyph

theorem ofLetter?_eq_none_iff {c : Char} : ofLetter? c = none ↔ c ≠ 'S' ∧ c ≠ 'T' ∧ c ≠ 'L' := by
  unfold ofLetter?
  split <;> simp_all

theorem utf8Size_of_ofLetter? {c : Char} {glyph : Glyph} (h : ofLetter? c = some glyph) :
    c.utf8Size = 1 := by
  unfold ofLetter? at h
  split at h <;> cases h <;> rfl

theorem utf8ByteSize_eq (text : String) :
    text.utf8ByteSize = (ofLetters text).length + (comments text).utf8ByteSize := by
  rw [ofLetters, comments, ← String.ofList_toList (s := text), String.toList_ofList]
  induction text.toList with
  | nil => rfl
  | cons c rest ih =>
    rw [String.ofList_cons, String.utf8ByteSize_append, String.utf8ByteSize_singleton, ih]
    cases hletter : ofLetter? c with
    | none =>
      have hcomment := ofLetter?_eq_none_iff.mp hletter
      rw [List.filterMap_cons_none hletter, List.filter_cons_of_pos (by simpa using hcomment),
        String.ofList_cons, String.utf8ByteSize_append, String.utf8ByteSize_singleton]
      omega
    | some glyph =>
      have hcomment : ¬ (c ≠ 'S' ∧ c ≠ 'T' ∧ c ≠ 'L') := by
        rw [← ofLetter?_eq_none_iff, hletter]
        exact Option.some_ne_none glyph
      rw [List.filterMap_cons_some hletter, List.filter_cons_of_neg (by simpa using hcomment),
        utf8Size_of_ofLetter? hletter, List.length_cons]
      omega

end Glyph

namespace Program

theorem ofSource_eq_error_iff_arisesAt {source : String} {error : SourceError} :
    ofSource source = .error error ↔
      ∃ position, error.ArisesAt (Glyph.ofSource source) position ∧
        Lexeme.StandsAt source position error.offset := by
  rw [ofSource_eq_error_iff]
  constructor
  · rintro ⟨encodings, rest, before, hencodings, hsource, hexplains, hindex, hplace⟩
    exact ⟨_, ⟨encodings, rest, before, hencodings, hsource, hexplains, hindex, rfl⟩, hplace⟩
  · rintro ⟨_, ⟨encodings, rest, before, hencodings, hsource, hexplains, hindex, rfl⟩, hplace⟩
    exact ⟨encodings, rest, before, hencodings, hsource, hexplains, hindex, hplace⟩

theorem ofSource_source_eq_error_iff {run : List Glyph} {error : SourceError} :
    ofSource (Glyph.source run) = .error error ↔ error.ArisesAt run error.offset := by
  rw [ofSource_eq_error_iff_arisesAt, Glyph.ofSource_source]
  constructor
  · rintro ⟨position, harises, hplace⟩
    rwa [hplace.unique (Lexeme.standsAt_source harises.le_length)]
  · intro harises
    exact ⟨_, harises, Lexeme.standsAt_source harises.le_length⟩

end Program

namespace CommandLine.Origin

def glyph? (origin : Origin) : Char → Option Glyph :=
  if origin.letters then Glyph.ofLetter? else Glyph.ofChar?

def glyphs (origin : Origin) (text : String) : List Glyph := text.toList.filterMap origin.glyph?

/-- Glyph number `position` of the text comes right behind `before`, which is the whole text if no glyph
is left. -/
def StandsBehind (origin : Origin) (text : String) (position : Nat) (before : String) : Prop :=
  ∃ after : String, text = before ++ after ∧ (origin.glyphs before).length = position ∧
    ∀ c ∈ after.toList.head?, (origin.glyph? c).isSome

section

variable {origin : Origin} {environment : Environment} {text : String}

theorem glyphs_of_letters (h : origin.letters = true) (text : String) :
    origin.glyphs text = Glyph.ofLetters text := by
  rw [glyphs, glyph?, if_pos h, Glyph.ofLetters]

theorem glyphs_of_source (h : origin.letters = false) (text : String) :
    origin.glyphs text = Glyph.ofSource text := by
  rw [glyphs, glyph?, h]
  rfl

theorem exists_standsBehind {position : Nat} (hle : position ≤ (origin.glyphs text).length) :
    ∃ before, origin.StandsBehind text position before := by
  cases hrest : (origin.glyphs text).drop position with
  | nil =>
    refine ⟨text, "", (String.append_empty).symm, ?_, by simp⟩
    exact Nat.le_antisymm (List.drop_eq_nil_iff.mp hrest) hle
  | cons glyph rest =>
    have hsplit := List.take_append_drop position (origin.glyphs text)
    rw [hrest, glyphs, eq_comm, List.filterMap_eq_append_iff] at hsplit
    obtain ⟨first, second, htext, hfirst, hsecond⟩ := hsplit
    -- Between the glyphs before the place and the place itself there may be comments.
    obtain ⟨between, c, after, rfl, hbetween, hc, -⟩ := List.filterMap_eq_cons_iff.mp hsecond
    refine ⟨String.ofList (first ++ between), String.ofList (c :: after), ?_, ?_, ?_⟩
    · rw [← String.ofList_append, List.append_assoc, ← htext, String.ofList_toList]
    · rw [glyphs, String.toList_ofList, List.filterMap_append, hfirst,
        List.filterMap_eq_nil_iff.mpr hbetween, List.append_nil, ← glyphs,
        List.length_take_of_le hle]
    · intro d hd
      obtain rfl : c = d := by simpa using hd
      rw [hc]
      rfl

theorem standsAt_iff_exists_standsBehind (h : origin.letters = false) {position offset : Nat} :
    Lexeme.StandsAt text position offset ↔
      ∃ before, origin.StandsBehind text position before ∧ offset = before.utf8ByteSize := by
  have hglyph : origin.glyph? = Glyph.ofChar? := by
    rw [glyph?, h]
    rfl
  simp only [StandsBehind, glyphs_of_source h, hglyph]
  constructor
  · rintro ⟨before, after, htext, hcount, rfl, hafter⟩
    exact ⟨before, ⟨after, htext, hcount, hafter⟩, rfl⟩
  · rintro ⟨before, ⟨after, htext, hcount, hafter⟩, rfl⟩
    exact ⟨before, after, htext, hcount, rfl, hafter⟩

theorem load_eq_source_error_iff (h : origin.content environment = .ok text) {error : SourceError} :
    origin.load environment = .error (.source error) ↔
      Program.ofSource (if origin.letters then sourceOfLetters text else text) = .error error := by
  have hsource : origin.source environment =
      .ok (if origin.letters then sourceOfLetters text else text) := by
    rw [source, h]
    rfl
  rw [load_of_source hsource]
  cases Program.ofSource (if origin.letters then sourceOfLetters text else text) with
  | ok program => simp [Except.mapError]
  | error found => simp [Except.mapError]

/-- A text is refused at the glyph that its glyphs cannot be read on from; in letters the error gives the
number of that glyph, in a source the number of bytes before it. -/
theorem load_eq_error_iff_arisesAt (h : origin.content environment = .ok text)
    {error : SourceError} :
    origin.load environment = .error (.source error) ↔
      ∃ position before, error.ArisesAt (origin.glyphs text) position ∧
        origin.StandsBehind text position before ∧
        error.offset = if origin.letters then position else before.utf8ByteSize := by
  rw [load_eq_source_error_iff h]
  cases hletters : origin.letters with
  | true =>
    rw [if_pos rfl, sourceOfLetters, Program.ofSource_source_eq_error_iff, glyphs_of_letters hletters]
    constructor
    · intro harises
      rw [← glyphs_of_letters hletters] at harises
      obtain ⟨before, hbefore⟩ := exists_standsBehind harises.le_length
      exact ⟨_, before, by rwa [← glyphs_of_letters hletters], hbefore, rfl⟩
    · rintro ⟨position, before, harises, -, hoffset⟩
      rw [if_pos rfl] at hoffset
      rwa [hoffset]
  | false =>
    rw [if_neg Bool.false_ne_true, Program.ofSource_eq_error_iff_arisesAt,
      glyphs_of_source hletters]
    simp only [standsAt_iff_exists_standsBehind hletters]
    constructor
    · rintro ⟨position, harises, before, hbefore, hoffset⟩
      exact ⟨position, before, harises, hbefore, hoffset⟩
    · rintro ⟨position, before, harises, hbefore, hoffset⟩
      exact ⟨position, harises, before, hbefore, hoffset⟩

theorem utf8ByteSize_of_standsBehind (h : origin.letters = true) {position : Nat} {before : String}
    (hbefore : origin.StandsBehind text position before) :
    before.utf8ByteSize = position + (Glyph.comments before).utf8ByteSize := by
  obtain ⟨after, -, rfl, -⟩ := hbefore
  rw [glyphs_of_letters h]
  exact Glyph.utf8ByteSize_eq before

/-- A text is refused at the glyph where the failing marker or literal begins, or at its end if no glyph
is left. The offset of the error is the number of bytes before that place if the text is a source. If the
text is in letters, it is the number of letters before the place; it falls short of the bytes by those of
the comments among them, and so tells the place in the text if and only if no comment stands before it. -/
theorem refused_text_tells_place (hcontent : origin.content environment = .ok text) :
    (∀ error, origin.load environment = .error (.source error) ↔
      ∃ position before, error.ArisesAt (origin.glyphs text) position ∧
        origin.StandsBehind text position before ∧
        error.offset = if origin.letters then position else before.utf8ByteSize) ∧
      (origin.letters = true → ∀ position before, origin.StandsBehind text position before →
        before.utf8ByteSize = position + (Glyph.comments before).utf8ByteSize ∧
          (position = before.utf8ByteSize ↔ Glyph.comments before = "")) := by
  refine ⟨fun error => load_eq_error_iff_arisesAt hcontent, fun hletters position before hbefore => ?_⟩
  have hbytes := utf8ByteSize_of_standsBehind hletters hbefore
  refine ⟨hbytes, ?_⟩
  rw [← String.utf8ByteSize_eq_zero_iff]
  omega

/-- A push in letters, then a push that nothing closes: there are six letters and eleven bytes before the
end of the text, where its literal is missing. -/
theorem refused_text_tells_place_unclosed_push :
    let environment : Environment := { files := fun _ => .error .notFound }
    let origin : Origin := { text := some "SSTL é SS!", letters := true }
    origin.content environment = .ok "SSTL é SS!" ∧
      origin.load environment = .error (.source ⟨1, 6, .unterminated (.stack (.push ()))⟩) ∧
      origin.StandsBehind "SSTL é SS!" 6 "SSTL é SS!" ∧ "SSTL é SS!".utf8ByteSize = 11 ∧
      6 ≠ "SSTL é SS!".utf8ByteSize := by
  intro environment origin
  have hcontent : origin.content environment = .ok "SSTL é SS!" := rfl
  have hplace : origin.StandsBehind "SSTL é SS!" 6 "SSTL é SS!" := ⟨"", rfl, by decide, by simp⟩
  have hpush : Opcode.HasMarkers (.stack (.push ())) [.space, .space] :=
    ⟨[.space], [.space], rfl, by decide, by decide⟩
  have hencoding : IsEncoding ([.space, .space] ++ ([.tab] ++ [.lineFeed])) :=
    .withLiteral hpush rfl (by decide) (by decide)
  have harises : SourceError.ArisesAt ⟨1, 6, .unterminated (.stack (.push ()))⟩
      (origin.glyphs "SSTL é SS!") 6 :=
    ⟨[[.space, .space, .tab, .lineFeed]], [.space, .space], 2, by simpa using hencoding, by decide,
      ⟨[.space, .space], [], rfl, hpush, rfl, by decide, rfl⟩, rfl, rfl⟩
  obtain ⟨hload, hoffset⟩ := refused_text_tells_place hcontent
  obtain ⟨-, hiff⟩ := hoffset rfl 6 _ hplace
  exact ⟨hcontent, (hload _).mpr ⟨6, _, harises, hplace, rfl⟩, hplace, by decide,
    mt hiff.mp (by decide)⟩

/-- Behind a comment of two bytes a lone `T` is refused at offset zero. -/
theorem offset_of_commented_letter :
    let environment : Environment := { files := fun _ => .error .notFound }
    let origin : Origin := { text := some "# T", letters := true }
    origin.load environment = .error (.source ⟨0, 0, .unknownCategory [.tab]⟩) ∧
      origin.StandsBehind "# T" 0 "# " ∧ "# ".utf8ByteSize = 2 := by
  intro environment origin
  have hcontent : origin.content environment = .ok "# T" := rfl
  have hplace : origin.StandsBehind "# T" 0 "# " := by
    refine ⟨"T", rfl, by decide, ?_⟩
    intro c hc
    obtain rfl : 'T' = c := Option.some.inj hc
    rfl
  refine ⟨(load_eq_source_error_iff hcontent).mpr ?_, hplace, by decide⟩
  exact Program.ofSource_source_eq_error_iff.mpr
    ⟨[], [.tab], 0, by simp, by decide, ⟨rfl, rfl, rfl⟩, rfl, rfl⟩

end

end CommandLine.Origin

end Whitespace
