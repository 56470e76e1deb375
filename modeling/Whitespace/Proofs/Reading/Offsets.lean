import Whitespace.Reading

/-!
Byte offsets of glyphs. `Lexeme.byteOffset` counts a source's bytes up to the glyph it is asked for;
`StandsAt` says the same of a place without scanning: the text before it holds so many glyphs and so
many bytes, and the text after it begins with a glyph or is empty.
-/

namespace Whitespace.Lexeme

/-- The glyph number `position` of a source stands at byte `offset`, where the source ends if no glyph
is left. -/
def StandsAt (source : String) (position offset : Nat) : Prop :=
  ∃ before after : String,
    source = before ++ after ∧ (Glyph.ofSource before).length = position ∧
      before.utf8ByteSize = offset ∧ ∀ c ∈ after.toList.head?, (Glyph.ofChar? c).isSome

private def listFrom (offset : Nat) : List Char → List Lexeme
  | [] => []
  | c :: rest =>
    match Glyph.ofChar? c with
    | some glyph => ⟨glyph, offset⟩ :: listFrom (offset + c.utf8Size) rest
    | none => listFrom (offset + c.utf8Size) rest

private theorem toList_scan (offset : Nat) (found : Array Lexeme) (text : List Char) :
    (scan offset found text).toList = found.toList ++ listFrom offset text := by
  induction text generalizing offset found with
  | nil => simp [scan, listFrom]
  | cons c rest ih =>
    cases h : Glyph.ofChar? c <;> simp [scan, listFrom, h, ih]

private theorem utf8ByteSize_ofList_cons (c : Char) (text : List Char) :
    (String.ofList (c :: text)).utf8ByteSize =
      c.utf8Size + (String.ofList text).utf8ByteSize := by
  rw [String.ofList_cons, String.utf8ByteSize_append, String.utf8ByteSize_singleton]

private theorem exists_split (text : List Char) (offset : Nat) {position : Nat}
    (hposition : position ≤ (text.filterMap Glyph.ofChar?).length) :
    ∃ before after : List Char,
      text = before ++ after ∧ (before.filterMap Glyph.ofChar?).length = position ∧
        (∀ c ∈ after.head?, (Glyph.ofChar? c).isSome) ∧
        (match (listFrom offset text)[position]? with
          | some lexeme => lexeme.offset
          | none => offset + (String.ofList text).utf8ByteSize) =
          offset + (String.ofList before).utf8ByteSize := by
  induction text generalizing offset position with
  | nil =>
    have hzero : position = 0 := by simpa using hposition
    exact ⟨[], [], by simp [hzero, listFrom]⟩
  | cons c rest ih =>
    cases hglyph : Glyph.ofChar? c with
    | none =>
      rw [List.filterMap_cons_none hglyph] at hposition
      obtain ⟨before, after, rfl, hcount, hafter, hoffset⟩ := ih (offset + c.utf8Size) hposition
      refine ⟨c :: before, after, rfl, ?_, hafter, ?_⟩
      · rw [List.filterMap_cons_none hglyph, hcount]
      · simp only [listFrom, hglyph, utf8ByteSize_ofList_cons, ← Nat.add_assoc]
        exact hoffset
    | some glyph =>
      cases position with
      | zero => exact ⟨[], c :: rest, by simp [hglyph, listFrom]⟩
      | succ position =>
        have hrest : position ≤ (rest.filterMap Glyph.ofChar?).length := by
          rw [List.filterMap_cons_some hglyph, List.length_cons] at hposition
          omega
        obtain ⟨before, after, rfl, hcount, hafter, hoffset⟩ := ih (offset + c.utf8Size) hrest
        refine ⟨c :: before, after, rfl, ?_, hafter, ?_⟩
        · rw [List.filterMap_cons_some hglyph, List.length_cons, hcount]
        · simp only [listFrom, hglyph, utf8ByteSize_ofList_cons, ← Nat.add_assoc,
            List.getElem?_cons_succ]
          exact hoffset

theorem standsAt_byteOffset (source : String) (position : Nat)
    (hposition : position ≤ (Glyph.ofSource source).length) :
    StandsAt source position (byteOffset (ofSource source) source position) := by
  obtain ⟨before, after, htext, hcount, hafter, hoffset⟩ := exists_split source.toList 0 hposition
  have hlist : ofSource source = (listFrom 0 source.toList).toArray := by
    apply Array.ext'
    simp [ofSource, toList_scan]
  refine ⟨String.ofList before, String.ofList after, ?_, ?_, ?_, ?_⟩
  · rw [← String.ofList_append, ← htext, String.ofList_toList]
  · simpa [Glyph.ofSource] using hcount
  · simp only [String.ofList_toList, Nat.zero_add] at hoffset
    rw [byteOffset, hlist, List.getElem?_toArray]
    exact hoffset.symm
  · simpa using hafter

private theorem eq_of_begins {before before' after : List Char}
    (hbegins : before <+: before')
    (hcount : (before.filterMap Glyph.ofChar?).length = (before'.filterMap Glyph.ofChar?).length)
    (hafter : ∀ c ∈ after.head?, (Glyph.ofChar? c).isSome)
    (hsplit : ∃ after', before ++ after = before' ++ after') : before = before' := by
  obtain ⟨between, rfl⟩ := hbegins
  obtain ⟨after', hsplit⟩ := hsplit
  rw [List.append_assoc, List.append_cancel_left_eq] at hsplit
  cases between with
  | nil => rw [List.append_nil]
  | cons c between =>
    have hc : (Glyph.ofChar? c).isSome := hafter c (by simp [hsplit])
    obtain ⟨glyph, hglyph⟩ := Option.isSome_iff_exists.mp hc
    simp [List.filterMap_append, hglyph] at hcount

theorem StandsAt.unique {source : String} {position first second : Nat}
    (hfirst : StandsAt source position first) (hsecond : StandsAt source position second) :
    first = second := by
  obtain ⟨before, after, hsplit, hcount, rfl, hafter⟩ := hfirst
  obtain ⟨before', after', hsplit', hcount', rfl, hafter'⟩ := hsecond
  have htext : before.toList ++ after.toList = before'.toList ++ after'.toList := by
    rw [← String.toList_append, ← String.toList_append, ← hsplit, ← hsplit']
  have hsame := hcount.trans hcount'.symm
  simp only [Glyph.ofSource] at hsame
  have hbegins : before.toList <+: before'.toList ∨ before'.toList <+: before.toList :=
    List.prefix_or_prefix_of_prefix ⟨_, htext⟩ ⟨_, rfl⟩
  have hbefore : before = before' := by
    apply String.toList_inj.mp
    rcases hbegins with hbegins | hbegins
    · exact eq_of_begins hbegins hsame hafter ⟨_, htext⟩
    · exact (eq_of_begins hbegins hsame.symm hafter' ⟨_, htext.symm⟩).symm
  rw [hbefore]

theorem StandsAt.lt {source : String} {position position' offset offset' : Nat}
    (hfirst : StandsAt source position offset) (hsecond : StandsAt source position' offset')
    (hlt : position < position') : offset < offset' := by
  obtain ⟨before, after, hsplit, rfl, rfl, -⟩ := hfirst
  obtain ⟨before', after', hsplit', rfl, rfl, -⟩ := hsecond
  have htext : before.toList ++ after.toList = before'.toList ++ after'.toList := by
    rw [← String.toList_append, ← String.toList_append, ← hsplit, ← hsplit']
  rcases List.prefix_or_prefix_of_prefix ⟨_, htext⟩ ⟨_, rfl⟩ with hbegins | hbegins
  · obtain ⟨between, hbetween⟩ := hbegins
    have hbefore' : before' = before ++ String.ofList between := by
      rw [← String.toList_inj, String.toList_append, String.toList_ofList, hbetween]
    -- Were there nothing between the places, they would have as many glyphs before them.
    cases between with
    | nil =>
      rw [hbefore', String.ofList_nil, String.append_empty] at hlt
      exact absurd hlt (Nat.lt_irrefl _)
    | cons c between =>
      have hpos := c.utf8Size_pos
      rw [hbefore', String.utf8ByteSize_append, utf8ByteSize_ofList_cons]
      omega
  · have hle := (hbegins.filterMap Glyph.ofChar?).length_le
    exact absurd hlt (Nat.not_lt.mpr hle)

theorem standsAt_glyph (before after : String) (glyph : Glyph) :
    StandsAt (before ++ (String.singleton glyph.toChar ++ after)) (Glyph.ofSource before).length
      before.utf8ByteSize := by
  refine ⟨before, String.singleton glyph.toChar ++ after, rfl, rfl, rfl, ?_⟩
  intro c hc
  obtain rfl : glyph.toChar = c := by simpa using hc
  rw [Glyph.ofChar?_toChar]
  rfl

theorem StandsAt.exists_glyph {source : String} {position offset : Nat}
    (h : StandsAt source position offset) (hlt : position < (Glyph.ofSource source).length) :
    ∃ (before after : String) (glyph : Glyph),
      source = before ++ (String.singleton glyph.toChar ++ after) ∧
        (Glyph.ofSource before).length = position ∧ before.utf8ByteSize = offset := by
  obtain ⟨before, after, rfl, rfl, rfl, hafter⟩ := h
  cases hrest : after.toList with
  | nil =>
    obtain rfl : after = "" := String.toList_inj.mp (by rw [hrest]; rfl)
    rw [String.append_empty] at hlt
    exact absurd hlt (Nat.lt_irrefl _)
  | cons c rest =>
    obtain ⟨glyph, hc⟩ := Option.isSome_iff_exists.mp (hafter c (by rw [hrest]; rfl))
    have hcons : after = String.singleton glyph.toChar ++ String.ofList rest := by
      rw [Glyph.toChar_of_ofChar? hc, ← String.toList_inj, hrest, String.toList_append,
        String.toList_singleton, String.toList_ofList]
      rfl
    exact ⟨before, String.ofList rest, glyph, by rw [hcons], rfl, rfl⟩

theorem StandsAt.append_left {source : String} {position offset : Nat}
    (h : StandsAt source position offset) (text : String) :
    StandsAt (text ++ source) ((Glyph.ofSource text).length + position)
      (text.utf8ByteSize + offset) := by
  obtain ⟨before, after, rfl, rfl, rfl, hafter⟩ := h
  exact ⟨text ++ before, after, (String.append_assoc).symm, by simp, by simp, hafter⟩

end Whitespace.Lexeme
