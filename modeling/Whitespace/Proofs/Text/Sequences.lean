import Whitespace.Text.Utf8

/-!
UTF-8 sequences. `Spells` is the table of the sequences that there are, one case for each length, with the
code point that each stands for. Encoding a character and decoding a sequence both follow this table, so
each undoes the other, and no sequence begins with another one. A text is therefore decoded from exactly
the bytes that encode it.
-/

namespace Whitespace.Text.Utf8

theorem encode_eq_utf8EncodeChar (c : Char) : encode c = String.utf8EncodeChar c := by
  have hvalid := c.valid
  unfold encode String.utf8EncodeChar
  simp only [UInt32.isValidChar, Nat.isValidChar, Char.toNat_val] at hvalid ⊢
  grind

theorem ofNat_eq_of_eq_toNat {n : Nat} {byte : UInt8} (h : n = byte.toNat) :
    UInt8.ofNat n = byte := by
  rw [h, UInt8.ofNat_toNat]

theorem width?_eq_some_iff {lead : UInt8} {width : Nat} :
    width? lead = some width ↔
      (lead.toNat ≤ 0x7F ∧ width = 1) ∨ ((0xC2 ≤ lead.toNat ∧ lead.toNat ≤ 0xDF) ∧ width = 2) ∨
        ((0xE0 ≤ lead.toNat ∧ lead.toNat ≤ 0xEF) ∧ width = 3) ∨
        ((0xF0 ≤ lead.toNat ∧ lead.toNat ≤ 0xF4) ∧ width = 4) := by
  unfold width?
  grind

theorem seconds_iff {lead byte : UInt8} :
    seconds lead byte ↔
      (0x80 ≤ byte.toNat ∧ byte.toNat ≤ 0xBF) ∧ (lead.toNat = 0xE0 → 0xA0 ≤ byte.toNat) ∧
        (lead.toNat = 0xED → byte.toNat ≤ 0x9F) ∧ (lead.toNat = 0xF0 → 0x90 ≤ byte.toNat) ∧
        (lead.toNat = 0xF4 → byte.toNat ≤ 0x8F) := by
  simp only [seconds, Bool.and_eq_true, decide_eq_true_eq, ← UInt8.toNat_inj, UInt8.reduceToNat]
  grind

theorem continues_iff {byte : UInt8} :
    continues byte ↔ 0x80 ≤ byte.toNat ∧ byte.toNat ≤ 0xBF := by
  simp [continues]

inductive Spells : List UInt8 → Nat → Prop
  | one {a : UInt8} (ha : a.toNat ≤ 0x7F) : Spells [a] a.toNat
  | two {a b : UInt8} (ha : 0xC2 ≤ a.toNat ∧ a.toNat ≤ 0xDF) (hb : seconds a b) :
      Spells [a, b] (a.toNat % 32 * 64 + b.toNat % 64)
  | three {a b c : UInt8} (ha : 0xE0 ≤ a.toNat ∧ a.toNat ≤ 0xEF) (hb : seconds a b)
      (hc : continues c) :
      Spells [a, b, c] (a.toNat % 16 * 4096 + b.toNat % 64 * 64 + c.toNat % 64)
  | four {a b c d : UInt8} (ha : 0xF0 ≤ a.toNat ∧ a.toNat ≤ 0xF4) (hb : seconds a b)
      (hc : continues c) (hd : continues d) :
      Spells [a, b, c, d]
        (a.toNat % 8 * 262144 + b.toNat % 64 * 4096 + c.toNat % 64 * 64 + d.toNat % 64)

section Table

variable {bytes : List UInt8} {point : Nat}

theorem Spells.isValidChar (h : Spells bytes point) : point.isValidChar := by
  unfold Nat.isValidChar
  cases h with
  | one ha => omega
  | two ha hb =>
    rw [seconds_iff] at hb
    omega
  | three ha hb hc =>
    rw [seconds_iff] at hb
    rw [continues_iff] at hc
    omega
  | four ha hb hc hd =>
    rw [seconds_iff] at hb
    rw [continues_iff] at hc hd
    omega

theorem Spells.decodeSequence (h : Spells bytes point) :
    decodeSequence bytes = .ok (.ofNat point) := by
  cases h with
  | one ha => rfl
  | two ha hb => simp [Utf8.decodeSequence, hb]
  | three ha hb hc => simp [Utf8.decodeSequence, hb, hc]
  | four ha hb hc hd => simp [Utf8.decodeSequence, hb, hc, hd]

theorem Spells.width? (h : Spells bytes point) :
    ∃ lead rest, bytes = lead :: rest ∧ width? lead = some bytes.length := by
  cases h with
  | one ha => exact ⟨_, _, rfl, width?_eq_some_iff.mpr (.inl ⟨ha, rfl⟩)⟩
  | two ha hb => exact ⟨_, _, rfl, width?_eq_some_iff.mpr (.inr (.inl ⟨ha, rfl⟩))⟩
  | three ha hb hc => exact ⟨_, _, rfl, width?_eq_some_iff.mpr (.inr (.inr (.inl ⟨ha, rfl⟩)))⟩
  | four ha hb hc hd => exact ⟨_, _, rfl, width?_eq_some_iff.mpr (.inr (.inr (.inr ⟨ha, rfl⟩)))⟩

theorem Spells.congr {found : Nat} (h : Spells bytes found) (heq : found = point) :
    Spells bytes point := heq ▸ h

theorem Spells.eq_toNat_of_mem (h : Spells bytes point) {byte : UInt8} (hmem : byte ∈ bytes)
    (hlt : byte.toNat < 0x80) : point = byte.toNat := by
  cases h with
  | one ha => rw [List.mem_singleton.mp hmem]
  | two ha hb =>
    rw [seconds_iff] at hb
    simp only [List.mem_cons, List.not_mem_nil, or_false] at hmem
    rcases hmem with rfl | rfl <;> omega
  | three ha hb hc =>
    rw [seconds_iff] at hb
    rw [continues_iff] at hc
    simp only [List.mem_cons, List.not_mem_nil, or_false] at hmem
    rcases hmem with rfl | rfl | rfl <;> omega
  | four ha hb hc hd =>
    rw [seconds_iff] at hb
    rw [continues_iff] at hc hd
    simp only [List.mem_cons, List.not_mem_nil, or_false] at hmem
    rcases hmem with rfl | rfl | rfl | rfl <;> omega

theorem spells_encode (c : Char) : Spells (encode c) c.toNat := by
  have hvalid : c.toNat < 0xD800 ∨ 0xDFFF < c.toNat ∧ c.toNat < 0x110000 := c.valid
  unfold encode
  simp only
  split
  · refine (Spells.one ?_).congr ?_ <;> rw [UInt8.toNat_ofNat'] <;> omega
  split
  · refine (Spells.two ?_ ?_).congr ?_ <;>
      simp only [seconds_iff, UInt8.toNat_ofNat'] <;> omega
  split
  · refine (Spells.three ?_ ?_ ?_).congr ?_ <;>
      simp only [seconds_iff, continues_iff, UInt8.toNat_ofNat'] <;> omega
  · refine (Spells.four ?_ ?_ ?_ ?_).congr ?_ <;>
      simp only [seconds_iff, continues_iff, UInt8.toNat_ofNat'] <;> omega

theorem Spells.encode_ofNat (h : Spells bytes point) : encode (.ofNat point) = bytes := by
  have hpoint : (Char.ofNat point).toNat = point :=
    scalar?_eq_some_iff.mp (if_pos h.isValidChar)
  unfold encode
  rw [hpoint]
  cases h with
  | one ha => rw [if_pos (by omega), UInt8.ofNat_toNat]
  | two ha hb =>
    rw [seconds_iff] at hb
    rw [if_neg (by omega), if_pos (by omega)]
    simp only [List.cons.injEq, and_true]
    constructor <;> exact ofNat_eq_of_eq_toNat (by omega)
  | three ha hb hc =>
    rw [seconds_iff] at hb
    rw [continues_iff] at hc
    rw [if_neg (by omega), if_neg (by omega), if_pos (by omega)]
    simp only [List.cons.injEq, and_true]
    refine ⟨?_, ?_, ?_⟩ <;> exact ofNat_eq_of_eq_toNat (by omega)
  | four ha hb hc hd =>
    rw [seconds_iff] at hb
    rw [continues_iff] at hc hd
    rw [if_neg (by omega), if_neg (by omega), if_neg (by omega)]
    simp only [List.cons.injEq, and_true]
    refine ⟨?_, ?_, ?_, ?_⟩ <;> exact ofNat_eq_of_eq_toNat (by omega)

/-- A sequence of the length that its first byte asks for is decoded only if the table has it. -/
theorem exists_spells_of_decodeSequence {lead : UInt8} {rest : List UInt8} {c : Char}
    (hwidth : Utf8.width? lead = some (lead :: rest).length)
    (h : Utf8.decodeSequence (lead :: rest) = .ok c) :
    ∃ point, Spells (lead :: rest) point ∧ c = .ofNat point := by
  have hlength := width?_eq_some_iff.mp hwidth
  simp only [List.length_cons] at hlength
  unfold Utf8.decodeSequence at h
  split at h
  · next heq =>
    cases heq
    cases h
    simp only [List.length_nil] at hlength
    exact ⟨_, .one (by omega), rfl⟩
  · next heq =>
    cases heq
    simp only [List.length_cons, List.length_nil] at hlength
    split at h <;> cases h
    next hb => exact ⟨_, .two (by omega) hb, rfl⟩
  · next heq =>
    cases heq
    simp only [List.length_cons, List.length_nil] at hlength
    split at h
    · cases h
    · next hb =>
      split at h <;> cases h
      next hc => exact ⟨_, .three (by omega) (by simpa using hb) (by simpa using hc), rfl⟩
  · next heq =>
    cases heq
    simp only [List.length_cons, List.length_nil] at hlength
    split at h
    · cases h
    · next hb =>
      split at h
      · cases h
      · next hc =>
        split at h <;> cases h
        next hd =>
          exact ⟨_, .four (by omega) (by simpa using hb) (by simpa using hc) (by simpa using hd), rfl⟩
  · cases h

end Table

@[simp] theorem decodeSequence_encode (c : Char) : decodeSequence (encode c) = .ok c := by
  rw [(spells_encode c).decodeSequence, Char.ofNat_toNat]

theorem encode_of_decodeSequence {lead : UInt8} {rest : List UInt8} {c : Char}
    (hwidth : width? lead = some (lead :: rest).length)
    (h : decodeSequence (lead :: rest) = .ok c) : encode c = lead :: rest := by
  obtain ⟨point, hspells, rfl⟩ := exists_spells_of_decodeSequence hwidth h
  exact hspells.encode_ofNat

theorem encode_ne_nil (c : Char) : encode c ≠ [] := by
  obtain ⟨lead, rest, hencode, -⟩ := (spells_encode c).width?
  rw [hencode]
  exact List.cons_ne_nil lead rest

theorem width?_of_isPrefix {lead : UInt8} {rest : List UInt8} {c : Char}
    (h : encode c <+: lead :: rest) : width? lead = some (encode c).length := by
  obtain ⟨first, tail, hencode, hwidth⟩ := (spells_encode c).width?
  rw [hencode] at h
  rwa [← (List.cons_prefix_cons.mp h).1]

theorem encode_isPrefix_iff {lead : UInt8} {rest : List UInt8} {width : Nat} {c : Char}
    (hwidth : width? lead = some width) :
    encode c <+: lead :: rest ↔
      width ≤ (lead :: rest).length ∧ decodeSequence ((lead :: rest).take width) = .ok c := by
  constructor
  · intro hbegins
    obtain rfl := Option.some.inj (hwidth.symm.trans (width?_of_isPrefix hbegins))
    rw [← List.prefix_iff_eq_take.mp hbegins]
    exact ⟨hbegins.length_le, decodeSequence_encode c⟩
  · rintro ⟨hle, hdecode⟩
    obtain ⟨rest', htake⟩ : ∃ rest', (lead :: rest).take width = lead :: rest' := by
      obtain ⟨width, rfl⟩ := Nat.exists_eq_succ_of_ne_zero (Nat.ne_of_gt (width?_pos hwidth))
      exact ⟨rest.take width, rfl⟩
    have hlength : width = (lead :: rest').length := by
      rw [← htake, List.length_take, Nat.min_eq_left hle]
    rw [htake] at hdecode
    rw [hlength] at hwidth
    rw [encode_of_decodeSequence hwidth hdecode, ← htake]
    exact List.take_prefix width _

theorem eq_of_isPrefix_isPrefix {bytes : List UInt8} {c d : Char} (hc : encode c <+: bytes)
    (hd : encode d <+: bytes) : c = d := by
  cases bytes with
  | nil => exact absurd (List.prefix_nil.mp hc) (encode_ne_nil c)
  | cons lead rest =>
    have hwidth := width?_of_isPrefix hc
    have hdecode := ((encode_isPrefix_iff hwidth).mp hc).2
    rw [((encode_isPrefix_iff hwidth).mp hd).2] at hdecode
    exact (Except.ok.inj hdecode).symm

theorem decodeOnto?_encode_append (done : List Char) (c : Char) (bytes : List UInt8) :
    decodeOnto? done (encode c ++ bytes) = decodeOnto? (c :: done) bytes := by
  have hdecode := decodeSequence_encode c
  have htake : (encode c ++ bytes).take (encode c).length = encode c := List.take_left
  have hdrop : (encode c ++ bytes).drop (encode c).length = bytes := List.drop_left
  obtain ⟨lead, rest, hencode, hwidth⟩ := (spells_encode c).width?
  rw [hencode] at hdecode htake hdrop hwidth ⊢
  rw [List.cons_append] at htake hdrop ⊢
  rw [decodeOnto?]
  split
  · next hnone =>
    rw [hwidth] at hnone
    cases hnone
  · next width hsome =>
    obtain rfl := Option.some.inj (hwidth.symm.trans hsome)
    simp only [htake, hdrop, hdecode, if_true]

theorem decodeOnto?_flatMap_encode (done text : List Char) :
    decodeOnto? done (text.flatMap encode) = some (done.reverse ++ text) := by
  induction text generalizing done with
  | nil => rw [List.flatMap_nil, decodeOnto?, List.append_nil]
  | cons c text ih =>
    rw [List.flatMap_cons, decodeOnto?_encode_append, ih, List.reverse_cons, List.append_assoc]
    rfl

theorem exists_of_decodeOnto? {done text : List Char} {bytes : List UInt8}
    (h : decodeOnto? done bytes = some text) :
    ∃ tail, text = done.reverse ++ tail ∧ bytes = tail.flatMap encode := by
  fun_induction decodeOnto? done bytes with
  | case1 done =>
    cases h
    exact ⟨[], (List.append_nil _).symm, rfl⟩
  | case3 done lead rest width hwidth unit hlength c hdecode ih =>
    obtain ⟨tail, rfl, hrest⟩ := ih h
    have hle : width ≤ (lead :: rest).length := by
      rw [← hlength]
      exact List.length_take_le' width (lead :: rest)
    have hbegins : encode c <+: lead :: rest := (encode_isPrefix_iff hwidth).mpr ⟨hle, hdecode⟩
    have hcount : width = (encode c).length :=
      Option.some.inj (hwidth.symm.trans (width?_of_isPrefix hbegins))
    have hunit : (lead :: rest).take width = encode c := by
      rw [hcount, ← List.prefix_iff_eq_take.mp hbegins]
    refine ⟨c :: tail, by simp, ?_⟩
    rw [List.flatMap_cons, ← hrest, ← hunit, List.take_append_drop]
  | case2 | case4 | case5 => cases h

theorem decode?_eq_some_iff {bytes : List UInt8} {text : List Char} :
    decode? bytes = some text ↔ bytes = text.flatMap encode := by
  constructor
  · intro h
    obtain ⟨tail, rfl, hbytes⟩ := exists_of_decodeOnto? h
    exact hbytes
  · rintro rfl
    exact decodeOnto?_flatMap_encode [] text

end Whitespace.Text.Utf8
