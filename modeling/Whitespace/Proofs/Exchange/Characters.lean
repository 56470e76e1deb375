import Whitespace.Proofs.Exchange.Streams

/-!
Characters of the input. A read finds a character where the bytes begin with its encoding, and it finds
the end where fewer bytes are left than the first one asks for. These need not be the beginning of an
encoding: a byte among them may be out of place, and `step_readChar_iff` says that only then is the end
found before the input has come to it.
-/

namespace Whitespace

namespace Text.Utf8

/-- Some encoding begins with these bytes and goes on. -/
def Unfinished (bytes : List UInt8) : Prop := ∃ c, bytes <+: encode c ∧ bytes ≠ encode c

/-- There are fewer bytes than the first one asks for. -/
def Short (bytes : List UInt8) : Prop :=
  ∃ lead rest width, bytes = lead :: rest ∧ width? lead = some width ∧ bytes.length < width

/-- A byte behind the first one cannot stand where it does. -/
def Misplaced (bytes : List UInt8) : Prop :=
  ∃ lead second rest, bytes = lead :: second :: rest ∧
    (¬ seconds lead second ∨ ∃ byte ∈ rest, ¬ continues byte)

/-- The bytes are too few, and yet they begin no encoding. -/
def Broken (bytes : List UInt8) : Prop := Short bytes ∧ Misplaced bytes

section Unfinished

variable {bytes : List UInt8} {lead second : UInt8} {rest : List UInt8} {point : Nat}

theorem Spells.seconds (h : Spells (lead :: second :: rest) point) :
    seconds lead second ∧ ∀ byte ∈ rest, continues byte := by
  cases h with
  | two ha hb => exact ⟨hb, nofun⟩
  | three ha hb hc => exact ⟨hb, by simpa using hc⟩
  | four ha hb hc hd => exact ⟨hb, by simpa using ⟨hc, hd⟩⟩

theorem unfinished_of_spells {more : List UInt8} (h : Spells (bytes ++ more) point)
    (hmore : more ≠ []) : Unfinished bytes := by
  refine ⟨.ofNat point, ?_, ?_⟩
  · rw [h.encode_ofNat]
    exact List.prefix_append bytes more
  · rw [h.encode_ofNat]
    simpa using hmore

theorem unfinished_nil : Unfinished [] := ⟨' ', List.nil_prefix, (encode_ne_nil ' ').symm⟩

theorem exists_seconds (lead : UInt8) : ∃ byte, seconds lead byte := by
  by_cases hE0 : lead.toNat = 0xE0
  · exact ⟨0xA0, seconds_iff.mpr (by rw [hE0]; decide)⟩
  by_cases hF0 : lead.toNat = 0xF0
  · exact ⟨0x90, seconds_iff.mpr (by rw [hF0]; decide)⟩
  · refine ⟨0x80, seconds_iff.mpr ⟨by decide, ?_, fun _ => by decide, ?_, fun _ => by decide⟩⟩ <;>
      omega

theorem unfinished_of_short (hshort : Short bytes) (hplaced : ¬ Misplaced bytes) :
    Unfinished bytes := by
  obtain ⟨lead, rest, width, rfl, hwidth, hlt⟩ := hshort
  rw [width?_eq_some_iff] at hwidth
  have hplaced : ∀ second tail, rest = second :: tail →
      seconds lead second ∧ ∀ byte ∈ tail, continues byte := by
    rintro second tail rfl
    constructor
    · exact Decidable.not_not.mp fun hsecond => hplaced ⟨lead, second, tail, rfl, .inl hsecond⟩
    · intro byte hbyte
      exact Decidable.not_not.mp fun hbad =>
        hplaced ⟨lead, second, tail, rfl, .inr ⟨byte, hbyte, hbad⟩⟩
  rcases rest with _ | ⟨second, _ | ⟨third, _ | ⟨fourth, rest⟩⟩⟩ <;>
    simp only [List.length_cons, List.length_nil] at hlt
  · obtain ⟨second, hsecond⟩ := exists_seconds lead
    rcases hwidth with ⟨-, rfl⟩ | ⟨hlead, rfl⟩ | ⟨hlead, rfl⟩ | ⟨hlead, rfl⟩
    · omega
    · exact unfinished_of_spells (.two hlead hsecond) (List.cons_ne_nil _ _)
    · exact unfinished_of_spells (.three (c := 0x80) hlead hsecond rfl) (List.cons_ne_nil _ _)
    · exact unfinished_of_spells (.four (c := 0x80) (d := 0x80) hlead hsecond rfl rfl)
        (List.cons_ne_nil _ _)
  · obtain ⟨hsecond, -⟩ := hplaced second [] rfl
    rcases hwidth with ⟨-, rfl⟩ | ⟨-, rfl⟩ | ⟨hlead, rfl⟩ | ⟨hlead, rfl⟩
    · omega
    · omega
    · exact unfinished_of_spells (.three (c := 0x80) hlead hsecond rfl) (List.cons_ne_nil _ _)
    · exact unfinished_of_spells (.four (c := 0x80) (d := 0x80) hlead hsecond rfl rfl)
        (List.cons_ne_nil _ _)
  · obtain ⟨hsecond, hthird⟩ := hplaced second [third] rfl
    rcases hwidth with ⟨-, rfl⟩ | ⟨-, rfl⟩ | ⟨-, rfl⟩ | ⟨hlead, rfl⟩
    · omega
    · omega
    · omega
    · exact unfinished_of_spells (.four (d := 0x80) hlead hsecond
        (hthird third List.mem_cons_self) rfl) (List.cons_ne_nil _ _)
  · omega

theorem short_of_unfinished (h : Unfinished (lead :: rest)) : Short (lead :: rest) := by
  obtain ⟨c, hbegins, hne⟩ := h
  obtain ⟨first, tail, hencode, hwidth⟩ := (spells_encode c).width?
  obtain ⟨rfl, -⟩ := List.cons_prefix_cons.mp (hencode ▸ hbegins)
  refine ⟨lead, rest, _, rfl, hwidth, Nat.lt_of_le_of_ne hbegins.length_le fun hlength => ?_⟩
  exact hne (hbegins.eq_of_length hlength)

theorem not_misplaced_of_unfinished (h : Unfinished bytes) : ¬ Misplaced bytes := by
  obtain ⟨c, hbegins, -⟩ := h
  rintro ⟨lead, second, rest, rfl, hbad⟩
  have hspells := spells_encode c
  obtain ⟨more, hencode⟩ := hbegins
  rw [← hencode] at hspells
  obtain ⟨hsecond, hcontinues⟩ := Spells.seconds hspells
  rcases hbad with hbad | ⟨byte, hbyte, hbad⟩
  · exact hbad hsecond
  · exact hbad (hcontinues byte (List.mem_append_left more hbyte))

/-- Bytes that are too few for a character begin its encoding unless they are broken. -/
theorem nil_or_short_iff : bytes = [] ∨ Short bytes ↔ Unfinished bytes ∨ Broken bytes := by
  constructor
  · rintro (rfl | hshort)
    · exact .inl unfinished_nil
    · by_cases hplaced : Misplaced bytes
      · exact .inr ⟨hshort, hplaced⟩
      · exact .inl (unfinished_of_short hshort hplaced)
  · rintro (hunfinished | ⟨hshort, -⟩)
    · rcases bytes with _ | ⟨lead, rest⟩
      · exact .inl rfl
      · exact .inr (short_of_unfinished hunfinished)
    · exact .inr hshort

theorem not_unfinished_of_broken (h : Broken bytes) : ¬ Unfinished bytes :=
  fun hunfinished => not_misplaced_of_unfinished hunfinished h.2

end Unfinished

end Text.Utf8

namespace Machine

open Text

def StreamError.isInvalidData : StreamError → Bool
  | .invalidLead _ | .invalidSequence _ | .invalidLine => true
  | .full | .system _ => false

namespace Input

variable {input : Input}

inductive Reads (input : Input) : Prop
  | character {c : Char} (hbegins : Utf8.encode c <+: input.remaining)
      (hread : input.readChar = (input.advance (Utf8.encode c).length, .ok (some c)))
  | ends (hends : input.remaining = [] ∨ Utf8.Short input.remaining)
      (hread : input.readChar = (input.advance input.remaining.length, input.exhausted))
  | invalid {error : StreamError} (herror : error.isInvalidData)
      (hlong : ¬ (input.remaining = [] ∨ Utf8.Short input.remaining))
      (hnone : ∀ c, ¬ Utf8.encode c <+: input.remaining)
      (hread : input.readChar.2 = .error error)

theorem reads_of_width? {lead : UInt8} {rest : List UInt8} {width : Nat}
    (hremaining : input.remaining = lead :: rest) (hwidth : Utf8.width? lead = some width) :
    input.Reads := by
  have hshort : Utf8.Short (lead :: rest) ↔ (lead :: rest).length < width := by
    constructor
    · rintro ⟨lead', rest', width', heq, hsome, hlt⟩
      cases heq
      rwa [Option.some.inj (hwidth.symm.trans hsome)]
    · intro hlt
      exact ⟨lead, rest, width, rfl, hwidth, hlt⟩
  by_cases hlt : (lead :: rest).length < width
  · refine .ends (.inr (hremaining ▸ hshort.mpr hlt)) ?_
    unfold readChar
    simp only [hremaining, hwidth, List.take_of_length_le (Nat.le_of_lt hlt), if_pos hlt]
    rfl
  · have hle : width ≤ (lead :: rest).length := Nat.le_of_not_lt hlt
    have hbegins : ∀ c, Utf8.encode c <+: lead :: rest ↔ width ≤ (lead :: rest).length ∧
        Utf8.decodeSequence ((lead :: rest).take width) = .ok c :=
      fun c => Utf8.encode_isPrefix_iff hwidth
    cases hdecode : Utf8.decodeSequence ((lead :: rest).take width) with
    | ok c =>
      have hc := (hbegins c).mpr ⟨hle, hdecode⟩
      refine .character (hremaining ▸ hc) ?_
      rw [← Option.some.inj (hwidth.symm.trans (Utf8.width?_of_isPrefix hc))]
      unfold readChar
      simp only [hremaining, hwidth, List.length_take_of_le hle, Nat.lt_irrefl, if_false, hdecode]
    | error length =>
      have herror : (StreamError.invalidSequence length).isInvalidData := rfl
      refine .invalid herror ?_ ?_ ?_
      · rw [hremaining]
        rintro (hnil | hfew)
        · cases hnil
        · exact hlt (hshort.mp hfew)
      · intro c hc
        rw [hremaining] at hc
        cases hdecode.symm.trans ((hbegins c).mp hc).2
      · unfold readChar
        simp only [hremaining, hwidth, List.length_take_of_le hle, Nat.lt_irrefl, if_false, hdecode]

theorem reads (input : Input) : input.Reads := by
  cases hremaining : input.remaining with
  | nil =>
    refine .ends (.inl hremaining) ?_
    unfold readChar
    rw [hremaining]
    rfl
  | cons lead rest =>
    cases hwidth : Utf8.width? lead with
    | some width => exact reads_of_width? hremaining hwidth
    | none =>
      have herror : (StreamError.invalidLead lead).isInvalidData := rfl
      refine .invalid herror ?_ ?_ ?_
      · rw [hremaining]
        rintro (hnil | ⟨lead', rest', width, heq, hsome, -⟩)
        · cases hnil
        · cases heq
          cases hwidth.symm.trans hsome
      · intro c hc
        rw [hremaining] at hc
        cases hwidth.symm.trans (Utf8.width?_of_isPrefix hc)
      · unfold readChar
        simp only [hremaining, hwidth]

theorem not_short_of_isPrefix {bytes : List UInt8} {c : Char} (hbegins : Utf8.encode c <+: bytes) :
    ¬ (bytes = [] ∨ Utf8.Short bytes) := by
  rintro (rfl | ⟨lead, rest, width, rfl, hwidth, hlt⟩)
  · exact Utf8.encode_ne_nil c (List.prefix_nil.mp hbegins)
  · rw [Option.some.inj (hwidth.symm.trans (Utf8.width?_of_isPrefix hbegins))] at hlt
    exact Nat.not_lt_of_le hbegins.length_le hlt

theorem readChar_of_isPrefix {c : Char} (hbegins : Utf8.encode c <+: input.remaining) :
    input.readChar = (input.advance (Utf8.encode c).length, .ok (some c)) := by
  cases input.reads with
  | character hother hread => rwa [Utf8.eq_of_isPrefix_isPrefix hbegins hother]
  | ends hends hread => exact absurd hends (not_short_of_isPrefix hbegins)
  | invalid herror hlong hnone hread => exact absurd hbegins (hnone c)

theorem exhausted_ne_some (input : Input) {α : Type} (found : α) :
    input.exhausted ≠ .ok (some found) := by
  unfold exhausted
  split <;> exact nofun

theorem readChar_eq_some_iff {c : Char} :
    input.readChar.2 = .ok (some c) ↔ Utf8.encode c <+: input.remaining := by
  constructor
  · intro hfound
    cases input.reads with
    | character hbegins hread =>
      rw [hread] at hfound
      cases hfound
      exact hbegins
    | ends hends hread =>
      rw [hread] at hfound
      exact absurd hfound (input.exhausted_ne_some c)
    | invalid herror hlong hnone hread => cases hread.symm.trans hfound
  · intro hbegins
    rw [readChar_of_isPrefix hbegins]

theorem readChar_eq_end_iff (hfailure : input.failure = none) :
    input.readChar.2 = .ok none ↔ input.remaining = [] ∨ Utf8.Short input.remaining := by
  have hexhausted : (input.exhausted : Except StreamError (Option Char)) = .ok none := by
    unfold exhausted
    rw [hfailure]
  cases input.reads with
  | character hbegins hread =>
    rw [hread]
    exact ⟨nofun, fun hends => absurd hends (not_short_of_isPrefix hbegins)⟩
  | ends hends hread =>
    rw [hread]
    exact ⟨fun _ => hends, fun _ => hexhausted⟩
  | invalid herror hlong hnone hread =>
    rw [hread]
    exact ⟨nofun, fun hends => absurd hends hlong⟩

end Input

section Steps

variable {machine ready : Machine}

theorem perform_readChar (machine : Machine) :
    machine.perform (.io .readChar) =
      machine.readTo Input.readChar fun c => .ok (Int64.ofNat c.toNat) := rfl

theorem outcome_step_readChar (hdispatch : machine.dispatch? = some (ready, .io .readChar))
    (hstack : machine.stack ≠ []) :
    machine.step.outcome =
      match machine.input.readChar.2 with
      | .ok (some _) => .ok none
      | .ok none => .error ⟨machine.pc, .io .readChar, .endOfInput⟩
      | .error error => .error ⟨machine.pc, .io .readChar, .stream error⟩ := by
  obtain ⟨address, rest, hstack⟩ := List.exists_cons_of_ne_nil hstack
  have hfails {fault : Fault} := @failsToRead_of_finding _ _ _ _ _ _ _ _ hdispatch
    (perform_readChar ready) hstack fault
  split
  · next c hread =>
    obtain ⟨hstores, -⟩ := stores_of_finding hdispatch (perform_readChar ready) hstack
      (by rw [finding, hread])
    exact outcome_of_performed? hstores.1
  · next hread => exact (hfails (by rw [finding, hread])).1.1
  · next hread => exact (hfails (by rw [finding, hread])).1.1

theorem stores_of_isPrefix (hreads : machine.reads? = some .readChar) {c : Char}
    (hbegins : Utf8.encode c <+: machine.input.remaining) :
    machine.Stores .readChar (Int64.ofNat c.toNat) ∧
      machine.step.machine.input = machine.input.advance (Utf8.encode c).length := by
  obtain ⟨ready, hdispatch, hne⟩ := reads?_eq_some hreads
  obtain ⟨address, rest, hstack⟩ := List.exists_cons_of_ne_nil hne
  have hread := Input.readChar_of_isPrefix hbegins
  have hstores := stores_of_finding hdispatch (perform_readChar ready) hstack
    (by rw [finding, hread])
  rwa [hread] at hstores

/-- A read finds a character where its encoding is next. It finds the end where the bytes that are left
begin an encoding and do not finish it, and also where they are broken; all else is invalid data. So the
end is found exactly where the input comes to it if and only if the bytes are not broken. -/
theorem step_readChar_iff (hdispatch : machine.dispatch? = some (ready, .io .readChar))
    (hstack : machine.stack ≠ []) (hfailure : machine.input.failure = none) :
    let bytes := machine.input.remaining
    let found := machine.input.readChar.2
    let fails := fun fault => machine.step.outcome = .error ⟨machine.pc, .io .readChar, fault⟩
    (∀ c, found = .ok (some c) ↔ Utf8.encode c <+: bytes) ∧
      (machine.step.outcome = .ok none ↔ ∃ c, found = .ok (some c)) ∧
      (found = .ok none ↔ Utf8.Unfinished bytes ∨ Utf8.Broken bytes) ∧
      (fails .endOfInput ↔ found = .ok none) ∧
      ((¬ ∃ c, Utf8.encode c <+: bytes) → ¬ Utf8.Unfinished bytes → ¬ Utf8.Broken bytes →
        ∃ error, error.isInvalidData ∧ found = .error error ∧ fails (.stream error)) ∧
      ((fails .endOfInput ↔ Utf8.Unfinished bytes) ↔ ¬ Utf8.Broken bytes) := by
  intro bytes found fails
  have houtcome := outcome_step_readChar hdispatch hstack
  have hends : found = .ok none ↔ Utf8.Unfinished bytes ∨ Utf8.Broken bytes :=
    (Input.readChar_eq_end_iff hfailure).trans Utf8.nil_or_short_iff
  have hfails : fails .endOfInput ↔ found = .ok none := by
    simp only [fails, found, houtcome]
    rcases machine.input.readChar.2 with error | _ | c <;> simp
  refine ⟨fun c => Input.readChar_eq_some_iff, ?_, hends, hfails, ?_, ?_⟩
  · simp only [found, houtcome]
    rcases machine.input.readChar.2 with error | _ | c <;> simp
  · intro hnone hunfinished hbroken
    cases machine.input.reads with
    | character hbegins hread => exact absurd ⟨_, hbegins⟩ hnone
    | ends hfew hread =>
      exact absurd (Utf8.nil_or_short_iff.mp hfew) (not_or.mpr ⟨hunfinished, hbroken⟩)
    | invalid herror hlong hnone hread =>
      refine ⟨_, herror, hread, ?_⟩
      simp only [fails, houtcome, hread]
  · rw [hfails, hends]
    constructor
    · intro hiff hbroken
      exact Utf8.not_unfinished_of_broken hbroken (hiff.mp (.inr hbroken))
    · intro hbroken
      exact or_iff_left hbroken

/-- Two bytes of an arrow that takes three, and nothing behind them. -/
theorem step_readChar_iff_unfinished :
    let machine := { start #[.io .readChar] { remaining := [0xE2, 0x86] } {} none with stack := [5] }
    machine.dispatch? = some (machine.advance, .io .readChar) ∧ machine.stack ≠ [] ∧
      machine.input.failure = none ∧ Utf8.Unfinished machine.input.remaining ∧
      machine.step.outcome = .error ⟨0, .io .readChar, .endOfInput⟩ := by
  intro machine
  have hunfinished : Utf8.Unfinished machine.input.remaining := ⟨'→', ⟨[0x92], rfl⟩, by decide⟩
  have hdispatch : machine.dispatch? = some (machine.advance, .io .readChar) := rfl
  have hstack : machine.stack ≠ [] := List.cons_ne_nil 5 []
  obtain ⟨-, -, hfound, hfails, -⟩ := step_readChar_iff hdispatch hstack rfl
  exact ⟨hdispatch, hstack, rfl, hunfinished, hfails.mpr (hfound.mpr (.inl hunfinished))⟩

/-- A letter after the first byte of three cannot continue it, and yet this is taken for the end. -/
theorem endOfInput_before_letter :
    let program : Program := #[.stack (.push ⟨false, []⟩), .io .readChar]
    let machine := (start program { remaining := [0xE2, 0x61] } {} none).step.machine
    machine.step.outcome = .error ⟨1, .io .readChar, .endOfInput⟩ ∧
      machine.input.remaining = [0xE2, 0x61] ∧ ¬ Utf8.Unfinished machine.input.remaining := by
  intro program machine
  refine ⟨rfl, rfl, fun hunfinished => ?_⟩
  exact Utf8.not_misplaced_of_unfinished hunfinished ⟨0xE2, 0x61, [], rfl, .inl (by decide)⟩

end Steps

end Machine

end Whitespace
