import Whitespace.Proofs.Exchange.Capacity
import Whitespace.Proofs.Literals.Words
import Whitespace.Proofs.Text.Numerals

/-!
Numbers of the input, one on a line. A read takes the bytes through the first line feed, whatever becomes
of them, and stores the number that they denote if they are a numeral between blanks and 64 bits hold it.
The decimal text of a value is such a numeral, so a number that is written on a line is read back.
-/

namespace Whitespace

namespace Machine

open Text

/-- Bytes through the first line feed, or all of them if there is none, and the bytes behind them. -/
inductive SplitsLine : List UInt8 → List UInt8 → List UInt8 → Prop
  | fed {body further : List UInt8} (hbody : 10 ∉ body) :
      SplitsLine (body ++ 10 :: further) (body ++ [10]) further
  | whole {bytes : List UInt8} (hbytes : 10 ∉ bytes) : SplitsLine bytes bytes []

section Lines

variable {bytes taken further body : List UInt8}

theorem bne_feed_of_mem (hbody : 10 ∉ body) {byte : UInt8} (hbyte : byte ∈ body) : byte != 10 := by
  rw [bne_iff_ne]
  rintro rfl
  exact hbody hbyte

theorem line_of_fed (hbody : 10 ∉ body) (further : List UInt8) :
    Input.line (body ++ 10 :: further) = body ++ [10] := by
  have hpos : ∀ byte ∈ body, byte != 10 := fun _ hbyte => bne_feed_of_mem hbody hbyte
  rw [Input.line, List.takeWhile_append_of_pos hpos, List.dropWhile_append_of_pos hpos]
  simp

theorem line_of_whole (hbytes : 10 ∉ bytes) : Input.line bytes = bytes := by
  have hpos : ∀ byte ∈ bytes, byte != 10 := fun _ hbyte => bne_feed_of_mem hbytes hbyte
  rw [Input.line, List.dropWhile_eq_nil_iff.mpr hpos]
  simpa using hpos

theorem SplitsLine.eq_append (h : SplitsLine bytes taken further) : bytes = taken ++ further := by
  cases h with
  | fed hbody => simp
  | whole hbytes => simp

theorem SplitsLine.line (h : SplitsLine bytes taken further) : Input.line bytes = taken := by
  cases h with
  | fed hbody => exact line_of_fed hbody further
  | whole hbytes => exact line_of_whole hbytes

theorem exists_splitsLine (bytes : List UInt8) : ∃ taken further, SplitsLine bytes taken further := by
  by_cases hfeed : 10 ∈ bytes
  · obtain ⟨body, further, rfl, hbody⟩ := List.eq_append_cons_of_mem hfeed
    exact ⟨_, _, .fed hbody⟩
  · exact ⟨_, _, .whole hfeed⟩

end Lines

theorem eq_of_feed_mem_encode {c : Char} (h : 10 ∈ Utf8.encode c) : c = '\n' := by
  have hpoint := (Utf8.spells_encode c).eq_toNat_of_mem h (by decide)
  rw [← Char.ofNat_toNat c, hpoint]
  rfl

section Reads

variable {input : Input} {taken further : List UInt8} {text : List Char}

/-- The line that was taken is closed: by a line feed or by the end of the input. -/
def Input.Closes (input : Input) (taken : List UInt8) : Prop :=
  10 ∈ taken ∨ input.failure = none

theorem input_readLine (h : SplitsLine input.remaining taken further) :
    input.readLine.1 = input.advance taken.length := by
  unfold Input.readLine
  simp only [h.line]
  split
  · rfl
  · split <;> rfl

theorem SplitsLine.getLast?_eq_feed_iff {bytes : List UInt8} (h : SplitsLine bytes taken further) :
    taken.getLast? = some 10 ↔ 10 ∈ taken := by
  cases h with
  | fed hbody => simp
  | whole hbytes => exact ⟨List.mem_of_getLast?, fun hfeed => absurd hfeed hbytes⟩

theorem readLine_of_empty (h : SplitsLine input.remaining taken further) (hempty : taken = []) :
    input.readLine.2 = input.exhausted := by
  unfold Input.readLine
  simp only [h.line, if_pos (Or.inl hempty)]
  rfl

theorem readLine_of_failure (h : SplitsLine input.remaining taken further) {error : SystemError}
    (hopen : 10 ∉ taken) (hfailure : input.failure = some error) :
    input.readLine.2 = .error (.system error) := by
  have hlost : taken = [] ∨ taken.getLast? ≠ some 10 ∧ input.failure.isSome := by
    right
    rw [Ne, h.getLast?_eq_feed_iff, hfailure]
    exact ⟨hopen, rfl⟩
  unfold Input.readLine
  simp only [h.line]
  rw [if_pos hlost]
  simp only [Input.exhausted, Input.advance, hfailure]

theorem readLine_of_closes (h : SplitsLine input.remaining taken further) (hne : taken ≠ [])
    (hcloses : input.Closes taken) :
    input.readLine.2 =
      match Utf8.decode? taken with
      | some text => .ok (some text)
      | none => .error .invalidLine := by
  have hread : ¬ (taken = [] ∨ taken.getLast? ≠ some 10 ∧ input.failure.isSome) := by
    rintro (hempty | ⟨hopen, hfailure⟩)
    · exact hne hempty
    · rw [Ne, h.getLast?_eq_feed_iff] at hopen
      rw [hcloses.resolve_left hopen] at hfailure
      cases hfailure
  unfold Input.readLine
  simp only [h.line]
  rw [if_neg hread]
  cases Utf8.decode? taken <;> rfl

theorem readLine_of_text (h : SplitsLine input.remaining taken further) (hne : taken ≠ [])
    (hcloses : input.Closes taken) (htext : taken = text.flatMap Utf8.encode) :
    input.readLine.2 = .ok (some text) := by
  rw [readLine_of_closes h hne hcloses, Utf8.decode?_eq_some_iff.mpr htext]

theorem readLine_of_invalid (h : SplitsLine input.remaining taken further) (hne : taken ≠ [])
    (hcloses : input.Closes taken) (hnone : ¬ ∃ text : List Char, taken = text.flatMap Utf8.encode) :
    input.readLine.2 = .error .invalidLine := by
  have hdecode : Utf8.decode? taken = none := by
    rw [Option.eq_none_iff_forall_ne_some]
    intro text htext
    exact hnone ⟨text, Utf8.decode?_eq_some_iff.mp htext⟩
  rw [readLine_of_closes h hne hcloses, hdecode]

end Reads

theorem integer?_bind_ofInt?_eq_some_iff {text : List Char} {value : Value} :
    (Decimal.integer? text).bind Value.ofInt? = some value ↔ Decimal.Numeral text value.toInt := by
  rw [Option.bind_eq_some_iff, ← Decimal.integer?_eq_some_iff]
  constructor
  · rintro ⟨n, hn, hvalue⟩
    rw [hn, Value.toInt_of_ofInt? hvalue]
  · intro hn
    exact ⟨value.toInt, hn, Value.ofInt?_toInt value⟩

section Numbers

variable {line text : List Char} {value : Value}

theorem numberOfLine_of_numeral (htrims : Trims line text)
    (hnumeral : Decimal.Numeral text value.toInt) : numberOfLine line = .ok value := by
  unfold numberOfLine
  simp only [htrims.eq_trim, integer?_bind_ofInt?_eq_some_iff.mpr hnumeral]

theorem numberOfLine_of_not_numeral (htrims : Trims line text)
    (hnone : ¬ ∃ value : Value, Decimal.Numeral text value.toInt) :
    numberOfLine line = .error (.invalidNumber text) := by
  have hread : (Decimal.integer? text).bind Value.ofInt? = none := by
    rw [Option.eq_none_iff_forall_ne_some]
    intro value hvalue
    exact hnone ⟨value, integer?_bind_ofInt?_eq_some_iff.mp hvalue⟩
  unfold numberOfLine
  simp only [htrims.eq_trim, hread]

end Numbers

theorem perform_readNumber (machine : Machine) :
    machine.perform (.io .readNumber) = machine.readTo Input.readLine numberOfLine := rfl

section Steps

variable {machine ready : Machine} {address : Value} {rest : Stack} {taken further : List UInt8}
  {line text : List Char} {value : Value}

theorem stores_of_numeral (hdispatch : machine.dispatch? = some (ready, .io .readNumber))
    (hstack : machine.stack = address :: rest)
    (hsplits : SplitsLine machine.input.remaining taken further) (hne : taken ≠ [])
    (hcloses : machine.input.Closes taken) (hline : taken = line.flatMap Utf8.encode)
    (htrims : Trims line text)
    (hnumeral : Decimal.Numeral text value.toInt) : machine.Stores .readNumber value := by
  have hfound : finding Input.readLine numberOfLine machine.input = .ok value := by
    rw [finding, readLine_of_text hsplits hne hcloses hline]
    exact numberOfLine_of_numeral htrims hnumeral
  exact (stores_of_finding hdispatch (perform_readNumber ready) hstack hfound).1

theorem failsToRead_of_not_numeral (hdispatch : machine.dispatch? = some (ready, .io .readNumber))
    (hstack : machine.stack = address :: rest)
    (hsplits : SplitsLine machine.input.remaining taken further) (hne : taken ≠ [])
    (hcloses : machine.input.Closes taken) (hline : taken = line.flatMap Utf8.encode)
    (htrims : Trims line text)
    (hnone : ¬ ∃ value : Value, Decimal.Numeral text value.toInt) :
    machine.FailsToRead .readNumber (.invalidNumber text) := by
  have hfound : finding Input.readLine numberOfLine machine.input =
      .error (.invalidNumber text) := by
    rw [finding, readLine_of_text hsplits hne hcloses hline]
    exact numberOfLine_of_not_numeral htrims hnone
  exact (failsToRead_of_finding hdispatch (perform_readNumber ready) hstack hfound).1

/-- What a read of a number makes of the bytes that it takes. -/
structure TakesLine (machine : Machine) (taken further : List UInt8) : Prop where
  splits : SplitsLine machine.input.remaining taken further
  input : machine.step.machine.input = machine.input.advance taken.length
  remaining : machine.step.machine.input.remaining = further
  nothing : taken = [] → machine.input.failure = none → machine.FailsToRead .readNumber .endOfInput
  failure : 10 ∉ taken → ∀ error, machine.input.failure = some error →
    machine.FailsToRead .readNumber (.stream (.system error))
  invalid : taken ≠ [] → machine.input.Closes taken →
    (¬ ∃ line : List Char, taken = line.flatMap Utf8.encode) →
    machine.FailsToRead .readNumber (.stream .invalidLine)
  text : ∀ line : List Char, taken ≠ [] → machine.input.Closes taken →
    taken = line.flatMap Utf8.encode →
    ∃ text, Trims line text ∧
      (∀ value, machine.Stores .readNumber value ↔ Decimal.Numeral text value.toInt) ∧
      ((¬ ∃ value : Value, Decimal.Numeral text value.toInt) →
        machine.FailsToRead .readNumber (.invalidNumber text))

theorem stores_iff_numeral (hdispatch : machine.dispatch? = some (ready, .io .readNumber))
    (hstack : machine.stack = address :: rest)
    (hsplits : SplitsLine machine.input.remaining taken further) (hne : taken ≠ [])
    (hcloses : machine.input.Closes taken) (hline : taken = line.flatMap Utf8.encode)
    (htrims : Trims line text) :
    machine.Stores .readNumber value ↔ Decimal.Numeral text value.toInt := by
  constructor
  · intro hstores
    by_cases hnumeral : ∃ value : Value, Decimal.Numeral text value.toInt
    · obtain ⟨found, hnumeral⟩ := hnumeral
      have hfound := stores_of_numeral hdispatch hstack hsplits hne hcloses hline htrims hnumeral
      rwa [hstores.unique hfound]
    · have hfails := failsToRead_of_not_numeral hdispatch hstack hsplits hne hcloses hline htrims hnumeral
      exact absurd hstores hfails.not_stores
  · exact stores_of_numeral hdispatch hstack hsplits hne hcloses hline htrims

theorem takesLine (hdispatch : machine.dispatch? = some (ready, .io .readNumber))
    (hstack : machine.stack = address :: rest)
    (hsplits : SplitsLine machine.input.remaining taken further) :
    machine.TakesLine taken further := by
  have hperform := perform_readNumber ready
  have hinput := input_step_of_reads hdispatch hperform hstack
  rw [input_readLine hsplits] at hinput
  refine ⟨hsplits, hinput, ?_, ?_, ?_, ?_, ?_⟩
  · rw [hinput, Input.advance, hsplits.eq_append]
    exact List.drop_left
  · intro hempty hfailure
    refine (failsToRead_of_finding hdispatch hperform hstack ?_).1
    rw [finding, readLine_of_empty hsplits hempty, Input.exhausted, hfailure]
  · intro hopen error hfailure
    refine (failsToRead_of_finding hdispatch hperform hstack ?_).1
    rw [finding, readLine_of_failure hsplits hopen hfailure]
  · intro hne hcloses hnone
    refine (failsToRead_of_finding hdispatch hperform hstack ?_).1
    rw [finding, readLine_of_invalid hsplits hne hcloses hnone]
  · intro line hne hcloses hline
    refine ⟨trim line, trims_trim line, fun value => ?_, ?_⟩
    · exact stores_iff_numeral hdispatch hstack hsplits hne hcloses hline (trims_trim line)
    · exact failsToRead_of_not_numeral hdispatch hstack hsplits hne hcloses hline (trims_trim line)

end Steps

theorem numeral_text (value : Value) : Decimal.Numeral value.text.toList value.toInt :=
  Decimal.integer?_eq_some_iff.mp (Decimal.integer?_repr value.toInt)

section Written

variable {machine ready : Machine} {value : Value} {rest : Stack}

theorem performed?_writeNumber (hdispatch : machine.dispatch? = some (ready, .io .writeNumber))
    (hstack : machine.stack = value :: rest) (hfree : machine.output.TakesAll) :
    machine.performed? = some (.io .writeNumber) := by
  have hprints : machine.Prints (Utf8.encodeText value.text) := .number hdispatch hstack
  exact performed?_io_eq_some_iff.mpr ⟨ready, hdispatch, (hprints.emitted_of_takesAll hfree).1⟩

theorem emitted_writeNumber (hperformed : machine.performed? = some (.io .writeNumber))
    (htop : machine.stack.head? = some value) :
    machine.emitted = value.text.toList.flatMap Utf8.encode := by
  obtain ⟨ready, hdispatch, hnext⟩ := performed?_io_eq_some_iff.mp hperformed
  obtain ⟨rest, hstack⟩ := List.head?_eq_some_iff.mp htop
  have hprints : machine.Prints (Utf8.encodeText value.text) := .number hdispatch hstack
  exact hprints.emitted_eq hnext

theorem splitsLine_of_text {text : List Char} (h : ∀ c ∈ text, c ≠ '\n') (further : List UInt8) :
    SplitsLine (text.flatMap Utf8.encode ++ 10 :: further) ((text ++ ['\n']).flatMap Utf8.encode)
      further := by
  have hbody : 10 ∉ text.flatMap Utf8.encode := by
    intro hfeed
    obtain ⟨c, hc, hmem⟩ := List.mem_flatMap.mp hfeed
    exact h c hc (eq_of_feed_mem_encode hmem)
  have hfed : SplitsLine (text.flatMap Utf8.encode ++ 10 :: further)
      (text.flatMap Utf8.encode ++ [10]) further := .fed hbody
  rw [List.flatMap_append]
  exact hfed

end Written

/-- Reading a number takes a line of the input and no more. It stores a value if the line is a numeral
for it between blanks, and otherwise fails and leaves stack and heap as they are. Every value can be
written, and its text, on a line with any blanks around it, is read back as that value, whatever comes on
the lines behind. -/
theorem readNumber_inverts_writeNumber :
    (∀ {machine ready : Machine} {address : Value} {rest : Stack},
      machine.dispatch? = some (ready, .io .readNumber) → machine.stack = address :: rest →
        ∃ taken further, machine.TakesLine taken further) ∧
      (∀ {machine ready : Machine} {value : Value} {rest : Stack},
        machine.dispatch? = some (ready, .io .writeNumber) → machine.stack = value :: rest →
        machine.output.TakesAll → machine.performed? = some (.io .writeNumber)) ∧
      ∀ {writer reader : Machine} {value : Value} {before after : List Char}
        {further : List UInt8},
        writer.performed? = some (.io .writeNumber) → writer.stack.head? = some value →
        (∀ c ∈ before ++ after, isBlank c ∧ c ≠ '\n') →
        reader.input.remaining = before.flatMap Utf8.encode ++ writer.emitted ++
          after.flatMap Utf8.encode ++ 10 :: further →
        reader.reads? = some .readNumber →
        reader.Stores .readNumber value ∧ reader.step.machine.input.remaining = further := by
  refine ⟨?_, performed?_writeNumber, ?_⟩
  · intro machine ready address rest hdispatch hstack
    obtain ⟨taken, further, hsplits⟩ := exists_splitsLine machine.input.remaining
    exact ⟨taken, further, takesLine hdispatch hstack hsplits⟩
  · intro writer reader value before after further hwriter htop hblanks hinput hreads
    obtain ⟨ready, hdispatch, hne⟩ := reads?_eq_some hreads
    obtain ⟨address, rest, hstack⟩ := List.exists_cons_of_ne_nil hne
    have hnumeral := numeral_text value
    rw [emitted_writeNumber hwriter htop, ← List.flatMap_append, ← List.flatMap_append] at hinput
    have hfeed : ∀ c ∈ before ++ value.text.toList ++ after, c ≠ '\n' := by
      intro c hc
      rw [List.append_assoc, List.mem_append, List.mem_append] at hc
      rcases hc with hbefore | htext | hafter
      · exact (hblanks c (List.mem_append_left _ hbefore)).2
      · rintro rfl
        exact hnumeral.not_isBlank htext (by decide)
      · exact (hblanks c (List.mem_append_right _ hafter)).2
    have hsplits := splitsLine_of_text hfeed further
    rw [← hinput] at hsplits
    have htrims : Trims (before ++ value.text.toList ++ (after ++ ['\n'])) value.text.toList := by
      apply hnumeral.trims
      intro c hc
      rw [← List.append_assoc, List.mem_append, List.mem_singleton] at hc
      rcases hc with hc | rfl
      · exact (hblanks c hc).1
      · decide
    rw [← List.append_assoc] at htrims
    have hclosed : 10 ∈ (before ++ value.text.toList ++ after ++ ['\n']).flatMap Utf8.encode :=
      List.mem_flatMap.mpr ⟨'\n', by simp, by decide⟩
    exact ⟨stores_of_numeral hdispatch hstack hsplits (List.ne_nil_of_mem hclosed) (.inl hclosed)
        rfl htrims hnumeral,
      (takesLine hdispatch hstack hsplits).remaining⟩

theorem readNumber_inverts_writeNumber_between_blanks :
    let writer : Machine :=
      { start #[.io .writeNumber] { remaining := [] } {} none with stack := [-7] }
    let input : Input :=
      { remaining := [0xE3, 0x80, 0x80, 0x2D, 0x37, 0x09, 0x0A, 0x37, 0x0A] }
    let reader := { start #[.io .readNumber] input {} none with stack := [1] }
    writer.performed? = some (.io .writeNumber) ∧ reader.Stores .readNumber (-7) ∧
      reader.step.machine.input.remaining = [0x37, 0x0A] := by
  intro writer input reader
  obtain ⟨-, hwrites, hreads⟩ := readNumber_inverts_writeNumber
  have hwriter : writer.performed? = some (.io .writeNumber) := hwrites rfl rfl ⟨rfl, rfl⟩
  have hblanks : ∀ c ∈ ['\u3000'] ++ ['\t'], isBlank c ∧ c ≠ '\n' := by
    intro c hc
    rcases List.mem_append.mp hc with hc | hc <;> rw [List.mem_singleton.mp hc] <;> decide
  have hinput : reader.input.remaining = ['\u3000'].flatMap Utf8.encode ++ writer.emitted ++
      ['\t'].flatMap Utf8.encode ++ 10 :: [0x37, 0x0A] := by decide +kernel
  exact ⟨hwriter, hreads hwriter rfl hblanks hinput rfl⟩

end Machine

end Whitespace
