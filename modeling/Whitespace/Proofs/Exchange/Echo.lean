import Mathlib.Data.List.Forall2
import Whitespace.Proofs.Exchange.Characters
import Whitespace.Proofs.Exchange.Capacity
import Whitespace.Proofs.Machine.HeapWrites

/-!
Characters that are written are read back. The values that can be written as characters are the Unicode
scalar values, and encodings that stand one after the other are taken apart again where they were put
together, whatever follows them. So reads of as many characters find the values that were written, in the
same order, and leave the rest of the input to whoever reads next.
-/

namespace Whitespace

def Value.IsScalar (value : Value) : Prop :=
  (0 ≤ value.toInt ∧ value.toInt ≤ 0xD7FF) ∨ (0xE000 ≤ value.toInt ∧ value.toInt ≤ 0x10FFFF)

def Value.ofChar (c : Char) : Value := Int64.ofNat c.toNat

theorem Value.eq_ofChar {value : Value} {c : Char} (h : value.toInt = c.toNat) :
    value = ofChar c :=
  Int64.toInt_inj.mp (h.trans (Machine.toInt_ofNat_toNat c).symm)

theorem Value.isScalar_iff {value : Value} : value.IsScalar ↔ ∃ c : Char, value.toInt = c.toNat := by
  constructor
  · intro h
    have hvalid : value.toInt.toNat.isValidChar := by
      unfold IsScalar at h
      unfold Nat.isValidChar
      omega
    have hpoint := Text.Utf8.scalar?_eq_some_iff.mp (if_pos hvalid)
    refine ⟨.ofNat value.toInt.toNat, ?_⟩
    unfold IsScalar at h
    omega
  · rintro ⟨c, hpoint⟩
    have hvalid : c.toNat < 0xD800 ∨ 0xDFFF < c.toNat ∧ c.toNat < 0x110000 := c.valid
    unfold IsScalar
    omega

namespace Machine

open Text

def WritesChar (machine : Machine) (value : Value) : Prop :=
  machine.performed? = some (.io .writeChar) ∧ machine.stack.head? = some value

section Writers

variable {machine ready : Machine} {value : Value} {rest : Stack}

theorem step_writeChar_of_not_isScalar (hdispatch : machine.dispatch? = some (ready, .io .writeChar))
    (hstack : machine.stack = value :: rest) (h : ¬ value.IsScalar) :
    machine.step.outcome = .error ⟨machine.pc, .io .writeChar, .invalidCharacter value⟩ ∧
      machine.step.machine = ready := by
  have hscalar : scalar? value = none := by
    rw [Option.eq_none_iff_forall_ne_some]
    intro c hc
    exact h (Value.isScalar_iff.mpr ⟨c, scalar?_eq_some_iff.mp hc⟩)
  have hcons : ready.stack = value :: rest := (stack_of_dispatch? hdispatch).trans hstack
  have hperform : ready.perform (.io .writeChar) = ready.fail (.invalidCharacter value) := by
    simp only [perform, IoOp.run, writeChar, hcons, hscalar]
  rw [step_of_dispatch? hdispatch, execute_of_decode rfl, hperform]
  exact ⟨rfl, rfl⟩

theorem isScalar_of_writeChar (hdispatch : machine.dispatch? = some (ready, .io .writeChar))
    (hstack : machine.stack = value :: rest) (hnext : machine.step.outcome = .ok none) :
    value.IsScalar := by
  refine Classical.byContradiction fun hscalar => ?_
  cases (step_writeChar_of_not_isScalar hdispatch hstack hscalar).1.symm.trans hnext

theorem performed?_writeChar_iff (hdispatch : machine.dispatch? = some (ready, .io .writeChar))
    (hstack : machine.stack = value :: rest) (hfree : machine.output.TakesAll) :
    machine.performed? = some (.io .writeChar) ↔ value.IsScalar := by
  rw [performed?_io_eq_some_iff]
  constructor
  · rintro ⟨-, -, hnext⟩
    exact isScalar_of_writeChar hdispatch hstack hnext
  · intro hscalar
    obtain ⟨c, hpoint⟩ := Value.isScalar_iff.mp hscalar
    have hprints : machine.Prints (Utf8.encode c) := .char hdispatch hstack hpoint
    exact ⟨ready, hdispatch, (hprints.emitted_of_takesAll hfree).1⟩

theorem WritesChar.exists_char (h : machine.WritesChar value) :
    ∃ c, value = .ofChar c ∧ machine.emitted = Utf8.encode c := by
  obtain ⟨hperformed, htop⟩ := h
  obtain ⟨ready, hdispatch, hnext⟩ := performed?_io_eq_some_iff.mp hperformed
  obtain ⟨rest, hstack⟩ := List.head?_eq_some_iff.mp htop
  obtain ⟨c, hpoint⟩ := Value.isScalar_iff.mp (isScalar_of_writeChar hdispatch hstack hnext)
  have hprints : machine.Prints (Utf8.encode c) := .char hdispatch hstack hpoint
  exact ⟨c, Value.eq_ofChar hpoint, hprints.emitted_eq hnext⟩

theorem exists_text_of_writers {writers : List Machine} {values : List Value}
    (h : List.Forall₂ WritesChar writers values) :
    ∃ text : List Char, values = text.map .ofChar ∧
      writers.flatMap emitted = text.flatMap Utf8.encode := by
  induction h with
  | nil => exact ⟨[], rfl, rfl⟩
  | cons hwrites _ ih =>
    obtain ⟨c, rfl, hemitted⟩ := hwrites.exists_char
    obtain ⟨text, rfl, htext⟩ := ih
    exact ⟨c :: text, rfl, by rw [List.flatMap_cons, List.flatMap_cons, hemitted, htext]⟩

end Writers

section Readers

variable {machine first : Machine} {history : List Machine} {text : List Char}
  {further : List UInt8}

/-- The steps of a history that read characters have stored the first characters of a text, and the rest
of the text is next in the input. -/
def ReadBack (first : Machine) (text : List Char) (history : List Machine) (machine : Machine) :
    Prop :=
  ∃ before after, text = before ++ after ∧
    List.Forall₂ (Stores .readChar) (history.filter (·.reads? = some .readChar))
      (before.map .ofChar) ∧
    machine.input = first.input.advance (before.flatMap Utf8.encode).length

theorem Input.advance_advance (input : Input) (first second : Nat) :
    (input.advance first).advance second = input.advance (first + second) := by
  simp only [advance, List.drop_drop, Nat.add_assoc]

/-- A step reads the next character of the text, or none, as long as there are enough of them. -/
theorem ReadBack.step (hinput : first.input.remaining = text.flatMap Utf8.encode ++ further)
    (h : first.ReadBack text history machine) (hnumber : machine.reads? ≠ some .readNumber)
    (hcount : ((history ++ [machine]).filter (·.reads? = some .readChar)).length ≤ text.length) :
    first.ReadBack text (history ++ [machine]) machine.step.machine := by
  obtain ⟨before, after, rfl, hstores, hmachine⟩ := h
  have hlength := hstores.length_eq
  rw [List.length_map] at hlength
  rcases machine.reads?_cases with hreads | hreads | hreads
  · refine ⟨before, after, rfl, ?_, ?_⟩
    · rw [List.filter_append, List.filter_cons_of_neg (by simp [hreads]), List.filter_nil,
        List.append_nil]
      exact hstores
    · rw [input_step hreads, hmachine]
  · have hfilter : (history ++ [machine]).filter (·.reads? = some .readChar) =
        history.filter (·.reads? = some .readChar) ++ [machine] := by
      rw [List.filter_append, List.filter_cons_of_pos (by simp [hreads]), List.filter_nil]
    rw [hfilter, List.length_append, List.length_append, hlength] at hcount
    obtain ⟨c, after, rfl⟩ : ∃ c rest, after = c :: rest := by
      apply List.exists_cons_of_length_pos
      simp only [List.length_singleton] at hcount
      omega
    have hnext : machine.input.remaining =
        Utf8.encode c ++ (after.flatMap Utf8.encode ++ further) := by
      rw [hmachine, Input.advance, hinput, List.flatMap_append, List.append_assoc, List.drop_left,
        List.flatMap_cons, List.append_assoc]
    obtain ⟨hstored, hafter⟩ := stores_of_isPrefix hreads (hnext ▸ List.prefix_append _ _)
    refine ⟨before ++ [c], after, by simp, ?_, ?_⟩
    · rw [hfilter, List.map_append]
      exact List.rel_append hstores (.cons hstored .nil)
    · rw [hafter, hmachine, Input.advance_advance, List.flatMap_append, List.length_append,
        List.flatMap_singleton]
  · exact absurd hreads hnumber

theorem Calls.readBack {log : List (Call × Answer)} (hcalls : Calls first log history machine)
    (hinput : first.input.remaining = text.flatMap Utf8.encode ++ further)
    (hnumber : ∀ stage ∈ history, stage.reads? ≠ some .readNumber)
    (hcount : (history.filter (·.reads? = some .readChar)).length ≤ text.length) :
    first.ReadBack text history machine := by
  have h := hcalls.preserves (motive := fun history machine =>
    (∀ stage ∈ history, stage.reads? ≠ some .readNumber) →
      (history.filter (·.reads? = some .readChar)).length ≤ text.length →
      first.ReadBack text history machine)
  refine h ?_ ?_ ?_ hnumber hcount
  · intro _ _
    exact ⟨[], text, rfl, .nil, rfl⟩
  · intro history machine ih hnumber hcount
    have hearlier : (history.filter (·.reads? = some .readChar)).length ≤ text.length := by
      rw [List.filter_append, List.length_append] at hcount
      omega
    refine (ih ?_ hearlier).step hinput ?_ hcount
    · exact fun stage hstage => hnumber stage (List.mem_append_left _ hstage)
    · exact hnumber machine (List.mem_append_right _ (List.mem_singleton.mpr rfl))
  · intro history machine label ih hnumber hcount
    exact ih hnumber hcount

end Readers

/-- A character is written where the value on top of the stack is a scalar value, and any other value is
refused and nothing written. What any number of steps write in this way can be read back: with these bytes
next in the input and any others behind them, as many reads of characters go through and store the values
in order, whatever else the machine does in between without reading numbers, and the other bytes are left
in the input. -/
theorem characters_read_back :
    (∀ {machine ready : Machine} {value : Value} {rest : Stack},
      machine.dispatch? = some (ready, .io .writeChar) → machine.stack = value :: rest →
        (machine.output.TakesAll →
          (machine.performed? = some (.io .writeChar) ↔ value.IsScalar)) ∧
        (¬ value.IsScalar →
          machine.step.outcome = .error ⟨machine.pc, .io .writeChar, .invalidCharacter value⟩ ∧
            machine.step.machine.output = machine.output)) ∧
      ∀ {writers : List Machine} {values : List Value} {first machine : Machine}
        {further : List UInt8} {log : List (Call × Answer)} {history : List Machine},
        List.Forall₂ WritesChar writers values →
        first.input.remaining = writers.flatMap emitted ++ further →
        Calls first log history machine →
        (∀ stage ∈ history, stage.reads? ≠ some .readNumber) →
        (history.filter (·.reads? = some .readChar)).length = values.length →
        List.Forall₂ (Stores .readChar) (history.filter (·.reads? = some .readChar)) values ∧
          machine.input = first.input.advance (writers.flatMap emitted).length ∧
          machine.input.remaining = further := by
  constructor
  · intro machine ready value rest hdispatch hstack
    refine ⟨performed?_writeChar_iff hdispatch hstack, fun hscalar => ?_⟩
    obtain ⟨houtcome, hmachine⟩ := step_writeChar_of_not_isScalar hdispatch hstack hscalar
    exact ⟨houtcome, by rw [hmachine, (eq_of_dispatch? hdispatch).2]⟩
  · intro writers values first machine further log history hwriters hinput hcalls hnumber hcount
    obtain ⟨text, rfl, htext⟩ := exists_text_of_writers hwriters
    rw [List.length_map] at hcount
    rw [htext] at hinput ⊢
    obtain ⟨before, after, rfl, hstores, hmachine⟩ :=
      hcalls.readBack hinput hnumber (Nat.le_of_eq hcount)
    -- As many characters were read as there are, so none is left.
    have hafter : after = [] := by
      have hlength := hstores.length_eq
      rw [List.length_map] at hlength
      rw [List.length_append] at hcount
      exact List.eq_nil_of_length_eq_zero (by omega)
    rw [hafter, List.append_nil] at hinput ⊢
    refine ⟨hstores, hmachine, ?_⟩
    rw [hmachine, Input.advance, hinput, List.drop_left]

theorem characters_read_back_before_unfinished :
    let writer := fun value : Value =>
      { start #[.io .writeChar] { remaining := [] } {} none with stack := [value] }
    let program : Program := #[.io .readChar, .io .readChar]
    let input : Input := { remaining := [0xC3, 0xA9, 0xF0, 0x9F, 0x92, 0xA9, 0xE2] }
    let first := { start program input {} none with stack := [1, 2] }
    let second := first.step.machine
    List.Forall₂ WritesChar [writer 233, writer 128169] [233, 128169] ∧
      List.Forall₂ (Stores .readChar) [first, second] [233, 128169] ∧
      second.step.machine.input.remaining = [0xE2] := by
  intro writer program input first second
  have hwriters : List.Forall₂ WritesChar [writer 233, writer 128169] [233, 128169] :=
    .cons ⟨rfl, rfl⟩ (.cons ⟨rfl, rfl⟩ .nil)
  have hinput : first.input.remaining = [writer 233, writer 128169].flatMap emitted ++ [0xE2] := by
    decide +kernel
  have hcalls : Calls first _ [first, second] second.step.machine := .snoc (.snoc .nil .step) .step
  have hfirst : first.reads? = some .readChar := rfl
  have hsecond : second.reads? = some .readChar := rfl
  have hnumber : ∀ stage ∈ [first, second], stage.reads? ≠ some .readNumber := by
    simp [hfirst, hsecond]
  obtain ⟨-, hread⟩ := characters_read_back
  obtain ⟨hstores, -, hfurther⟩ := hread hwriters hinput hcalls hnumber rfl
  exact ⟨hwriters, hstores, hfurther⟩

end Machine

end Whitespace
