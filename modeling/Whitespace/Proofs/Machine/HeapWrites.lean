import Whitespace.Proofs.Machine.Calls
import Whitespace.Proofs.Machine.Outcome

/-!
Writes to the heap. Storing a value and reading a character or a number are the only steps that change
the heap, and each inserts one value at one address. So the heap of a machine holds the value that its
history wrote last to each address and nothing else, which is what retrieving finds there.
-/

namespace Whitespace

def Operation.heapOperands? {α : Type} : Operation α → Option Nat
  | .heap .store => some 2
  | .io .readChar => some 1
  | .io .readNumber => some 1
  | _ => none

namespace Machine

/-- The address and the value that an operation finds to write: what is to be stored, the code point of
a character that is read, or a number that is read. -/
inductive Finds (machine : Machine) : Operation Value → Value → Value → Prop
  | store {address value : Value} {rest : Stack}
      (hstack : machine.stack = value :: address :: rest) :
      Finds machine (.heap .store) address value
  | readChar {address value : Value} {rest : Stack} {c : Char}
      (hstack : machine.stack = address :: rest)
      (hread : machine.input.readChar.2 = .ok (some c)) (hvalue : value.toInt = c.toNat) :
      Finds machine (.io .readChar) address value
  | readNumber {address value : Value} {rest : Stack} {line : List Char}
      (hstack : machine.stack = address :: rest)
      (hread : machine.input.readLine.2 = .ok (some line))
      (hvalue : Text.Decimal.integer? (Text.trim line) = some value.toInt) :
      Finds machine (.io .readNumber) address value

/-- The next step writes a value to an address. -/
def Writes (machine : Machine) (address value : Value) : Prop :=
  ∃ operation, machine.performed? = some operation ∧ machine.Finds operation address value

/-- The last write of a history to an address has written this value. -/
def LastWrites (history : List Machine) (address value : Value) : Prop :=
  ∃ before writer after, history = before ++ writer :: after ∧ Writes writer address value ∧
    ∀ later ∈ after, ∀ other, ¬ Writes later address other

structure Inserts (machine : Machine) (count : Nat) (address value : Value) (after : Machine) :
    Prop where
  count_le : count ≤ machine.stack.length
  stack : after.stack = machine.stack.drop count
  heap : after.heap = machine.heap.insert address value

inductive Attempts (machine : Machine) (operation : Operation Value) (count : Nat)
    (effect : Effect Machine) : Prop
  | writes {address value : Value} (houtcome : effect.outcome = .ok .next)
      (hfinds : machine.Finds operation address value)
      (hinserts : machine.Inserts count address value effect.state)
  | fails (houtcome : effect.outcome ≠ .ok .next) (hheap : effect.state.heap = machine.heap)

theorem toInt_ofNat_toNat (c : Char) : (Int64.ofNat c.toNat).toInt = c.toNat :=
  Int64.toInt_ofNat_of_lt (Nat.lt_trans c.val.toNat_lt (by decide))

theorem toInt_of_numberOfLine {line : List Char} {value : Value}
    (h : numberOfLine line = .ok value) :
    Text.Decimal.integer? (Text.trim line) = some value.toInt := by
  unfold numberOfLine at h
  simp only at h
  split at h
  · next found hfound =>
    cases h
    obtain ⟨number, hnumber, hvalue⟩ := Option.bind_eq_some_iff.mp hfound
    rw [hnumber, Value.toInt_of_ofInt? hvalue]
  · cases h

section Operations

variable {machine : Machine} {operation : Operation Value}

theorem Finds.unique {first second value other : Value}
    (hfirst : machine.Finds operation first value)
    (hsecond : machine.Finds operation second other) : first = second ∧ value = other := by
  cases hfirst with
  | store hstack =>
    cases hsecond with
    | store hother =>
      rw [hstack] at hother
      cases hother
      exact ⟨rfl, rfl⟩
  | readChar hstack hread hvalue =>
    cases hsecond with
    | readChar hother hread' hvalue' =>
      rw [hstack] at hother
      rw [hread] at hread'
      cases hother
      cases hread'
      exact ⟨rfl, Int64.toInt_inj.mp (hvalue.trans hvalue'.symm)⟩
  | readNumber hstack hread hvalue =>
    cases hsecond with
    | readNumber hother hread' hvalue' =>
      rw [hstack] at hother
      rw [hread] at hread'
      cases hother
      cases hread'
      rw [hvalue] at hvalue'
      exact ⟨rfl, Int64.toInt_inj.mp (Option.some.inj hvalue')⟩

theorem attempts_store : machine.Attempts (.heap .store) 2 (machine.perform (.heap .store)) := by
  have hrun : machine.perform (.heap .store) = Effect.ofExcept machine
      (fun state => { machine with stack := state.1, heap := state.2 })
      (HeapOp.run machine.stack machine.heap .store) := rfl
  rw [hrun]
  rcases hstack : machine.stack with _ | ⟨value, _ | ⟨address, rest⟩⟩
  · exact .fails nofun rfl
  · exact .fails nofun rfl
  · refine .writes rfl (.store hstack) ⟨?_, ?_, rfl⟩
    · simp [hstack]
    · rw [hstack]
      rfl

theorem attempts_readTo {α : Type} {read : Input → Input × Except StreamError (Option α)}
    {value : α → Except Fault Value}
    (hfinds : ∀ address rest found written, machine.stack = address :: rest →
      (read machine.input).2 = .ok (some found) → value found = .ok written →
      machine.Finds operation address written) :
    machine.Attempts operation 1 (machine.readTo read value) := by
  unfold readTo
  cases hstack : machine.stack with
  | nil => exact .fails nofun rfl
  | cons address rest =>
    simp only
    cases hread : (read machine.input).2 with
    | error error => exact .fails nofun rfl
    | ok found =>
      cases found with
      | none => exact .fails nofun rfl
      | some found =>
        simp only
        cases hvalue : value found with
        | error fault => exact .fails nofun rfl
        | ok written =>
          refine .writes rfl (hfinds address rest found written hstack hread hvalue) ⟨?_, ?_, rfl⟩
          · simp [hstack]
          · simp only [hstack]
            rfl

theorem attempts_readChar : machine.Attempts (.io .readChar) 1 machine.readChar := by
  unfold readChar
  apply attempts_readTo
  intro address rest c written hstack hread hvalue
  cases hvalue
  exact .readChar hstack hread (toInt_ofNat_toNat c)

theorem attempts_readNumber : machine.Attempts (.io .readNumber) 1 machine.readNumber := by
  unfold readNumber
  apply attempts_readTo
  intro address rest line written hstack hread hvalue
  exact .readNumber hstack hread (toInt_of_numberOfLine hvalue)

theorem attempts_perform {count : Nat} (h : operation.heapOperands? = some count) :
    machine.Attempts operation count (machine.perform operation) := by
  unfold Operation.heapOperands? at h
  split at h <;> cases h
  · exact attempts_store
  · exact attempts_readChar
  · exact attempts_readNumber

theorem heap_perform (h : operation.heapOperands? = none) :
    (machine.perform operation).state.heap = machine.heap := by
  cases operation with
  | stack op =>
    simp only [perform]
    cases op.run machine.stack <;> rfl
  | arithmetic op =>
    simp only [perform]
    cases op.run machine.stack <;> rfl
  | heap op =>
    cases op with
    | store => cases h
    | retrieve =>
      simp only [perform, HeapOp.run]
      split
      · split <;> rfl
      · rfl
  | flow op => rfl
  | io op =>
    cases op with
    | writeChar =>
      simp only [perform, IoOp.run, writeChar]
      split
      · split <;> rfl
      · rfl
    | writeNumber =>
      simp only [perform, IoOp.run, writeNumber]
      split <;> rfl
    | readChar | readNumber => cases h

end Operations

section Steps

variable {machine ready : Machine} {operation : Operation Value} {instruction : Instruction}
  {first second value other : Value}

theorem Finds.of_dispatch? (hdispatch : machine.dispatch? = some (ready, instruction))
    (h : ready.Finds operation first value) : machine.Finds operation first value := by
  have hready := (eq_of_dispatch? hdispatch).2
  have hstack : ready.stack = machine.stack := by rw [hready]
  have hinput : ready.input = machine.input := by rw [hready]
  cases h with
  | store hfound => exact .store (hstack ▸ hfound)
  | readChar hfound hread hvalue => exact .readChar (hstack ▸ hfound) (hinput ▸ hread) hvalue
  | readNumber hfound hread hvalue => exact .readNumber (hstack ▸ hfound) (hinput ▸ hread) hvalue

theorem Inserts.of_dispatch? {count : Nat} {after : Machine}
    (hdispatch : machine.dispatch? = some (ready, instruction))
    (h : ready.Inserts count first value after) : machine.Inserts count first value after := by
  have hready := (eq_of_dispatch? hdispatch).2
  have hstack : ready.stack = machine.stack := by rw [hready]
  have hheap : ready.heap = machine.heap := by rw [hready]
  exact ⟨hstack ▸ h.count_le, hstack ▸ h.stack, hheap ▸ h.heap⟩

theorem Finds.exists_heapOperands? (h : machine.Finds operation first value) :
    ∃ count, operation.heapOperands? = some count := by
  cases h <;> exact ⟨_, rfl⟩

theorem Writes.unique (hfirst : machine.Writes first value) (hsecond : machine.Writes second other) :
    first = second ∧ value = other := by
  obtain ⟨operation, hperformed, hfinds⟩ := hfirst
  obtain ⟨operation', hperformed', hfinds'⟩ := hsecond
  obtain rfl := Option.some.inj (hperformed.symm.trans hperformed')
  exact hfinds.unique hfinds'

/-- A step that carries out one of the three operations writes and takes its operands off the stack. -/
theorem exists_writes {count : Nat}
    (h : machine.performed?.bind Operation.heapOperands? = some count) :
    ∃ address value, machine.Writes address value ∧
      machine.Inserts count address value machine.step.machine := by
  obtain ⟨operation, hperformed, hcount⟩ := Option.bind_eq_some_iff.mp h
  obtain ⟨ready, instruction, hdispatch, hdecode, houtcome⟩ := performed?_eq_some_iff.mp hperformed
  rw [step_machine_of_decode hdispatch hdecode]
  have hattempts : ready.Attempts operation count _ := attempts_perform hcount
  cases hattempts with
  | writes _ hfinds hinserts =>
    exact ⟨_, _, ⟨operation, hperformed, hfinds.of_dispatch? hdispatch⟩,
      hinserts.of_dispatch? hdispatch⟩
  | fails hfails => exact absurd houtcome hfails

theorem heap_step (h : machine.performed?.bind Operation.heapOperands? = none) :
    machine.step.machine.heap = machine.heap := by
  have hready {ready instruction} (hdispatch : machine.dispatch? = some (ready, instruction)) :
      ready.heap = machine.heap := by
    rw [(eq_of_dispatch? hdispatch).2]
  cases machine.proceeds with
  | rests hdispatch hperformed hmachine => rw [hmachine]
  | rejects hdispatch hdecode hperformed hmachine => rw [hmachine, hready hdispatch]
  | @breaks ready instruction operation hdispatch hdecode houtcome hperformed hmachine =>
    rw [hmachine, ← hready hdispatch]
    cases hcount : operation.heapOperands? with
    | none => exact heap_perform hcount
    | some count =>
      have hattempts : ready.Attempts operation count _ := attempts_perform hcount
      cases hattempts with
      | writes hnext => exact absurd hnext houtcome
      | fails _ hheap => exact hheap
  | performs hdispatch hdecode houtcome hperformed hmachine =>
    rw [hperformed] at h
    rw [hmachine, ← hready hdispatch, heap_perform h]

theorem Writes.exists_heapOperands? (h : machine.Writes first value) :
    ∃ count, machine.performed?.bind Operation.heapOperands? = some count := by
  obtain ⟨operation, hperformed, hfinds⟩ := h
  rw [hperformed]
  exact hfinds.exists_heapOperands?

theorem Writes.heap_step (h : machine.Writes first value) :
    machine.step.machine.heap = machine.heap.insert first value := by
  obtain ⟨count, hcount⟩ := h.exists_heapOperands?
  obtain ⟨address, written, hwrites, hinserts⟩ := exists_writes hcount
  obtain ⟨rfl, rfl⟩ := hwrites.unique h
  exact hinserts.heap

theorem heap_step_of_not_writes (h : ∀ address value, ¬ machine.Writes address value) :
    machine.step.machine.heap = machine.heap := by
  cases hcount : machine.performed?.bind Operation.heapOperands? with
  | none => exact Machine.heap_step hcount
  | some count =>
    obtain ⟨address, value, hwrites, -⟩ := exists_writes hcount
    exact absurd hwrites (h address value)

theorem getElem?_heap_step (address value : Value) :
    machine.step.machine.heap[address]? = some value ↔
      machine.Writes address value ∨
        machine.heap[address]? = some value ∧ ∀ other, ¬ machine.Writes address other := by
  by_cases hsome : ∃ found written, machine.Writes found written
  · obtain ⟨found, written, hwrites⟩ := hsome
    rw [hwrites.heap_step, Std.TreeMap.getElem?_insert]
    simp only [Std.compare_eq_iff_eq]
    split
    · next hsame =>
      subst hsame
      constructor
      · rintro ⟨⟩
        exact .inl hwrites
      · rintro (hother | ⟨-, hnone⟩)
        · rw [(hwrites.unique hother).2]
        · exact absurd hwrites (hnone written)
    · next hne =>
      have hnone : ∀ other, ¬ machine.Writes address other :=
        fun other hother => hne (hwrites.unique hother).1
      exact ⟨fun h => .inr ⟨h, hnone⟩, fun h => (h.resolve_left (hnone value)).1⟩
  · have hnone : ∀ found written, ¬ machine.Writes found written :=
      fun found written hwrites => hsome ⟨found, written, hwrites⟩
    rw [heap_step_of_not_writes hnone]
    exact ⟨fun h => .inr ⟨h, hnone address⟩, fun h => (h.resolve_left (hnone address value)).1⟩

theorem step_retrieve (h : machine.dispatch? = some (ready, .heap .retrieve)) :
    machine.step = (ready.perform (.heap .retrieve)).toStep machine.pc (.heap .retrieve) :=
  step_of_dispatch? h

theorem step_retrieve_of_some {address : Value} {rest : Stack}
    (h : machine.dispatch? = some (ready, .heap .retrieve))
    (hstack : machine.stack = address :: rest) (hvalue : machine.heap[address]? = some value) :
    machine.step.outcome = .ok none ∧ machine.step.machine.stack = value :: rest := by
  have hready : ready.stack = address :: rest := by rw [(eq_of_dispatch? h).2, hstack]
  have hheap : ready.heap[address]? = some value := by rw [(eq_of_dispatch? h).2, hvalue]
  rw [step_retrieve h]
  simp only [perform, HeapOp.run, hready, hheap]
  exact ⟨rfl, rfl⟩

theorem step_retrieve_of_none {address : Value} {rest : Stack}
    (h : machine.dispatch? = some (ready, .heap .retrieve))
    (hstack : machine.stack = address :: rest) (hvalue : machine.heap[address]? = none) :
    machine.step.outcome = .error ⟨machine.pc, .heap .retrieve, .uninitializedAddress address⟩ ∧
      machine.step.machine.stack = address :: rest := by
  have hready : ready.stack = address :: rest := by rw [(eq_of_dispatch? h).2, hstack]
  have hheap : ready.heap[address]? = none := by rw [(eq_of_dispatch? h).2, hvalue]
  rw [step_retrieve h]
  simp only [perform, HeapOp.run, hready, hheap]
  exact ⟨rfl, hready⟩

end Steps

section Histories

variable {history : List Machine} {machine : Machine} {address value : Value}

theorem lastWrites_snoc :
    LastWrites (history ++ [machine]) address value ↔
      machine.Writes address value ∨
        LastWrites history address value ∧ ∀ other, ¬ machine.Writes address other := by
  constructor
  · rintro ⟨before, writer, after, hsplit, hwrites, hafter⟩
    rcases append_singleton_eq_append_cons hsplit with ⟨-, -, rfl⟩ | ⟨rest, rfl, hhistory⟩
    · exact .inl hwrites
    · refine .inr ⟨⟨before, writer, rest, hhistory, hwrites, fun later hlater => ?_⟩, ?_⟩
      · exact hafter later (List.mem_append_left _ hlater)
      · exact hafter machine (List.mem_append_right _ List.mem_cons_self)
  · rintro (hwrites | ⟨⟨before, writer, after, rfl, hwrites, hafter⟩, hnone⟩)
    · exact ⟨history, machine, [], rfl, hwrites, nofun⟩
    · refine ⟨before, writer, after ++ [machine], by simp, hwrites, fun later hlater => ?_⟩
      rcases List.mem_append.mp hlater with hmem | hmem
      · exact hafter later hmem
      · rw [List.mem_singleton.mp hmem]
        exact hnone

theorem exists_lastWrites_iff :
    (∃ value, LastWrites history address value) ↔
      ∃ writer ∈ history, ∃ value, Writes writer address value := by
  constructor
  · rintro ⟨value, before, writer, after, rfl, hwrites, -⟩
    exact ⟨writer, by simp, value, hwrites⟩
  · intro h
    induction history with
    | nil => simp at h
    | cons machine history ih =>
      by_cases hrest : ∃ writer ∈ history, ∃ value, Writes writer address value
      · obtain ⟨value, before, writer, after, rfl, hlast⟩ := ih hrest
        exact ⟨value, machine :: before, writer, after, rfl, hlast⟩
      · obtain ⟨writer, hmem, value, hwrites⟩ := h
        rcases List.mem_cons.mp hmem with rfl | hmem
        · exact ⟨value, [], writer, history, rfl, hwrites,
            fun later hlater other hother => hrest ⟨later, hlater, other, hother⟩⟩
        · exact absurd ⟨writer, hmem, value, hwrites⟩ hrest

end Histories

variable {program : Program} {input : Input} {output : Output} {limit : Option Nat}
  {log : List (Call × Answer)} {history : List Machine} {machine : Machine}

theorem Calls.getElem?_heap_iff
    (hcalls : Calls (start program input output limit) log history machine) :
    ∀ address value, machine.heap[address]? = some value ↔ LastWrites history address value := by
  apply hcalls.preserves (motive := fun history machine =>
    ∀ address value, machine.heap[address]? = some value ↔ LastWrites history address value)
  · intro address value
    constructor
    · intro h
      cases h
    · rintro ⟨before, writer, after, hsplit, -⟩
      simp at hsplit
  · intro history machine h address value
    rw [getElem?_heap_step, lastWrites_snoc, h]
  · intro history machine label h
    exact h

/-- The heap is what was written last. Whatever is asked of a machine that was started on a program, its
heap holds the value that was written last to each address, and none where nothing was written. Steps
that write take exactly their operands off the stack, and no other step touches the heap, whether it
fails or not. A value is retrieved where one was written, and the stack is left alone where none was. -/
theorem Calls.heap_is_last_writes
    (hcalls : Calls (start program input output limit) log history machine) :
    (∀ address value, machine.heap[address]? = some value ↔ LastWrites history address value) ∧
      (∀ address, (∃ value, machine.heap[address]? = some value) ↔
        ∃ writer ∈ history, ∃ value, Writes writer address value) ∧
      (machine.performed?.bind Operation.heapOperands? = none →
        machine.step.machine.heap = machine.heap) ∧
      (∀ count, machine.performed?.bind Operation.heapOperands? = some count →
        ∃ address value, machine.Writes address value ∧
          machine.Inserts count address value machine.step.machine) ∧
      ∀ ready address rest, machine.dispatch? = some (ready, .heap .retrieve) →
        machine.stack = address :: rest →
        (∀ value, LastWrites history address value →
          machine.step.outcome = .ok none ∧ machine.step.machine.stack = value :: rest) ∧
        (machine.step.outcome =
            .error ⟨machine.pc, .heap .retrieve, .uninitializedAddress address⟩ ↔
          ∀ writer ∈ history, ∀ value, ¬ Writes writer address value) ∧
        (machine.step.outcome ≠ .ok none → machine.step.machine.stack = machine.stack) := by
  have hheap := hcalls.getElem?_heap_iff
  refine ⟨hheap, fun address => ?_, heap_step, fun count => exists_writes, ?_⟩
  · simp only [hheap, exists_lastWrites_iff]
  · intro ready address rest hdispatch hstack
    refine ⟨fun value hlast => ?_, ?_⟩
    · exact step_retrieve_of_some hdispatch hstack ((hheap address value).mpr hlast)
    cases hvalue : machine.heap[address]? with
    | some value =>
      obtain ⟨hnext, -⟩ := step_retrieve_of_some hdispatch hstack hvalue
      obtain ⟨writer, hmem, value', hwrites⟩ :=
        exists_lastWrites_iff.mp ⟨value, (hheap address value).mp hvalue⟩
      refine ⟨iff_of_false ?_ fun hnone => hnone writer hmem value' hwrites, absurd hnext⟩
      rw [hnext]
      exact nofun
    | none =>
      obtain ⟨herror, hkept⟩ := step_retrieve_of_none hdispatch hstack hvalue
      refine ⟨iff_of_true herror fun writer hmem value hwrites => ?_, fun _ => ?_⟩
      · obtain ⟨last, hlast⟩ := exists_lastWrites_iff.mpr ⟨writer, hmem, value, hwrites⟩
        rw [(hheap address last).mpr hlast] at hvalue
        cases hvalue
      · rw [hkept, hstack]

theorem heap_is_last_writes_store_retrieve :
    let program : Program := #[.stack (.push ⟨true, [true]⟩), .stack (.push ⟨false, [true]⟩),
      .heap .store, .stack (.push ⟨true, [true]⟩), .heap .retrieve]
    let first := start program { remaining := [] } {} none
    let third := first.step.machine.step.machine
    let fifth := third.step.machine.step.machine
    ∃ log history, Calls first log history fifth ∧ LastWrites history (-1) 1 ∧
      (∃ ready, fifth.dispatch? = some (ready, .heap .retrieve)) ∧ fifth.stack = [-1] ∧
      fifth.step.outcome = .ok none ∧ fifth.step.machine.stack = [1] := by
  intro program first third fifth
  obtain ⟨log, history, hcalls⟩ : ∃ log history, Calls first log history fifth :=
    ⟨_, _, .snoc (.snoc (.snoc (.snoc .nil .step) .step) .step) .step⟩
  have hinstruction : fifth.dispatch?.map (·.2) = some (.heap .retrieve) := by decide +kernel
  obtain ⟨⟨ready, instruction⟩, hdispatch, rfl⟩ := Option.map_eq_some_iff.mp hinstruction
  have hstack : fifth.stack = [-1] := by decide +kernel
  have hvalue : fifth.heap[(-1 : Value)]? = some 1 := by decide +kernel
  obtain ⟨hheap, -, -, -, hretrieve⟩ := hcalls.heap_is_last_writes
  have hlast := (hheap (-1) 1).mp hvalue
  obtain ⟨hnext, hresult⟩ := (hretrieve ready (-1) [] hdispatch hstack).1 1 hlast
  exact ⟨log, history, hcalls, hlast, ⟨ready, hdispatch⟩, hstack, hnext, hresult⟩

end Machine

end Whitespace
