import Whitespace.Proofs.Machine.Calls
import Whitespace.Proofs.Machine.Outcome
import Whitespace.Proofs.Machine.Failure
import Whitespace.Proofs.Text.Sequences

/-!
What a step does to input and output. A step that reads takes from the input what it has read, and then
either stores a value (`Stores`) or fails (`FailsToRead`); every other step leaves the input alone. A step
either writes the bytes that `Prints` gives it, and then it does nothing else but take their value off the
stack, or it does not see the output at all. So the output only grows, and what a history has written is
what each of its steps has, one after the other.
-/

namespace Whitespace

open Machine

theorem Instruction.eq_io_of_decode {instruction : Instruction} {op : IoOp}
    (h : instruction.decode = .ok (.io op)) : instruction = .io op := by
  have hopcode := Instruction.opcode_of_decode h
  rcases instruction with found | found | found | found | found <;> cases found <;> cases hopcode <;>
    rfl

namespace Machine

theorem performed?_io_eq_some_iff {machine : Machine} {op : IoOp} :
    machine.performed? = some (.io op) ↔
      ∃ ready, machine.dispatch? = some (ready, .io op) ∧ machine.step.outcome = .ok none := by
  constructor
  · intro h
    obtain ⟨ready, instruction, hdispatch, hdecode, -⟩ := performed?_eq_some_iff.mp h
    obtain rfl := Instruction.eq_io_of_decode hdecode
    exact ⟨ready, hdispatch, outcome_of_performed? h⟩
  · rintro ⟨ready, hdispatch, hnext⟩
    simp only [performed?, hdispatch, hnext]
    rfl

section Dispatch

variable {machine ready : Machine} {instruction : Instruction}

theorem stack_of_dispatch? (h : machine.dispatch? = some (ready, instruction)) :
    ready.stack = machine.stack := by
  rw [(eq_of_dispatch? h).2]

theorem heap_of_dispatch? (h : machine.dispatch? = some (ready, instruction)) :
    ready.heap = machine.heap := by
  rw [(eq_of_dispatch? h).2]

theorem input_of_dispatch? (h : machine.dispatch? = some (ready, instruction)) :
    ready.input = machine.input := by
  rw [(eq_of_dispatch? h).2]

end Dispatch

def finding {α : Type} (read : Input → Input × Except StreamError (Option α))
    (value : α → Except Fault Value) (input : Input) : Except Fault Value :=
  match (read input).2 with
  | .error error => .error (.stream error)
  | .ok none => .error .endOfInput
  | .ok (some found) => value found

section Reading

variable {α : Type} {machine : Machine} {address : Value} {rest : Stack}
  {read : Input → Input × Except StreamError (Option α)} {value : α → Except Fault Value}

theorem readTo_of_ok (hstack : machine.stack = address :: rest) {stored : Value}
    (h : finding read value machine.input = .ok stored) :
    machine.readTo read value =
      { state :=
          { machine with
            stack := rest, heap := machine.heap.insert address stored
            input := (read machine.input).1 } } := by
  unfold finding at h
  split at h
  · cases h
  · cases h
  · next found hread => simp only [readTo, hstack, hread, h]

theorem readTo_of_error (hstack : machine.stack = address :: rest) {fault : Fault}
    (h : finding read value machine.input = .error fault) :
    machine.readTo read value =
      { state := { machine with input := (read machine.input).1 }
        outcome := .error fault } := by
  unfold finding at h
  split at h
  · next hread =>
    cases h
    simp only [readTo, hstack, hread, fail]
  · next hread =>
    cases h
    simp only [readTo, hstack, hread, fail]
  · next found hread => simp only [readTo, hstack, hread, h, fail]

end Reading

theorem input_perform (machine : Machine) {operation : Operation Value}
    (h : operation.readsInput = false ∨ machine.stack = []) :
    (machine.perform operation).state.input = machine.input := by
  cases operation with
  | stack op =>
    simp only [perform]
    cases op.run machine.stack <;> rfl
  | arithmetic op =>
    simp only [perform]
    cases op.run machine.stack <;> rfl
  | heap op =>
    simp only [perform]
    cases op.run machine.stack machine.heap <;> rfl
  | flow op => rfl
  | io op =>
    cases op with
    | writeChar =>
      simp only [perform, IoOp.run, writeChar]
      split
      · split <;> rfl
      · rfl
    | writeNumber =>
      simp only [perform, IoOp.run, writeNumber]
      split <;> rfl
    | readChar =>
      have hstack := h.resolve_left (by decide)
      simp only [perform, IoOp.run, readChar, readTo, hstack, fail]
    | readNumber =>
      have hstack := h.resolve_left (by decide)
      simp only [perform, IoOp.run, readNumber, readTo, hstack, fail]

def reads? (machine : Machine) : Option IoOp :=
  match machine.dispatch?, machine.stack with
  | some (_, .io .readChar), _ :: _ => some .readChar
  | some (_, .io .readNumber), _ :: _ => some .readNumber
  | _, _ => none

theorem reads?_eq_some {machine : Machine} {op : IoOp} (h : machine.reads? = some op) :
    ∃ ready, machine.dispatch? = some (ready, .io op) ∧ machine.stack ≠ [] := by
  unfold reads? at h
  split at h
  · next hdispatch hstack =>
    cases h
    exact ⟨_, hdispatch, by simp [hstack]⟩
  · next hdispatch hstack =>
    cases h
    exact ⟨_, hdispatch, by simp [hstack]⟩
  · cases h

theorem reads?_cases (machine : Machine) :
    machine.reads? = none ∨ machine.reads? = some .readChar ∨ machine.reads? = some .readNumber := by
  unfold reads?
  split <;> simp

theorem input_step {machine : Machine} (h : machine.reads? = none) :
    machine.step.machine.input = machine.input := by
  cases hdispatch : machine.dispatch? with
  | none => rw [step_machine_of_dispatch?_none hdispatch]
  | some dispatched =>
    obtain ⟨ready, instruction⟩ := dispatched
    rw [step_machine_of_dispatch? hdispatch, ← input_of_dispatch? hdispatch]
    unfold execute
    cases hdecode : instruction.decode with
    | error error => rfl
    | ok operation =>
      apply input_perform
      cases hreads : operation.readsInput with
      | false => exact .inl rfl
      | true =>
        right
        rw [stack_of_dispatch? hdispatch]
        -- Both operations that read would be found by `reads?` if there were an address.
        unfold Operation.readsInput at hreads
        cases haddress : machine.stack with
        | nil => rfl
        | cons address rest =>
          split at hreads
          · obtain rfl := Instruction.eq_io_of_decode hdecode
            simp [reads?, hdispatch, haddress] at h
          · obtain rfl := Instruction.eq_io_of_decode hdecode
            simp [reads?, hdispatch, haddress] at h
          · cases hreads

/-- The next step takes an address off the stack and stores there the value that it reads. -/
def Stores (op : IoOp) (machine : Machine) (value : Value) : Prop :=
  machine.performed? = some (.io op) ∧
    ∃ address, machine.stack = address :: machine.step.machine.stack ∧
      machine.step.machine.heap = machine.heap.insert address value

/-- The next step fails and leaves stack and heap as they are. -/
def FailsToRead (op : IoOp) (machine : Machine) (fault : Fault) : Prop :=
  machine.step.outcome = .error ⟨machine.pc, .io op, fault⟩ ∧
    machine.step.machine.stack = machine.stack ∧ machine.step.machine.heap = machine.heap

theorem Stores.unique {op : IoOp} {machine : Machine} {first second : Value}
    (hfirst : machine.Stores op first) (hsecond : machine.Stores op second) : first = second := by
  obtain ⟨-, address, hstack, hheap⟩ := hfirst
  obtain ⟨-, other, hother, hinsert⟩ := hsecond
  obtain ⟨rfl, -⟩ := List.cons.inj (hstack.symm.trans hother)
  have hsame := congrArg (·[address]?) (hheap.symm.trans hinsert)
  simpa using hsame

theorem FailsToRead.not_stores {op : IoOp} {machine : Machine} {fault : Fault} {value : Value}
    (hfails : machine.FailsToRead op fault) : ¬ machine.Stores op value := by
  rintro ⟨hperformed, -⟩
  cases hfails.1.symm.trans (outcome_of_performed? hperformed)

section Findings

variable {α : Type} {op : IoOp} {machine ready : Machine} {address : Value} {rest : Stack}
  {read : Input → Input × Except StreamError (Option α)} {value : α → Except Fault Value}

theorem stores_of_finding (hdispatch : machine.dispatch? = some (ready, .io op))
    (hperform : ready.perform (.io op) = ready.readTo read value)
    (hstack : machine.stack = address :: rest) {stored : Value}
    (h : finding read value machine.input = .ok stored) :
    machine.Stores op stored ∧ machine.step.machine.input = (read machine.input).1 := by
  have hmachine := step_machine_of_decode hdispatch rfl
  have hcons : ready.stack = address :: rest := (stack_of_dispatch? hdispatch).trans hstack
  rw [← input_of_dispatch? hdispatch] at h ⊢
  rw [readTo_of_ok hcons h] at hperform
  rw [hperform] at hmachine
  have hperformed : machine.performed? = some (.io op) :=
    performed?_eq_some_iff.mpr ⟨ready, _, hdispatch, rfl, by rw [hperform]⟩
  rw [Stores, hmachine, hstack, ← heap_of_dispatch? hdispatch]
  exact ⟨⟨hperformed, address, rfl, rfl⟩, rfl⟩

theorem failsToRead_of_finding (hdispatch : machine.dispatch? = some (ready, .io op))
    (hperform : ready.perform (.io op) = ready.readTo read value)
    (hstack : machine.stack = address :: rest) {fault : Fault}
    (h : finding read value machine.input = .error fault) :
    machine.FailsToRead op fault ∧ machine.step.machine.input = (read machine.input).1 := by
  have hcons : ready.stack = address :: rest := (stack_of_dispatch? hdispatch).trans hstack
  rw [← input_of_dispatch? hdispatch] at h ⊢
  rw [readTo_of_error hcons h] at hperform
  rw [FailsToRead, step_of_dispatch? hdispatch, execute_of_decode rfl, hperform, hstack, ← hcons,
    ← heap_of_dispatch? hdispatch]
  exact ⟨⟨rfl, rfl, rfl⟩, rfl⟩

theorem input_step_of_reads (hdispatch : machine.dispatch? = some (ready, .io op))
    (hperform : ready.perform (.io op) = ready.readTo read value)
    (hstack : machine.stack = address :: rest) :
    machine.step.machine.input = (read machine.input).1 := by
  cases h : finding read value machine.input with
  | ok stored => exact (stores_of_finding hdispatch hperform hstack h).2
  | error fault => exact (failsToRead_of_finding hdispatch hperform hstack h).2

end Findings

def Output.Fits (output : Output) (bytes : List UInt8) : Prop :=
  ∀ limit, output.limit = some limit → output.written.size + bytes.length ≤ limit

section Output

variable {output : Output} {bytes : List UInt8}

theorem Output.TakesAll.fits (h : output.TakesAll) : output.Fits bytes := by
  intro limit hlimit
  rw [h.limit] at hlimit
  cases hlimit

theorem Output.print_of_fits (h : output.Fits bytes) (hdevice : output.device = {}) :
    output.print bytes =
      ({ output with
          written := output.written ++ bytes
          asked := .flush :: .write bytes :: output.asked }, .ok ()) := by
  have hadmitted : output.admitted bytes = bytes := by
    unfold admitted
    split
    · rfl
    · next limit hlimit =>
      have hroom := h limit hlimit
      exact List.take_of_length_le (by omega)
  simp [print, write, flush, hadmitted, hdevice]

end Output

theorem outcome_write_eq_next_iff {machine : Machine} {rest : Stack} {bytes : List UInt8} :
    (machine.write rest bytes).outcome = .ok .next ↔ (machine.output.print bytes).2 = .ok () := by
  unfold write
  simp only
  split
  · next hresult => simp only [hresult]
  · next hresult => simp only [hresult, reduceCtorEq]

theorem scalar?_eq_some_iff {value : Value} {c : Char} :
    scalar? value = some c ↔ value.toInt = c.toNat := by
  have hlt : value < 0 ↔ value.toInt < 0 := Int64.lt_iff_toInt_lt
  unfold scalar?
  split
  · next hnegative =>
    rw [hlt] at hnegative
    simp only [reduceCtorEq, false_iff]
    omega
  · next hnonneg =>
    rw [hlt] at hnonneg
    rw [Text.Utf8.scalar?_eq_some_iff]
    omega

/-- The next step writes these bytes, or the first of them: the character of the value on top of the
stack, or its decimal text. -/
inductive Prints (machine : Machine) : List UInt8 → Prop
  | char {ready : Machine} {top : Value} {rest : Stack} {c : Char}
      (hdispatch : machine.dispatch? = some (ready, .io .writeChar))
      (hstack : machine.stack = top :: rest) (hpoint : top.toInt = c.toNat) :
      Prints machine (Text.Utf8.encode c)
  | number {ready : Machine} {top : Value} {rest : Stack}
      (hdispatch : machine.dispatch? = some (ready, .io .writeNumber))
      (hstack : machine.stack = top :: rest) : Prints machine (Text.Utf8.encodeText top.text)

def withOutput (machine : Machine) (output : Output) : Machine := { machine with output }

section Output

variable (machine : Machine) (output : Output)

theorem perform_of_text? {operation : Operation Value} {bytes : List UInt8}
    (h : operation.text? machine.stack = some bytes) :
    machine.perform operation = machine.write machine.stack.tail bytes := by
  unfold Operation.text? at h
  split at h
  · next top rest hstack =>
    obtain ⟨c, hscalar, rfl⟩ := Option.map_eq_some_iff.mp h
    simp only [perform, IoOp.run, writeChar, hstack, hscalar, List.tail_cons]
  · next top rest hstack =>
    cases h
    simp only [perform, IoOp.run, writeNumber, hstack, List.tail_cons]
  · cases h

theorem spend_withOutput :
    (machine.withOutput output).spend = machine.spend.map (withOutput · output) := by
  obtain ⟨program, control, stack, heap, input, _, fuel⟩ := machine
  rcases fuel with _ | ⟨limit, _ | left⟩ <;> rfl

theorem dispatch?_withOutput :
    (machine.withOutput output).dispatch? =
      machine.dispatch?.map fun dispatched => (dispatched.1.withOutput output, dispatched.2) := by
  have hinstruction : (machine.withOutput output).program[(machine.withOutput output).pc]? =
      machine.program[machine.pc]? := rfl
  unfold dispatch?
  rw [hinstruction, spend_withOutput]
  cases machine.program[machine.pc]? with
  | none => rfl
  | some instruction => cases machine.spend <;> rfl

end Output

section Steps

variable {machine : Machine} {bytes : List UInt8}

theorem prints_iff :
    machine.Prints bytes ↔ ∃ ready instruction operation,
      machine.dispatch? = some (ready, instruction) ∧ instruction.decode = .ok operation ∧
        operation.text? machine.stack = some bytes := by
  constructor
  · intro h
    cases h with
    | char hdispatch hstack hpoint =>
      refine ⟨_, _, _, hdispatch, rfl, ?_⟩
      simp only [hstack, Operation.text?, scalar?_eq_some_iff.mpr hpoint, Option.map_some]
    | number hdispatch hstack =>
      refine ⟨_, _, _, hdispatch, rfl, ?_⟩
      simp only [hstack, Operation.text?]
  · rintro ⟨ready, instruction, operation, hdispatch, hdecode, htext⟩
    unfold Operation.text? at htext
    split at htext
    · next top rest hstack =>
      obtain ⟨c, hscalar, rfl⟩ := Option.map_eq_some_iff.mp htext
      rw [Instruction.eq_io_of_decode hdecode] at hdispatch
      exact .char hdispatch hstack (scalar?_eq_some_iff.mp hscalar)
    · next top rest hstack =>
      cases htext
      rw [Instruction.eq_io_of_decode hdecode] at hdispatch
      exact .number hdispatch hstack
    · cases htext

/-- A step that prints hands its bytes to the output and does nothing else but take their value off the
stack. -/
theorem Prints.step (h : machine.Prints bytes) :
    ∃ ready instruction, machine.dispatch? = some (ready, instruction) ∧
      ∀ output, (machine.withOutput output).step =
        ((ready.withOutput output).write machine.stack.tail bytes).toStep machine.pc instruction := by
  obtain ⟨ready, instruction, operation, hdispatch, hdecode, htext⟩ := prints_iff.mp h
  refine ⟨ready, instruction, hdispatch, fun output => ?_⟩
  rw [← stack_of_dispatch? hdispatch] at htext ⊢
  have hother : (machine.withOutput output).dispatch? =
      some (ready.withOutput output, instruction) := by
    rw [dispatch?_withOutput, hdispatch]
    rfl
  rw [step_of_dispatch? hother, execute_of_decode hdecode,
    perform_of_text? (ready.withOutput output) htext]
  rfl

def emitted (machine : Machine) : List UInt8 :=
  machine.step.machine.output.written.toList.drop machine.output.written.size

theorem emitted_of_written {part : List UInt8}
    (h : machine.step.machine.output.written = machine.output.written ++ part) :
    machine.emitted = part := by
  rw [emitted, h]
  simp

theorem Prints.output_step (h : machine.Prints bytes) :
    machine.step.machine.output = (machine.output.print bytes).1 := by
  obtain ⟨ready, instruction, -, hstep⟩ := h.step
  exact congrArg (fun step => step.machine.output) (hstep machine.output)

theorem Prints.outcome_eq_next_iff (h : machine.Prints bytes) :
    machine.step.outcome = .ok none ↔ (machine.output.print bytes).2 = .ok () := by
  obtain ⟨ready, instruction, -, hstep⟩ := h.step
  have hsame : machine.withOutput machine.output = machine := rfl
  rw [← hsame, hstep, Effect.outcome_toStep_eq_next_iff, outcome_write_eq_next_iff]
  rfl

theorem Prints.exists_part (h : machine.Prints bytes) :
    ∃ part requests, part <+: bytes ∧ (machine.step.outcome = .ok none → part = bytes) ∧
      machine.step.machine.output =
        { machine.output with
          written := machine.output.written ++ part
          asked := requests ++ machine.output.asked } := by
  obtain ⟨part, requests, hpart, hall, houtput⟩ := machine.output.exists_part_print bytes
  refine ⟨part, requests, hpart, fun hnext => ?_, h.output_step.trans houtput⟩
  exact hall (Output.write_of_print (h.outcome_eq_next_iff.mp hnext))

theorem Prints.emitted_eq (h : machine.Prints bytes) (hnext : machine.step.outcome = .ok none) :
    machine.emitted = bytes := by
  obtain ⟨part, requests, -, hall, houtput⟩ := h.exists_part
  rw [emitted_of_written (congrArg Output.written houtput), hall hnext]

end Steps

end Machine

end Whitespace
