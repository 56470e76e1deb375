import Whitespace.Proofs.Machine.Fuel

/-!
Steps that fail. `Leaves` lists what an instruction can leave of the machine that executed it when it
fails: all of it, or all but the labels that a vain lookup recorded and the value that a taken jump
popped, or all but the value to be written and what the output took of its text, or all but the bytes that
were read.
Missing fuel is noticed before anything is touched, and no instruction reports it.
-/

namespace Whitespace

open Machine

namespace Operation

/-- The label that an operation looks up; a conditional jump looks its label up if it is taken. -/
def sought? (stack : Stack) (operation : Operation Value) : Option Value :=
  match operation, stack with
  | .flow (.call label), _ | .flow (.jump label), _ => some label
  | .flow (.jumpIfZero label), top :: _ => if top = 0 then some label else none
  | .flow (.jumpIfNegative label), top :: _ => if top < 0 then some label else none
  | _, _ => none

def text? (stack : Stack) (operation : Operation Value) : Option (List UInt8) :=
  match operation, stack with
  | .io .writeChar, top :: _ => (scalar? top).map Text.Utf8.encode
  | .io .writeNumber, top :: _ => some (Text.Utf8.encodeText top.text)
  | _, _ => none

def isConditional : Operation Value → Bool
  | .flow (.jumpIfZero _) | .flow (.jumpIfNegative _) => true
  | _ => false

def readsInput : Operation Value → Bool
  | .io .readChar | .io .readNumber => true
  | _ => false

variable {stack : Stack} {operation : Operation Value}

theorem text?_of_sought? {label : Value} (h : operation.sought? stack = some label) :
    operation.text? stack = none := by
  cases operation with
  | io op => cases h
  | _ => rfl

theorem sought?_of_readsInput (h : operation.readsInput) : operation.sought? stack = none := by
  cases operation with
  | flow op => cases op <;> cases h
  | _ => rfl

theorem text?_of_readsInput (h : operation.readsInput) : operation.text? stack = none := by
  cases operation with
  | io op =>
    cases op with
    | writeChar | writeNumber => cases h
    | readChar | readNumber => rfl
  | _ => rfl

theorem exists_top_of_text? {bytes : List UInt8} (h : operation.text? stack = some bytes) :
    ∃ top, stack = top :: stack.tail := by
  unfold text? at h
  split at h
  · exact ⟨_, rfl⟩
  · exact ⟨_, rfl⟩
  · cases h

theorem exists_top_of_isConditional {label : Value} (hsought : operation.sought? stack = some label)
    (h : operation.isConditional) : ∃ top, stack = top :: stack.tail := by
  unfold isConditional at h
  split at h
  · cases stack with
    | nil => cases hsought
    | cons top rest => exact ⟨top, rfl⟩
  · cases stack with
    | nil => cases hsought
    | cons top rest => exact ⟨top, rfl⟩
  · cases h

end Operation

namespace Machine

/-- What an operation leaves of a machine when it fails. -/
inductive Leaves (machine : Machine) (operation : Operation Value) (fault : Fault) : Machine → Prop
  | whole (hfuel : ∀ limit, fault ≠ .outOfFuel limit)
      (hsought : operation.sought? machine.stack = none)
      (htext : operation.text? machine.stack = none) : Leaves machine operation fault machine
  | unfound {label : Value} (hsought : operation.sought? machine.stack = some label)
      (hfault : (machine.resolve label).2 = .error fault) :
      Leaves machine operation fault
        { (machine.resolve label).1 with
          stack := if operation.isConditional then machine.stack.tail else machine.stack }
  | unwritten {bytes : List UInt8} {reason : StreamError}
      (htext : operation.text? machine.stack = some bytes)
      (hfails : (machine.output.print bytes).2 = .error reason) (hfault : fault = .stream reason) :
      Leaves machine operation fault
        { machine with stack := machine.stack.tail, output := (machine.output.print bytes).1 }
  | unread (hfuel : ∀ limit, fault ≠ .outOfFuel limit) (hreads : operation.readsInput)
      (hstack : machine.stack ≠ []) {count : Nat}
      (hcount : count ≤ machine.input.remaining.length) :
      Leaves machine operation fault { machine with input := machine.input.advance count }

section Flow

variable {machine : Machine} {label : Value} {fault : Fault}

theorem state_transfer_of_error {control : Control} {program : Program} {calls : List Nat}
    {event : Value → Nat → Event}
    (h : (control.transfer program label calls event).outcome = .error fault) :
    (control.labels.resolve program label).result label = .error fault ∧
      (control.transfer program label calls event).state =
        { control with labels := (control.labels.resolve program label).table } := by
  unfold Control.transfer at h ⊢
  simp only at h ⊢
  split at h
  · cases h
  · next hresult =>
    cases h
    simp only [hresult, and_self]

theorem leaves_of_transfer {op : FlowOp Value} {calls : List Nat} {event : Value → Nat → Event}
    (hsought : (Operation.flow op).sought? machine.stack = some label)
    (hbranch : (Operation.flow op).isConditional = false)
    (h : (machine.control.transfer machine.program label calls event).outcome = .error fault) :
    Leaves machine (.flow op) fault
      { machine with
        control := (machine.control.transfer machine.program label calls event).state } := by
  obtain ⟨hfault, hstate⟩ := state_transfer_of_error h
  have hleaves := Leaves.unfound hsought hfault
  rw [hbranch] at hleaves
  rw [hstate]
  exact hleaves

theorem leaves_of_branch {op : FlowOp Value} {test : Value → Bool}
    (hempty : (Operation.flow op).sought? [] = none)
    (hcons : ∀ top rest,
      (Operation.flow op).sought? (top :: rest) = if test top then some label else none)
    (hbranch : (Operation.flow op).isConditional = true)
    (h : (machine.control.branch machine.program machine.stack label test).outcome =
      .error fault) :
    Leaves machine (.flow op) fault
      { machine with
        control := (machine.control.branch machine.program machine.stack label test).state.1
        stack := (machine.control.branch machine.program machine.stack label test).state.2 } := by
  obtain ⟨program, control, stack, heap, input, output, fuel⟩ := machine
  unfold Control.branch at h ⊢
  cases stack with
  | nil =>
    cases h
    exact .whole nofun hempty rfl
  | cons top rest =>
    simp only at h ⊢
    cases htest : test top with
    | false =>
      simp only [htest] at h
      cases h
    | true =>
      have hsought := hcons top rest
      simp only [htest, if_true, Control.jump, Effect.within] at h hsought ⊢
      obtain ⟨hfault, hstate⟩ := state_transfer_of_error h
      have hleaves := @Leaves.unfound ⟨program, control, top :: rest, heap, input, output, fuel⟩
        (.flow op) fault label hsought hfault
      rw [hbranch] at hleaves
      rw [hstate]
      exact hleaves

theorem leaves_of_flow {op : FlowOp Value}
    (h : (machine.perform (.flow op)).outcome = .error fault) :
    Leaves machine (.flow op) fault (machine.perform (.flow op)).state := by
  cases op with
  | mark label => cases h
  | call label => exact leaves_of_transfer rfl rfl h
  | jump label => exact leaves_of_transfer rfl rfl h
  | jumpIfZero label | jumpIfNegative label =>
    apply leaves_of_branch rfl _ rfl h
    simp [Operation.sought?]
  | ret =>
    obtain ⟨program, ⟨pc, calls, labels⟩, stack, heap, input, output, fuel⟩ := machine
    cases calls with
    | nil =>
      cases h
      exact .whole nofun rfl rfl
    | cons target rest => cases h
  | stop => cases h

end Flow

section Exchange

variable {machine : Machine} {fault : Fault}

theorem leaves_of_write {op : IoOp} {top : Value} {rest : Stack} {bytes : List UInt8}
    (hstack : machine.stack = top :: rest)
    (htext : (Operation.io op).text? machine.stack = some bytes)
    (h : (machine.write rest bytes).outcome = .error fault) :
    Leaves machine (.io op) fault (machine.write rest bytes).state := by
  unfold write at h ⊢
  simp only at h
  split at h
  · cases h
  · next reason hfails =>
    cases h
    have hleaves := Leaves.unwritten htext hfails rfl
    rw [hstack] at hleaves
    exact hleaves

theorem Input.exists_advance_readChar (input : Input) :
    ∃ count ≤ input.remaining.length, input.readChar.1 = input.advance count := by
  unfold Input.readChar
  split
  · exact ⟨0, Nat.zero_le _, rfl⟩
  · split
    · exact ⟨0, Nat.zero_le _, rfl⟩
    · next width _ =>
      refine ⟨(input.remaining.take width).length, List.length_take_le' _ _, ?_⟩
      simp only
      split
      · rfl
      · split <;> rfl

theorem Input.length_line_le (bytes : List UInt8) : (Input.line bytes).length ≤ bytes.length := by
  have hparts :=
    congrArg List.length (List.takeWhile_append_dropWhile (p := (· != 10)) (l := bytes))
  simp only [Input.line, List.length_append, List.length_take] at hparts ⊢
  omega

theorem Input.exists_advance_readLine (input : Input) :
    ∃ count ≤ input.remaining.length, input.readLine.1 = input.advance count := by
  refine ⟨(Input.line input.remaining).length, Input.length_line_le _, ?_⟩
  unfold Input.readLine
  simp only
  split
  · rfl
  · split <;> rfl

theorem leaves_of_readTo {α : Type} {op : IoOp}
    {read : Input → Input × Except StreamError (Option α)} {value : α → Except Fault Value}
    (hreads : (Operation.io op).readsInput)
    (htext : (Operation.io op).text? machine.stack = none)
    (hvalue : ∀ found limit, value found ≠ .error (.outOfFuel limit))
    (hadvance : ∃ count ≤ machine.input.remaining.length,
      (read machine.input).1 = machine.input.advance count)
    (h : (machine.readTo read value).outcome = .error fault) :
    Leaves machine (.io op) fault (machine.readTo read value).state := by
  obtain ⟨program, control, stack, heap, input, output, fuel⟩ := machine
  cases stack with
  | nil =>
    cases h
    exact .whole nofun rfl htext
  | cons address rest =>
    obtain ⟨count, hcount, hinput⟩ := hadvance
    have hleaves : ∀ fault, (∀ limit, fault ≠ Fault.outOfFuel limit) →
        Leaves ⟨program, control, address :: rest, heap, input, output, fuel⟩ (.io op) fault
          ⟨program, control, address :: rest, heap, (read input).1, output, fuel⟩ := by
      intro fault hfuel
      rw [hinput]
      exact .unread hfuel hreads (List.cons_ne_nil address rest) hcount
    simp only [readTo] at h ⊢
    split at h
    · next reason _ =>
      cases h
      exact hleaves (.stream reason) nofun
    · cases h
      exact hleaves .endOfInput nofun
    · next found _ =>
      cases hfound : value found with
      | error reason =>
        simp only [hfound] at h ⊢
        cases h
        apply hleaves
        rintro limit rfl
        exact hvalue found limit hfound
      | ok stored =>
        simp only [hfound] at h
        cases h

theorem numberOfLine_ne_outOfFuel (line : List Char) (limit : Nat) :
    numberOfLine line ≠ .error (.outOfFuel limit) := by
  unfold numberOfLine
  simp only
  split <;> exact nofun

theorem leaves_of_io {op : IoOp} (h : (machine.perform (.io op)).outcome = .error fault) :
    Leaves machine (.io op) fault (machine.perform (.io op)).state := by
  obtain ⟨program, control, stack, heap, input, output, fuel⟩ := machine
  cases op with
  | writeChar =>
    cases stack with
    | nil =>
      cases h
      exact .whole (by simp) rfl rfl
    | cons top rest =>
      have htext : (Operation.io .writeChar).text? (top :: rest) =
          (scalar? top).map Text.Utf8.encode := rfl
      simp only [perform, IoOp.run, writeChar] at h ⊢
      cases hscalar : scalar? top with
      | none =>
        rw [hscalar] at htext h
        cases h
        exact .whole (by simp) rfl htext
      | some c =>
        rw [hscalar] at htext h
        exact leaves_of_write rfl htext h
  | writeNumber =>
    cases stack with
    | nil =>
      cases h
      exact .whole (by simp) rfl rfl
    | cons top rest => exact leaves_of_write rfl rfl h
  | readChar => exact leaves_of_readTo rfl rfl (by simp) input.exists_advance_readChar h
  | readNumber =>
    exact leaves_of_readTo rfl rfl numberOfLine_ne_outOfFuel input.exists_advance_readLine h

end Exchange

theorem StackOp.run_ne_outOfFuel (stack : Stack) (op : StackOp Value) (limit : Nat) :
    op.run stack ≠ .error (.outOfFuel limit) := by
  cases op with
  | push value => exact nofun
  | duplicate => cases stack <;> exact nofun
  | discard => cases stack <;> exact nofun
  | swap =>
    simp only [StackOp.run, Stack.underflow]
    split <;> exact nofun
  | copy operand | slide operand =>
    simp only [StackOp.run, Stack.depth, Stack.underflow]
    split
    · exact nofun
    · simp only [bind, Except.bind]
      split <;> exact nofun

theorem ArithmeticOp.fit_ne_outOfFuel (result : Int) (limit : Nat) :
    ArithmeticOp.fit result ≠ .error (.outOfFuel limit) := by
  unfold ArithmeticOp.fit
  split <;> exact nofun

theorem ArithmeticOp.apply_ne_outOfFuel (second first : Value) (op : ArithmeticOp) (limit : Nat) :
    op.apply second first ≠ .error (.outOfFuel limit) := by
  cases op with
  | add | subtract | multiply => exact fit_ne_outOfFuel _ limit
  | divide =>
    simp only [ArithmeticOp.apply]
    split
    · exact nofun
    · exact fit_ne_outOfFuel _ limit
  | modulo =>
    simp only [ArithmeticOp.apply, bind, Except.bind]
    split
    · exact nofun
    · split
      · next fault hfit =>
        intro h
        cases h
        exact fit_ne_outOfFuel _ limit hfit
      · exact fit_ne_outOfFuel _ limit

theorem ArithmeticOp.run_ne_outOfFuel (stack : Stack) (op : ArithmeticOp) (limit : Nat) :
    op.run stack ≠ .error (.outOfFuel limit) := by
  unfold ArithmeticOp.run
  split
  · next first second rest =>
    have happly := apply_ne_outOfFuel second first op limit
    cases hresult : op.apply second first with
    | ok value => exact nofun
    | error fault =>
      intro h
      cases h
      exact happly hresult
  · exact nofun

theorem HeapOp.run_ne_outOfFuel (stack : Stack) (heap : Heap) (op : HeapOp) (limit : Nat) :
    op.run stack heap ≠ .error (.outOfFuel limit) := by
  unfold HeapOp.run
  split
  · split <;> exact nofun
  · split
    · split <;> exact nofun
    · exact nofun

theorem leaves_of_ofExcept {σ : Type} {machine : Machine} {operation : Operation Value}
    {embed : σ → Machine} {result : Except Fault σ} {fault : Fault}
    (hsought : operation.sought? machine.stack = none)
    (htext : operation.text? machine.stack = none)
    (hfuel : ∀ limit, result ≠ .error (.outOfFuel limit))
    (h : (Effect.ofExcept machine embed result).outcome = .error fault) :
    Leaves machine operation fault (Effect.ofExcept machine embed result).state := by
  cases result with
  | ok state => cases h
  | error found =>
    cases h
    exact .whole (fun limit heq => hfuel limit (congrArg Except.error heq)) hsought htext

theorem leaves_of_perform {machine : Machine} {operation : Operation Value} {fault : Fault}
    (h : (machine.perform operation).outcome = .error fault) :
    Leaves machine operation fault (machine.perform operation).state := by
  cases operation with
  | stack op => exact leaves_of_ofExcept rfl rfl (StackOp.run_ne_outOfFuel machine.stack op) h
  | arithmetic op =>
    exact leaves_of_ofExcept rfl rfl (ArithmeticOp.run_ne_outOfFuel machine.stack op) h
  | heap op =>
    exact leaves_of_ofExcept rfl rfl (HeapOp.run_ne_outOfFuel machine.stack machine.heap op) h
  | flow op => exact leaves_of_flow h
  | io op => exact leaves_of_io h

theorem Leaves.ne_outOfFuel {machine after : Machine} {operation : Operation Value} {fault : Fault}
    (h : Leaves machine operation fault after) (limit : Nat) : fault ≠ .outOfFuel limit := by
  cases h with
  | whole hfuel => exact hfuel limit
  | unread hfuel => exact hfuel limit
  | unwritten htext hfails hfault =>
    rw [hfault]
    exact nofun
  | @unfound label hsought hfault =>
    rintro rfl
    simp only [resolve, Resolution.result] at hfault
    split at hfault <;> cases hfault

def SeeksInVain (machine : Machine) (error : RuntimeError) (operation : Operation Value)
    (label : Value) : Prop :=
  error.instruction.decode = .ok operation ∧ operation.sought? machine.stack = some label ∧
    (machine.resolve label).2 = .error error.fault

/-- The failed instruction was to print bytes that the output does not take or does not flush. -/
def WritesInVain (machine : Machine) (error : RuntimeError) (bytes : List UInt8) : Prop :=
  ∃ operation reason, error.instruction.decode = .ok operation ∧
    operation.text? machine.stack = some bytes ∧
    (machine.output.print bytes).2 = .error reason ∧ error.fault = .stream reason

def ReadsInVain (machine : Machine) (error : RuntimeError) : Prop :=
  ∃ operation, error.instruction.decode = .ok operation ∧ operation.readsInput ∧ machine.stack ≠ []

/-- The two failures that come after the top of the stack was popped. -/
def PopsInVain (machine : Machine) (error : RuntimeError) : Prop :=
  (∃ operation label, machine.SeeksInVain error operation label ∧ operation.isConditional) ∨
    ∃ bytes, machine.WritesInVain error bytes

/-- What a step that fails in its instruction leaves of the machine. -/
structure Remainder (machine : Machine) (error : RuntimeError) (after : Machine) : Prop where
  program : after.program = machine.program
  heap : after.heap = machine.heap
  calls : after.control.calls = machine.control.calls
  pc : after.pc = machine.pc + 1
  fuel : machine.fuel = none ∧ after.fuel = none ∨
    ∃ limit left, machine.fuel = some ⟨limit, left + 1⟩ ∧ after.fuel = some ⟨limit, left⟩
  popped : machine.PopsInVain error → ∃ top, machine.stack = top :: after.stack
  stack : ¬ machine.PopsInVain error → after.stack = machine.stack
  recorded : machine.control.labels.Grows after.control.labels
  labels : (¬ ∃ operation label, machine.SeeksInVain error operation label) →
    after.control.labels = machine.control.labels
  written : ∀ bytes, machine.WritesInVain error bytes → ∃ part requests, part <+: bytes ∧
    ((machine.output.write bytes).2 = .ok () → part = bytes) ∧
    after.output =
      { machine.output with
        written := machine.output.written ++ part, asked := requests ++ machine.output.asked }
  output : (¬ ∃ bytes, machine.WritesInVain error bytes) → after.output = machine.output
  taken : ∃ count ≤ machine.input.remaining.length, after.input = machine.input.advance count
  input : ¬ machine.ReadsInVain error → after.input = machine.input

section Steps

variable {machine : Machine} {error : RuntimeError}

/-- A step fails for want of fuel, and then nothing has happened, or in the instruction. -/
theorem step_error_cases (h : machine.step.outcome = .error error) :
    error.index = machine.pc ∧ machine.program[machine.pc]? = some error.instruction ∧
      ((∃ limit, error.fault = .outOfFuel limit ∧ machine.step.machine = machine) ∨
        ∃ ready, machine.dispatch? = some (ready, error.instruction) ∧
          (ready.execute error.instruction).outcome = .error error.fault) := by
  unfold step at h ⊢
  unfold dispatch?
  simp only at h ⊢
  split at h
  · cases h
  · next instruction hinstruction =>
    split at h
    · next limit hspend =>
      cases h
      exact ⟨rfl, hinstruction, .inl ⟨limit, rfl, rfl⟩⟩
    · next fuelled hspend =>
      split at h
      · cases h
      · cases h
      · next fault hfault =>
        cases h
        refine ⟨rfl, hinstruction, .inr ⟨fuelled.advance, ?_, hfault⟩⟩
        simp only [hinstruction, hspend]

theorem not_seeksInVain {operation : Operation Value}
    (hdecode : error.instruction.decode = .ok operation)
    (hsought : operation.sought? machine.stack = none) (other : Operation Value) (label : Value) :
    ¬ machine.SeeksInVain error other label := by
  rintro ⟨hother, hlabel, -⟩
  obtain rfl := Except.ok.inj (hother.symm.trans hdecode)
  rw [hsought] at hlabel
  cases hlabel

theorem not_writesInVain {operation : Operation Value}
    (hdecode : error.instruction.decode = .ok operation)
    (htext : operation.text? machine.stack = none) (bytes : List UInt8) :
    ¬ machine.WritesInVain error bytes := by
  rintro ⟨other, _, hother, hbytes, -⟩
  obtain rfl := Except.ok.inj (hother.symm.trans hdecode)
  rw [htext] at hbytes
  cases hbytes

theorem not_popsInVain (hseeks : ∀ operation label, ¬ machine.SeeksInVain error operation label)
    (hwrites : ∀ bytes, ¬ machine.WritesInVain error bytes) : ¬ machine.PopsInVain error := by
  rintro (⟨operation, label, hseek, -⟩ | ⟨bytes, hwrite⟩)
  · exact hseeks operation label hseek
  · exact hwrites bytes hwrite

theorem remainder_of_whole {ready : Machine}
    (h : machine.dispatch? = some (ready, error.instruction))
    (hseeks : ∀ operation label, ¬ machine.SeeksInVain error operation label)
    (hwrites : ∀ bytes, ¬ machine.WritesInVain error bytes) : Remainder machine error ready := by
  have hfuel := fuel_of_dispatch? h
  obtain ⟨-, hready⟩ := eq_of_dispatch? h
  generalize ready.fuel = fuel at hready hfuel
  subst hready
  exact {
    program := rfl, heap := rfl, calls := rfl, pc := rfl, fuel := hfuel
    popped := fun hpops => absurd hpops (not_popsInVain hseeks hwrites)
    stack := fun _ => rfl
    recorded := LabelTable.Grows.refl _
    labels := fun _ => rfl
    written := fun bytes hwrite => absurd hwrite (hwrites bytes)
    output := fun _ => rfl
    taken := ⟨0, Nat.zero_le _, rfl⟩
    input := fun _ => rfl }

theorem remainder_of_leaves {ready after : Machine} {operation : Operation Value}
    (h : machine.dispatch? = some (ready, error.instruction))
    (hdecode : error.instruction.decode = .ok operation)
    (hleaves : Leaves ready operation error.fault after) : Remainder machine error after := by
  have hwhole := remainder_of_whole h
  -- Dispatch differs from `machine` in `pc` and fuel only, so most fields compare by computation.
  have hfuel := fuel_of_dispatch? h
  obtain ⟨-, hready⟩ := eq_of_dispatch? h
  generalize ready.fuel = fuel at hready hfuel
  subst hready
  cases hleaves with
  | whole _ hsought htext =>
    exact hwhole (not_seeksInVain hdecode hsought) (not_writesInVain hdecode htext)
  | @unfound label hsought hfault =>
    have hseeks : machine.SeeksInVain error operation label := ⟨hdecode, hsought, hfault⟩
    have hwrites : ∀ bytes, ¬ machine.WritesInVain error bytes :=
      not_writesInVain hdecode (Operation.text?_of_sought? hsought)
    have hpops : machine.PopsInVain error ↔ operation.isConditional := by
      constructor
      · rintro (⟨other, _, ⟨hother, -⟩, hconditional⟩ | ⟨bytes, hwrite⟩)
        · rwa [Except.ok.inj (hother.symm.trans hdecode)] at hconditional
        · exact absurd hwrite (hwrites bytes)
      · intro hconditional
        exact .inl ⟨operation, label, hseeks, hconditional⟩
    exact {
      program := rfl, heap := rfl, calls := rfl, pc := rfl, fuel := hfuel
      popped := by
        intro hpopped
        have hconditional := hpops.mp hpopped
        rw [if_pos hconditional]
        exact Operation.exists_top_of_isConditional hsought hconditional
      stack := fun hkept => if_neg fun hconditional => hkept (hpops.mpr hconditional)
      recorded := LabelTable.grows_resolve machine.program label machine.control.labels
      labels := fun hnone => absurd ⟨operation, label, hseeks⟩ hnone
      written := fun bytes hwrite => absurd hwrite (hwrites bytes)
      output := fun _ => rfl
      taken := ⟨0, Nat.zero_le _, rfl⟩
      input := fun _ => rfl }
  | @unwritten bytes reason htext hfails hfault =>
    have hwrites : machine.WritesInVain error bytes :=
      ⟨operation, reason, hdecode, htext, hfails, hfault⟩
    exact {
      program := rfl, heap := rfl, calls := rfl, pc := rfl, fuel := hfuel
      popped := fun _ => Operation.exists_top_of_text? htext
      stack := fun hkept => absurd (.inr ⟨bytes, hwrites⟩) hkept
      recorded := LabelTable.Grows.refl _
      labels := fun _ => rfl
      written := by
        rintro found ⟨other, _, hother, hfound, -⟩
        rw [Except.ok.inj (hother.symm.trans hdecode)] at hfound
        obtain rfl := Option.some.inj (htext.symm.trans hfound)
        exact machine.output.exists_part_print bytes
      output := fun hnone => absurd ⟨bytes, hwrites⟩ hnone
      taken := ⟨0, Nat.zero_le _, rfl⟩
      input := fun _ => rfl }
  | @unread _ hreads hstack count hcount =>
    have hreading : machine.ReadsInVain error := ⟨operation, hdecode, hreads, hstack⟩
    have hsame := hwhole (not_seeksInVain hdecode (Operation.sought?_of_readsInput hreads))
      (not_writesInVain hdecode (Operation.text?_of_readsInput hreads))
    exact { hsame with
      taken := ⟨count, hcount, rfl⟩
      input := fun hnone => absurd hreading hnone }

theorem remainder_of_dispatch? {ready : Machine}
    (h : machine.dispatch? = some (ready, error.instruction))
    (hfault : (ready.execute error.instruction).outcome = .error error.fault) :
    (∀ limit, error.fault ≠ .outOfFuel limit) ∧
      Remainder machine error (ready.execute error.instruction).state := by
  unfold execute at hfault ⊢
  cases hdecode : error.instruction.decode with
  | error reason =>
    simp only [hdecode] at hfault ⊢
    constructor
    · intro limit heq
      rw [heq] at hfault
      cases hfault
    · apply remainder_of_whole h
      · rintro operation label ⟨hother, -⟩
        cases hdecode.symm.trans hother
      · rintro bytes ⟨operation, _, hother, -⟩
        cases hdecode.symm.trans hother
  | ok operation =>
    simp only [hdecode] at hfault ⊢
    have hleaves := leaves_of_perform hfault
    exact ⟨hleaves.ne_outOfFuel, remainder_of_leaves h hdecode hleaves⟩

/-- Whatever was asked of a machine before, a step that fails reports the instruction at which control
stood. It changes nothing when fuel is missing. Otherwise heap and return indices are untouched, and of
the rest only what `Remainder` allows has changed; labels recorded on the way stand for first marks. -/
theorem Calls.remainder_of_failure {program : Program} {input : Input} {output : Output}
    {limit : Option Nat} {log : List (Call × Answer)} {history : List Machine}
    (hcalls : Calls (start program input output limit) log history machine)
    (h : machine.step.outcome = .error error) :
    error.index = machine.pc ∧ program[machine.pc]? = some error.instruction ∧
      (∀ limit, error.fault = .outOfFuel limit → machine.step.machine = machine) ∧
      ((∀ limit, error.fault ≠ .outOfFuel limit) →
        Remainder machine error machine.step.machine ∧
          ∀ label target, machine.step.machine.control.labels.get? label = some target →
            ∃ index, program.FirstMark label index ∧ target = index + 1) := by
  obtain ⟨rfl, hsound⟩ := hcalls.sound
  obtain ⟨hindex, hinstruction, ⟨limit, hfault, hsame⟩ | ⟨ready, hdispatch, hfault⟩⟩ :=
    step_error_cases h
  · exact ⟨hindex, hinstruction, fun _ _ => hsame, fun hfuel => absurd hfault (hfuel limit)⟩
  · obtain ⟨hfuel, hremainder⟩ := remainder_of_dispatch? hdispatch hfault
    rw [← step_machine_of_dispatch? hdispatch] at hremainder
    refine ⟨hindex, hinstruction, fun limit hlimit => absurd hlimit (hfuel limit), fun _ => ?_⟩
    refine ⟨hremainder, fun label target hget => ?_⟩
    obtain ⟨index, -, hmark⟩ := ((sound_step hsound).labels.covers label target).mp hget
    exact ⟨index, hmark⟩

/-- The first flush fails after both digits of a number were taken; the number behind it is printed. -/
theorem remainder_of_failure_unflushed :
    let program : Program :=
      #[.stack (.push ⟨false, [true, false, true, false]⟩), .stack .duplicate, .io .writeNumber,
        .io .writeNumber]
    let broken : StreamError := .system (.other "broken pipe")
    let device : Device :=
      { flush := fun asked => if asked.length = 1 then .error broken else .ok () }
    let first := start program { remaining := [] } { device } (some 4)
    let second := first.step.machine
    let third := second.step.machine
    let error : RuntimeError := ⟨2, .io .writeNumber, .stream broken⟩
    Calls first [(.step, .step (.ok none)), (.step, .step (.ok none))] [first, second] third ∧
      third.step.outcome = .error error ∧ Remainder third error third.step.machine ∧
      third.step.machine.stack = [10] ∧ third.step.machine.output.written = #[49, 48] ∧
      third.step.machine.step.machine.output.written = #[49, 48, 49, 48] := by
  intro program broken device first second third error
  have hcalls : Calls first [(.step, .step (.ok none)), (.step, .step (.ok none))]
      [first, second] third := .snoc (.snoc .nil .step) .step
  have houtcome : third.step.outcome = .error error := by rfl
  obtain ⟨-, -, -, hremainder⟩ := hcalls.remainder_of_failure houtcome
  exact ⟨hcalls, houtcome, (hremainder nofun).1, rfl, by decide +kernel, by decide +kernel⟩

end Steps

end Machine

end Whitespace
