import Whitespace.Proofs.Labels.Eager
import Whitespace.Proofs.Labels.Frontier

/-!
Laziness does not show. Without its label table a machine is an eager one, step for step, as long as the
table is right and every mark of the program has a value; and the table is right whatever was asked of
the machine before.
-/

namespace Whitespace.Machine

/-- The machine without its label table, but with the labels of its program. -/
def forget (machine : Machine) : Eager where
  program := machine.program
  targets := machine.program.labels
  pc := machine.control.pc
  calls := machine.control.calls
  stack := machine.stack
  heap := machine.heap
  input := machine.input
  output := machine.output
  fuel := machine.fuel

/-- The labels that a machine knows are those of its program, which all have values. -/
structure Reliable (machine : Machine) : Prop where
  marks : machine.program.MarksDecode
  labels : ∃ reach, LabelTable.Sound machine.program reach machine.control.labels

section Steps

variable {machine : Machine}

theorem Reliable.resolve (h : machine.Reliable) (label : Value) :
    (machine.resolve label).2 = machine.forget.resolve label := by
  obtain ⟨reach, hlabels⟩ := h.labels
  simp only [Machine.resolve, Resolution.result, hlabels.target_resolve h.marks label]
  unfold Eager.resolve forget
  cases machine.program.labels[label]? <;> rfl

def Effect.forget (effect : Effect Machine) : Eager × Except Fault Signal :=
  (effect.state.forget, effect.outcome)

theorem Reliable.transfer (h : machine.Reliable) (label : Value) (calls : List Nat)
    (event : Value → Nat → Event) :
    ((machine.control.transfer machine.program label calls event).within
      ({ machine with control := · })).forget = machine.forget.transfer label calls := by
  have hresolve := h.resolve label
  simp only [Machine.resolve] at hresolve
  unfold Control.transfer Eager.transfer
  simp only [hresolve]
  cases machine.forget.resolve label <;> rfl

theorem Reliable.branch (h : machine.Reliable) (label : Value) (test : Value → Bool) :
    ((machine.control.branch machine.program machine.stack label test).within fun state =>
      { machine with control := state.1, stack := state.2 }).forget =
        machine.forget.branch label test := by
  obtain ⟨program, control, stack, heap, input, output, fuel⟩ := machine
  cases stack with
  | nil => rfl
  | cons top rest =>
    have hpopped : Reliable ⟨program, control, rest, heap, input, output, fuel⟩ := ⟨h.marks, h.labels⟩
    unfold Control.branch Eager.branch
    cases htest : test top with
    | true =>
      simp only [forget, htest, if_true]
      exact hpopped.transfer label control.calls .jump
    | false =>
      simp only [forget, htest]
      rfl

theorem forget_ret :
    (machine.control.ret.within ({ machine with control := · })).forget = machine.forget.ret := by
  obtain ⟨program, ⟨pc, calls, labels⟩, stack, heap, input, output, fuel⟩ := machine
  cases calls <;> rfl

theorem Reliable.flow (h : machine.Reliable) (op : FlowOp Value) :
    (machine.perform (.flow op)).forget = machine.forget.flow op := by
  cases op with
  | mark label => rfl
  | call label => exact h.transfer label (machine.pc :: machine.control.calls) .call
  | jump label => exact h.transfer label machine.control.calls .jump
  | jumpIfZero label => exact h.branch label _
  | jumpIfNegative label => exact h.branch label _
  | ret => exact forget_ret
  | stop => rfl

theorem forget_perform_of_ne_flow {operation : Operation Value} (h : operation.category ≠ .flow) :
    (machine.perform operation).forget = machine.forget.perform operation := by
  have hframe : machine.forget.operands.perform operation =
      (machine.perform operation).within ({ · with program := #[], control := {}, fuel := none }) :=
    perform_frame machine #[] {} none h
  have heager : machine.forget.perform operation =
      (machine.forget.withOperands (machine.forget.operands.perform operation).state,
        (machine.forget.operands.perform operation).outcome) := by
    cases operation with
    | flow op => exact absurd rfl h
    | _ => rfl
  rw [heager, hframe, Effect.forget, perform_state_of_ne_flow machine h]
  rfl

theorem Reliable.execute (h : machine.Reliable) (instruction : Instruction) :
    (machine.execute instruction).forget = machine.forget.execute instruction := by
  unfold Machine.execute Eager.execute
  cases instruction.decode with
  | error error => rfl
  | ok operation =>
    rcases eq_flow_or_ne_flow operation with ⟨op, rfl⟩ | hne
    · exact h.flow op
    · exact forget_perform_of_ne_flow hne

theorem forget_spend : machine.forget.spend = machine.spend.map forget := by
  obtain ⟨program, control, stack, heap, input, output, fuel⟩ := machine
  rcases fuel with _ | ⟨limit, _ | left⟩ <;> rfl

theorem Reliable.step (h : machine.Reliable) :
    machine.forget.step = (machine.step.machine.forget, machine.step.outcome) := by
  have hfetch : machine.forget.program[machine.forget.pc]? = machine.program[machine.pc]? := rfl
  unfold Eager.step Machine.step
  simp only [hfetch, forget_spend]
  cases machine.program[machine.pc]? with
  | none => rfl
  | some instruction =>
    cases hspend : machine.spend with
    | error limit => rfl
    | ok fuelled =>
      have hready : fuelled.advance.Reliable := by
        rw [eq_of_spend hspend]
        exact ⟨h.marks, h.labels⟩
      have hexecute : Eager.execute { fuelled.forget with pc := fuelled.forget.pc + 1 } instruction =
          (fuelled.advance.execute instruction).forget := (hready.execute instruction).symm
      simp only [Except.map, hexecute, Effect.forget]
      rcases (fuelled.advance.execute instruction).outcome with fault | signal
      · rfl
      · cases signal <;> rfl

end Steps

section Runs

variable {machine : Machine} {history : List Machine}

theorem reliable_of_sound (hmarks : machine.program.MarksDecode)
    (h : machine.control.Sound machine.program (reach history)) : machine.Reliable :=
  ⟨hmarks, reach history, h.labels⟩

theorem forget_runFor (hmarks : machine.program.MarksDecode)
    (h : machine.control.Sound machine.program (reach history)) (count : Nat) :
    machine.forget.runFor count =
      ((runFor count machine).machine.forget, (runFor count machine).ending) := by
  induction count generalizing machine history with
  | zero => rfl
  | succ count ih =>
    have hstep := (reliable_of_sound hmarks h).step
    cases houtcome : machine.step.outcome with
    | error error =>
      rw [houtcome] at hstep
      simp only [runFor_succ_of_error houtcome, Eager.runFor, hstep]
    | ok halt =>
      cases halt with
      | some halt =>
        rw [houtcome] at hstep
        simp only [runFor_succ_of_halt houtcome, Eager.runFor, hstep]
      | none =>
        rw [houtcome] at hstep
        simp only [runFor_succ_of_next houtcome, Eager.runFor, hstep]
        have hsound := sound_step h
        rw [← program_step machine] at hmarks hsound
        exact ih hmarks hsound

/-- A call on the machine is answered as on the eager machine, and leaves one that is the same but for
the label table. -/
theorem performs_forget_iff (hmarks : machine.program.MarksDecode)
    (h : machine.control.Sound machine.program (reach history)) {call : Call} {answer : Answer}
    {eager : Eager} :
    (∃ stages after, Performs machine call answer stages after ∧ after.forget = eager) ↔
      Eager.Performs machine.forget call answer eager := by
  have hreliable := reliable_of_sound hmarks h
  have hstep := hreliable.step
  constructor
  · rintro ⟨stages, after, hcall, rfl⟩
    cases hcall with
    | step =>
      have hperforms := @Eager.Performs.step machine.forget
      rw [hstep] at hperforms
      exact hperforms
    | @execute count ending hending =>
      have hperforms := @Eager.Performs.execute machine.forget count ending
      rw [forget_runFor hmarks h] at hperforms
      exact hperforms hending
    | resolve label =>
      rw [hreliable.resolve]
      exact .resolve label
  · intro hcall
    cases hcall with
    | step =>
      rw [hstep]
      exact ⟨_, _, .step, rfl⟩
    | execute hending =>
      rw [forget_runFor hmarks h] at hending ⊢
      exact ⟨_, _, .execute hending, rfl⟩
    | resolve label =>
      rw [← hreliable.resolve]
      exact ⟨_, _, .resolve label, rfl⟩

end Runs

section Start

variable {program : Program} {input : Input} {output : Output} {limit : Option Nat}

theorem calls_forget_iff (hmarks : program.MarksDecode) {log : List (Call × Answer)}
    {eager : Eager} :
    (∃ history machine, Calls (start program input output limit) log history machine ∧
        machine.forget = eager) ↔
      Eager.Calls (.start program input output limit) log eager := by
  constructor
  · rintro ⟨history, machine, hcalls, rfl⟩
    induction hcalls with
    | nil => exact .nil
    | snoc hcalls hcall ih =>
      obtain ⟨rfl, hsound⟩ := hcalls.sound
      exact ih.snoc ((performs_forget_iff hmarks hsound).mp ⟨_, _, hcall, rfl⟩)
  · intro hcalls
    induction hcalls with
    | nil => exact ⟨[], _, .nil, rfl⟩
    | snoc _ hcall ih =>
      obtain ⟨history, machine, hlazy, rfl⟩ := ih
      obtain ⟨rfl, hsound⟩ := hlazy.sound
      obtain ⟨stages, after, hperforms, rfl⟩ := (performs_forget_iff hmarks hsound).mpr hcall
      exact ⟨_, after, hlazy.snoc hperforms, rfl⟩

theorem Eager.resolve_start_eq_ok_iff {label : Value} {target : Nat} :
    (start program input output limit).resolve label = .ok target ↔
      ∃ index, program.FirstMark label index ∧ target = index + 1 := by
  rw [← Program.getElem?_labels_eq_some_iff]
  unfold resolve start
  cases program.labels[label]? <;> simp

theorem Calls.resolve_eq (hmarks : program.MarksDecode) {log : List (Call × Answer)}
    {history : List Machine} {machine : Machine}
    (hcalls : Calls (start program input output limit) log history machine) (label : Value) :
    (machine.resolve label).2 = (Eager.start program input output limit).resolve label := by
  obtain ⟨rfl, hsound⟩ := hcalls.sound
  exact (reliable_of_sound hmarks hsound).resolve label

end Start

/-- In a program whose marks all have values it does not show that labels are found lazily. Any calls on
a machine started on it are answered as on the eager machine and leave the same state but for the label
table; in particular every label keeps the target it has there, just behind its first mark. -/
theorem lazy_resolution_is_eager {program : Program} (hmarks : program.MarksDecode) (input : Input)
    (output : Output) (limit : Option Nat) :
    (∀ (log : List (Call × Answer)) (eager : Eager),
      (∃ history machine, Calls (start program input output limit) log history machine ∧
          machine.forget = eager) ↔
        Eager.Calls (.start program input output limit) log eager) ∧
      (∀ (log : List (Call × Answer)) (history : List Machine) (machine : Machine),
        Calls (start program input output limit) log history machine →
        ∀ label, (machine.resolve label).2 =
          (Eager.start program input output limit).resolve label) ∧
      ∀ (label : Value) (target : Nat),
        (Eager.start program input output limit).resolve label = .ok target ↔
          ∃ index, program.FirstMark label index ∧ target = index + 1 :=
  ⟨fun _ _ => calls_forget_iff hmarks, fun _ _ _ hcalls => hcalls.resolve_eq hmarks,
    fun _ _ => Eager.resolve_start_eq_ok_iff⟩

theorem lazy_resolution_is_eager_forward_jump :
    let program : Program :=
      #[.flow (.jump ⟨false, [true]⟩), .flow (.mark ⟨false, []⟩), .flow (.mark ⟨false, [true]⟩)]
    program.MarksDecode ∧
      ∃ history machine,
        Calls (start program { remaining := [] } {} none)
          [(.execute, .execute (.ok .endOfProgram))] history machine ∧ machine.pc = 3 := by
  intro program
  have hmarks : program.MarksDecode := by
    intro instruction hinstruction literal hmark
    simp only [program, List.mem_toArray, List.mem_cons, List.not_mem_nil, or_false] at hinstruction
    rcases hinstruction with rfl | rfl | rfl
    · cases hmark
    · cases hmark
      exact ⟨0, rfl⟩
    · cases hmark
      exact ⟨1, rfl⟩
  refine ⟨hmarks, ?_⟩
  let first := Eager.start program { remaining := [] } {} none
  have hcalls : Eager.Calls first [(.execute, .execute (.ok .endOfProgram))] (first.runFor 2).1 :=
    .snoc .nil (.execute rfl)
  obtain ⟨heager, -⟩ := lazy_resolution_is_eager hmarks { remaining := [] } {} none
  obtain ⟨history, machine, hlazy, hforget⟩ := (heager _ _).mpr hcalls
  refine ⟨history, machine, hlazy, ?_⟩
  exact congrArg Eager.pc hforget

end Whitespace.Machine
