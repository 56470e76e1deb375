import Whitespace.Proofs.Literals.Canonical
import Whitespace.Proofs.Machine.Fuel

/-!
Spellings. A machine sees the operands of a program only as values, and a literal that has none only as
the error it gives. Two programs with the same operations and such operands therefore run alike: all that
a run of one shows is shown by a run of the other, but for the literal of the instruction that an error
names.
-/

namespace Whitespace

open Machine

/-- The same operation, with an operand that has the same value or the same error. -/
structure Instruction.Respelled (first second : Instruction) : Prop where
  opcode : second.opcode = first.opcode
  operand : second.operand?.map Literal.decode = first.operand?.map Literal.decode

/-- The same operations in the same order, with such operands. -/
structure Program.Respelled (first second : Program) : Prop where
  size : second.size = first.size
  instruction : ∀ (index : Nat) (hfirst : index < first.size) (hsecond : index < second.size),
    first[index].Respelled second[index]

namespace Instruction

theorem decode_eq (instruction : Instruction) :
    instruction.decode =
      match instruction.operand?.map Literal.decode, instruction.opcode.bare? with
      | some operand, _ => instruction.opcode.withOperand <$> operand
      | none, some operation => .ok operation
      | none, none => .error .empty := by
  unfold decode Operation.traverse
  cases instruction with
  | stack op =>
    cases op with
    | push literal | copy literal | slide literal =>
      simp only [Operation.operand?, StackOp.traverse, Option.map_some]
      cases literal.decode <;> rfl
    | duplicate | swap | discard => rfl
  | flow op =>
    cases op with
    | mark literal | call literal | jump literal | jumpIfZero literal | jumpIfNegative literal =>
      simp only [Operation.operand?, FlowOp.traverse, Option.map_some]
      cases literal.decode <;> rfl
    | ret | stop => rfl
  | arithmetic op | heap op | io op => rfl

theorem mark?_eq (instruction : Instruction) :
    instruction.mark? = instruction.opcode.mark?.bind fun _ => instruction.operand? := by
  rcases instruction with op | op | op | op | op <;> cases op <;> rfl

variable {first second : Instruction}

theorem Respelled.decode (h : first.Respelled second) : second.decode = first.decode := by
  rw [decode_eq, decode_eq, h.opcode, h.operand]

theorem Respelled.mark? (h : first.Respelled second) :
    second.mark?.map Literal.decode = first.mark?.map Literal.decode := by
  rw [mark?_eq, mark?_eq, Option.map_bind, Option.map_bind]
  simp only [Function.comp_def, h.opcode, h.operand]

end Instruction

namespace Program.Respelled

variable {first second : Program} {index : Nat}

theorem getElem?_eq_none (h : first.Respelled second) (hend : first[index]? = none) :
    second[index]? = none := by
  rw [Array.getElem?_eq_none_iff] at hend ⊢
  rwa [h.size]

theorem exists_getElem? (h : first.Respelled second) {instruction : Instruction}
    (hat : first[index]? = some instruction) :
    ∃ spelling, second[index]? = some spelling ∧ instruction.Respelled spelling := by
  obtain ⟨hfirst, rfl⟩ := Array.getElem?_eq_some_iff.mp hat
  have hsecond : index < second.size := by rwa [h.size]
  exact ⟨second[index], Array.getElem?_eq_getElem hsecond, h.instruction index hfirst hsecond⟩

theorem mark?_eq_none (h : first.Respelled second) (hfirst : index < first.size)
    (hsecond : index < second.size) (hmark : first[index].mark? = none) :
    second[index].mark? = none := by
  have hspelling := (h.instruction index hfirst hsecond).mark?
  rwa [hmark, Option.map_none, Option.map_eq_none_iff] at hspelling

theorem exists_mark? (h : first.Respelled second) (hfirst : index < first.size)
    (hsecond : index < second.size) {literal : Literal} (hmark : first[index].mark? = some literal) :
    ∃ spelling, second[index].mark? = some spelling ∧ spelling.decode = literal.decode := by
  have hspelling := (h.instruction index hfirst hsecond).mark?
  rwa [hmark, Option.map_some, Option.map_eq_some_iff] at hspelling

end Program.Respelled

namespace Machine

variable {program other : Program}

theorem LabelTable.scan_respelled (h : program.Respelled other) (label : Value)
    (table : LabelTable) (recorded : Array (Value × Nat)) :
    table.scan other label recorded = table.scan program label recorded := by
  fun_induction LabelTable.scan program label table recorded with
  | case1 table recorded hlt next hmark ih =>
    have hother : table.scanned < other.size := h.size ▸ hlt
    rw [scan, dif_pos hother]
    simp only [h.mark?_eq_none hlt hother hmark]
    exact ih
  | case2 table recorded hlt next literal hmark error hdecode =>
    have hother : table.scanned < other.size := h.size ▸ hlt
    obtain ⟨spelling, hspelling, hvalue⟩ := h.exists_mark? hlt hother hmark
    rw [scan, dif_pos hother]
    simp only [hspelling, hvalue, hdecode]
    rfl
  | case3 table recorded hlt next literal hmark target hdecode entry recorded' =>
    have hother : table.scanned < other.size := h.size ▸ hlt
    obtain ⟨spelling, hspelling, hvalue⟩ := h.exists_mark? hlt hother hmark
    rw [scan, dif_pos hother]
    simp only [hspelling, hvalue, hdecode, if_pos]
    rfl
  | case4 table recorded hlt next literal hmark mark hdecode target entry recorded' hne ih =>
    have hother : table.scanned < other.size := h.size ▸ hlt
    obtain ⟨spelling, hspelling, hvalue⟩ := h.exists_mark? hlt hother hmark
    rw [scan, dif_pos hother]
    simp only [hspelling, hvalue, hdecode, if_neg hne]
    exact ih
  | case5 table recorded hge =>
    rw [scan, dif_neg (h.size ▸ hge)]

theorem LabelTable.resolve_respelled (h : program.Respelled other) (label : Value)
    (table : LabelTable) : table.resolve other label = table.resolve program label := by
  unfold resolve
  rw [scan_respelled h]

theorem run_flow_respelled (h : program.Respelled other) (control : Control) (stack : Stack)
    (op : FlowOp Value) : op.run other control stack = op.run program control stack := by
  have htransfer : ∀ label calls event, control.transfer other label calls event =
      control.transfer program label calls event := by
    intro label calls event
    unfold Control.transfer
    rw [LabelTable.resolve_respelled h]
  cases op with
  | call label | jump label =>
    simp only [FlowOp.run, Control.call, Control.jump, htransfer]
  | jumpIfZero label | jumpIfNegative label =>
    simp only [FlowOp.run, Control.branch, Control.jump, htransfer]
  | mark label | ret | stop => rfl

def withProgram (machine : Machine) (program : Program) : Machine := { machine with program }

def RuntimeError.respelled (program : Program) (error : RuntimeError) : RuntimeError :=
  { error with instruction := program[error.index]?.getD error.instruction }

section Steps

variable {machine : Machine}

theorem execute_respelled (h : machine.program.Respelled other)
    {instruction spelling : Instruction} (hspelling : instruction.Respelled spelling) :
    (machine.withProgram other).execute spelling =
      (machine.execute instruction).within (withProgram · other) := by
  unfold execute
  rw [hspelling.decode]
  cases instruction.decode with
  | error error => rfl
  | ok operation =>
    rcases eq_flow_or_ne_flow operation with ⟨op, rfl⟩ | hne
    · simp only [perform, withProgram, run_flow_respelled h]
      rfl
    · have hframe := perform_frame machine other machine.control machine.fuel hne
      have hstate := perform_state_of_ne_flow machine hne
      simp only [withProgram, hframe, Effect.within]
      rw [hstate]

theorem spend_withProgram (machine : Machine) (program : Program) :
    (machine.withProgram program).spend = machine.spend.map (withProgram · program) := by
  obtain ⟨_, control, stack, heap, input, output, fuel⟩ := machine
  rcases fuel with _ | ⟨limit, _ | left⟩ <;> rfl

theorem step_respelled (h : machine.program.Respelled other) :
    (machine.withProgram other).step.machine = machine.step.machine.withProgram other ∧
      (machine.withProgram other).step.outcome =
        machine.step.outcome.mapError (RuntimeError.respelled other) := by
  have hfetch : (machine.withProgram other).program[(machine.withProgram other).pc]? =
      other[machine.pc]? := rfl
  unfold step
  simp only [hfetch, spend_withProgram]
  cases hat : machine.program[machine.pc]? with
  | none =>
    rw [h.getElem?_eq_none hat]
    exact ⟨rfl, rfl⟩
  | some instruction =>
    obtain ⟨spelling, hother, hspelling⟩ := h.exists_getElem? hat
    have herror : ∀ fault, RuntimeError.respelled other ⟨machine.pc, instruction, fault⟩ =
        ⟨machine.pc, spelling, fault⟩ := by
      intro fault
      simp only [RuntimeError.respelled, hother, Option.getD_some]
    simp only [hother]
    cases hspend : machine.spend with
    | error limit => exact ⟨rfl, congrArg Except.error (herror _).symm⟩
    | ok fuelled =>
      have hready : fuelled.advance.program.Respelled other := by
        rw [eq_of_spend hspend]
        exact h
      have hadvance :
          (fuelled.withProgram other).advance = fuelled.advance.withProgram other := rfl
      simp only [Except.map, hadvance, execute_respelled hready hspelling, Effect.within]
      rcases (fuelled.advance.execute instruction).outcome with fault | signal
      · exact ⟨rfl, congrArg Except.error (herror _).symm⟩
      · cases signal <;> exact ⟨rfl, rfl⟩

end Steps

def Answer.respelled (program : Program) : Answer → Answer
  | .step outcome => .step (outcome.mapError (RuntimeError.respelled program))
  | .execute ending => .execute (ending.mapError (RuntimeError.respelled program))
  | .resolve target => .resolve target

section Runs

variable {machine : Machine}

theorem runFor_respelled (h : machine.program.Respelled other) (count : Nat) :
    (runFor count (machine.withProgram other)).machine =
        (runFor count machine).machine.withProgram other ∧
      (runFor count (machine.withProgram other)).ending =
        (runFor count machine).ending.map (Except.mapError (RuntimeError.respelled other)) ∧
      stages count (machine.withProgram other) =
        (stages count machine).map (withProgram · other) := by
  induction count generalizing machine with
  | zero => exact ⟨rfl, rfl, rfl⟩
  | succ count ih =>
    obtain ⟨hmachine, houtcome⟩ := step_respelled h
    rcases hstep : machine.step.outcome with error | _ | halt
    · rw [hstep] at houtcome
      rw [runFor_succ_of_error hstep, runFor_succ_of_error houtcome, hmachine]
      refine ⟨rfl, rfl, ?_⟩
      simp only [stages, hstep, houtcome]
      rfl
    · rw [hstep] at houtcome
      have hnext := ih ((program_step machine).symm ▸ h)
      rw [runFor_succ_of_next hstep, runFor_succ_of_next houtcome, stages_succ_of_next hstep,
        stages_succ_of_next houtcome, hmachine]
      exact ⟨hnext.1, hnext.2.1, congrArg _ hnext.2.2⟩
    · rw [hstep] at houtcome
      rw [runFor_succ_of_halt hstep, runFor_succ_of_halt houtcome, hmachine]
      refine ⟨rfl, rfl, ?_⟩
      simp only [stages, hstep, houtcome]
      rfl

theorem resolve_respelled (h : machine.program.Respelled other) (label : Value) :
    (machine.withProgram other).resolve label =
      ((machine.resolve label).1.withProgram other, (machine.resolve label).2) := by
  simp only [resolve, withProgram, LabelTable.resolve_respelled h]

theorem performs_respelled_iff (h : machine.program.Respelled other) {call : Call}
    {answer' : Answer} {stages' : List Machine} {after' : Machine} :
    Performs (machine.withProgram other) call answer' stages' after' ↔
      ∃ answer stages after, Performs machine call answer stages after ∧
        answer' = answer.respelled other ∧ stages' = stages.map (withProgram · other) ∧
        after' = after.withProgram other := by
  obtain ⟨hmachine, houtcome⟩ := step_respelled h
  constructor
  · intro hcall
    cases hcall with
    | step => exact ⟨_, _, _, .step, congrArg Answer.step houtcome, rfl, hmachine⟩
    | @execute count ending' hending' =>
      obtain ⟨hafter, hending, hstages⟩ := runFor_respelled h count
      rw [hending, Option.map_eq_some_iff] at hending'
      obtain ⟨ending, hending, rfl⟩ := hending'
      exact ⟨_, _, _, .execute hending, rfl, hstages, hafter⟩
    | resolve label =>
      rw [resolve_respelled h]
      exact ⟨_, _, _, .resolve label, rfl, rfl, rfl⟩
  · rintro ⟨answer, stages, after, hcall, rfl, rfl, rfl⟩
    cases hcall with
    | step =>
      have hperforms := @Performs.step (machine.withProgram other)
      rwa [hmachine, houtcome] at hperforms
    | @execute count ending hending =>
      obtain ⟨hafter, hending', hstages⟩ := runFor_respelled h count
      rw [hending] at hending'
      have hperforms := Performs.execute hending'
      rwa [hafter, hstages] at hperforms
    | resolve label =>
      have hperforms := @Performs.resolve (machine.withProgram other) label
      rwa [resolve_respelled h] at hperforms

end Runs

/-- Only what the operands of a program decode to bears on its execution. Whatever is asked of a machine
that was started on a program, in any order and also after faults and halts, one that was started on
another spelling of it gives the same answers, takes the same steps and is left in the same state; only
the instruction that an error names is spelled as the program has it. And a literal may be spelled with
more zeros in front, zero with either sign, and every value as it is encoded. -/
theorem calls_respelled_iff (h : program.Respelled other) (input : Input) (output : Output)
    (limit : Option Nat) :
    (∀ (log' : List (Call × Answer)) (history' : List Machine) (machine' : Machine),
      Calls (start other input output limit) log' history' machine' ↔
        ∃ log history machine, Calls (start program input output limit) log history machine ∧
          log' = log.map (fun entry => (entry.1, entry.2.respelled other)) ∧
          history' = history.map (withProgram · other) ∧ machine' = machine.withProgram other) ∧
      ∀ (literal : Literal) (value : Value), literal.decode = .ok value →
        (∀ zeros, (literal.padded zeros).decode = literal.decode) ∧
          (Literal.encode value).decode = literal.decode ∧
          (value = 0 → ∀ negative zeros,
            (⟨negative, List.replicate zeros false⟩ : Literal).decode = literal.decode) := by
  refine ⟨fun log' history' machine' => ⟨fun hcalls => ?_, ?_⟩, fun literal value hdecode => ?_⟩
  · induction hcalls with
    | nil => exact ⟨[], [], _, .nil, rfl, rfl, rfl⟩
    | @snoc log' history' machine' call answer' stages' after' hcalls hcall ih =>
      obtain ⟨log, history, machine, hfirst, rfl, rfl, rfl⟩ := ih
      obtain ⟨rfl, -⟩ := hfirst.sound
      obtain ⟨answer, stages, after, hperforms, rfl, rfl, rfl⟩ := (performs_respelled_iff h).mp hcall
      exact ⟨_, _, after, hfirst.snoc hperforms, by simp, by simp, rfl⟩
  · rintro ⟨log, history, machine, hcalls, rfl, rfl, rfl⟩
    induction hcalls with
    | nil => exact .nil
    | @snoc log history machine call answer stages after hcalls hcall ih =>
      obtain ⟨rfl, -⟩ := hcalls.sound
      rw [List.map_append, List.map_append]
      exact ih.snoc ((performs_respelled_iff h).mpr ⟨_, _, _, hcall, rfl, rfl, rfl⟩)
  · rw [hdecode]
    refine ⟨fun _ => Literal.decode_padded_eq_ok_iff.mpr hdecode, Literal.decode_encode value, ?_⟩
    rintro rfl negative zeros
    exact Literal.decode_zeros negative zeros

/-- A loop runs out of fuel in a jump. Its label is zero, once with a minus sign and once with a digit. -/
theorem calls_respelled_iff_minus_zero :
    let program : Program := #[.flow (.mark ⟨true, []⟩), .flow (.jump ⟨false, [false]⟩)]
    let other : Program := #[.flow (.mark ⟨false, [false]⟩), .flow (.jump ⟨true, []⟩)]
    program.Respelled other ∧
      (∃ history machine, Calls (start program { remaining := [] } {} (some 2))
        [(.execute, .execute (.error ⟨1, .flow (.jump ⟨false, [false]⟩), .outOfFuel 2⟩))] history
        machine) ∧
      ∃ history machine, Calls (start other { remaining := [] } {} (some 2))
        [(.execute, .execute (.error ⟨1, .flow (.jump ⟨true, []⟩), .outOfFuel 2⟩))] history
        machine := by
  intro program other
  have hrespelled : program.Respelled other := by
    refine ⟨rfl, fun index hfirst hsecond => ?_⟩
    rcases index with _ | _ | index
    · exact ⟨rfl, rfl⟩
    · exact ⟨rfl, rfl⟩
    · exact absurd hfirst (by simp [program])
  have hending : (runFor 3 (start program { remaining := [] } {} (some 2))).ending =
      some (.error ⟨1, .flow (.jump ⟨false, [false]⟩), .outOfFuel 2⟩) := rfl
  have hcalls := Calls.nil.snoc (.execute hending)
  obtain ⟨hiff, -⟩ := calls_respelled_iff hrespelled { remaining := [] } {} (some 2)
  exact ⟨hrespelled, ⟨_, _, hcalls⟩, _, _, (hiff _ _ _).mpr ⟨_, _, _, hcalls, rfl, rfl, rfl⟩⟩

end Machine

end Whitespace
