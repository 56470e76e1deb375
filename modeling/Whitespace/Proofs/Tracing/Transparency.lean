import Whitespace.Proofs.Machine.Dispatch
import Whitespace.Proofs.Tracing.Traced

/-!
Tracers see and do not touch. Whatever the tracer, a traced operation comes to what the operation comes
to without one, and the tracer is left with the events of the operation, told in order. So no two tracers
can make a difference to what is read or run.
-/

namespace Whitespace

open Machine

variable {τ : Type} [Tracer τ]

def hearAll (tracer : τ) (events : List Event) : τ := events.foldl Tracer.hear tracer

@[simp] theorem hearAll_nil (tracer : τ) : hearAll tracer [] = tracer := rfl

@[simp] theorem hearAll_cons (tracer : τ) (event : Event) (events : List Event) :
    hearAll tracer (event :: events) = hearAll (Tracer.hear tracer event) events := rfl

@[simp] theorem hearAll_append (tracer : τ) (first second : List Event) :
    hearAll tracer (first ++ second) = hearAll (hearAll tracer first) second := by
  simp [hearAll]

/-- What is left of an effect when its events have been told. -/
def Machine.Effect.told {σ : Type} (effect : Effect σ) (tracer : τ) :
    (σ × Except Fault Signal) × τ :=
  ((effect.state, effect.outcome), hearAll tracer effect.events)

namespace Traced

def labelEvents (recorded : Array (Value × Nat)) : List Event :=
  recorded.toList.map fun entry => .label entry.1 entry.2

theorem run_record (table : LabelTable) (label : Value) (target : Nat) (tracer : τ) :
    (record table label target).run tracer =
      ((table.record label target).1,
        hearAll tracer (if (table.record label target).2 then [.label label target] else [])) := by
  unfold record LabelTable.record
  cases table.get? label <;> rfl

theorem hearAll_labelEvents (tracer : τ) (recorded : Array (Value × Nat)) (label : Value)
    (target : Nat) (new : Bool) :
    hearAll (hearAll tracer (labelEvents recorded)) (if new then [.label label target] else []) =
      hearAll tracer (labelEvents (if new then recorded.push (label, target) else recorded)) := by
  cases new <;> simp [labelEvents]

theorem scan_eq (program : Program) (label : Value) (table : LabelTable)
    (recorded : Array (Value × Nat)) (tracer : τ) :
    scan program label table (hearAll tracer (labelEvents recorded)) =
      (((table.scan program label recorded).table, (table.scan program label recorded).target),
        hearAll tracer (labelEvents (table.scan program label recorded).recorded)) := by
  fun_induction LabelTable.scan program label table recorded with
  | case1 table recorded hlt next hmark ih =>
    rw [scan, dif_pos hlt]
    simp only [hmark]
    exact ih
  | case2 table recorded hlt next literal hmark error hdecode =>
    rw [scan, dif_pos hlt]
    simp only [hmark, hdecode]
    rfl
  | case3 table recorded hlt next literal hmark target hdecode entry recorded' =>
    rw [scan, dif_pos hlt]
    simp only [hmark, hdecode, run_record, if_pos, hearAll_labelEvents]
    rfl
  | case4 table recorded hlt next literal hmark mark hdecode target entry recorded' hne ih =>
    rw [scan, dif_pos hlt]
    simp only [hmark, hdecode, run_record, if_neg hne, hearAll_labelEvents]
    exact ih
  | case5 table recorded hge =>
    rw [scan, dif_neg hge]

theorem run_resolve (program : Program) (label : Value) (table : LabelTable) (tracer : τ) :
    (resolve program label table).run tracer =
      (((table.resolve program label).table, (table.resolve program label).result label),
        hearAll tracer (labelEvents (table.resolve program label).recorded)) := by
  unfold resolve LabelTable.resolve
  cases table.get? label with
  | some target => rfl
  | none =>
    have hscan : (scan program label table).run tracer = _ := scan_eq program label table #[] tracer
    simp only [StateT.run_bind, hscan]
    unfold Resolution.result
    rcases (table.scan program label #[]).target with error | _ | target <;> rfl

theorem run_transfer (program : Program) (control : Control) (label : Value) (calls : List Nat)
    (event : Value → Nat → Event) (tracer : τ) :
    (transfer program control label calls event).run tracer =
      (control.transfer program label calls event).told tracer := by
  unfold transfer Control.transfer
  simp only [StateT.run_bind, run_resolve]
  cases (control.labels.resolve program label).result label with
  | error fault => rfl
  | ok target =>
    simp only [Effect.told, hearAll_append]
    rfl

theorem run_branch (program : Program) (control : Control) (stack : Stack) (label : Value)
    (test : Value → Bool) (tracer : τ) :
    (branch program control stack label test).run tracer =
      (control.branch program stack label test).told tracer := by
  unfold branch Control.branch
  cases stack with
  | nil => rfl
  | cons top rest =>
    simp only
    split
    · simp only [StateT.run_bind, run_transfer]
      rfl
    · rfl

theorem run_flow (program : Program) (control : Control) (stack : Stack) (op : FlowOp Value)
    (tracer : τ) :
    (flow program control stack op).run tracer = (op.run program control stack).told tracer := by
  cases op with
  | mark label =>
    simp only [flow, StateT.run_bind, run_record]
    rfl
  | call label | jump label =>
    simp only [flow, StateT.run_bind, run_transfer]
    rfl
  | jumpIfZero label | jumpIfNegative label => exact run_branch program control stack label _ tracer
  | ret =>
    obtain ⟨pc, calls, labels⟩ := control
    cases calls <;> rfl
  | stop => rfl

theorem events_ofExcept {σ σ' : Type} (old : σ') (embed : σ → σ') (result : Except Fault σ) :
    (Effect.ofExcept old embed result).events = [] := by
  cases result <;> rfl

theorem events_readTo {α : Type} (machine : Machine)
    (read : Input → Input × Except StreamError (Option α)) (value : α → Except Fault Value) :
    (machine.readTo read value).events = [] := by
  unfold readTo
  split
  · simp only
    split
    · rfl
    · rfl
    · split <;> rfl
  · rfl

theorem events_run_io (machine : Machine) (op : IoOp) : (op.run machine).events = [] := by
  cases op with
  | writeChar =>
    simp only [IoOp.run, writeChar]
    split
    · split <;> rfl
    · rfl
  | writeNumber =>
    simp only [IoOp.run, writeNumber]
    split <;> rfl
  | readChar => exact events_readTo machine _ _
  | readNumber => exact events_readTo machine _ _

theorem events_perform_of_ne_flow (machine : Machine) {operation : Operation Value}
    (h : operation.category ≠ .flow) : (machine.perform operation).events = [] := by
  cases operation with
  | flow op => exact absurd rfl h
  | io op => exact events_run_io machine op
  | stack op | arithmetic op | heap op => exact events_ofExcept _ _ _

theorem run_perform (machine : Machine) (operation : Operation Value) (tracer : τ) :
    (perform machine operation).run tracer = (machine.perform operation).told tracer := by
  rcases eq_flow_or_ne_flow operation with ⟨op, rfl⟩ | hne
  · simp only [perform, StateT.run_bind, run_flow]
    rfl
  · have hperform : perform machine operation =
        (return ((machine.perform operation).state, (machine.perform operation).outcome) :
          StateM τ _) := by
      cases operation with
      | flow op => exact absurd rfl hne
      | _ => rfl
    rw [hperform, Effect.told, events_perform_of_ne_flow machine hne]
    rfl

theorem run_execute (machine : Machine) (instruction : Instruction) (tracer : τ) :
    (execute machine instruction).run tracer = (machine.execute instruction).told tracer := by
  unfold execute Machine.execute
  cases instruction.decode with
  | error error => rfl
  | ok operation => exact run_perform machine operation tracer

/-- A traced step is the step, and tells its events. -/
theorem run_step (machine : Machine) (tracer : τ) :
    (step machine).run tracer =
      ((machine.step.machine, machine.step.outcome), hearAll tracer machine.step.events) := by
  unfold step Machine.step
  simp only
  cases machine.program[machine.pc]? with
  | none => rfl
  | some instruction =>
    cases machine.spend with
    | error limit => rfl
    | ok fuelled =>
      simp only [StateT.run_bind, run_execute]
      rcases houtcome : (fuelled.advance.execute instruction).outcome with fault | signal
      · simp only [Effect.told, houtcome]
        rfl
      · cases signal with
        | next =>
          simp only [Effect.told, houtcome, hearAll_append]
          rfl
        | halt =>
          simp only [Effect.told, houtcome, hearAll_append]
          rfl

theorem run_runFor (count : Nat) (machine : Machine) (tracer : τ) :
    (runFor count machine).run tracer =
      (((machine.runFor count).machine, (machine.runFor count).ending),
        hearAll tracer (machine.runFor count).events) := by
  induction count generalizing machine tracer with
  | zero => rfl
  | succ count ih =>
    simp only [runFor, StateT.run_bind, run_step]
    rcases houtcome : machine.step.outcome with error | _ | halt
    · rw [runFor_succ_of_error houtcome]
      rfl
    · rw [runFor_succ_of_next houtcome, hearAll_append]
      exact ih machine.step.machine (hearAll tracer machine.step.events)
    · rw [runFor_succ_of_halt houtcome]
      rfl

theorem events_empty (byteOffset : Nat → Nat) (error : Option SourceError) :
    (Reading.mapOffset byteOffset ⟨#[], error⟩).events = [] := by
  simp [Reading.events, Reading.mapOffset]

theorem program_mapOffset (byteOffset : Nat → Nat) (found : Array Located) :
    (Reading.mapOffset byteOffset ⟨found, none⟩).program = .ok (found.map Located.instruction) := by
  simp [Reading.program, Reading.mapOffset, Function.comp_def]

theorem events_push (byteOffset : Nat → Nat) (found : Array Located) (located : Located)
    (error : Option SourceError) :
    (Reading.mapOffset byteOffset ⟨found.push located, error⟩).events =
      (Reading.mapOffset byteOffset ⟨found, error⟩).events ++
        [.decoded found.size (byteOffset located.offset) located.instruction] := by
  simp [Reading.events, Reading.mapOffset, List.zipIdx_append]

theorem readFrom_eq (byteOffset : Nat → Nat) (position : Nat) (found : Array Located)
    (input : List Glyph) (tracer : τ) :
    (readFrom byteOffset position (found.map Located.instruction) input).run
        (hearAll tracer (Reading.mapOffset byteOffset ⟨found, none⟩).events) =
      (((Reading.advance position found input).mapOffset byteOffset).program,
        hearAll tracer ((Reading.advance position found input).mapOffset byteOffset).events) := by
  -- What was found so far has been told: finding one more instruction adds its event.
  fun_induction Reading.advance position found input with
  | case1 position found input hempty =>
    rw [readFrom, if_pos hempty]
    rw [program_mapOffset]
    rfl
  | case2 position found input hne before cause hread =>
    rw [readFrom, if_neg hne]
    split
    · next heq =>
      cases hread.symm.trans heq
      simp only [Array.size_map]
      rfl
    · next heq => cases hread.symm.trans heq
  | case3 position found input hne instruction rest hread ih =>
    rw [readFrom, if_neg hne]
    split
    · next heq => cases hread.symm.trans heq
    · next heq =>
      cases hread.symm.trans heq
      rw [Array.map_push, events_push, hearAll_append] at ih
      simp only [Array.size_map, StateT.run_bind]
      exact ih

theorem run_read (source : String) (tracer : τ) :
    (read source).run tracer =
      (Program.ofSource source, hearAll tracer (Reading.ofSource source).events) := by
  have h := readFrom_eq (Lexeme.byteOffset (Lexeme.ofSource source) source) 0 #[]
    ((Lexeme.ofSource source).toList.map Lexeme.glyph) tracer
  rw [Array.map_empty, events_empty, hearAll_nil] at h
  exact h

section Calls

variable {machine first : Machine} {call : Call} {answer : Answer} {after : Machine}

theorem run_execution (count : Nat) (machine : Machine) (tracer : τ) :
    (execution count machine).run tracer =
      (((machine.runFor count).machine, (machine.runFor count).ending),
        hearAll tracer (.program machine.program.size :: (machine.runFor count).events)) := by
  simp only [execution, StateT.run_bind]
  exact run_runFor count machine (Tracer.hear tracer (.program machine.program.size))

theorem exists_performs_iff (tracer : τ) :
    (∃ told, Performs machine tracer call answer after told) ↔
      ∃ stages, Machine.Performs machine call answer stages after := by
  constructor
  · rintro ⟨told, hcall⟩
    cases hcall with
    | step h =>
      rw [run_step] at h
      cases h
      exact ⟨_, .step⟩
    | execute h =>
      rw [run_execution] at h
      obtain ⟨hrun, -⟩ := Prod.mk.inj h
      obtain ⟨rfl, hending⟩ := Prod.mk.inj hrun
      exact ⟨_, .execute hending⟩
    | resolve label => exact ⟨_, .resolve label⟩
  · rintro ⟨stages, hcall⟩
    cases hcall with
    | step => exact ⟨_, .step (run_step machine tracer)⟩
    | @execute count ending hending =>
      have hrun := run_execution count machine tracer
      rw [hending] at hrun
      exact ⟨_, .execute hrun⟩
    | resolve label => exact ⟨_, .resolve label⟩

theorem exists_calls_iff (tracer : τ) {log : List (Call × Answer)} :
    (∃ told, Calls first tracer log machine told) ↔
      ∃ history, Machine.Calls first log history machine := by
  constructor
  · rintro ⟨told, hcalls⟩
    induction hcalls with
    | nil => exact ⟨_, .nil⟩
    | snoc _ hcall ih =>
      obtain ⟨history, hhistory⟩ := ih
      obtain ⟨stages, hperforms⟩ := (exists_performs_iff _).mp ⟨_, hcall⟩
      exact ⟨_, hhistory.snoc hperforms⟩
  · rintro ⟨history, hcalls⟩
    induction hcalls with
    | nil => exact ⟨_, .nil⟩
    | snoc _ hcall ih =>
      obtain ⟨told, htold⟩ := ih
      obtain ⟨told', hperforms⟩ := (exists_performs_iff told).mpr ⟨_, hcall⟩
      exact ⟨_, htold.snoc hperforms⟩

end Calls

/-- A printer changes nothing, whatever it shows and whether or not its sink takes it: a text is read as
the same program or refused with the same error, and calls on any machine are given the same answers and
leave the same machine. -/
theorem printer_changes_nothing (printer : Printer) :
    (∀ source, ((read source).run printer).1 = Program.ofSource source) ∧
      ∀ (first : Machine) (log : List (Call × Answer)) (machine : Machine),
        (∃ told, Calls first printer log machine told) ↔
          ∃ history, Machine.Calls first log history machine := by
  refine ⟨fun source => ?_, fun first log machine => exists_calls_iff printer⟩
  rw [run_read]

end Traced

end Whitespace
