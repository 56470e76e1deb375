import Whitespace.Proofs.Machine.Fuel

/-!
Programs with more code behind them. A run that neither comes to the end of its program nor misses a
label never notices that the program goes on: a scan stops at the mark it looks for or at one without a
value, and both stand in the part that was there before.
-/

namespace Whitespace.Machine

namespace LabelTable

variable {program : Program} {label : Value}

theorem scan_append (code : Program) (table : LabelTable) (recorded : Array (Value × Nat))
    (h : (table.scan program label recorded).target ≠ .ok none) :
    table.scan (program ++ code) label recorded = table.scan program label recorded := by
  fun_induction LabelTable.scan program label table recorded with
  | case1 table recorded hlt next hmark ih =>
    rw [scan, dif_pos (by simp; omega)]
    simp only [Array.getElem_append_left hlt, hmark]
    exact ih h
  | case2 table recorded hlt next literal hmark error hdecode =>
    rw [scan, dif_pos (by simp; omega)]
    simp only [Array.getElem_append_left hlt, hmark, hdecode]
    rfl
  | case3 table recorded hlt next literal hmark target hdecode entry recorded' =>
    rw [scan, dif_pos (by simp; omega)]
    simp only [Array.getElem_append_left hlt, hmark, hdecode, if_pos]
    rfl
  | case4 table recorded hlt next literal hmark mark hdecode target entry recorded' hne ih =>
    rw [scan, dif_pos (by simp; omega)]
    simp only [Array.getElem_append_left hlt, hmark, hdecode, if_neg hne]
    exact ih h
  | case5 table recorded hge => exact absurd rfl h

theorem resolve_append (code : Program) (table : LabelTable)
    (h : (table.resolve program label).target ≠ .ok none) :
    table.resolve (program ++ code) label = table.resolve program label := by
  unfold resolve at h ⊢
  split
  · rfl
  · next hmiss =>
    simp only [hmiss] at h
    exact scan_append code table #[] h

end LabelTable

def extend (machine : Machine) (code : Program) : Machine :=
  { machine with program := machine.program ++ code }

/-- A way to end that does not depend on where the program ends. -/
def Inside : Except RuntimeError Halt → Prop
  | .ok halt => halt = .stop
  | .error error => ∀ label, error.fault ≠ .undefinedLabel label

section Steps

variable {program : Program} {machine : Machine}

theorem transfer_append (code : Program) {control : Control} {label : Value} {calls : List Nat}
    {event : Value → Nat → Event}
    (h : (control.transfer program label calls event).outcome ≠ .error (.undefinedLabel label)) :
    control.transfer (program ++ code) label calls event =
      control.transfer program label calls event := by
  have htarget : (control.labels.resolve program label).target ≠ .ok none := by
    intro hnone
    apply h
    simp only [Control.transfer, Resolution.result, hnone]
  unfold Control.transfer
  rw [LabelTable.resolve_append code control.labels htarget]

theorem branch_append (code : Program) {control : Control} {stack : Stack} {label : Value}
    {test : Value → Bool}
    (h : (control.branch program stack label test).outcome ≠ .error (.undefinedLabel label)) :
    control.branch (program ++ code) stack label test =
      control.branch program stack label test := by
  unfold Control.branch at h ⊢
  split
  · simp only at h ⊢
    split
    · next htest =>
      simp only [htest, if_true] at h
      unfold Control.jump at h ⊢
      rw [transfer_append code h]
    · rfl
  · rfl

theorem run_flow_append (code : Program) {control : Control} {stack : Stack} {op : FlowOp Value}
    (h : ∀ label, (op.run program control stack).outcome ≠ .error (.undefinedLabel label)) :
    op.run (program ++ code) control stack = op.run program control stack := by
  cases op with
  | call label => simp only [FlowOp.run, Control.call, transfer_append code (h label)]
  | jump label => simp only [FlowOp.run, Control.jump, transfer_append code (h label)]
  | jumpIfZero label => exact branch_append code (h label)
  | jumpIfNegative label => exact branch_append code (h label)
  | mark label | ret | stop => rfl

theorem execute_extend (code : Program) {instruction : Instruction}
    (h : ∀ label, (machine.execute instruction).outcome ≠ .error (.undefinedLabel label)) :
    (machine.extend code).execute instruction =
      (machine.execute instruction).within (extend · code) := by
  unfold execute at h ⊢
  cases hdecode : instruction.decode with
  | error error => rfl
  | ok operation =>
    simp only [hdecode] at h ⊢
    rcases eq_flow_or_ne_flow operation with ⟨op, rfl⟩ | hne
    · simp only [perform, extend, run_flow_append code h]
      rfl
    · have hframe :=
        perform_frame machine (machine.program ++ code) machine.control machine.fuel hne
      have hstate := perform_state_of_ne_flow machine hne
      simp only [extend, hframe, Effect.within]
      rw [hstate]

theorem spend_extend (machine : Machine) (code : Program) :
    (machine.extend code).spend = machine.spend.map (extend · code) := by
  obtain ⟨program, control, stack, heap, input, output, fuel⟩ := machine
  rcases fuel with _ | ⟨limit, _ | left⟩ <;> rfl

/-- A step that neither finds the end of the program nor misses a label is the same with more code. -/
theorem step_extend (code : Program)
    (h : ∀ ending, machine.step.ending? = some ending → Inside ending) :
    (machine.extend code).step =
      { machine.step with machine := machine.step.machine.extend code } := by
  have hfound : ∀ error label, machine.step.outcome = .error error →
      error.fault ≠ .undefinedLabel label := by
    intro error label houtcome
    exact h (.error error) (by simp only [Step.ending?, houtcome]) label
  cases hinstruction : machine.program[machine.pc]? with
  | none => cases h _ (ending?_of_end hinstruction)
  | some instruction =>
    obtain ⟨hlt, -⟩ := Array.getElem?_eq_some_iff.mp hinstruction
    have hextended : (machine.extend code).program[(machine.extend code).pc]? =
        some instruction := (Array.getElem?_append_left hlt).trans hinstruction
    unfold step at hfound ⊢
    simp only [hinstruction, hextended, spend_extend] at hfound ⊢
    cases hspend : machine.spend with
    | error limit => rfl
    | ok fuelled =>
      simp only [hspend, Except.map] at hfound ⊢
      have hadvance : (fuelled.extend code).advance = fuelled.advance.extend code := rfl
      have hexecute : (fuelled.advance.extend code).execute instruction =
          (fuelled.advance.execute instruction).within (extend · code) := by
        apply execute_extend
        intro label heq
        exact hfound ⟨machine.pc, instruction, .undefinedLabel label⟩ label (by rw [heq]) rfl
      simp only [hadvance, hexecute, Effect.within]
      rcases (fuelled.advance.execute instruction).outcome with fault | signal
      · rfl
      · cases signal <;> rfl

end Steps

theorem runFor_extend (code : Program) {machine : Machine} {ending : Except RuntimeError Halt}
    {count : Nat} (hending : (runFor count machine).ending = some ending) (hinside : Inside ending) :
    runFor count (machine.extend code) =
      { runFor count machine with machine := (runFor count machine).machine.extend code } := by
  induction count generalizing machine with
  | zero => rfl
  | succ count ih =>
    -- If this step ends the run, then in the way the run ends, which is `hinside`.
    have hstep : (machine.extend code).step =
        { machine.step with machine := machine.step.machine.extend code } := by
      apply step_extend
      intro found hfound
      rw [runFor_succ_of_ending? hfound] at hending
      obtain rfl : found = ending := Option.some.inj hending
      exact hinside
    cases hend : machine.step.ending? with
    | some found =>
      have hextended : (machine.extend code).step.ending? = some found := by
        rw [hstep]
        exact hend
      rw [runFor_succ_of_ending? hend, runFor_succ_of_ending? hextended, hstep]
    | none =>
      have hnext := Step.outcome_of_ending?_none hend
      have hextended : (machine.extend code).step.outcome = .ok none := by
        rw [hstep]
        exact hnext
      rw [runFor_succ_of_next hnext] at hending ⊢
      rw [runFor_succ_of_next hextended, hstep, ih hending]

theorem program_runFor (count : Nat) (machine : Machine) :
    (runFor count machine).machine.program = machine.program := by
  apply @runFor_preserves (fun _ later => later.program = machine.program) _ count [] machine rfl
  intro history later hprogram
  exact (program_step later).trans hprogram

/-- Code behind a program does not change what executing it comes to, unless execution passes the last
instruction or misses a label: the answer is the same, and so is the machine but for its program. -/
theorem execute_append_iff (program code : Program) (input : Input) (output : Output)
    (limit : Option Nat) {ending : Except RuntimeError Halt} {stages : List Machine}
    {after : Machine}
    (h : Performs (start program input output limit) .execute (.execute ending) stages after)
    (hinside : Inside ending) (answer : Answer) (after' : Machine) :
    (∃ stages', Performs (start (program ++ code) input output limit) .execute answer stages'
      after') ↔ answer = .execute ending ∧ after' = { after with program := program ++ code } := by
  cases h with
  | @execute count _ hending =>
    have hrun : runFor count (start (program ++ code) input output limit) = _ :=
      runFor_extend code hending hinside
    have hafter : (runFor count (start program input output limit)).machine.extend code =
        { (runFor count (start program input output limit)).machine with
          program := program ++ code } := by
      rw [extend, program_runFor]
      rfl
    have hextended := (congrArg Run.ending hrun).trans hending
    rw [performs_execute_iff hextended, hrun, hafter]

/-- A loop runs out of fuel. The code behind it marks its label once more, and then has a mark without
a value. -/
theorem execute_append_iff_second_mark :
    let program : Program := #[.flow (.mark ⟨false, [true]⟩), .flow (.jump ⟨false, [true]⟩)]
    let code : Program :=
      #[.flow (.mark ⟨false, [true]⟩), .flow (.mark ⟨false, List.replicate 64 true⟩)]
    let ending : Except RuntimeError Halt :=
      .error ⟨1, .flow (.jump ⟨false, [true]⟩), .outOfFuel 2⟩
    ∃ stages after, Performs (start program { remaining := [] } {} (some 2)) .execute
        (.execute ending) stages after ∧ Inside ending ∧
      ∃ stages', Performs (start (program ++ code) { remaining := [] } {} (some 2)) .execute
        (.execute ending) stages' { after with program := program ++ code } := by
  intro program code ending
  have hending :
      (runFor 3 (start program { remaining := [] } {} (some 2))).ending = some ending := by rfl
  have hinside : Inside ending := by
    intro label h
    cases h
  have hexecute := Performs.execute hending
  exact ⟨_, _, hexecute, hinside,
    (execute_append_iff program code _ _ (some 2) hexecute hinside _ _).mpr ⟨rfl, rfl⟩⟩

end Whitespace.Machine
