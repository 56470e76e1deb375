import Whitespace.Proofs.Machine.Calls
import Whitespace.Proofs.Machine.Outcome

/-!
Subroutines. The steps of a history that enter a subroutine and those that leave one are brackets, and
the return indices of a machine are what replaying them gives. So a return goes behind the call that it
matches, the last one before it with nothing but matched calls and returns in between, and there is
none to match just when as many subroutines have been left as entered.
-/

namespace Whitespace

/-- What carrying out an operation does to the return indices. -/
inductive Bracket where
  | enter
  | leave
  deriving DecidableEq

def Operation.bracket? {α : Type} : Operation α → Option Bracket
  | .flow (.call _) => some .enter
  | .flow .ret => some .leave
  | _ => none

theorem Operation.bracket?_of_ne_flow {α : Type} {operation : Operation α}
    (h : operation.category ≠ .flow) : operation.bracket? = none := by
  cases operation with
  | flow op => exact absurd rfl h
  | _ => rfl

theorem Operation.bracket?_opcode {α : Type} (operation : Operation α) :
    operation.opcode.bracket? = operation.bracket? := by
  rcases operation with op | op | op | op | op <;> cases op <;> rfl

theorem Operation.exists_call_of_bracket? {α : Type} {operation : Operation α}
    (h : operation.bracket? = some .enter) : ∃ label, operation = .flow (.call label) := by
  unfold bracket? at h
  split at h
  · exact ⟨_, rfl⟩
  · cases h
  · cases h

theorem Operation.eq_ret_of_bracket? {α : Type} {operation : Operation α}
    (h : operation.bracket? = some .leave) : operation = .flow .ret := by
  unfold bracket? at h
  split at h
  · cases h
  · rfl
  · cases h

namespace Machine

def afterBracket (index : Nat) (calls : List Nat) : Option Bracket → List Nat
  | some .enter => index :: calls
  | some .leave => calls.tail
  | none => calls

def bracket? (machine : Machine) : Option Bracket := machine.performed?.bind Operation.bracket?

def replay (history : List Machine) : List Nat :=
  history.foldl (fun calls machine => afterBracket (machine.pc + 1) calls machine.bracket?) []

def brackets (bracket : Bracket) (history : List Machine) : Nat :=
  history.countP (·.bracket? = some bracket)

/-- Every call is followed by its return, and every return preceded by its call. -/
inductive Balanced : List Machine → Prop
  | nil : Balanced []
  | snoc {history machine} (hhistory : Balanced history) (hmachine : bracket? machine = none) :
      Balanced (history ++ [machine])
  | nest {outer caller inner returner} (houter : Balanced outer)
      (hcaller : bracket? caller = some .enter) (hinner : Balanced inner)
      (hreturner : bracket? returner = some .leave) :
      Balanced (outer ++ caller :: (inner ++ [returner]))

/-- The last call of a history that is not followed by its return. -/
def LastOpen (history : List Machine) (caller : Machine) : Prop :=
  bracket? caller = some .enter ∧
    ∃ earlier inner, history = earlier ++ caller :: inner ∧ Balanced inner

section Histories

variable {history : List Machine} {machine : Machine}

theorem replay_snoc : replay (history ++ [machine]) =
    afterBracket (machine.pc + 1) (replay history) machine.bracket? := by
  simp [replay]

theorem brackets_snoc (bracket : Bracket) : brackets bracket (history ++ [machine]) =
    brackets bracket history + if machine.bracket? = some bracket then 1 else 0 := by
  simp [brackets, List.countP_append, List.countP_singleton]

theorem replay_append_of_balanced {inner : List Machine} (h : Balanced inner) :
    replay (history ++ inner) = replay history := by
  induction h generalizing history with
  | nil => rw [List.append_nil]
  | snoc hhistory hmachine ih =>
    rw [← List.append_assoc, replay_snoc, hmachine, ih]
    rfl
  | @nest outer caller inner returner houter hcaller hinner hreturner ihouter ihinner =>
    have hsplit : history ++ (outer ++ caller :: (inner ++ [returner])) =
        history ++ outer ++ [caller] ++ inner ++ [returner] := by simp
    rw [hsplit, replay_snoc, ihinner, replay_snoc, ihouter, hcaller, hreturner]
    rfl

end Histories

theorem exists_lastOpen_of_replay {history : List Machine} {index : Nat} {rest : List Nat}
    (h : replay history = index :: rest) :
    ∃ earlier caller inner, history = earlier ++ caller :: inner ∧
      bracket? caller = some .enter ∧ Balanced inner ∧ replay earlier = rest := by
  induction hlength : history.length using Nat.strongRecOn generalizing history index rest with
  | _ length ih =>
  rcases List.eq_nil_or_concat history with rfl | ⟨init, last, rfl⟩
  · cases h
  rw [List.concat_eq_append] at h hlength ⊢
  rw [List.length_append, List.length_singleton] at hlength
  rw [replay_snoc] at h
  cases hlast : last.bracket? with
  | none =>
    rw [hlast] at h
    obtain ⟨earlier, caller, inner, rfl, hcaller, hinner, hrest⟩ := ih _ (by omega) h rfl
    exact ⟨earlier, caller, inner ++ [last], by simp, hcaller, hinner.snoc hlast, hrest⟩
  | some bracket =>
    rw [hlast] at h
    cases bracket with
    | enter =>
      obtain ⟨rfl, hrest⟩ := List.cons.inj h
      exact ⟨init, last, [], rfl, hlast, .nil, hrest⟩
    | leave =>
      cases hinit : replay init with
      | nil =>
        rw [hinit] at h
        cases h
      | cons top below =>
        rw [hinit] at h
        -- The return closes the last open call of `init`, and the call sought is open before that.
        obtain ⟨earlier, caller, inner, rfl, hcaller, hinner, hbelow⟩ := ih _ (by omega) hinit rfl
        rw [List.length_append] at hlength
        obtain ⟨before, opener, outer, rfl, hopener, houter, hrest⟩ :=
          ih _ (by omega) (hbelow.trans h) rfl
        exact ⟨before, opener, outer ++ caller :: (inner ++ [last]), by simp, hopener,
          houter.nest hcaller hinner hlast, hrest⟩

section Steps

variable (program : Program) (control : Control) (stack : Stack)

theorem calls_transfer (label : Value) (calls : List Nat) (event : Value → Nat → Event) :
    let effect := control.transfer program label calls event
    (effect.outcome = .ok .next ∧ effect.state.calls = calls) ∨
      (effect.outcome ≠ .ok .next ∧ effect.state.calls = control.calls) := by
  unfold Control.transfer
  simp only
  split
  · exact .inl ⟨rfl, rfl⟩
  · exact .inr ⟨nofun, rfl⟩

theorem calls_branch (label : Value) (test : Value → Bool) :
    (control.branch program stack label test).state.1.calls = control.calls := by
  cases stack with
  | nil => rfl
  | cons top rest =>
    simp only [Control.branch]
    split
    · rcases calls_transfer program control label control.calls .jump with h | h <;> exact h.2
    · rfl

theorem calls_run (op : FlowOp Value) :
    let effect := op.run program control stack
    (effect.outcome = .ok .next ∧
        effect.state.1.calls = afterBracket control.pc control.calls (Operation.flow op).bracket?) ∨
      (effect.outcome ≠ .ok .next ∧ effect.state.1.calls = control.calls) := by
  have hsame {effect : Effect (Control × Stack)} (h : effect.state.1.calls = control.calls) :
      (effect.outcome = .ok .next ∧ effect.state.1.calls = control.calls) ∨
        (effect.outcome ≠ .ok .next ∧ effect.state.1.calls = control.calls) := by
    by_cases houtcome : effect.outcome = .ok .next
    · exact .inl ⟨houtcome, h⟩
    · exact .inr ⟨houtcome, h⟩
  cases op with
  | mark label => exact hsame rfl
  | call label => exact calls_transfer program control label (control.pc :: control.calls) .call
  | jump label => exact calls_transfer program control label control.calls .jump
  | jumpIfZero label => exact hsame (calls_branch program control stack label _)
  | jumpIfNegative label => exact hsame (calls_branch program control stack label _)
  | ret =>
    obtain ⟨pc, _ | ⟨target, rest⟩, labels⟩ := control
    · exact .inr ⟨nofun, rfl⟩
    · exact .inl ⟨rfl, rfl⟩
  | stop => exact .inr ⟨nofun, rfl⟩

end Steps

variable {program : Program} {input : Input} {output : Output} {limit : Option Nat}
  {log : List (Call × Answer)} {history : List Machine} {machine ready : Machine}

theorem calls_step (machine : Machine) :
    machine.step.machine.control.calls =
      afterBracket (machine.pc + 1) machine.control.calls machine.bracket? := by
  unfold bracket?
  cases machine.proceeds with
  | rests hdispatch hperformed hmachine =>
    rw [hperformed, hmachine]
    rfl
  | rejects hdispatch hdecode hperformed hmachine =>
    rw [hperformed, hmachine, (eq_of_dispatch? hdispatch).2]
    rfl
  | @breaks ready instruction operation hdispatch hdecode houtcome hperformed hmachine =>
    have hcalls : ready.control.calls = machine.control.calls := by
      rw [(eq_of_dispatch? hdispatch).2]
    rw [hperformed, hmachine]
    rcases eq_flow_or_ne_flow operation with ⟨op, rfl⟩ | hne
    · rcases calls_run ready.program ready.control ready.stack op with ⟨hnext, -⟩ | ⟨-, hsame⟩
      · exact absurd hnext houtcome
      · exact hsame.trans hcalls
    · rw [perform_state_of_ne_flow ready hne]
      exact hcalls
  | @performs ready instruction operation hdispatch hdecode houtcome hperformed hmachine =>
    have hpc : ready.control.pc = machine.pc + 1 := by rw [(eq_of_dispatch? hdispatch).2]
    have hcalls : ready.control.calls = machine.control.calls := by
      rw [(eq_of_dispatch? hdispatch).2]
    rw [hperformed, hmachine, Option.bind_some, ← hpc, ← hcalls]
    rcases eq_flow_or_ne_flow operation with ⟨op, rfl⟩ | hne
    · rcases calls_run ready.program ready.control ready.stack op with ⟨-, hrun⟩ | ⟨hfails, -⟩
      · exact hrun
      · exact absurd houtcome hfails
    · rw [perform_state_of_ne_flow ready hne, Operation.bracket?_of_ne_flow hne]
      rfl

theorem exists_instruction_of_bracket? {bracket : Bracket} (h : machine.bracket? = some bracket) :
    ∃ ready instruction, machine.dispatch? = some (ready, instruction) ∧
      instruction.bracket? = some bracket := by
  obtain ⟨operation, hperformed, hbracket⟩ := Option.bind_eq_some_iff.mp h
  obtain ⟨ready, instruction, hdispatch, hdecode, -⟩ := performed?_eq_some_iff.mp hperformed
  rw [← Operation.bracket?_opcode, Instruction.opcode_of_decode hdecode,
    Operation.bracket?_opcode] at hbracket
  exact ⟨ready, instruction, hdispatch, hbracket⟩

theorem step_ret (h : machine.dispatch? = some (ready, .flow .ret)) :
    machine.step =
      ((ready.control.ret.within (·, ready.stack)).within fun state =>
        { ready with control := state.1, stack := state.2 }).toStep machine.pc (.flow .ret) :=
  step_of_dispatch? h

theorem step_ret_of_nil (h : machine.dispatch? = some (ready, .flow .ret))
    (hcalls : machine.control.calls = []) :
    machine.step.outcome = .error ⟨machine.pc, .flow .ret, .returnWithoutCall⟩ := by
  have hready : ready.control.calls = [] := by rw [(eq_of_dispatch? h).2, hcalls]
  rw [step_ret h, Control.ret, hready]
  rfl

theorem step_ret_of_cons {target : Nat} {rest : List Nat}
    (h : machine.dispatch? = some (ready, .flow .ret))
    (hcalls : machine.control.calls = target :: rest) :
    machine.step.outcome = .ok none ∧ machine.step.machine.pc = target ∧
      machine.step.machine.control.calls = rest := by
  have hready : ready.control.calls = target :: rest := by rw [(eq_of_dispatch? h).2, hcalls]
  rw [step_ret h, Control.ret, hready]
  exact ⟨rfl, rfl, rfl⟩

theorem exists_cons_of_leave (h : machine.bracket? = some .leave) :
    ∃ target rest, machine.control.calls = target :: rest := by
  obtain ⟨ready, instruction, hdispatch, hbracket⟩ := exists_instruction_of_bracket? h
  obtain rfl := Operation.eq_ret_of_bracket? hbracket
  obtain ⟨operation, hperformed, -⟩ := Option.bind_eq_some_iff.mp h
  have houtcome := outcome_of_performed? hperformed
  cases hcalls : machine.control.calls with
  | nil => exact nomatch (step_ret_of_nil hdispatch hcalls).symm.trans houtcome
  | cons target rest => exact ⟨target, rest, rfl⟩

theorem Calls.calls_eq_replay
    (hcalls : Calls (start program input output limit) log history machine) :
    machine.control.calls = replay history := by
  apply hcalls.preserves (motive := fun history machine => machine.control.calls = replay history)
  · rfl
  · intro history machine h
    rw [calls_step, replay_snoc, h]
  · intro history machine label h
    exact h

theorem Calls.length_calls_add_brackets
    (hcalls : Calls (start program input output limit) log history machine) :
    machine.control.calls.length + brackets .leave history = brackets .enter history := by
  apply hcalls.preserves (motive := fun history machine =>
    machine.control.calls.length + brackets .leave history = brackets .enter history)
  · rfl
  · intro history machine h
    rw [calls_step, brackets_snoc, brackets_snoc]
    cases hbracket : machine.bracket? with
    | none => simpa [afterBracket] using h
    | some bracket =>
      cases bracket with
      | enter =>
        simp only [afterBracket, List.length_cons, reduceCtorEq, if_false, if_true,
          Option.some.injEq]
        omega
      | leave =>
        obtain ⟨target, rest, hcons⟩ := exists_cons_of_leave hbracket
        rw [hcons, List.length_cons] at h
        simp only [afterBracket, hcons, List.tail_cons, reduceCtorEq, if_false, if_true,
          Option.some.injEq]
        omega
  · intro history machine label h
    exact h

theorem Calls.exists_call_of_mem
    (hcalls : Calls (start program input output limit) log history machine) :
    machine.program = program ∧ ∀ index ∈ machine.control.calls,
      ∃ caller literal, program[caller]? = some (.flow (.call literal)) ∧ index = caller + 1 := by
  apply hcalls.preserves (motive := fun _ machine =>
    machine.program = program ∧ ∀ index ∈ machine.control.calls,
      ∃ caller literal, program[caller]? = some (.flow (.call literal)) ∧ index = caller + 1)
  · exact ⟨rfl, nofun⟩
  · rintro history machine ⟨rfl, h⟩
    refine ⟨program_step machine, fun index hindex => ?_⟩
    rw [calls_step] at hindex
    cases hbracket : machine.bracket? with
    | none =>
      rw [hbracket] at hindex
      exact h index hindex
    | some bracket =>
      rw [hbracket] at hindex
      cases bracket with
      | enter =>
        obtain ⟨ready, instruction, hdispatch, hcall⟩ := exists_instruction_of_bracket? hbracket
        obtain ⟨literal, rfl⟩ := Operation.exists_call_of_bracket? hcall
        rcases List.mem_cons.mp hindex with rfl | hmem
        · exact ⟨machine.pc, literal, (eq_of_dispatch? hdispatch).1, rfl⟩
        · exact h index hmem
      | leave => exact h index (List.mem_of_mem_tail hindex)
  · intro history machine label h
    exact h

theorem Calls.calls_of_lastOpen {caller : Machine}
    (hcalls : Calls (start program input output limit) log history machine)
    (hopen : LastOpen history caller) :
    machine.control.calls = (caller.pc + 1) :: caller.control.calls := by
  obtain ⟨hcaller, earlier, inner, rfl, hinner⟩ := hopen
  obtain ⟨log', hearlier⟩ := hcalls.exists_earlier
  rw [hcalls.calls_eq_replay, hearlier.calls_eq_replay, List.append_cons,
    replay_append_of_balanced hinner, replay_snoc, hcaller]
  rfl

/-- Calls and returns are well bracketed, whatever is asked of a machine that was started on a program.
Its return indices are those that replaying the history gives, and each stands behind a call. A return
fails if all subroutines entered have been left. If not, it goes behind the last call that is still
open, whatever happened since, and leaves the return indices that this call found. -/
theorem Calls.well_bracketed
    (hcalls : Calls (start program input output limit) log history machine) :
    machine.control.calls = replay history ∧
      (∀ index ∈ machine.control.calls, 1 ≤ index ∧ index ≤ program.size ∧
        ∃ literal, program[index - 1]? = some (.flow (.call literal))) ∧
      ∀ ready, machine.dispatch? = some (ready, .flow .ret) →
        (machine.step.outcome = .error ⟨machine.pc, .flow .ret, .returnWithoutCall⟩ ↔
          brackets .leave history = brackets .enter history) ∧
        (machine.step.outcome = .ok none ↔ ∃ caller, LastOpen history caller) ∧
        ∀ caller, LastOpen history caller →
          machine.step.machine.pc = caller.pc + 1 ∧
            machine.control.calls = (caller.pc + 1) :: caller.control.calls ∧
            machine.step.machine.control.calls = caller.control.calls := by
  obtain ⟨-, hsaved⟩ := hcalls.exists_call_of_mem
  refine ⟨hcalls.calls_eq_replay, fun index hindex => ?saved,
    fun ready hdispatch => ⟨?fails, ?returns, ?resumes⟩⟩
  case saved =>
    obtain ⟨caller, literal, hcall, rfl⟩ := hsaved index hindex
    have hlt := (Array.getElem?_eq_some_iff.mp hcall).1
    exact ⟨Nat.succ_pos caller, hlt, literal, hcall⟩
  case fails =>
    have hlength := hcalls.length_calls_add_brackets
    cases hindices : machine.control.calls with
    | nil =>
      rw [hindices, List.length_nil, Nat.zero_add] at hlength
      exact iff_of_true (step_ret_of_nil hdispatch hindices) hlength
    | cons target rest =>
      rw [hindices, List.length_cons] at hlength
      refine iff_of_false (fun herror => ?_) (by omega)
      exact nomatch herror.symm.trans (step_ret_of_cons hdispatch hindices).1
  case returns =>
    constructor
    · intro houtcome
      have hreplay := hcalls.calls_eq_replay
      cases hindices : machine.control.calls with
      | nil => exact nomatch (step_ret_of_nil hdispatch hindices).symm.trans houtcome
      | cons target rest =>
        rw [hindices] at hreplay
        obtain ⟨earlier, caller, inner, hsplit, hcaller, hinner, -⟩ :=
          exists_lastOpen_of_replay hreplay.symm
        exact ⟨caller, hcaller, earlier, inner, hsplit, hinner⟩
    · rintro ⟨caller, hopen⟩
      exact (step_ret_of_cons hdispatch (hcalls.calls_of_lastOpen hopen)).1
  case resumes =>
    intro caller hopen
    have hindices := hcalls.calls_of_lastOpen hopen
    obtain ⟨-, hpc, hrest⟩ := step_ret_of_cons hdispatch hindices
    exact ⟨hpc, hindices, hrest⟩

theorem well_bracketed_call_ret :
    let program : Program := #[.flow (.call ⟨false, [true]⟩), .flow .stop,
      .flow (.mark ⟨false, [true]⟩), .flow .ret]
    let first := start program { remaining := [] } {} none
    let second := first.step.machine
    Calls first [(.step, .step first.step.outcome)] [first] second ∧ LastOpen [first] first ∧
      (∃ ready, second.dispatch? = some (ready, .flow .ret)) ∧ second.step.outcome = .ok none ∧
      second.step.machine.pc = 1 := by
  intro program first second
  have hcalls : Calls first [(.step, .step first.step.outcome)] [first] second := .snoc .nil .step
  have hopen : LastOpen [first] first := ⟨by decide +kernel, [], [], rfl, .nil⟩
  have hinstruction : second.dispatch?.map (·.2) = some (.flow .ret) := by decide +kernel
  obtain ⟨⟨ready, instruction⟩, hdispatch, rfl⟩ := Option.map_eq_some_iff.mp hinstruction
  obtain ⟨-, -, hret⟩ := hcalls.well_bracketed
  obtain ⟨-, hnext, hresumes⟩ := hret ready hdispatch
  exact ⟨hcalls, hopen, ⟨ready, hdispatch⟩, hnext.mpr ⟨first, hopen⟩, (hresumes first hopen).1⟩

end Machine

end Whitespace
