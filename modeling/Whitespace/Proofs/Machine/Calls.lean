import Whitespace.Machine.Step

/-!
Calls on a machine: single steps, runs to the end and label lookups, in any order and also after faults
and halts. `Calls` relates a machine to every machine it can become in this way, and `Calls.preserves`
is the one induction over them: whatever a step and a lookup preserve holds ever after.
-/

namespace Whitespace.Machine

inductive Call where
  | step
  | execute
  | resolve (label : Value)
  deriving DecidableEq, Repr

inductive Answer where
  | step (outcome : Except RuntimeError (Option Halt))
  | execute (ending : Except RuntimeError Halt)
  | resolve (target : Except Fault Nat)

/-- The machines that take the steps of a run of up to `count` steps, in order. -/
def stages : Nat → Machine → List Machine
  | 0, _ => []
  | count + 1, machine =>
    match machine.step.outcome with
    | .ok none => machine :: stages count machine.step.machine
    | _ => [machine]

/-- A call on a machine is answered after some stages and leaves a machine behind. An execution is
answered once its run has ended; one that never ends has no answer. -/
inductive Performs (machine : Machine) : Call → Answer → List Machine → Machine → Prop
  | step : Performs machine .step (.step machine.step.outcome) [machine] machine.step.machine
  | execute {count : Nat} {ending : Except RuntimeError Halt}
      (hending : (runFor count machine).ending = some ending) :
      Performs machine .execute (.execute ending) (stages count machine)
        (runFor count machine).machine
  | resolve (label : Value) :
      Performs machine (.resolve label) (.resolve (machine.resolve label).2) []
        (machine.resolve label).1

/-- Calls on `first`, logged with their answers, have taken the steps of `history` and led to a
machine. -/
inductive Calls (first : Machine) : List (Call × Answer) → List Machine → Machine → Prop
  | nil : Calls first [] [] first
  | snoc {log history machine call answer stages after}
      (hcalls : Calls first log history machine)
      (hcall : Performs machine call answer stages after) :
      Calls first (log ++ [(call, answer)]) (history ++ stages) after

theorem runFor_succ_of_next {machine : Machine} (h : machine.step.outcome = .ok none)
    (count : Nat) :
    runFor (count + 1) machine =
      ⟨(runFor count machine.step.machine).machine,
        machine.step.events ++ (runFor count machine.step.machine).events,
        (runFor count machine.step.machine).ending⟩ := by
  simp only [runFor, h]

theorem stages_succ_of_next {machine : Machine} (h : machine.step.outcome = .ok none)
    (count : Nat) :
    stages (count + 1) machine = machine :: stages count machine.step.machine := by
  simp only [stages, h]

theorem runFor_succ_of_error {machine : Machine} {error : RuntimeError}
    (h : machine.step.outcome = .error error) (count : Nat) :
    runFor (count + 1) machine =
      ⟨machine.step.machine, machine.step.events, some (.error error)⟩ := by
  simp only [runFor, h]

theorem runFor_succ_of_halt {machine : Machine} {halt : Halt}
    (h : machine.step.outcome = .ok (some halt)) (count : Nat) :
    runFor (count + 1) machine = ⟨machine.step.machine, machine.step.events, some (.ok halt)⟩ := by
  simp only [runFor, h]

section Preservation

variable {motive : List Machine → Machine → Prop}

theorem runFor_preserves
    (hstep : ∀ history machine, motive history machine →
      motive (history ++ [machine]) machine.step.machine)
    (count : Nat) {history : List Machine} {machine : Machine} (h : motive history machine) :
    motive (history ++ stages count machine) (runFor count machine).machine := by
  induction count generalizing history machine with
  | zero => simpa [stages, runFor] using h
  | succ count ih =>
    cases houtcome : machine.step.outcome with
    | error error =>
      rw [runFor_succ_of_error houtcome]
      simpa only [stages, houtcome] using hstep history machine h
    | ok halt =>
      cases halt with
      | some halt =>
        rw [runFor_succ_of_halt houtcome]
        simpa only [stages, houtcome] using hstep history machine h
      | none =>
        rw [runFor_succ_of_next houtcome, stages_succ_of_next houtcome, List.append_cons]
        exact ih (hstep history machine h)

theorem Calls.preserves {first machine : Machine} {log : List (Call × Answer)}
    {history : List Machine} (hcalls : Calls first log history machine)
    (hfirst : motive [] first)
    (hstep : ∀ history machine, motive history machine →
      motive (history ++ [machine]) machine.step.machine)
    (hresolve : ∀ history machine label, motive history machine →
      motive history (machine.resolve label).1) :
    motive history machine := by
  induction hcalls with
  | nil => exact hfirst
  | snoc _ hcall ih =>
    cases hcall with
    | step => exact hstep _ _ ih
    | execute => exact runFor_preserves hstep _ ih
    | resolve label =>
      rw [List.append_nil]
      exact hresolve _ _ label ih

end Preservation

theorem append_singleton_eq_append_cons {α : Type} {history earlier later : List α} {last stage : α}
    (h : history ++ [last] = earlier ++ stage :: later) :
    (later = [] ∧ history = earlier ∧ last = stage) ∨
      ∃ rest, later = rest ++ [last] ∧ history = earlier ++ stage :: rest := by
  rcases List.eq_nil_or_concat later with rfl | ⟨rest, final, rfl⟩
  · obtain ⟨rfl, hlast⟩ := List.append_inj' h rfl
    cases hlast
    exact .inl ⟨rfl, rfl, rfl⟩
  · rw [List.concat_eq_append, ← List.cons_append, ← List.append_assoc] at h
    obtain ⟨rfl, hlast⟩ := List.append_inj' h rfl
    cases hlast
    exact .inr ⟨rest, List.concat_eq_append, rfl⟩

theorem Calls.exists_earlier {first stage machine : Machine} {log : List (Call × Answer)}
    {earlier later : List Machine} (hcalls : Calls first log (earlier ++ stage :: later) machine) :
    ∃ log', Calls first log' earlier stage := by
  have h := hcalls.preserves (motive := fun history machine =>
    (∃ log, Calls first log history machine) ∧ ∀ earlier stage later,
      history = earlier ++ stage :: later → ∃ log', Calls first log' earlier stage)
  refine (h ?_ ?_ ?_).2 earlier stage later rfl
  · refine ⟨⟨[], .nil⟩, fun earlier stage later hsplit => ?_⟩
    cases earlier <;> cases hsplit
  · rintro history machine ⟨⟨log, hmachine⟩, hstages⟩
    refine ⟨⟨_, hmachine.snoc .step⟩, fun earlier stage later hsplit => ?_⟩
    rcases append_singleton_eq_append_cons hsplit with ⟨-, rfl, rfl⟩ | ⟨rest, -, hearlier⟩
    · exact ⟨log, hmachine⟩
    · exact hstages earlier stage rest hearlier
  · rintro history machine label ⟨⟨log, hmachine⟩, hstages⟩
    have hresolve := hmachine.snoc (.resolve label)
    rw [List.append_nil] at hresolve
    exact ⟨⟨_, hresolve⟩, hstages⟩

end Whitespace.Machine
