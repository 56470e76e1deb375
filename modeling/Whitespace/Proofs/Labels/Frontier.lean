import Whitespace.Proofs.Labels.Coverage
import Whitespace.Proofs.Machine.Calls
import Whitespace.Proofs.Machine.Dispatch

/-!
How far a machine has come. The frontier is the further of the scan cursor and the place behind the
furthest instruction dispatched. The label table covers it, and control stays within it: execution goes
on by one instruction at a time or to a target or return index that it has already passed.
-/

namespace Whitespace.Machine

def dispatched? (machine : Machine) : Option Nat := machine.dispatch?.map fun _ => machine.pc

/-- One past the furthest instruction that a history has dispatched. -/
def reach (history : List Machine) : Nat :=
  (history.filterMap dispatched?).foldl (fun furthest index => max furthest (index + 1)) 0

/-- The further of the scan cursor and the reach. -/
def frontier (history : List Machine) (machine : Machine) : Nat :=
  max machine.control.labels.scanned (reach history)

theorem reach_snoc_of_dispatch?_none (history : List Machine) {machine : Machine}
    (h : machine.dispatch? = none) : reach (history ++ [machine]) = reach history := by
  simp [reach, dispatched?, h]

theorem reach_snoc_of_dispatch? (history : List Machine) {machine ready : Machine}
    {instruction : Instruction} (h : machine.dispatch? = some (ready, instruction)) :
    reach (history ++ [machine]) = max (reach history) (machine.pc + 1) := by
  simp [reach, dispatched?, h]

theorem Resolution.result_eq_ok_iff {resolution : Resolution} {label : Value} {target : Nat} :
    resolution.result label = .ok target ↔ resolution.target = .ok (some target) := by
  unfold result
  split <;> simp_all

namespace Control

variable {program : Program} {control : Control} {reach : Nat}

/-- The label table is right, and control stands and returns within the frontier. -/
structure Sound (program : Program) (reach : Nat) (control : Control) : Prop where
  labels : LabelTable.Sound program reach control.labels
  reach_le : reach ≤ program.size
  pc_le : control.pc ≤ max reach control.labels.scanned
  calls_le : ∀ index ∈ control.calls, index ≤ max reach control.labels.scanned

theorem sound_start (program : Program) : Sound program 0 {} := by
  refine ⟨⟨?_, Nat.zero_le _⟩, Nat.zero_le _, Nat.zero_le _, ?_⟩
  · exact LabelTable.covers_empty program
  · intro index hindex
    cases hindex

theorem Sound.resolve (h : Sound program reach control) (label : Value) :
    Sound program reach
      { control with labels := (control.labels.resolve program label).table } := by
  have hscanned := (LabelTable.grows_resolve program label control.labels).scanned
  have hle : max reach control.labels.scanned ≤
      max reach (control.labels.resolve program label).table.scanned := by omega
  refine ⟨h.labels.resolve label, h.reach_le, Nat.le_trans h.pc_le hle, ?_⟩
  intro index hindex
  exact Nat.le_trans (h.calls_le index hindex) hle

theorem Sound.transfer (h : Sound program reach control) (label : Value) {calls : List Nat}
    (hcalls : ∀ index ∈ calls, index = control.pc ∨ index ∈ control.calls)
    (event : Value → Nat → Event) :
    Sound program reach (control.transfer program label calls event).state := by
  have hresolve := h.resolve label
  unfold Control.transfer
  simp only
  split
  · next target hresult =>
    have hget := LabelTable.get?_of_target_resolve (Resolution.result_eq_ok_iff.mp hresult)
    refine ⟨hresolve.labels, h.reach_le, hresolve.labels.target_le hget, ?_⟩
    intro index hindex
    rcases hcalls index hindex with rfl | hmem
    · exact hresolve.pc_le
    · exact hresolve.calls_le index hmem
  · exact hresolve

theorem Sound.moves (h : Sound program reach control) {after : Control}
    (hmoves : control.Moves program after) : Sound program reach after := by
  cases hmoves with
  | stay => exact h
  | transfer label calls event hcalls => exact h.transfer label hcalls event
  | ret hcalls =>
    refine ⟨h.labels, h.reach_le, h.calls_le _ ?_, ?_⟩
    · rw [hcalls]
      exact List.mem_cons_self
    · intro index hindex
      apply h.calls_le
      rw [hcalls]
      exact List.mem_cons_of_mem _ hindex

theorem Sound.advance (h : Sound program reach control) (hlt : control.pc < program.size)
    {labels : LabelTable} (hscanned : labels.scanned = control.labels.scanned)
    (hlabels : LabelTable.Sound program (max reach (control.pc + 1)) labels) :
    Sound program (max reach (control.pc + 1)) { control with pc := control.pc + 1, labels } := by
  refine ⟨hlabels, Nat.max_le.mpr ⟨h.reach_le, hlt⟩, ?_, ?_⟩
  · simp only
    omega
  · intro index hindex
    have hle := h.calls_le index hindex
    simp only
    omega

theorem grows_moves {after : Control} (hmoves : control.Moves program after) :
    control.labels.Grows after.labels := by
  cases hmoves with
  | stay => exact LabelTable.Grows.refl _
  | transfer label calls event hcalls =>
    unfold Control.transfer
    simp only
    split <;> exact LabelTable.grows_resolve program label control.labels
  | ret hcalls => exact LabelTable.Grows.refl _

end Control

variable {history : List Machine} {machine : Machine}

/-- A step moves the frontier on by what it dispatches and by what it scans. -/
theorem sound_step (h : machine.control.Sound machine.program (reach history)) :
    machine.step.machine.control.Sound machine.program (reach (history ++ [machine])) := by
  cases hdispatch : machine.dispatch? with
  | none =>
    rw [step_machine_of_dispatch?_none hdispatch, reach_snoc_of_dispatch?_none history hdispatch]
    exact h
  | some dispatched =>
    have hlt : machine.pc < machine.program.size :=
      (Array.getElem?_eq_some_iff.mp (eq_of_dispatch? hdispatch).1).1
    rw [reach_snoc_of_dispatch? history hdispatch]
    rcases control_step hdispatch with ⟨hnone, hmoves⟩ | ⟨label, hlabel, hcontrol⟩
    · exact (h.advance hlt rfl (h.labels.pass h.pc_le hnone)).moves hmoves
    · rw [hcontrol]
      exact h.advance hlt (LabelTable.scanned_record _ _ _) (h.labels.record h.pc_le hlabel)

theorem grows_step (machine : Machine) :
    machine.control.labels.Grows machine.step.machine.control.labels := by
  have hadvance : machine.advance.control.labels = machine.control.labels := rfl
  cases hdispatch : machine.dispatch? with
  | none =>
    rw [step_machine_of_dispatch?_none hdispatch]
    exact LabelTable.Grows.refl _
  | some dispatched =>
    rcases control_step hdispatch with ⟨-, hmoves⟩ | ⟨label, -, hcontrol⟩
    · rw [← hadvance]
      exact Control.grows_moves hmoves
    · rw [hcontrol]
      exact LabelTable.grows_record machine.control.labels label (machine.pc + 1)

theorem Calls.sound {program : Program} {input : Input} {output : Output} {limit : Option Nat}
    {log : List (Call × Answer)}
    (hcalls : Calls (start program input output limit) log history machine) :
    machine.program = program ∧ machine.control.Sound program (reach history) := by
  apply hcalls.preserves (motive := fun history machine =>
    machine.program = program ∧ machine.control.Sound program (reach history))
  · exact ⟨rfl, Control.sound_start program⟩
  · rintro history machine ⟨rfl, h⟩
    exact ⟨program_step machine, sound_step h⟩
  · rintro history machine label ⟨rfl, h⟩
    exact ⟨rfl, h.resolve label⟩

theorem Calls.grows {later : Machine} {log : List (Call × Answer)}
    (hcalls : Calls machine log history later) :
    machine.control.labels.Grows later.control.labels := by
  apply hcalls.preserves (motive := fun _ later =>
    machine.control.labels.Grows later.control.labels)
  · exact LabelTable.Grows.refl _
  · intro history later h
    exact h.trans (grows_step later)
  · intro history later label h
    exact h.trans (LabelTable.grows_resolve later.program label later.control.labels)

/-- Whatever is asked of a machine that was started on a program, its label table holds exactly the
first marks before the frontier, control and all targets lie within the frontier, the frontier lies
within the program, and later calls neither move the scan cursor back nor take a label away. -/
theorem Calls.within_frontier {program : Program} {input : Input} {output : Output}
    {limit : Option Nat} {log : List (Call × Answer)}
    (hcalls : Calls (start program input output limit) log history machine) :
    LabelTable.Covers program (frontier history machine) machine.control.labels ∧
      machine.pc ≤ frontier history machine ∧
      (∀ index ∈ machine.control.calls, index ≤ frontier history machine) ∧
      (∀ label target, machine.control.labels.get? label = some target →
        target ≤ frontier history machine) ∧
      frontier history machine ≤ program.size ∧
      ∀ (log' : List (Call × Answer)) (history' : List Machine) (later : Machine),
        Calls machine log' history' later →
        machine.control.labels.Grows later.control.labels := by
  obtain ⟨-, h⟩ := hcalls.sound
  have hfrontier : frontier history machine = max (reach history) machine.control.labels.scanned :=
    Nat.max_comm _ _
  rw [hfrontier]
  refine ⟨h.labels.covers, h.pc_le, h.calls_le, ?_, ?_, ?_⟩
  · intro label target hget
    exact h.labels.target_le hget
  · exact Nat.max_le.mpr ⟨h.reach_le, h.labels.scanned_le⟩
  · intro log' history' later hlater
    exact hlater.grows

theorem within_frontier_first_mark :
    let program : Program := #[.flow (.mark ⟨false, [true]⟩), .flow (.mark ⟨false, [true]⟩)]
    let first := start program { remaining := [] } {} none
    let second := first.step.machine
    Calls first [(.step, .step (.ok none))] [first] second ∧
      second.control.labels.get? 1 = some 1 := by
  intro program first second
  have hcalls : Calls first [(.step, .step (.ok none))] [first] second := .snoc .nil .step
  refine ⟨hcalls, ?_⟩
  obtain ⟨hcovers, -⟩ := hcalls.within_frontier
  exact (hcovers 1 1).mpr ⟨0, by decide, ⟨by decide, by simp⟩, rfl⟩

end Whitespace.Machine
