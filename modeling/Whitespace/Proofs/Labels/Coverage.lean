import Whitespace.Machine.Labels
import Whitespace.Proofs.Labels.FirstMark

/-!
What a label table knows. A table that covers a frontier holds exactly the labels whose first mark
stands before it. Recording the mark at the frontier moves the frontier on by one, recording a mark
before it changes nothing, and a scan does one or the other at every index that it passes.
-/

namespace Whitespace.Machine.LabelTable

variable {program : Program} {table : LabelTable} {frontier : Nat}

/-- The table holds the labels whose first marks stand before the frontier, and no others. -/
def Covers (program : Program) (frontier : Nat) (table : LabelTable) : Prop :=
  ∀ (label : Value) (target : Nat), table.get? label = some target ↔
    ∃ index < frontier, program.FirstMark label index ∧ target = index + 1

/-- The second table is what the first has become by scanning and recording. -/
structure Grows (first second : LabelTable) : Prop where
  scanned : first.scanned ≤ second.scanned
  get? : ∀ (label : Value) (target : Nat),
    first.get? label = some target → second.get? label = some target

theorem Grows.refl (table : LabelTable) : table.Grows table :=
  ⟨Nat.le_refl _, fun _ _ h => h⟩

theorem Grows.trans {first second third : LabelTable} (hfirst : first.Grows second)
    (hsecond : second.Grows third) : first.Grows third :=
  ⟨Nat.le_trans hfirst.scanned hsecond.scanned,
    fun label target h => hsecond.get? label target (hfirst.get? label target h)⟩

theorem get?_record (table : LabelTable) (defined label : Value) (target : Nat) :
    (table.record defined target).1.get? label =
      (table.get? label).or (if defined = label then some target else none) := by
  unfold record
  by_cases heq : defined = label
  · subst heq
    cases hget : table.get? defined with
    | some known => simp [hget]
    | none => simp [get?]
  · cases table.get? defined with
    | some known => simp [heq]
    | none => simp [get?, Std.TreeMap.getElem?_insert, heq]

theorem grows_record (table : LabelTable) (label : Value) (target : Nat) :
    table.Grows (table.record label target).1 := by
  refine ⟨Nat.le_of_eq (scanned_record table label target).symm, ?_⟩
  intro other known h
  rw [get?_record, h, Option.some_or]

theorem covers_empty (program : Program) : Covers program 0 {} := by
  intro label target
  simp [get?]

theorem Covers.of_get? {other : LabelTable} (h : Covers program frontier table)
    (hget : ∀ label, other.get? label = table.get? label) : Covers program frontier other := by
  intro label target
  rw [hget]
  exact h label target

theorem Covers.pass (h : Covers program frontier table) {index : Nat} (hle : index ≤ frontier)
    (hlabel : program.labelAt? index = none) : Covers program (max frontier (index + 1)) table := by
  intro label target
  rw [h label target]
  apply exists_congr
  intro mark
  refine and_congr_left ?_
  rintro ⟨hfirst, -⟩
  have hne : mark ≠ index := by
    rintro rfl
    rw [hfirst.1] at hlabel
    cases hlabel
  omega

theorem Covers.record (h : Covers program frontier table) {index : Nat} (hle : index ≤ frontier)
    {defined : Value} (hlabel : program.labelAt? index = some defined) :
    Covers program (max frontier (index + 1)) (table.record defined (index + 1)).1 := by
  intro label target
  rw [get?_record]
  constructor
  · intro hget
    cases hknown : table.get? label with
    | some known =>
      rw [hknown, Option.some_or] at hget
      obtain ⟨mark, hlt, hmark⟩ := (h label target).mp (hknown.trans hget)
      exact ⟨mark, by omega, hmark⟩
    | none =>
      rw [hknown, Option.none_or, Option.ite_none_right_eq_some] at hget
      obtain ⟨rfl, hget⟩ := hget
      obtain ⟨first, hfirst, hmark⟩ := Program.exists_firstMark hlabel
      rcases Nat.lt_or_ge first frontier with hlt | hge
      · have hcontra := (h defined (first + 1)).mpr ⟨first, hlt, hmark, rfl⟩
        rw [hknown] at hcontra
        cases hcontra
      · obtain rfl : first = index := by omega
        exact ⟨first, by omega, hmark, (Option.some.inj hget).symm⟩
  · rintro ⟨mark, hlt, hmark, rfl⟩
    by_cases hbefore : mark < frontier
    · rw [(h label (mark + 1)).mpr ⟨mark, hbefore, hmark, rfl⟩, Option.some_or]
    · obtain rfl : mark = index := by omega
      obtain rfl : defined = label := Option.some.inj (hlabel.symm.trans hmark.1)
      have hunknown : table.get? defined = none := by
        rw [Option.eq_none_iff_forall_ne_some]
        intro target hget
        obtain ⟨other, hother, hfirst, -⟩ := (h defined target).mp hget
        have := hfirst.unique hmark
        omega
      rw [hunknown, Option.none_or, if_pos rfl]

def skip (table : LabelTable) : LabelTable := { table with scanned := table.scanned + 1 }

theorem grows_skip (table : LabelTable) : table.Grows table.skip :=
  ⟨Nat.le_succ _, fun _ _ h => h⟩

theorem grows_scan (program : Program) (label : Value) (table : LabelTable)
    (recorded : Array (Value × Nat)) : table.Grows (table.scan program label recorded).table := by
  fun_induction scan program label table recorded with
  | case1 table recorded hlt next hmark ih => exact table.grows_skip.trans ih
  | case2 table recorded hlt next literal hmark error hdecode => exact table.grows_skip
  | case3 table recorded hlt next literal hmark target hdecode entry recorded' =>
    exact table.grows_skip.trans (grows_record next label target)
  | case4 table recorded hlt next literal hmark mark hdecode target entry recorded' hne ih =>
    exact (table.grows_skip.trans (grows_record next mark target)).trans ih
  | case5 table recorded hge => exact Grows.refl table

theorem grows_resolve (program : Program) (label : Value) (table : LabelTable) :
    table.Grows (table.resolve program label).table := by
  unfold resolve
  split
  · exact Grows.refl table
  · exact grows_scan program label table #[]

/-- Execution has reached some index and a scan another; the table holds what the further of the two
has passed. -/
structure Sound (program : Program) (reach : Nat) (table : LabelTable) : Prop where
  covers : Covers program (max reach table.scanned) table
  scanned_le : table.scanned ≤ program.size

theorem Sound.skip {reach : Nat} (h : Sound program reach table)
    (hlt : table.scanned < program.size) (hlabel : program.labelAt? table.scanned = none) :
    Sound program reach table.skip := by
  refine ⟨?_, hlt⟩
  have hcovers := h.covers.pass (Nat.le_max_right _ _) hlabel
  rw [Nat.max_assoc, Nat.max_eq_right (Nat.le_succ _)] at hcovers
  exact hcovers

theorem Sound.record_skip {reach : Nat} (h : Sound program reach table)
    (hlt : table.scanned < program.size) {label : Value}
    (hlabel : program.labelAt? table.scanned = some label) :
    Sound program reach (table.skip.record label (table.scanned + 1)).1 := by
  refine ⟨?_, by rw [scanned_record]; exact hlt⟩
  have hcovers := h.covers.record (Nat.le_max_right _ _) hlabel
  rw [Nat.max_assoc, Nat.max_eq_right (Nat.le_succ _)] at hcovers
  rw [scanned_record]
  refine hcovers.of_get? fun other => ?_
  rw [get?_record, get?_record]
  rfl

theorem Sound.pass {reach index : Nat} (h : Sound program reach table)
    (hle : index ≤ max reach table.scanned) (hlabel : program.labelAt? index = none) :
    Sound program (max reach (index + 1)) table := by
  refine ⟨?_, h.scanned_le⟩
  have hmax : max (max reach (index + 1)) table.scanned =
      max (max reach table.scanned) (index + 1) := by omega
  rw [hmax]
  exact h.covers.pass hle hlabel

theorem Sound.record {reach index : Nat} (h : Sound program reach table)
    (hle : index ≤ max reach table.scanned) {label : Value}
    (hlabel : program.labelAt? index = some label) :
    Sound program (max reach (index + 1)) (table.record label (index + 1)).1 := by
  refine ⟨?_, by rw [scanned_record]; exact h.scanned_le⟩
  have hmax : max (max reach (index + 1)) table.scanned =
      max (max reach table.scanned) (index + 1) := by omega
  rw [scanned_record, hmax]
  exact h.covers.record hle hlabel

theorem Sound.scan {reach : Nat} (h : Sound program reach table) (label : Value)
    (recorded : Array (Value × Nat)) :
    Sound program reach (table.scan program label recorded).table := by
  fun_induction LabelTable.scan program label table recorded with
  | case1 table recorded hlt next hmark ih =>
    exact ih (h.skip hlt (Program.labelAt?_of_mark?_none hlt hmark))
  | case2 table recorded hlt next literal hmark error hdecode =>
    exact h.skip hlt (Program.labelAt?_of_decode_error hlt hmark hdecode)
  | case3 table recorded hlt next literal hmark target hdecode entry recorded' =>
    exact h.record_skip hlt (Program.labelAt?_of_decode hlt hmark hdecode)
  | case4 table recorded hlt next literal hmark mark hdecode target entry recorded' hne ih =>
    apply ih
    exact h.record_skip hlt (Program.labelAt?_of_decode hlt hmark hdecode)
  | case5 table recorded hge => exact h

theorem Sound.resolve {reach : Nat} (h : Sound program reach table) (label : Value) :
    Sound program reach (table.resolve program label).table := by
  unfold LabelTable.resolve
  split
  · exact h
  · exact h.scan label #[]

theorem get?_of_target_scan {label : Value} {target : Nat} (recorded : Array (Value × Nat))
    (h : (table.scan program label recorded).target = .ok (some target)) :
    (table.scan program label recorded).table.get? label = some target := by
  fun_induction LabelTable.scan program label table recorded with
  | case1 table recorded hlt next hmark ih => exact ih h
  | case2 table recorded hlt next literal hmark error hdecode => cases h
  | case3 table recorded hlt next literal hmark target hdecode entry recorded' =>
    exact Except.ok.inj h
  | case4 table recorded hlt next literal hmark mark hdecode target entry recorded' hne ih =>
    exact ih h
  | case5 table recorded hge => cases h

theorem get?_of_target_resolve {label : Value} {target : Nat}
    (h : (table.resolve program label).target = .ok (some target)) :
    (table.resolve program label).table.get? label = some target := by
  unfold LabelTable.resolve at h ⊢
  cases hget : table.get? label with
  | some known =>
    simp only [hget] at h ⊢
    exact Except.ok.inj h
  | none =>
    simp only [hget] at h ⊢
    exact get?_of_target_scan #[] h

theorem Sound.target_le {reach : Nat} (h : Sound program reach table) {label : Value}
    {target : Nat} (hget : table.get? label = some target) :
    target ≤ max reach table.scanned := by
  obtain ⟨index, hlt, -, rfl⟩ := (h.covers label target).mp hget
  exact hlt

theorem Sound.labels_of_get? {reach : Nat} (h : Sound program reach table) {label : Value}
    {target : Nat} (hget : table.get? label = some target) :
    program.labels[label]? = some target := by
  obtain ⟨index, -, hindex⟩ := (h.covers label target).mp hget
  exact Program.getElem?_labels_eq_some_iff.mpr ⟨index, hindex⟩

theorem Sound.labels_of_size_le {reach : Nat} (h : Sound program reach table)
    (hsize : program.size ≤ table.scanned) (label : Value) :
    program.labels[label]? = table.get? label := by
  apply Option.ext
  intro target
  rw [h.covers label target, Program.getElem?_labels_eq_some_iff]
  apply exists_congr
  intro index
  constructor
  · rintro ⟨hfirst, rfl⟩
    have hlt := hfirst.lt_size
    exact ⟨by omega, hfirst, rfl⟩
  · rintro ⟨-, hindex⟩
    exact hindex

theorem Sound.target_scan {reach : Nat} (h : Sound program reach table)
    (hmarks : program.MarksDecode) {label : Value} (hmiss : table.get? label = none)
    (recorded : Array (Value × Nat)) :
    (table.scan program label recorded).target = .ok program.labels[label]? := by
  fun_induction LabelTable.scan program label table recorded with
  | case1 table recorded hlt next hmark ih =>
    exact ih (h.skip hlt (Program.labelAt?_of_mark?_none hlt hmark)) hmiss
  | case2 table recorded hlt next literal hmark error hdecode =>
    obtain ⟨value, hvalue⟩ := hmarks _ (Array.getElem_mem hlt) literal hmark
    rw [hdecode] at hvalue
    cases hvalue
  | case3 table recorded hlt next literal hmark target hdecode entry recorded' =>
    have hsound := h.record_skip hlt (Program.labelAt?_of_decode hlt hmark hdecode)
    have hget : entry.1.get? label = some target := by
      have hnext : next.get? label = none := hmiss
      rw [get?_record, hnext, Option.none_or, if_pos rfl]
    rw [hsound.labels_of_get? hget, hget]
  | case4 table recorded hlt next literal hmark mark hdecode target entry recorded' hne ih =>
    have hsound := h.record_skip hlt (Program.labelAt?_of_decode hlt hmark hdecode)
    refine ih hsound ?_
    have hnext : next.get? label = none := hmiss
    rw [get?_record, hnext, Option.none_or, if_neg hne]
  | case5 table recorded hge =>
    rw [h.labels_of_size_le (Nat.le_of_not_lt hge), hmiss]

theorem Sound.target_resolve {reach : Nat} (h : Sound program reach table)
    (hmarks : program.MarksDecode) (label : Value) :
    (table.resolve program label).target = .ok program.labels[label]? := by
  unfold LabelTable.resolve
  split
  · next target hget => rw [h.labels_of_get? hget]
  · next hmiss => exact h.target_scan hmarks hmiss #[]

end Whitespace.Machine.LabelTable
