import Whitespace.Proofs.Labels.Frontier
import Whitespace.Proofs.Labels.Search

/-!
Lookups that start over. Without a scan cursor a label that is not known is searched for from the first
instruction on. A lookup that goes on from the cursor finds the same, unless the cursor has passed a mark
without a value: a search from the start ends there, and one from the cursor does not meet it again. For
the same reason a lookup that is repeated gives another answer only if the first failed at such a mark.
-/

namespace Whitespace.Machine

/-- What looking a label up would give if the cursor stood at the first instruction. -/
def restart (machine : Machine) (label : Value) : Except Fault Nat :=
  ({ machine.control.labels with scanned := 0 }.resolve machine.program label).result label

namespace LabelTable

variable {program : Program} {table : LabelTable} {label : Value}

theorem Sound.labelAt?_ne {reach : Nat} (h : Sound program reach table)
    (hmiss : table.get? label = none) {index : Nat} (hlt : index < table.scanned) :
    program.labelAt? index ≠ some label := by
  intro hlabel
  obtain ⟨first, hle, hfirst⟩ := Program.exists_firstMark hlabel
  have hget := (h.covers label (first + 1)).mpr ⟨first, by omega, hfirst, rfl⟩
  rw [hmiss] at hget
  cases hget

theorem Sound.target_restart {reach : Nat} (h : Sound program reach table)
    (hmiss : table.get? label = none) :
    ({ table with scanned := 0 }.resolve program label).target =
      match program.malformedBefore? table.scanned with
      | some error => .error error
      | none => (table.resolve program label).target := by
  have hrestarted : LabelTable.get? { table with scanned := 0 } label = none := hmiss
  rw [target_resolve_of_get?_none hrestarted, target_resolve_of_get?_none hmiss, List.drop_zero]
  exact Program.search_toList h.scanned_le fun index => h.labelAt?_ne hmiss

theorem exhausted_of_target_scan (hmiss : table.get? label = none)
    (recorded : Array (Value × Nat))
    (h : (table.scan program label recorded).target = .ok none) :
    program.size ≤ (table.scan program label recorded).table.scanned ∧
      (table.scan program label recorded).table.get? label = none := by
  fun_induction LabelTable.scan program label table recorded with
  | case1 table recorded hlt next hmark ih => exact ih hmiss h
  | case2 table recorded hlt next literal hmark error hdecode => cases h
  | case3 table recorded hlt next literal hmark target hdecode entry recorded' =>
    have hnext : next.get? label = none := hmiss
    rw [get?_record, hnext] at h
    simp at h
  | case4 table recorded hlt next literal hmark mark hdecode target entry recorded' hne ih =>
    have hnext : next.get? label = none := hmiss
    refine ih ?_ h
    rw [get?_record, hnext, Option.none_or, if_neg hne]
  | case5 table recorded hge => exact ⟨Nat.le_of_not_lt hge, hmiss⟩

theorem target_resolve_again (program : Program) (label : Value) (table : LabelTable) :
    ((table.resolve program label).table.resolve program label).target =
        (table.resolve program label).target ∨
      ∃ error, (table.resolve program label).target = .error error := by
  cases htarget : (table.resolve program label).target with
  | error error => exact .inr ⟨error, rfl⟩
  | ok found =>
    left
    cases found with
    | some target => exact target_resolve_of_get?_some (get?_of_target_resolve htarget)
    | none =>
      cases hget : table.get? label with
      | some target =>
        rw [target_resolve_of_get?_some hget] at htarget
        cases htarget
      | none =>
        have hscan : table.resolve program label = table.scan program label #[] := by
          rw [resolve, hget]
        rw [hscan] at htarget ⊢
        obtain ⟨hend, hmiss⟩ := exhausted_of_target_scan hget #[] htarget
        rw [target_resolve_of_get?_none hmiss, List.drop_eq_nil_of_le (by simpa using hend)]
        rfl

end LabelTable

theorem Resolution.result_congr {first second : Resolution} (h : first.target = second.target)
    (label : Value) : first.result label = second.result label := by
  unfold result
  rw [h]

theorem Resolution.result_of_target_error {resolution : Resolution} {error : LiteralError}
    (h : resolution.target = .error error) (label : Value) :
    resolution.result label = .error (.malformedLiteral error) := by
  unfold result
  rw [h]

section Machines

variable {machine : Machine} {label : Value}

theorem restart_of_get?_some {target : Nat}
    (hget : machine.control.labels.get? label = some target) :
    machine.restart label = (machine.resolve label).2 := by
  apply Resolution.result_congr
  rw [LabelTable.target_resolve_of_get?_some hget]
  exact LabelTable.target_resolve_of_get?_some hget

theorem restart_of_malformedBefore?_none {reach : Nat}
    (h : machine.control.labels.Sound machine.program reach)
    (hnone : machine.program.malformedBefore? machine.control.labels.scanned = none) :
    machine.restart label = (machine.resolve label).2 := by
  cases hget : machine.control.labels.get? label with
  | some target => exact restart_of_get?_some hget
  | none =>
    apply Resolution.result_congr
    rw [h.target_restart hget, hnone]

theorem restart_of_malformedBefore?_some {reach : Nat}
    (h : machine.control.labels.Sound machine.program reach)
    (hmiss : machine.control.labels.get? label = none) {error : LiteralError}
    (hsome : machine.program.malformedBefore? machine.control.labels.scanned = some error) :
    machine.restart label = .error (.malformedLiteral error) := by
  apply Resolution.result_of_target_error
  rw [h.target_restart hmiss, hsome]

theorem resolve_again (machine : Machine) (label : Value) :
    ((machine.resolve label).1.resolve label).2 = (machine.resolve label).2 ∨
      ∃ error, (machine.resolve label).2 = .error (.malformedLiteral error) := by
  rcases machine.control.labels.target_resolve_again machine.program label with h | ⟨error, h⟩
  · exact .inl (Resolution.result_congr h label)
  · exact .inr ⟨error, Resolution.result_of_target_error h label⟩

end Machines

/-- Whatever was asked of a machine before, a lookup finds what one that starts over finds just when the
label is known, no mark without a value stands before the scan cursor, or the lookup happens to fail for
the literal of the first such mark, for which one that starts over always fails. A repeated lookup gives
the same answer unless the first failed at a mark without a value. -/
theorem Calls.resolve_eq_restart_iff {program : Program} {input : Input} {output : Output}
    {limit : Option Nat} {log : List (Call × Answer)} {history : List Machine} {machine : Machine}
    (hcalls : Calls (start program input output limit) log history machine) (label : Value) :
    ((machine.resolve label).2 = machine.restart label ↔
        machine.control.labels.get? label ≠ none ∨
          ∀ error, program.malformedBefore? machine.control.labels.scanned = some error →
            (machine.resolve label).2 = .error (.malformedLiteral error)) ∧
      (∀ error, machine.control.labels.get? label = none →
        program.malformedBefore? machine.control.labels.scanned = some error →
        machine.restart label = .error (.malformedLiteral error)) ∧
      (((machine.resolve label).1.resolve label).2 = (machine.resolve label).2 ∨
        ∃ error, (machine.resolve label).2 = .error (.malformedLiteral error)) := by
  obtain ⟨rfl, hsound⟩ := hcalls.sound
  refine ⟨?_, fun error hmiss => restart_of_malformedBefore?_some hsound.labels hmiss,
    resolve_again machine label⟩
  cases hget : machine.control.labels.get? label with
  | some target => simp [restart_of_get?_some hget]
  | none =>
    cases hbefore : machine.program.malformedBefore? machine.control.labels.scanned with
    | none => simp [restart_of_malformedBefore?_none hsound.labels hbefore]
    | some error => simp [restart_of_malformedBefore?_some hsound.labels hget hbefore]

/-- The second of three marks has no value, and the lookup of the third label ends there. -/
theorem resolve_eq_restart_iff_known_label :
    let program : Program :=
      #[.flow (.mark ⟨false, [true]⟩), .flow (.mark ⟨false, List.replicate 64 true⟩),
        .flow (.mark ⟨false, [true, false]⟩)]
    let first := start program { remaining := [] } {} none
    let second := (first.resolve 2).1
    Calls first [(.resolve 2, .resolve (first.resolve 2).2)] [] second ∧
      program.malformedBefore? second.control.labels.scanned = some (.overflow 64) ∧
      (second.resolve 1).2 = second.restart 1 := by
  intro program first second
  have hcalls : Calls first [(.resolve 2, .resolve (first.resolve 2).2)] [] second :=
    .snoc .nil (.resolve 2)
  have hlabels : second.control.labels = ⟨{(1, 1)}, 2⟩ := by
    change (LabelTable.scan program 2 {} #[]).table = _
    rw [LabelTable.scan]
    change (LabelTable.scan program 2 ⟨{(1, 1)}, 1⟩ #[(1, 1)]).table = _
    rw [LabelTable.scan]
    rfl
  have hknown : second.control.labels.get? 1 ≠ none := by
    rw [hlabels]
    exact nofun
  refine ⟨hcalls, ?_, (hcalls.resolve_eq_restart_iff 1).1.mpr (.inl hknown)⟩
  rw [hlabels]
  rfl

/-- A lookup ends at a mark without a value, and the next one finds the mark behind it. One that starts
over still ends at the first, and the repeated lookup has given two answers. -/
theorem resolve_past_malformed_mark :
    let program : Program :=
      #[.flow (.mark ⟨false, List.replicate 64 true⟩), .flow (.mark ⟨false, [true]⟩)]
    let first := start program { remaining := [] } {} none
    let second := (first.resolve 1).1
    Calls first [(.resolve 1, .resolve (.error (.malformedLiteral (.overflow 64))))] [] second ∧
      (second.resolve 1).2 = .ok 2 ∧
      second.restart 1 = .error (.malformedLiteral (.overflow 64)) ∧
      (second.resolve 1).2 ≠ second.restart 1 ∧ (second.resolve 1).2 ≠ (first.resolve 1).2 := by
  intro program first second
  have hscan : LabelTable.scan program 1 {} #[] = ⟨⟨∅, 1⟩, #[], .error (.overflow 64)⟩ := by
    rw [LabelTable.scan]
    rfl
  have hfirst : (first.resolve 1).2 = .error (.malformedLiteral (.overflow 64)) :=
    Resolution.result_of_target_error (congrArg Resolution.target hscan) 1
  have hlabels : second.control.labels = ⟨∅, 1⟩ := congrArg Resolution.table hscan
  have hsecond : (second.resolve 1).2 = .ok 2 := by
    change (LabelTable.resolve program 1 second.control.labels).result 1 = _
    rw [hlabels]
    change (LabelTable.scan program 1 ⟨∅, 1⟩ #[]).result 1 = _
    rw [LabelTable.scan]
    rfl
  have hrestart : second.restart 1 = .error (.malformedLiteral (.overflow 64)) := by
    rw [restart, hlabels]
    exact hfirst
  refine ⟨?_, hsecond, hrestart, ?_, ?_⟩
  · rw [← hfirst]
    exact .snoc .nil (.resolve 1)
  · rw [hsecond, hrestart]
    exact nofun
  · rw [hsecond, hfirst]
    exact nofun

end Whitespace.Machine
