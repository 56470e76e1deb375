import Whitespace.Proofs.Labels.Coverage

/-!
What a search for a label finds. It reads marks one after the other and ends at the first that is the
mark of its label or has no value. The labels that it records on the way do not bear on that, so a scan
finds what `Program.search` finds in the instructions behind its cursor.
-/

namespace Whitespace

def Instruction.malformed? (instruction : Instruction) : Option LiteralError :=
  instruction.mark?.bind fun literal =>
    match literal.decode with
    | .error error => some error
    | .ok _ => none

theorem Instruction.malformed?_of_label? {instruction : Instruction} {label : Value}
    (h : instruction.label? = some label) : instruction.malformed? = none := by
  obtain ⟨literal, hmark, hvalue⟩ := Option.bind_eq_some_iff.mp h
  rw [malformed?, hmark, Option.bind_some]
  cases hdecode : literal.decode with
  | error error =>
    rw [hdecode] at hvalue
    cases hvalue
  | ok value => rfl

namespace Program

/-- The error of the first mark without a value among the instructions before an index. -/
def malformedBefore? (program : Program) (index : Nat) : Option LiteralError :=
  (program.toList.take index).findSome? Instruction.malformed?

def search (label : Value) (index : Nat) :
    List Instruction → Except LiteralError (Option Nat)
  | [] => .ok none
  | instruction :: rest =>
    match instruction.malformed? with
    | some error => .error error
    | none =>
      if instruction.label? = some label then .ok (some (index + 1))
      else search label (index + 1) rest

variable {program : Program} {label : Value}

theorem search_append {first : List Instruction}
    (hfirst : ∀ instruction ∈ first, instruction.label? ≠ some label) (index : Nat)
    (second : List Instruction) :
    search label index (first ++ second) =
      match first.findSome? Instruction.malformed? with
      | some error => .error error
      | none => search label (index + first.length) second := by
  induction first generalizing index with
  | nil => rfl
  | cons instruction rest ih =>
    obtain ⟨hne, hrest⟩ := List.forall_mem_cons.mp hfirst
    rw [List.cons_append, search, List.findSome?_cons]
    cases instruction.malformed? with
    | some error => rfl
    | none =>
      simp only [if_neg hne, ih hrest, List.length_cons]
      rw [Nat.add_assoc, Nat.add_comm 1]

theorem drop_toList_eq_cons {index : Nat} (h : index < program.size) :
    program.toList.drop index = program[index] :: program.toList.drop (index + 1) :=
  List.drop_eq_getElem_cons (by simpa using h)

theorem ne_label_of_mem_take {stop : Nat}
    (h : ∀ index < stop, program.labelAt? index ≠ some label) :
    ∀ instruction ∈ program.toList.take stop, instruction.label? ≠ some label := by
  intro instruction hmem
  obtain ⟨index, hindex, rfl⟩ := List.mem_iff_getElem.mp hmem
  have hlt : index < min stop program.size := by simpa using hindex
  have hne := h index (by omega)
  rw [labelAt?_of_lt (by omega)] at hne
  simpa using hne

theorem search_toList {stop : Nat} (hstop : stop ≤ program.size)
    (h : ∀ index < stop, program.labelAt? index ≠ some label) :
    search label 0 program.toList =
      match program.malformedBefore? stop with
      | some error => .error error
      | none => search label stop (program.toList.drop stop) := by
  have happend := search_append (ne_label_of_mem_take h) 0 (program.toList.drop stop)
  have hlength : 0 + (program.toList.take stop).length = stop := by simp [hstop]
  rwa [List.take_append_drop, hlength] at happend

/-- A search ends at the first mark of its label unless a mark without a value stands before that. -/
theorem search_of_firstMark {mark : Nat} (h : program.FirstMark label mark) :
    search label 0 program.toList =
      match program.malformedBefore? mark with
      | some error => .error error
      | none => .ok (some (mark + 1)) := by
  have hlt := h.lt_size
  have hlabel : program[mark].label? = some label := (labelAt?_of_lt hlt).symm.trans h.1
  have hmark : search label mark (program.toList.drop mark) = .ok (some (mark + 1)) := by
    rw [drop_toList_eq_cons hlt, search, Instruction.malformed?_of_label? hlabel]
    exact if_pos hlabel
  rw [search_toList (Nat.le_of_lt hlt) h.2, hmark]

theorem search_of_forall_ne (h : ∀ index, program.labelAt? index ≠ some label) :
    search label 0 program.toList =
      match program.malformedBefore? program.size with
      | some error => .error error
      | none => .ok none := by
  rw [search_toList (Nat.le_refl _) fun index _ => h index,
    List.drop_eq_nil_of_le (Nat.le_of_eq Array.length_toList)]
  rfl

end Program

namespace Machine.LabelTable

variable {program : Program} {table : LabelTable} {label : Value}

theorem target_scan_eq_search (hmiss : table.get? label = none) (recorded : Array (Value × Nat)) :
    (table.scan program label recorded).target =
      Program.search label table.scanned (program.toList.drop table.scanned) := by
  fun_induction LabelTable.scan program label table recorded with
  | case1 table recorded hlt next hmark ih =>
    rw [Program.drop_toList_eq_cons hlt, Program.search]
    simpa [Instruction.malformed?, Instruction.label?, hmark] using ih hmiss
  | case2 table recorded hlt next literal hmark error hdecode =>
    rw [Program.drop_toList_eq_cons hlt, Program.search]
    simp [Instruction.malformed?, hmark, hdecode]
  | case3 table recorded hlt next literal hmark target hdecode entry recorded' =>
    have hnext : next.get? label = none := hmiss
    rw [Program.drop_toList_eq_cons hlt, Program.search, get?_record, hnext]
    simp [Instruction.malformed?, Instruction.label?, hmark, hdecode, Except.toOption, target]
  | case4 table recorded hlt next literal hmark mark hdecode target entry recorded' hne ih =>
    have hentry : entry.1.get? label = none := by
      have hnext : next.get? label = none := hmiss
      rw [get?_record, hnext, Option.none_or, if_neg hne]
    rw [ih hentry, Program.drop_toList_eq_cons hlt, Program.search, scanned_record]
    simp [Instruction.malformed?, Instruction.label?, hmark, hdecode, Except.toOption, hne, next]
  | case5 table recorded hge =>
    rw [List.drop_eq_nil_of_le (by simpa using hge)]
    rfl

theorem target_resolve_of_get?_none (hmiss : table.get? label = none) :
    (table.resolve program label).target =
      Program.search label table.scanned (program.toList.drop table.scanned) := by
  rw [resolve, hmiss]
  exact target_scan_eq_search hmiss #[]

theorem target_resolve_of_get?_some {target : Nat} (hget : table.get? label = some target) :
    (table.resolve program label).target = .ok (some target) := by
  rw [resolve, hget]

end Machine.LabelTable

end Whitespace
