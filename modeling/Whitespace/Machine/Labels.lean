import Whitespace.Machine.Effect
import Whitespace.Program
import Std.Data.TreeMap

/-!
Labels are found lazily. A mark that executes records its label, and a lookup that misses scans the
program onwards from where the last scan stopped, recording every mark it passes. Either way the first
record of a label stays.
-/

namespace Whitespace.Machine

/-- The labels recorded so far, and how much of the program has been scanned. -/
structure LabelTable where
  targets : Std.TreeMap Value Nat := ∅
  scanned : Nat := 0

/-- What resolving a label gives: the table afterwards, the labels newly recorded in it, and the
target, which is missing when the program has no such mark. -/
structure Resolution where
  table : LabelTable
  recorded : Array (Value × Nat)
  target : Except LiteralError (Option Nat)

namespace LabelTable

def get? (table : LabelTable) (label : Value) : Option Nat := table.targets[label]?

def record (table : LabelTable) (label : Value) (target : Nat) : LabelTable × Bool :=
  match table.get? label with
  | some _ => (table, false)
  | none => ({ table with targets := table.targets.insert label target }, true)

@[simp] theorem scanned_record (table : LabelTable) (label : Value) (target : Nat) :
    (table.record label target).1.scanned = table.scanned := by
  unfold record
  split <;> rfl

/-- Scans the rest of the program up to the mark of `label`, onto the labels recorded so far. A mark
counts as scanned even when its literal has no value. -/
def scan (program : Program) (label : Value) (table : LabelTable)
    (recorded : Array (Value × Nat)) : Resolution :=
  if h : table.scanned < program.size then
    let next := { table with scanned := table.scanned + 1 }
    match program[table.scanned].mark? with
    | none => scan program label next recorded
    | some literal =>
      match literal.decode with
      | .error error => ⟨next, recorded, .error error⟩
      | .ok mark =>
        let target := table.scanned + 1
        let entry := next.record mark target
        let recorded := if entry.2 then recorded.push (mark, target) else recorded
        if mark = label then ⟨entry.1, recorded, .ok (entry.1.get? label)⟩
        else scan program label entry.1 recorded
  else ⟨table, recorded, .ok none⟩
termination_by program.size - table.scanned
decreasing_by
  · exact Nat.sub_succ_lt_self _ _ h
  · rw [scanned_record]
    exact Nat.sub_succ_lt_self _ _ h

def resolve (program : Program) (label : Value) (table : LabelTable) : Resolution :=
  match table.get? label with
  | some target => ⟨table, #[], .ok (some target)⟩
  | none => table.scan program label #[]

end LabelTable

def Resolution.result (resolution : Resolution) (label : Value) : Except Fault Nat :=
  match resolution.target with
  | .ok (some target) => .ok target
  | .ok none => .error (.undefinedLabel label)
  | .error error => .error (.malformedLiteral error)

end Whitespace.Machine
