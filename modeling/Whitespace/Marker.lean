import Whitespace.Operation

/-!
Markers are the runs of glyphs that select a category and, within it, an operation. In each table no
marker begins another one, so at most one entry matches a given input and an encoding is read back
unambiguously (`lookup?_append`).
-/

namespace Whitespace

abbrev Marker := List Glyph

abbrev MarkerTable (α : Type) := List (Marker × α)

namespace MarkerTable

variable {α : Type}

def lookup? (table : MarkerTable α) (input : List Glyph) : Option (Marker × α) :=
  table.find? fun entry => entry.1.isPrefixOf input

/-- No marker of the table begins another one. -/
def PrefixFree (table : MarkerTable α) : Prop :=
  table.Pairwise fun first second => ¬ first.1 <+: second.1 ∧ ¬ second.1 <+: first.1

instance (table : MarkerTable α) : Decidable table.PrefixFree :=
  inferInstanceAs (Decidable (List.Pairwise _ _))

theorem isPrefix_of_lookup? {table : MarkerTable α} {input : List Glyph} {entry : Marker × α}
    (h : table.lookup? input = some entry) : entry ∈ table ∧ entry.1 <+: input := by
  unfold lookup? at h
  have hbegins := List.find?_some h
  exact ⟨List.mem_of_find?_eq_some h, List.isPrefixOf_iff_prefix.mp hbegins⟩

theorem lookup?_append {table : MarkerTable α} (hfree : table.PrefixFree) {entry : Marker × α}
    (hmem : entry ∈ table) (rest : List Glyph) :
    table.lookup? (entry.1 ++ rest) = some entry := by
  induction table with
  | nil => cases hmem
  | cons head tail ih =>
    obtain ⟨hhead, htail⟩ := List.pairwise_cons.mp hfree
    rcases List.mem_cons.mp hmem with rfl | hmem
    · simp [lookup?]
    · have hapart := hhead entry hmem
      have hnot : ¬ head.1 <+: entry.1 ++ rest := by
        intro hprefix
        rcases List.prefix_or_prefix_of_prefix hprefix (List.prefix_append entry.1 rest) with h | h
        · exact hapart.1 h
        · exact hapart.2 h
      have hfalse : head.1.isPrefixOf (entry.1 ++ rest) = false := by
        rw [Bool.eq_false_iff]
        exact fun h => hnot (List.isPrefixOf_iff_prefix.mp h)
      rw [lookup?, List.find?_cons_of_neg (by simp [hfalse])]
      exact ih htail hmem

end MarkerTable

open Glyph in
def Category.marker : Category → Marker
  | .stack => [space]
  | .arithmetic => [tab, space]
  | .heap => [tab, tab]
  | .flow => [lineFeed]
  | .io => [tab, lineFeed]

open Glyph in
def Operation.marker {α : Type} : Operation α → Marker
  | .stack (.push _) => [space]
  | .stack .duplicate => [lineFeed, space]
  | .stack (.copy _) => [tab, space]
  | .stack .swap => [lineFeed, tab]
  | .stack .discard => [lineFeed, lineFeed]
  | .stack (.slide _) => [tab, lineFeed]
  | .arithmetic .add => [space, space]
  | .arithmetic .subtract => [space, tab]
  | .arithmetic .multiply => [space, lineFeed]
  | .arithmetic .divide => [tab, space]
  | .arithmetic .modulo => [tab, tab]
  | .heap .store => [space]
  | .heap .retrieve => [tab]
  | .flow (.mark _) => [space, space]
  | .flow (.call _) => [space, tab]
  | .flow (.jump _) => [space, lineFeed]
  | .flow (.jumpIfZero _) => [tab, space]
  | .flow (.jumpIfNegative _) => [tab, tab]
  | .flow .ret => [tab, lineFeed]
  | .flow .stop => [lineFeed, lineFeed]
  | .io .writeChar => [space, space]
  | .io .writeNumber => [space, tab]
  | .io .readChar => [tab, space]
  | .io .readNumber => [tab, tab]

def Category.opcodes : Category → List Opcode
  | .stack =>
    [.stack (.push ()), .stack .duplicate, .stack (.copy ()), .stack .swap, .stack .discard,
      .stack (.slide ())]
  | .arithmetic =>
    [.arithmetic .add, .arithmetic .subtract, .arithmetic .multiply, .arithmetic .divide,
      .arithmetic .modulo]
  | .heap => [.heap .store, .heap .retrieve]
  | .flow =>
    [.flow (.mark ()), .flow (.call ()), .flow (.jump ()), .flow (.jumpIfZero ()),
      .flow (.jumpIfNegative ()), .flow .ret, .flow .stop]
  | .io => [.io .writeChar, .io .writeNumber, .io .readChar, .io .readNumber]

def Opcode.all : List Opcode := Category.all.flatMap Category.opcodes

def Opcode.ofMnemonic? (name : String) : Option Opcode :=
  Opcode.all.find? fun opcode => opcode.mnemonic == name

def Category.ofName? (name : String) : Option Category :=
  Category.all.find? fun category => category.name == name

def Category.table : MarkerTable Category :=
  Category.all.map fun category => (category.marker, category)

def Category.operations (category : Category) : MarkerTable Opcode :=
  category.opcodes.map fun opcode => (opcode.marker, opcode)

theorem Category.table_prefixFree : Category.table.PrefixFree := by decide

theorem Category.operations_prefixFree (category : Category) :
    category.operations.PrefixFree := by
  cases category <;> decide

theorem Opcode.mem_opcodes (opcode : Opcode) : opcode ∈ opcode.category.opcodes := by
  rcases opcode with op | op | op | op | op <;> cases op <;>
    simp [Operation.category, Category.opcodes]

@[simp] theorem Operation.marker_withOperand {α β : Type} (operation : Operation α) (operand : β) :
    (operation.withOperand operand).marker = operation.marker := by
  rcases operation with op | op | op | op | op <;> cases op <;> rfl

theorem Category.lookup?_marker (category : Category) (rest : List Glyph) :
    Category.table.lookup? (category.marker ++ rest) = some (category.marker, category) :=
  MarkerTable.lookup?_append Category.table_prefixFree
    (List.mem_map_of_mem (f := fun category => (category.marker, category)) category.mem_all) rest

theorem Opcode.lookup?_marker (opcode : Opcode) (rest : List Glyph) :
    opcode.category.operations.lookup? (opcode.marker ++ rest) = some (opcode.marker, opcode) :=
  MarkerTable.lookup?_append opcode.category.operations_prefixFree
    (List.mem_map_of_mem (f := fun opcode => (opcode.marker, opcode)) opcode.mem_opcodes) rest

end Whitespace
