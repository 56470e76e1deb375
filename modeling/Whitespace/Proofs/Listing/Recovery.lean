import Whitespace.Proofs.Listing.Tokens
import Whitespace.Proofs.Reading.Encoding

/-!
Listings as JSON lose nothing. The records of a listing are read back from its tokens, one for each
instruction, and the operation and the letters of a record make up the instruction again; hence no two
programs have the same listing (`text_loses_nothing`).
-/

namespace Whitespace.Listing.Json

/-- The records up to the end of the array. The tokens go on inside a record, behind the fields that are
given. -/
def readOpen (fields : Record) : List Token → Option (List Record)
  | .scalar (.text name) :: .colon :: .scalar value :: .comma :: rest =>
    readOpen (fields ++ [(name, value)]) rest
  | .scalar (.text name) :: .colon :: .scalar value :: .objectClose :: .comma :: .objectOpen :: rest =>
    (readOpen [] rest).map ((fields ++ [(name, value)]) :: ·)
  | [.scalar (.text name), .colon, .scalar value, .objectClose, .arrayClose] =>
    some [fields ++ [(name, value)]]
  | _ => none

def readArray : List Token → Option (List Record)
  | [.arrayOpen, .arrayClose] => some []
  | .arrayOpen :: .objectOpen :: rest => readOpen [] rest
  | _ => none

def readRecords (text : String) : Option (List Record) := (tokens text.toList).bind readArray

theorem readOpen_fields (fields init : Record) (last : String × Scalar) (after : List Token) :
    readOpen fields (separated ((init ++ [last]).map fieldTokens) ++ after) =
      readOpen (fields ++ init) (fieldTokens last ++ after) := by
  induction init generalizing fields with
  | nil => simp [separated]
  | cons entry init ih =>
    have hsplit : separated ((entry :: init ++ [last]).map fieldTokens) =
        fieldTokens entry ++ .comma :: separated ((init ++ [last]).map fieldTokens) := by
      cases init <;> simp [separated, List.intercalate_cons_cons]
    rw [hsplit, List.append_assoc, List.cons_append, List.append_cons fields]
    exact ih (fields ++ [entry])

private theorem exists_init_last {fields : Record} (hne : fields ≠ []) :
    ∃ init last, fields = init ++ [last] :=
  ⟨_, _, (List.dropLast_concat_getLast hne).symm⟩

theorem readOpen_next {fields : Record} (hne : fields ≠ []) (rest : List Token) :
    readOpen [] (separated (fields.map fieldTokens) ++
        .objectClose :: .comma :: .objectOpen :: rest) =
      (readOpen [] rest).map (fields :: ·) := by
  obtain ⟨init, last, rfl⟩ := exists_init_last hne
  rw [readOpen_fields]
  rfl

theorem readOpen_last {fields : Record} (hne : fields ≠ []) :
    readOpen [] (separated (fields.map fieldTokens) ++ [.objectClose, .arrayClose]) =
      some [fields] := by
  obtain ⟨init, last, rfl⟩ := exists_init_last hne
  rw [readOpen_fields]
  rfl

theorem readOpen_records {first : Record} {records : List Record}
    (h : ∀ fields ∈ first :: records, fields ≠ []) :
    ∃ rest, separated ((first :: records).map recordTokens) ++ [.arrayClose] = .objectOpen :: rest ∧
      readOpen [] rest = some (first :: records) := by
  induction records generalizing first with
  | nil =>
    refine ⟨separated (first.map fieldTokens) ++ [.objectClose, .arrayClose], ?_, ?_⟩
    · simp [separated, recordTokens]
    · exact readOpen_last (h first (List.mem_cons_self ..))
  | cons next records ih =>
    rw [List.forall_mem_cons] at h
    obtain ⟨rest, htokens, hread⟩ := ih h.2
    refine ⟨separated (first.map fieldTokens) ++ .objectClose :: .comma :: .objectOpen :: rest,
      ?_, ?_⟩
    · rw [← htokens]
      simp [separated, recordTokens]
    · rw [readOpen_next h.1, hread]
      rfl

theorem readArray_arrayTokens {records : List Record} (h : ∀ fields ∈ records, fields ≠ []) :
    readArray (arrayTokens records) = some records := by
  cases records with
  | nil => rfl
  | cons first records =>
    obtain ⟨rest, htokens, hread⟩ := readOpen_records h
    rw [arrayTokens, htokens]
    exact hread

def Scalar.text? : Scalar → Option String
  | .number _ => none
  | .text content => some content

structure Describes (fields : Record) (index : Nat) (instruction : Instruction) : Prop where
  names : (fields.map Prod.fst).Sublist ["index", "category", "operation", "parameter", "value"]
  index : fields.lookup "index" = some (.number index)
  category : fields.lookup "category" = some (.text instruction.category.name)
  operation : fields.lookup "operation" = some (.text instruction.mnemonic)
  parameter : fields.lookup "parameter" =
    instruction.operand?.map fun literal => .text literal.letters
  isSome_parameter : (fields.lookup "parameter").isSome = instruction.opcode.takesOperand
  value : ∀ shown, fields.lookup "value" = some shown ↔
    ∃ literal value, instruction.operand? = some literal ∧ literal.decode = .ok value ∧
      shown = .number value.toInt

theorem describes_record (index : Nat) (instruction : Instruction) :
    Describes (record index instruction) index instruction := by
  have htakes : instruction.operand?.isSome = instruction.opcode.takesOperand := by
    rw [Operation.opcode, Operation.takesOperand, Operation.operand?_withOperand, Option.isSome_map]
  cases hoperand : instruction.operand? with
  | none => constructor <;> simp [record, hoperand, ← htakes, List.lookup_cons]
  | some literal =>
    cases hdecode : literal.decode with
    | error error => constructor <;> simp [record, hoperand, hdecode, ← htakes, List.lookup_cons]
    | ok value =>
      constructor <;> simp [record, hoperand, hdecode, ← htakes, List.lookup_cons]
      exact fun shown => eq_comm

def instruction? (fields : Record) : Option Instruction := do
  let name ← (fields.lookup "operation").bind Scalar.text?
  let opcode ← Opcode.ofMnemonic? name
  let letters? := (fields.lookup "parameter").bind Scalar.text?
  Instruction.ofParts? opcode
    (letters?.bind fun letters => (Literal.ofGlyphs (Glyph.ofLetters letters)).toOption)

theorem ofMnemonic?_mnemonic (opcode : Opcode) : Opcode.ofMnemonic? opcode.mnemonic = some opcode := by
  have hall : ∀ opcode ∈ Opcode.all, Opcode.ofMnemonic? opcode.mnemonic = some opcode := by decide
  exact hall opcode (List.mem_flatMap_of_mem opcode.category.mem_all opcode.mem_opcodes)

theorem Describes.instruction?_eq {fields : Record} {index : Nat} {instruction : Instruction}
    (h : Describes fields index instruction) : instruction? fields = some instruction := by
  have hopcode : instruction.mnemonic = instruction.opcode.mnemonic :=
    (Operation.mnemonic_withOperand instruction ()).symm
  have hliteral (literal : Literal) :
      Literal.ofGlyphs (Glyph.ofLetters literal.letters) = .ok literal := by
    rw [Literal.letters, Glyph.ofLetters_letters, Literal.ofGlyphs_glyphs]
  have hparts := instruction.ofParts?_opcode_operand?
  cases hoperand : instruction.operand? with
  | none =>
    rw [hoperand] at hparts
    simp [instruction?, h.operation, h.parameter, hopcode, ofMnemonic?_mnemonic, hoperand,
      Scalar.text?, hparts]
  | some literal =>
    rw [hoperand] at hparts
    simp [instruction?, h.operation, h.parameter, hopcode, ofMnemonic?_mnemonic, hoperand,
      Scalar.text?, hparts, hliteral, Except.toOption]

theorem plain_record (index : Nat) (instruction : Instruction) :
    (record index instruction).Plain := by
  have hnames : ∀ name ∈ ["index", "category", "operation", "parameter", "value"],
      name.toList.all Char.isAlpha := by decide
  intro entry hentry
  have hname := (describes_record index instruction).names.subset (List.mem_map_of_mem hentry)
  refine ⟨hnames _ hname, ?_⟩
  rcases List.mem_append.mp hentry with hhead | htail
  · simp only [List.mem_cons, List.not_mem_nil, or_false] at hhead
    rcases hhead with rfl | rfl | rfl
    · trivial
    · exact instruction.category.isAlpha_name
    · exact instruction.isAlpha_mnemonic
  · split at htail
    · cases htail
    · next literal _ =>
      rcases List.mem_cons.mp htail with rfl | hvalue
      · exact literal.isAlpha_letters
      · split at hvalue
        · cases List.mem_singleton.mp hvalue
          trivial
        · cases hvalue

theorem plain_of_mem_records {program : Program} {fields : Record}
    (h : fields ∈ records program) : fields.Plain := by
  obtain ⟨entry, -, rfl⟩ := List.mem_map.mp h
  exact plain_record _ _

theorem ne_nil_of_mem_records {program : Program} {fields : Record}
    (h : fields ∈ records program) : fields ≠ [] := by
  obtain ⟨entry, -, rfl⟩ := List.mem_map.mp h
  exact List.cons_ne_nil _ _

theorem tokens_text (indented : Bool) (program : Program) :
    tokens (text indented program).toList = some (arrayTokens (records program)) := by
  have hplain : ∀ fields ∈ records program, fields.Plain := fun _ => plain_of_mem_records
  cases indented with
  | false => exact (closes_compact hplain).spells.tokens_eq
  | true => exact (closes_pretty hplain).spells.tokens_eq

theorem readRecords_text (indented : Bool) (program : Program) :
    readRecords (text indented program) = some (records program) := by
  rw [readRecords, tokens_text, Option.bind_some,
    readArray_arrayTokens fun _ => ne_nil_of_mem_records]

theorem getElem?_records {program : Program} {index : Nat} {instruction : Instruction}
    (h : program[index]? = some instruction) :
    (records program)[index]? = some (record index instruction) := by
  have hlist : program.toList[index]? = some instruction := by simpa using h
  simp [records, List.getElem?_zipIdx, hlist]

def readProgram (text : String) : Option Program := do
  let found ← readRecords text
  (found.mapM instruction?).map List.toArray

theorem mapM_instruction?_zipIdx (instructions : List Instruction) (start : Nat) :
    ((instructions.zipIdx start).map fun entry => record entry.2 entry.1).mapM instruction? =
      some instructions := by
  induction instructions generalizing start with
  | nil => rfl
  | cons instruction rest ih =>
    simp [List.zipIdx_cons, (describes_record start instruction).instruction?_eq, ih]

theorem readProgram_text (indented : Bool) (program : Program) :
    readProgram (text indented program) = some program := by
  have hinstructions : (records program).mapM instruction? = some program.toList :=
    mapM_instruction?_zipIdx program.toList 0
  simp [readProgram, readRecords_text, hinstructions]

def squeezed (text : String) : List Char := text.toList.filter fun c => !isBlank c

@[simp] theorem squeezed_append (first second : String) :
    squeezed (first ++ second) = squeezed first ++ squeezed second := by
  simp [squeezed]

theorem squeezed_intercalate {α : Type} {separator separator' : String} {render render' : α → String}
    (hseparator : squeezed separator = squeezed separator')
    (hrender : ∀ item, squeezed (render item) = squeezed (render' item)) (items : List α) :
    squeezed (separator.intercalate (items.map render)) =
      squeezed (separator'.intercalate (items.map render')) := by
  induction items with
  | nil => rfl
  | cons item rest ih =>
    cases rest with
    | nil => simpa using hrender item
    | cons next rest =>
      simp only [List.map_cons, String.intercalate_cons_cons, squeezed_append] at ih ⊢
      rw [hseparator, hrender, ih]

theorem squeezed_prettyRecord (fields : Record) :
    squeezed (prettyRecord fields) = squeezed (compactRecord fields) := by
  have hopen : squeezed "  \x7b\n" = squeezed "\x7b" := by decide
  have hclose : squeezed "\n  \x7d" = squeezed "\x7d" := by decide
  have hindent : squeezed "    " = [] := by decide
  have hcolon : squeezed ": " = squeezed ":" := by decide
  simp only [prettyRecord, compactRecord, squeezed_append, hopen, hclose]
  congr 2
  exact squeezed_intercalate (by decide) (fun entry => by simp [hindent, hcolon]) fields

theorem squeezed_pretty (records : List Record) :
    squeezed (pretty records) = squeezed (compact records) := by
  unfold pretty
  split
  · next hempty =>
    rw [List.isEmpty_iff] at hempty
    subst hempty
    rfl
  · have hopen : squeezed "[\n" = squeezed "[" := by decide
    have hclose : squeezed "\n]" = squeezed "]" := by decide
    simp only [compact, squeezed_append, hopen, hclose]
    congr 2
    exact squeezed_intercalate (by decide) squeezed_prettyRecord records

end Whitespace.Listing.Json

namespace Whitespace

/-- A listing as JSON, on one line or over several, has one record for each instruction, in order, that
describes it with its index; the program is read back from it, so two programs never have the same
listing. The two forms of a listing have the same tokens, and the same characters apart from white space. -/
theorem Listing.Json.text_loses_nothing (indented : Bool) (program : Program) :
    (∃ found, readRecords (text indented program) = some found ∧ found.length = program.size ∧
        ∀ index instruction, program[index]? = some instruction →
          ∃ fields, found[index]? = some fields ∧ Describes fields index instruction) ∧
      readProgram (text indented program) = some program ∧
      (∀ other, text indented other = text indented program → other = program) ∧
      tokens (text true program).toList = tokens (text false program).toList ∧
      (tokens (text true program).toList).isSome ∧
      squeezed (text true program) = squeezed (text false program) := by
  refine ⟨⟨records program, readRecords_text indented program, by simp [records], ?_⟩,
    readProgram_text indented program, ?_, ?_, ?_, squeezed_pretty (records program)⟩
  · intro index instruction hat
    exact ⟨_, getElem?_records hat, describes_record index instruction⟩
  · intro other h
    have hread := readProgram_text indented other
    rw [h, readProgram_text] at hread
    exact (Option.some.inj hread).symm
  · rw [tokens_text, tokens_text]
  · rw [tokens_text]
    rfl

end Whitespace
