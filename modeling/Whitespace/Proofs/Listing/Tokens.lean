import Mathlib.Data.List.TakeWhile
import Whitespace.Listing.Json
import Whitespace.Text.Decimal

/-!
The tokens of a JSON text. White space stands between tokens only, so two texts that have the same tokens
differ in nothing but white space. Records have the same tokens on one line and over several
(`closes_compact`, `closes_pretty`).
-/

namespace Whitespace.Listing.Json

inductive Token where
  | arrayOpen
  | arrayClose
  | objectOpen
  | objectClose
  | comma
  | colon
  | scalar (value : Scalar)
  deriving DecidableEq, Repr

def isBlank (c : Char) : Bool := c == ' ' || c == '\n' || c == '\t' || c == '\x0d'

def isNumeral (c : Char) : Bool := c.isDigit || c == '-'

def mark? : Char → Option Token
  | '[' => some .arrayOpen
  | ']' => some .arrayClose
  | '\x7b' => some .objectOpen
  | '\x7d' => some .objectClose
  | ',' => some .comma
  | ':' => some .colon
  | _ => none

def readText : List Char → Option (List Char × List Char)
  | [] => none
  | c :: rest =>
    if c = '"' then some ([], rest)
    else if c = '\\' then none
    else (readText rest).map fun found => (c :: found.1, found.2)

theorem length_lt_of_readText {text content after : List Char}
    (h : readText text = some (content, after)) : after.length < text.length := by
  induction text generalizing content with
  | nil => cases h
  | cons c rest ih =>
    rw [List.length_cons]
    unfold readText at h
    split at h
    · cases h
      exact Nat.lt_succ_self _
    · split at h
      · cases h
      · obtain ⟨found, hfound, heq⟩ := Option.map_eq_some_iff.mp h
        cases heq
        exact Nat.lt_succ_of_lt (ih hfound)

def tokens : List Char → Option (List Token)
  | [] => some []
  | c :: rest =>
    if isBlank c then tokens rest
    else if isNumeral c then
      match Text.Decimal.integer? (c :: rest.takeWhile isNumeral) with
      | some number => (tokens (rest.dropWhile isNumeral)).map (.scalar (.number number) :: ·)
      | none => none
    else if c = '"' then
      match _h : readText rest with
      | some (content, after) =>
        (tokens after).map (.scalar (.text (String.ofList content)) :: ·)
      | none => none
    else
      match mark? c with
      | some token => (tokens rest).map (token :: ·)
      | none => none
termination_by text => text.length
decreasing_by
  · exact Nat.lt_succ_self _
  · exact Nat.lt_succ_of_le (List.dropWhile_suffix (p := isNumeral)).length_le
  · exact Nat.lt_succ_of_lt (length_lt_of_readText _h)
  · exact Nat.lt_succ_self _

def Ends (text : List Char) : Prop := text.head?.all fun c => !isNumeral c

instance (text : List Char) : Decidable (Ends text) :=
  inferInstanceAs (Decidable (text.head?.all (fun c => !isNumeral c) = true))

/-- The text has the tokens, whatever comes after it. -/
def Closes (text : String) (found : List Token) : Prop :=
  ∀ rest, tokens (text.toList ++ rest) = (tokens rest).map (found ++ ·)

/-- The text has the tokens, unless it ends with a number and what comes after it goes on with that. -/
def Spells (text : String) (found : List Token) : Prop :=
  ∀ rest, Ends rest → tokens (text.toList ++ rest) = (tokens rest).map (found ++ ·)

section Composition

variable {first second : String} {found found' : List Token}

theorem Closes.spells (h : Closes first found) : Spells first found := fun rest _ => h rest

theorem Closes.append_spells (hfirst : Closes first found) (hsecond : Spells second found') :
    Spells (first ++ second) (found ++ found') := by
  intro rest hrest
  rw [String.toList_append, List.append_assoc, hfirst, hsecond rest hrest, Option.map_map]
  simp only [Function.comp_def, List.append_assoc]

theorem Closes.append (hfirst : Closes first found) (hsecond : Closes second found') :
    Closes (first ++ second) (found ++ found') := by
  intro rest
  rw [String.toList_append, List.append_assoc, hfirst, hsecond, Option.map_map]
  simp only [Function.comp_def, List.append_assoc]

theorem Spells.append_closes (hfirst : Spells first found) (hsecond : Closes second found')
    (hne : second.toList ≠ []) (hends : Ends second.toList) :
    Closes (first ++ second) (found ++ found') := by
  intro rest
  have hafter : Ends (second.toList ++ rest) := by
    obtain ⟨c, tail, hcons⟩ := List.exists_cons_of_ne_nil hne
    rw [hcons] at hends ⊢
    exact hends
  rw [String.toList_append, List.append_assoc, hfirst _ hafter, hsecond, Option.map_map]
  simp only [Function.comp_def, List.append_assoc]

theorem Spells.tokens_eq (h : Spells first found) : tokens first.toList = some found := by
  have hnil := h [] (by decide)
  rwa [List.append_nil, tokens, Option.map_some, List.append_nil] at hnil

end Composition

theorem tokens_of_isBlank {c : Char} (h : isBlank c) (rest : List Char) :
    tokens (c :: rest) = tokens rest := by
  rw [tokens, if_pos h]

theorem tokens_of_mark? {c : Char} {token : Token} (h : mark? c = some token) (rest : List Char) :
    tokens (c :: rest) = (tokens rest).map (token :: ·) := by
  have happart : isBlank c = false ∧ isNumeral c = false ∧ c ≠ '"' := by
    unfold mark? at h
    split at h <;> first | decide | cases h
  rw [tokens]
  simp [happart, h]

def isPunctuation (c : Char) : Bool := isBlank c || (mark? c).isSome

theorem closes_punctuation {text : String} (h : text.toList.all isPunctuation) :
    Closes text (text.toList.filterMap mark?) := by
  unfold Closes
  generalize text.toList = run at h
  intro rest
  induction run with
  | nil => simp
  | cons c run ih =>
    rw [List.all_cons, Bool.and_eq_true] at h
    rw [List.cons_append]
    cases hmark : mark? c with
    | some token =>
      rw [tokens_of_mark? hmark, ih h.2, List.filterMap_cons_some hmark, Option.map_map]
      rfl
    | none =>
      have hblank : isBlank c := by simpa [isPunctuation, hmark] using h.1
      rw [tokens_of_isBlank hblank, ih h.2, List.filterMap_cons_none hmark]

theorem readText_append {content : List Char} (h : content.all Char.isAlpha) (rest : List Char) :
    readText (content ++ '"' :: rest) = some (content, rest) := by
  induction content with
  | nil => rfl
  | cons c content ih =>
    rw [List.all_cons, Bool.and_eq_true] at h
    have hquote : c ≠ '"' := by
      rintro rfl
      exact absurd h.1 (by decide)
    have hescape : c ≠ '\\' := by
      rintro rfl
      exact absurd h.1 (by decide)
    rw [List.cons_append, readText, if_neg hquote, if_neg hescape, ih h.2]
    rfl

theorem closes_quote {content : String} (h : content.toList.all Char.isAlpha) :
    Closes (quote content) [.scalar (.text content)] := by
  intro rest
  have hquote : (quote content).toList ++ rest = '"' :: (content.toList ++ '"' :: rest) := by
    simp [quote]
  rw [hquote, tokens, if_neg (by decide), if_neg (by decide), if_pos rfl]
  split
  · next found =>
    rw [readText_append h] at found
    cases found
    rw [String.ofList_toList]
    rfl
  · next found =>
    rw [readText_append h] at found
    cases found

theorem isNumeral_of_mem_repr {number : Int} {c : Char} (h : c ∈ number.repr.toList) :
    isNumeral c := by
  have hdigit {n : Nat} (hmem : c ∈ n.repr.toList) : isNumeral c := by
    rw [Nat.toList_repr] at hmem
    simp [isNumeral, Text.Decimal.isDigit_of_mem_toDigits hmem]
  cases number with
  | ofNat n => exact hdigit h
  | negSucc n =>
    change c ∈ ("-" ++ n.succ.repr).toList at h
    rw [String.toList_append, List.mem_append] at h
    rcases h with hminus | hdigits
    · obtain rfl := List.mem_singleton.mp hminus
      rfl
    · exact hdigit hdigits

theorem isBlank_of_isNumeral {c : Char} (h : isNumeral c) : isBlank c = false := by
  rw [Bool.eq_false_iff]
  intro hblank
  simp only [isBlank, Bool.or_eq_true, beq_iff_eq] at hblank
  rcases hblank with ((rfl | rfl) | rfl) | rfl <;> exact absurd h (by decide)

theorem Ends.takeWhile_eq {text : List Char} (h : Ends text) :
    text.takeWhile isNumeral = [] ∧ text.dropWhile isNumeral = text := by
  cases text with
  | nil => exact ⟨rfl, rfl⟩
  | cons c rest =>
    have hc : isNumeral c = false := by simpa [Ends] using h
    simp [hc]

theorem spells_number (number : Int) : Spells number.repr [.scalar (.number number)] := by
  intro rest hrest
  have hread := Text.Decimal.integer?_repr number
  have hnumeral : ∀ c ∈ number.repr.toList, isNumeral c := fun _ => isNumeral_of_mem_repr
  generalize number.repr.toList = run at hread hnumeral
  cases run with
  | nil => cases hread
  | cons c digits =>
    rw [List.forall_mem_cons] at hnumeral
    rw [List.cons_append, tokens, isBlank_of_isNumeral hnumeral.1, if_neg Bool.false_ne_true,
      if_pos hnumeral.1, List.takeWhile_append_of_pos hnumeral.2,
      List.dropWhile_append_of_pos hnumeral.2, hrest.takeWhile_eq.1, hrest.takeWhile_eq.2,
      List.append_nil, hread]
    rfl

def Scalar.Plain : Scalar → Prop
  | .number _ => True
  | .text content => content.toList.all Char.isAlpha

def Record.Plain (fields : Record) : Prop :=
  ∀ entry ∈ fields, entry.1.toList.all Char.isAlpha ∧ entry.2.Plain

def separated : List (List Token) → List Token := List.intercalate [.comma]

def fieldTokens (entry : String × Scalar) : List Token :=
  [.scalar (.text entry.1), .colon, .scalar entry.2]

def recordTokens (fields : Record) : List Token :=
  .objectOpen :: (separated (fields.map fieldTokens) ++ [.objectClose])

def arrayTokens (records : List Record) : List Token :=
  .arrayOpen :: (separated (records.map recordTokens) ++ [.arrayClose])

theorem Scalar.Plain.spells {value : Scalar} (h : value.Plain) :
    Spells value.render [.scalar value] := by
  cases value with
  | number value => exact spells_number value
  | text content => exact (closes_quote h).spells

theorem spells_intercalate {α : Type} {separator : String} (hseparator : Closes separator [.comma])
    (hne : separator.toList ≠ []) (hends : Ends separator.toList) {render : α → String}
    {found : α → List Token} {items : List α} (h : ∀ item ∈ items, Spells (render item) (found item)) :
    Spells (separator.intercalate (items.map render)) (separated (items.map found)) := by
  induction items with
  | nil =>
    have hempty : Closes "" [] := closes_punctuation rfl
    exact hempty.spells
  | cons item rest ih =>
    rw [List.forall_mem_cons] at h
    cases rest with
    | nil => simpa [separated] using h.1
    | cons next rest =>
      simp only [List.map_cons, String.intercalate_cons_cons, separated, List.intercalate_cons_cons]
      exact (h.1.append_closes hseparator hne hends).append_spells (ih h.2)

theorem closes_bracketed {α : Type} {first separator last : String} {opening closing : Token}
    (hfirst : Closes first [opening]) (hseparator : Closes separator [.comma])
    (hlast : Closes last [closing])
    (hends : separator.toList ≠ [] ∧ Ends separator.toList ∧ last.toList ≠ [] ∧ Ends last.toList)
    {render : α → String} {found : α → List Token} {items : List α}
    (h : ∀ item ∈ items, Spells (render item) (found item)) :
    Closes (first ++ separator.intercalate (items.map render) ++ last)
      (opening :: (separated (items.map found) ++ [closing])) := by
  have hitems := spells_intercalate hseparator hends.1 hends.2.1 h
  exact (hfirst.append_spells hitems).append_closes hlast hends.2.2.1 hends.2.2.2

theorem closes_compactRecord {fields : Record} (h : fields.Plain) :
    Closes (compactRecord fields) (recordTokens fields) := by
  refine closes_bracketed (closes_punctuation rfl) (closes_punctuation rfl) (closes_punctuation rfl)
    (by decide) fun entry hentry => ?_
  obtain ⟨hname, hvalue⟩ := h entry hentry
  have hcolon : Closes ":" [.colon] := closes_punctuation rfl
  exact ((closes_quote hname).append hcolon).append_spells hvalue.spells

theorem closes_prettyRecord {fields : Record} (h : fields.Plain) :
    Closes (prettyRecord fields) (recordTokens fields) := by
  refine closes_bracketed (closes_punctuation rfl) (closes_punctuation rfl) (closes_punctuation rfl)
    (by decide) fun entry hentry => ?_
  obtain ⟨hname, hvalue⟩ := h entry hentry
  have hindent : Closes "    " [] := closes_punctuation rfl
  have hcolon : Closes ": " [.colon] := closes_punctuation rfl
  exact ((hindent.append (closes_quote hname)).append hcolon).append_spells hvalue.spells

section Arrays

variable {records : List Record}

theorem closes_compact (h : ∀ fields ∈ records, Record.Plain fields) :
    Closes (compact records) (arrayTokens records) :=
  closes_bracketed (closes_punctuation rfl) (closes_punctuation rfl) (closes_punctuation rfl)
    (by decide) fun fields hfields => (closes_compactRecord (h fields hfields)).spells

theorem closes_pretty (h : ∀ fields ∈ records, Record.Plain fields) :
    Closes (pretty records) (arrayTokens records) := by
  unfold pretty
  split
  · next hempty =>
    rw [List.isEmpty_iff] at hempty
    subst hempty
    exact closes_punctuation rfl
  · exact closes_bracketed (closes_punctuation rfl) (closes_punctuation rfl) (closes_punctuation rfl)
      (by decide) fun fields hfields => (closes_prettyRecord (h fields hfields)).spells

end Arrays

end Whitespace.Listing.Json
