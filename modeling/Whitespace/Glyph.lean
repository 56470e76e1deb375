/-!
The three characters that carry a program: space, tab and line feed. Every other character of a
source text is a comment. A glyph also has a letter, `S`, `T` or `L`, by which programs are written
legibly.
-/

namespace Whitespace

inductive Glyph where
  | space
  | tab
  | lineFeed
  deriving DecidableEq, Repr, Inhabited

namespace Glyph

/-- The glyph a source character stands for; a comment character stands for none. -/
def ofChar? : Char → Option Glyph
  | ' ' => some .space
  | '\t' => some .tab
  | '\n' => some .lineFeed
  | _ => none

def toChar : Glyph → Char
  | .space => ' '
  | .tab => '\t'
  | .lineFeed => '\n'

def ofLetter? : Char → Option Glyph
  | 'S' => some .space
  | 'T' => some .tab
  | 'L' => some .lineFeed
  | _ => none

def letter : Glyph → Char
  | .space => 'S'
  | .tab => 'T'
  | .lineFeed => 'L'

@[simp] theorem ofChar?_toChar (glyph : Glyph) : ofChar? glyph.toChar = some glyph := by
  cases glyph <;> rfl

@[simp] theorem ofLetter?_letter (glyph : Glyph) : ofLetter? glyph.letter = some glyph := by
  cases glyph <;> rfl

theorem toChar_of_ofChar? {c : Char} {glyph : Glyph} (h : ofChar? c = some glyph) :
    glyph.toChar = c := by
  unfold ofChar? at h
  split at h <;> cases h <;> rfl

def ofSource (source : String) : List Glyph :=
  source.toList.filterMap ofChar?

def ofLetters (text : String) : List Glyph :=
  text.toList.filterMap ofLetter?

def source (run : List Glyph) : String :=
  String.ofList (run.map toChar)

def letters (run : List Glyph) : String :=
  String.ofList (run.map letter)

@[simp] theorem ofSource_source (run : List Glyph) : ofSource (source run) = run := by
  simp only [ofSource, source, String.toList_ofList, List.filterMap_map, Function.comp_def,
    ofChar?_toChar, List.filterMap_some]

@[simp] theorem ofLetters_letters (run : List Glyph) : ofLetters (letters run) = run := by
  simp only [ofLetters, letters, String.toList_ofList, List.filterMap_map, Function.comp_def,
    ofLetter?_letter, List.filterMap_some]

@[simp] theorem ofSource_append (first second : String) :
    ofSource (first ++ second) = ofSource first ++ ofSource second := by
  simp [ofSource]

end Glyph

def sourceOfLetters (text : String) : String := Glyph.source (Glyph.ofLetters text)

def lettersOfSource (source : String) : String := Glyph.letters (Glyph.ofSource source)

theorem ofSource_sourceOfLetters_lettersOfSource (source : String) :
    Glyph.ofSource (sourceOfLetters (lettersOfSource source)) = Glyph.ofSource source := by
  simp [sourceOfLetters, lettersOfSource]

end Whitespace
