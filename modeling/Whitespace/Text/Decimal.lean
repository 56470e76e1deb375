namespace Whitespace.Text.Decimal

def readDigits (number : Nat) : List Char → Option Nat
  | [] => some number
  | c :: rest => if c.isDigit then readDigits (10 * number + (c.toNat - 48)) rest else none

def digits? (text : List Char) : Option Nat :=
  if text.isEmpty then none else readDigits 0 text

def natural? : List Char → Option Nat
  | '+' :: rest => digits? rest
  | text => digits? text

def integer? : List Char → Option Int
  | '-' :: rest => (digits? rest).map fun n => -(n : Int)
  | text => (natural? text).map Int.ofNat

def zeroPadded (width number : Nat) : String :=
  String.ofList (List.leftpad width '0' (Nat.toDigits 10 number))

theorem zeroPadded_inj {width first second : Nat} :
    zeroPadded width first = zeroPadded width second ↔ first = second := by
  refine ⟨fun h => ?_, fun h => h ▸ rfl⟩
  have hread := congrArg (Nat.ofDigitChars 10 · 0) (String.ofList_injective h)
  simpa [List.leftpad, Nat.ofDigitChars_append, Nat.ofDigitChars_replicate_zero,
    Nat.ofDigitChars_ten_toDigits] using hread

theorem isDigit_of_mem_toDigits {number : Nat} {c : Char} (h : c ∈ Nat.toDigits 10 number) :
    c.isDigit :=
  Nat.isDigit_of_mem_toDigits (by decide) (by decide) h

theorem isDigit_of_mem_zeroPadded {width number : Nat} {c : Char}
    (h : c ∈ (zeroPadded width number).toList) : c.isDigit := by
  rw [zeroPadded, String.toList_ofList, List.leftpad, List.mem_append] at h
  rcases h with hzero | hdigit
  · rw [List.eq_of_mem_replicate hzero]
    rfl
  · exact isDigit_of_mem_toDigits hdigit

theorem readDigits_of_isDigit {text : List Char} (h : ∀ c ∈ text, c.isDigit) (number : Nat) :
    readDigits number text = some (Nat.ofDigitChars 10 text number) := by
  induction text generalizing number with
  | nil => rfl
  | cons c rest ih =>
    rw [List.forall_mem_cons] at h
    rw [readDigits, if_pos h.1, ih h.2, Nat.ofDigitChars_cons]
    rfl

theorem digits?_toDigits (number : Nat) : digits? (Nat.toDigits 10 number) = some number := by
  have hdigit : ∀ c ∈ Nat.toDigits 10 number, c.isDigit := fun _ => isDigit_of_mem_toDigits
  rw [digits?, if_neg (by simp [Nat.toDigits_ne_nil]), readDigits_of_isDigit hdigit,
    Nat.ofDigitChars_ten_toDigits]

theorem integer?_repr (number : Int) : integer? number.repr.toList = some number := by
  cases number with
  | ofNat number =>
    have hread := digits?_toDigits number
    have hdigit : ∀ c ∈ Nat.toDigits 10 number, c.isDigit := fun _ => isDigit_of_mem_toDigits
    change integer? number.repr.toList = some (number : Int)
    rw [Nat.toList_repr]
    cases hdigits : Nat.toDigits 10 number with
    | nil => exact absurd hdigits Nat.toDigits_ne_nil
    | cons c rest =>
      rw [hdigits] at hread hdigit
      have hc := hdigit c List.mem_cons_self
      -- A text that begins with a digit has no sign.
      unfold integer? natural?
      split
      · next h => cases h; cases hc
      · split
        · next h => cases h; cases hc
        · rw [hread]
          rfl
  | negSucc number =>
    change integer? ("-" ++ number.succ.repr).toList = some (Int.negSucc number)
    rw [String.toList_append, Nat.toList_repr]
    change (digits? (Nat.toDigits 10 number.succ)).map (fun n => -(n : Int)) = _
    rw [digits?_toDigits]
    rfl

end Whitespace.Text.Decimal
