import Whitespace.Literal

/-!
Operations come in five categories. An operation is polymorphic in what stands in the place of its
operand: nothing (`Opcode`), the literal of a program (`Instruction`), or the decoded value that the
machine works with. An instruction therefore has a literal exactly when its operation takes one.
-/

namespace Whitespace

inductive Category where
  | stack
  | arithmetic
  | heap
  | flow
  | io
  deriving DecidableEq, Repr, Inhabited

inductive StackOp (α : Type) where
  | push (value : α)
  | duplicate
  /-- Copy the element `depth` places below the top. -/
  | copy (depth : α)
  | swap
  | discard
  /-- Keep the top and drop the `count` elements beneath it. -/
  | slide (count : α)
  deriving DecidableEq, Repr

inductive ArithmeticOp where
  | add
  | subtract
  | multiply
  | divide
  | modulo
  deriving DecidableEq, Repr

inductive HeapOp where
  | store
  | retrieve
  deriving DecidableEq, Repr

inductive FlowOp (α : Type) where
  | mark (label : α)
  | call (label : α)
  | jump (label : α)
  | jumpIfZero (label : α)
  | jumpIfNegative (label : α)
  | ret
  | stop
  deriving DecidableEq, Repr

inductive IoOp where
  | writeChar
  | writeNumber
  | readChar
  | readNumber
  deriving DecidableEq, Repr

inductive Operation (α : Type) where
  | stack (op : StackOp α)
  | arithmetic (op : ArithmeticOp)
  | heap (op : HeapOp)
  | flow (op : FlowOp α)
  | io (op : IoOp)
  deriving DecidableEq, Repr

abbrev Opcode := Operation Unit

abbrev Instruction := Operation Literal

namespace Category

def name : Category → String
  | .stack => "stack"
  | .arithmetic => "arithmetic"
  | .heap => "heap"
  | .flow => "flow"
  | .io => "io"

def all : List Category := [.stack, .arithmetic, .heap, .flow, .io]

theorem mem_all (category : Category) : category ∈ all := by
  cases category <;> decide

theorem isAlpha_name (category : Category) : category.name.toList.all Char.isAlpha := by
  cases category <;> decide

end Category

section Operands

variable {α β : Type} {f : Type → Type} [Applicative f]

def StackOp.traverse (compute : α → f β) : StackOp α → f (StackOp β)
  | .push value => .push <$> compute value
  | .duplicate => pure .duplicate
  | .copy depth => .copy <$> compute depth
  | .swap => pure .swap
  | .discard => pure .discard
  | .slide count => .slide <$> compute count

def FlowOp.traverse (compute : α → f β) : FlowOp α → f (FlowOp β)
  | .mark label => .mark <$> compute label
  | .call label => .call <$> compute label
  | .jump label => .jump <$> compute label
  | .jumpIfZero label => .jumpIfZero <$> compute label
  | .jumpIfNegative label => .jumpIfNegative <$> compute label
  | .ret => pure .ret
  | .stop => pure .stop

namespace Operation

def traverse (compute : α → f β) : Operation α → f (Operation β)
  | .stack op => .stack <$> op.traverse compute
  | .arithmetic op => pure (.arithmetic op)
  | .heap op => pure (.heap op)
  | .flow op => .flow <$> op.traverse compute
  | .io op => pure (.io op)

def category : Operation α → Category
  | .stack _ => .stack
  | .arithmetic _ => .arithmetic
  | .heap _ => .heap
  | .flow _ => .flow
  | .io _ => .io

def operand? : Operation α → Option α
  | .stack (.push operand) | .stack (.copy operand) | .stack (.slide operand)
  | .flow (.mark operand) | .flow (.call operand) | .flow (.jump operand)
  | .flow (.jumpIfZero operand) | .flow (.jumpIfNegative operand) => some operand
  | _ => none

def withOperand (operation : Operation α) (operand : β) : Operation β :=
  operation.traverse (f := Id) fun _ => operand

def bare? (operation : Operation α) : Option (Operation β) :=
  operation.traverse fun _ => none

def opcode (operation : Operation α) : Opcode := operation.withOperand ()

def takesOperand (operation : Operation α) : Bool := operation.operand?.isSome

def destination? : Operation α → Option α
  | .flow (.call label) | .flow (.jump label)
  | .flow (.jumpIfZero label) | .flow (.jumpIfNegative label) => some label
  | _ => none

def mark? : Operation α → Option α
  | .flow (.mark label) => some label
  | _ => none

def mnemonic : Operation α → String
  | .stack (.push _) => "push"
  | .stack .duplicate => "dup"
  | .stack (.copy _) => "copy"
  | .stack .swap => "swap"
  | .stack .discard => "discard"
  | .stack (.slide _) => "slide"
  | .arithmetic .add => "add"
  | .arithmetic .subtract => "sub"
  | .arithmetic .multiply => "mul"
  | .arithmetic .divide => "div"
  | .arithmetic .modulo => "mod"
  | .heap .store => "store"
  | .heap .retrieve => "retrieve"
  | .flow (.mark _) => "mark"
  | .flow (.call _) => "call"
  | .flow (.jump _) => "jump"
  | .flow (.jumpIfZero _) => "jz"
  | .flow (.jumpIfNegative _) => "jn"
  | .flow .ret => "ret"
  | .flow .stop => "end"
  | .io .writeChar => "outc"
  | .io .writeNumber => "outn"
  | .io .readChar => "readc"
  | .io .readNumber => "readn"

end Operation

end Operands

namespace Instruction

/-- Joins an operation to its literal. There is no such instruction when the operation takes a
literal and none is given, or the other way round. -/
def ofParts? (opcode : Opcode) : Option Literal → Option Instruction
  | none => opcode.bare?
  | some literal => if opcode.takesOperand then some (opcode.withOperand literal) else none

def display (instruction : Instruction) : String :=
  match instruction.operand? with
  | some literal => instruction.mnemonic ++ " " ++ literal.display
  | none => instruction.mnemonic

def decode (instruction : Instruction) : Except LiteralError (Operation Value) :=
  instruction.traverse Literal.decode

end Instruction

namespace Operation

variable {α β : Type}

@[simp] theorem operand?_withOperand (operation : Operation α) (operand : β) :
    (operation.withOperand operand).operand? = operation.operand?.map fun _ => operand := by
  rcases operation with op | op | op | op | op <;> cases op <;> rfl

@[simp] theorem category_withOperand (operation : Operation α) (operand : β) :
    (operation.withOperand operand).category = operation.category := by
  rcases operation with op | op | op | op | op <;> cases op <;> rfl

@[simp] theorem mnemonic_withOperand (operation : Operation α) (operand : β) :
    (operation.withOperand operand).mnemonic = operation.mnemonic := by
  rcases operation with op | op | op | op | op <;> cases op <;> rfl

theorem isAlpha_mnemonic (operation : Operation α) :
    operation.mnemonic.toList.all Char.isAlpha := by
  rcases operation with op | op | op | op | op <;> cases op <;> simp only [mnemonic] <;> decide

theorem bare?_eq_none_iff (operation : Operation α) :
    (operation.bare? : Option (Operation β)) = none ↔ operation.takesOperand := by
  rcases operation with op | op | op | op | op <;> cases op <;>
    simp [bare?, traverse, takesOperand, operand?, StackOp.traverse, FlowOp.traverse]

end Operation

theorem Instruction.ofParts?_opcode_operand? (instruction : Instruction) :
    Instruction.ofParts? instruction.opcode instruction.operand? = some instruction := by
  rcases instruction with op | op | op | op | op <;> cases op <;> rfl

end Whitespace
