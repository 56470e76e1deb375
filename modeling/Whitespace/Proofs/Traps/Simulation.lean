import Whitespace.Proofs.Traps.Yields

namespace Whitespace

open Machine Processor

section StackOperations

variable {machine : Machine} {parts : Parts} {value : Value}

theorem completes_of_short {σ : Type} {work : Unit → Action Unit} {embed : σ → Machine}
    {computed : Except Fault σ} (hshort : machine.stack.length < 2)
    (hcomputed : computed = machine.stack.underflow 2) :
    Completes (require 2 >>= work) machine (Effect.ofExcept machine embed computed) :=
  completes_of_error hcomputed (yields_require_underflow 2 hshort).bind_error

theorem completes_push (h : Yields (operand parts) machine (.ok value) machine) :
    Completes (stackOp parts (.push ())) machine (machine.perform (.stack (.push value))) :=
  completes_of_ok rfl (h.bind (yields_push value))

theorem completes_duplicate :
    Completes (stackOp parts .duplicate) machine (machine.perform (.stack .duplicate)) := by
  cases hstack : machine.stack with
  | nil =>
    exact completes_of_error (by rw [hstack]; rfl) (yields_peek_empty hstack).bind_error
  | cons top rest =>
    refine completes_of_ok (by rw [hstack]; rfl) ?_
    rw [← hstack]
    exact (yields_peek_top hstack).bind (yields_push top)

theorem completes_copy (h : Yields (operand parts) machine (.ok value) machine) :
    Completes (stackOp parts (.copy ())) machine (machine.perform (.stack (.copy value))) := by
  cases hdepth : Stack.depth value with
  | error fault =>
    have hrun : StackOp.run machine.stack (.copy value) = .error fault := by
      simp [StackOp.run, hdepth, bind, Except.bind]
    exact completes_of_error hrun (h.bind (yields_ofExcept hdepth).bind_error)
  | ok depth =>
    have hlt := lt_of_depth hdepth
    cases hget : machine.stack[depth]? with
    | none =>
      have hrun : StackOp.run machine.stack (.copy value) =
          .error (.stackUnderflow (depth + 1) machine.stack.length) := by
        simp [StackOp.run, hdepth, hget, bind, Except.bind, Stack.underflow]
      refine completes_of_error hrun (h.bind ((yields_ofExcept hdepth).bind ?_))
      exact (yields_peek_underflow hlt hget).bind_error
    | some found =>
      have hrun : StackOp.run machine.stack (.copy value) = .ok (found :: machine.stack) := by
        simp [StackOp.run, hdepth, hget, bind, Except.bind]
      refine completes_of_ok hrun (h.bind ((yields_ofExcept hdepth).bind ?_))
      exact (yields_peek hlt hget).bind (yields_push found)

theorem completes_swap :
    Completes (stackOp parts .swap) machine (machine.perform (.stack .swap)) := by
  rcases hstack : machine.stack with _ | ⟨first, _ | ⟨second, rest⟩⟩
  · exact completes_of_short (by simp [hstack]) (by rw [hstack]; rfl)
  · exact completes_of_short (by simp [hstack]) (by rw [hstack]; rfl)
  · have hsize : 2 ≤ machine.stack.length := by simp [hstack]
    refine completes_of_ok (by rw [hstack]; rfl) ?_
    refine (yields_require 2 hsize).bind (yields_get.bind ?_)
    simp only [size_stack_processor]
    refine (yields_lift (difference?_eq (by omega))).bind ?_
    refine (yields_lift (difference?_eq hsize)).bind ?_
    refine (yields_lift (swap?_stack_processor hstack)).bind (yields_modify ?_)
    simp [Machine.processor]

theorem completes_discard :
    Completes (stackOp parts .discard) machine (machine.perform (.stack .discard)) := by
  cases hstack : machine.stack with
  | nil =>
    refine completes_of_error (by rw [hstack]; rfl) ?_
    exact (yields_pop_underflow hstack).bind_error
  | cons top rest =>
    refine completes_of_ok (by rw [hstack]; rfl) ?_
    exact (yields_pop hstack).bind (yields_pure ())

theorem completes_slide (h : Yields (operand parts) machine (.ok value) machine) :
    Completes (stackOp parts (.slide ())) machine (machine.perform (.stack (.slide value))) := by
  cases hdepth : Stack.depth value with
  | error fault =>
    have hrun : StackOp.run machine.stack (.slide value) = .error fault := by
      simp [StackOp.run, hdepth, bind, Except.bind]
    exact completes_of_error hrun (h.bind (yields_ofExcept hdepth).bind_error)
  | ok depth =>
    -- Once one more than the depth is there, the top can go and the rest still covers the depth.
    have hsucc := saturatingSucc_eq (lt_of_depth hdepth)
    cases hget : machine.stack[depth]? with
    | none =>
      have hle := List.getElem?_eq_none_iff.mp hget
      have hrun : StackOp.run machine.stack (.slide value) =
          .error (.stackUnderflow (depth + 1) machine.stack.length) := by
        simp [StackOp.run, hdepth, hget, bind, Except.bind, Stack.underflow]
      refine completes_of_error hrun (h.bind ((yields_ofExcept hdepth).bind ?_))
      rw [hsucc]
      exact (yields_require_underflow _ (Nat.lt_succ_of_le hle)).bind_error
    | some found =>
      have hlt := (List.getElem?_eq_some_iff.mp hget).1
      cases hstack : machine.stack with
      | nil =>
        rw [hstack] at hlt
        cases hlt
      | cons top rest =>
        have hrun : StackOp.run machine.stack (.slide value) = .ok (top :: rest.drop depth) := by
          rw [hstack] at hget
          simp [StackOp.run, hdepth, hstack, hget, bind, Except.bind]
        have hrest : depth ≤ rest.length := by
          rw [hstack, List.length_cons] at hlt
          omega
        refine completes_of_ok hrun (h.bind ((yields_ofExcept hdepth).bind ?_))
        rw [hsucc]
        refine (yields_require _ hlt).bind ((yields_pop hstack).bind (yields_get.bind ?_))
        simp only [size_stack_processor]
        refine (yields_lift (difference?_eq hrest)).bind ?_
        exact (yields_truncate { machine with stack := rest } depth).bind (yields_push top)

theorem completes_arithmeticOp {op : ArithmeticOp} :
    Completes (arithmeticOp op) machine (machine.perform (.arithmetic op)) := by
  rcases hstack : machine.stack with _ | ⟨first, _ | ⟨second, rest⟩⟩
  · exact completes_of_short (by simp [hstack]) (by rw [hstack]; rfl)
  · exact completes_of_short (by simp [hstack]) (by rw [hstack]; rfl)
  · have hsize : 2 ≤ machine.stack.length := by simp [hstack]
    have hfirst := yields_peek_top hstack
    have hsecond := @yields_peek machine 1 (by decide) second (by simp [hstack])
    cases happly : op.apply second first with
    | error fault =>
      have hrun : op.run machine.stack = .error fault := by
        simp [ArithmeticOp.run, hstack, happly, Except.map]
      refine completes_of_error hrun ((yields_require 2 hsize).bind (hfirst.bind ?_))
      exact hsecond.bind (yields_ofExcept happly).bind_error
    | ok result =>
      have hrun : op.run machine.stack = .ok (result :: rest) := by
        simp [ArithmeticOp.run, hstack, happly, Except.map]
      refine completes_of_ok hrun ((yields_require 2 hsize).bind (hfirst.bind ?_))
      refine hsecond.bind ((yields_ofExcept happly).bind (yields_get.bind ?_))
      simp only [size_stack_processor]
      refine (yields_lift (difference?_eq hsize)).bind ?_
      refine (yields_truncate machine 2).bind ?_
      rw [hstack, List.drop_succ_cons, List.drop_succ_cons, List.drop_zero]
      exact yields_push result

theorem yields_insert (address value : Value) :
    Yields (Processor.insert address value) machine (.ok ())
      { machine with heap := machine.heap.insert address value } :=
  yields_modify rfl

theorem completes_heapOp {op : HeapOp} :
    Completes (heapOp op) machine (machine.perform (.heap op)) := by
  cases op with
  | store =>
    rcases hstack : machine.stack with _ | ⟨value, _ | ⟨address, rest⟩⟩
    · exact completes_of_short (by simp [hstack]) (by rw [hstack]; rfl)
    · exact completes_of_short (by simp [hstack]) (by rw [hstack]; rfl)
    · refine completes_of_ok (by rw [hstack]; rfl) ?_
      refine (yields_require 2 (by simp [hstack])).bind ((yields_pop hstack).bind ?_)
      exact (yields_pop rfl).bind (yields_insert address value)
  | retrieve =>
    cases hstack : machine.stack with
    | nil =>
      exact completes_of_error (by rw [hstack]; rfl) (yields_peek_empty hstack).bind_error
    | cons address rest =>
      have hpeek := yields_peek_top hstack
      have hheap : machine.processor.heap = machine.heap := rfl
      cases hget : machine.heap[address]? with
      | none =>
        have hrun : HeapOp.run machine.stack machine.heap .retrieve =
            .error (.uninitializedAddress address) := by
          simp [HeapOp.run, hstack, hget]
        refine completes_of_error hrun (hpeek.bind (yields_get.bind ?_))
        rw [hheap, hget]
        exact yields_throw _
      | some value =>
        have hrun : HeapOp.run machine.stack machine.heap .retrieve =
            .ok (value :: rest, machine.heap) := by
          simp [HeapOp.run, hstack, hget]
        refine completes_of_ok hrun (hpeek.bind (yields_get.bind ?_))
        rw [hheap, hget]
        exact (yields_pop hstack).bind (yields_push value)

end StackOperations

section FlowOperations

variable {machine : Machine} {parts : Parts} {label : Value}

theorem parts_of_mark? {instruction : Instruction} {literal : Literal}
    (h : instruction.mark? = some literal) :
    instruction.parts = ⟨.flow (.mark ()), some literal⟩ := by
  unfold Operation.mark? at h
  split at h <;> cases h
  rfl

theorem opcode_parts_ne_mark {instruction : Instruction} (h : instruction.mark? = none) :
    instruction.parts.opcode ≠ .flow (.mark ()) := by
  intro hopcode
  rcases instruction with op | op | op | op | op <;> cases op <;> cases hopcode
  cases h

section Scan

variable {program : Program} {table : LabelTable} (hlt : table.scanned < program.size)

include hlt

theorem scan_of_mark?_none (hmark : program[table.scanned].mark? = none) (label : Value) :
    Processor.scan (program.map Instruction.parts) label table =
      Processor.scan (program.map Instruction.parts) label
        { table with scanned := table.scanned + 1 } := by
  rw [Processor.scan, dif_pos (by simpa using hlt), Array.getElem_map]
  exact if_pos (opcode_parts_ne_mark hmark)

theorem scan_of_mark? {literal : Literal} (hmark : program[table.scanned].mark? = some literal)
    (label : Value) :
    Processor.scan (program.map Instruction.parts) label table =
      let next := { table with scanned := table.scanned + 1 }
      match literal.decode with
      | .error error => .ok (next, .error error)
      | .ok mark =>
        let recorded := (next.record mark (table.scanned + 1)).1
        if mark = label then .ok (recorded, .ok (recorded.get? label))
        else Processor.scan (program.map Instruction.parts) label recorded := by
  rw [Processor.scan, dif_pos (by simpa using hlt), Array.getElem_map]
  cases hdecode : literal.decode <;>
    simp only [parts_of_mark? hmark, hdecode, ne_eq, not_true_eq_false, if_false]

end Scan

theorem scan_eq (program : Program) (label : Value) (table : LabelTable)
    (recorded : Array (Value × Nat)) :
    Processor.scan (program.map Instruction.parts) label table =
      .ok ((table.scan program label recorded).table, (table.scan program label recorded).target) := by
  fun_induction LabelTable.scan program label table recorded with
  | case1 table recorded hlt next hmark ih => rw [scan_of_mark?_none hlt hmark, ih]
  | case2 table recorded hlt next literal hmark error hdecode =>
    simp only [scan_of_mark? hlt hmark, hdecode, next]
  | case3 table recorded hlt next literal hmark target hdecode entry recorded' =>
    simp only [scan_of_mark? hlt hmark, hdecode, if_true, next, target, entry]
  | case4 table recorded hlt next literal hmark mark hdecode target entry recorded' hne ih =>
    simp only [scan_of_mark? hlt hmark, hdecode, if_neg hne]
    exact ih
  | case5 table recorded hge => rw [Processor.scan, dif_neg (by simpa using hge)]

theorem yields_set_labels (table : LabelTable) :
    Yields (set { machine.processor with labels := table }) machine (.ok ())
      { machine with control := { machine.control with labels := table } } := rfl

theorem yields_resolve (label : Value) :
    Yields (Processor.resolve label) machine (machine.resolve label).2
      (machine.resolve label).1 := by
  have hlabels : machine.processor.labels = machine.control.labels := rfl
  refine yields_get.bind ?_
  simp only [hlabels, Machine.resolve, LabelTable.resolve]
  cases hget : machine.control.labels.get? label with
  | some target => exact yields_pure target
  | none =>
    have hscan := scan_eq machine.program label machine.control.labels #[]
    refine (yields_lift hscan).bind ((yields_set_labels _).bind ?_)
    cases htarget : (machine.control.labels.scan machine.program label #[]).target with
    | error error => simpa [Resolution.result, htarget] using yields_throw _
    | ok found =>
      cases found with
      | none => simpa [Resolution.result, htarget] using yields_throw _
      | some target => simpa [Resolution.result, htarget] using yields_pure target

theorem yields_transfer (label : Value) (calls : List Nat) (event : Value → Nat → Event)
    {change : Nat → Processor → Processor}
    (h : ∀ target table,
      change target { machine.processor with labels := table } =
        processor { machine with control := ⟨target, calls, table⟩ }) :
    Yields
      (do
        let target ← Processor.resolve label
        modify (change target)
        return .next)
      machine (machine.control.transfer machine.program label calls event).outcome
      { machine with control := (machine.control.transfer machine.program label calls event).state } := by
  have hresolve := @yields_resolve machine label
  simp only [Machine.resolve] at hresolve
  cases hresult : (machine.control.labels.resolve machine.program label).result label with
  | error fault =>
    rw [hresult] at hresolve
    simp only [Control.transfer, hresult]
    exact hresolve.bind_error
  | ok target =>
    rw [hresult] at hresolve
    simp only [Control.transfer, hresult]
    exact hresolve.bind (Yields.bind (yields_modify (h target _)) (yields_pure _))

theorem yields_jump (label : Value) :
    Yields (Processor.jump label) machine (machine.control.jump machine.program label).outcome
      { machine with control := (machine.control.jump machine.program label).state } :=
  yields_transfer label machine.control.calls .jump fun _ _ => rfl

theorem yields_branch (h : Yields (operand parts) machine (.ok label) machine) (test : Value → Bool) :
    Yields (Processor.branch parts test) machine
      (machine.control.branch machine.program machine.stack label test).outcome
      { machine with
        control := (machine.control.branch machine.program machine.stack label test).state.1
        stack := (machine.control.branch machine.program machine.stack label test).state.2 } := by
  obtain ⟨program, control, stack, heap, input, output, fuel⟩ := machine
  cases stack with
  | nil => exact h.bind (yields_pop_underflow rfl).bind_error
  | cons top rest =>
    refine h.bind ((yields_pop rfl).bind ?_)
    cases htest : test top with
    | true =>
      simp only [Control.branch, htest]
      exact yields_jump label
    | false =>
      simp only [Control.branch, htest]
      exact yields_pure _

theorem yields_ret :
    Yields (flowOp parts .ret) machine (machine.perform (.flow .ret)).outcome
      (machine.perform (.flow .ret)).state := by
  obtain ⟨program, ⟨pc, calls, labels⟩, stack, heap, input, output, fuel⟩ := machine
  refine yields_get.bind ?_
  cases calls with
  | nil => exact yields_throw _
  | cons target rest =>
    have hback : (processor ⟨program, ⟨pc, target :: rest, labels⟩, stack, heap, input, output, fuel⟩
        ).calls.back? = some target := by simp [Machine.processor]
    rw [hback]
    refine Yields.bind (yields_modify ?_) (yields_pure _)
    simp [Machine.processor, perform, FlowOp.run, Control.ret, Effect.within]

end FlowOperations

section IoOperations

variable {machine : Machine}

theorem yields_modify_output (output : Output) :
    Yields (modify ({ · with output := output })) machine (.ok ())
      { machine with output := output } := yields_modify rfl

theorem yields_modify_input (input : Input) :
    Yields (modify ({ · with input := input })) machine (.ok ()) { machine with input := input } :=
  yields_modify rfl

theorem yields_write (bytes : List UInt8) :
    Yields (Processor.write bytes) machine ((machine.output.write bytes).2.mapError .stream)
      { machine with output := (machine.output.write bytes).1 } :=
  yields_get.bind ((yields_modify_output _).bind (yields_ofExcept rfl))

theorem yields_flush :
    Yields Processor.flush machine (machine.output.flush.2.mapError .stream)
      { machine with output := machine.output.flush.1 } :=
  yields_get.bind ((yields_modify_output _).bind (yields_ofExcept rfl))

theorem completes_print (rest : Stack) (bytes : List UInt8) :
    Completes (Processor.print bytes) { machine with stack := rest }
      (machine.write rest bytes) := by
  have hwrite := @yields_write { machine with stack := rest } bytes
  unfold Machine.write Output.print
  simp only at hwrite
  generalize machine.output.write bytes = result at hwrite ⊢
  obtain ⟨written, outcome⟩ := result
  cases outcome with
  | error error => exact .failed hwrite.bind_error rfl
  | ok _ =>
    refine .after hwrite ?_
    have hflush := @yields_flush { machine with stack := rest, output := written }
    simp only at hflush ⊢
    generalize written.flush = result at hflush ⊢
    obtain ⟨flushed, outcome⟩ := result
    cases outcome with
    | error error => exact .failed hflush rfl
    | ok _ => exact .done hflush rfl

theorem completes_readTo {α : Type} (read : Input → Input × Except StreamError (Option α))
    (value : α → Except Fault Value) :
    Completes (Processor.readTo read value) machine (machine.readTo read value) := by
  obtain ⟨program, control, stack, heap, input, output, fuel⟩ := machine
  cases stack with
  | nil => exact .failed (yields_peek_empty rfl).bind_error rfl
  | cons address rest =>
    refine .after (yields_peek_top rfl) (.after yields_get (.after (yields_modify_input _) ?_))
    simp only [Machine.readTo, Machine.processor]
    cases (read input).2 with
    | error error => exact .failed (yields_throw _) rfl
    | ok found =>
      cases found with
      | none => exact .failed (yields_throw _) rfl
      | some found =>
        simp only
        cases value found with
        | error fault => exact .failed (yields_ofExcept rfl).bind_error rfl
        | ok value =>
          refine .after (yields_ofExcept rfl) (.after (yields_pop rfl) ?_)
          exact .done (yields_insert address value) rfl

theorem completes_ioOp {op : IoOp} : Completes (ioOp op) machine (machine.perform (.io op)) := by
  cases op with
  | writeChar =>
    obtain ⟨program, control, stack, heap, input, output, fuel⟩ := machine
    cases stack with
    | nil => exact .failed (yields_peek_empty rfl).bind_error rfl
    | cons top rest =>
      refine .after (yields_peek_top rfl) ?_
      simp only [perform, IoOp.run, Machine.writeChar]
      cases scalar? top with
      | none => exact .failed (yields_throw _) rfl
      | some c => exact .after (yields_pop rfl) (completes_print rest (Text.Utf8.encode c))
  | writeNumber =>
    obtain ⟨program, control, stack, heap, input, output, fuel⟩ := machine
    cases stack with
    | nil => exact .failed (yields_pop_underflow rfl).bind_error rfl
    | cons top rest =>
      exact .after (yields_pop rfl) (completes_print rest (Text.Utf8.encodeText top.text))
  | readChar => exact completes_readTo Input.readChar fun c => .ok (Int64.ofNat c.toNat)
  | readNumber => exact completes_readTo Input.readLine numberOfLine

end IoOperations

section Instructions

variable {machine : Machine}

theorem decode_of_operand? {instruction : Instruction} {literal : Literal}
    (h : instruction.operand? = some literal) :
    instruction.decode = literal.decode.map (instruction.withOperand ·) := by
  rcases instruction with op | op | op | op | op <;> cases op <;> cases h <;>
    simp only [Instruction.decode, Operation.traverse, StackOp.traverse, FlowOp.traverse] <;>
    cases literal.decode <;> rfl

theorem yields_execute_of_operand? {instruction : Instruction} {literal : Literal}
    (hoperand : instruction.operand? = some literal)
    (herror : ∀ fault, Yields (operand instruction.parts) machine (.error fault) machine →
      Yields (Processor.execute instruction.parts) machine (.error fault) machine)
    (hok : ∀ value, Yields (operand instruction.parts) machine (.ok value) machine →
      Yields (Processor.execute instruction.parts) machine
        (machine.perform (instruction.withOperand value)).outcome
        (machine.perform (instruction.withOperand value)).state) :
    Yields (Processor.execute instruction.parts) machine (machine.execute instruction).outcome
      (machine.execute instruction).state := by
  have hyields := @yields_operand machine instruction.parts literal hoperand
  unfold Machine.execute
  rw [decode_of_operand? hoperand]
  cases hdecode : literal.decode with
  | error error =>
    rw [hdecode] at hyields
    exact herror _ hyields
  | ok value =>
    rw [hdecode] at hyields
    exact hok value hyields

theorem yields_execute (instruction : Instruction) :
    Yields (Processor.execute instruction.parts) machine (machine.execute instruction).outcome
      (machine.execute instruction).state := by
  cases instruction with
  | stack op =>
    cases op with
    | push literal =>
      exact yields_execute_of_operand? rfl (fun _ h => h.bind_error.bind_error)
        fun _ h => (completes_push h).signal
    | duplicate => exact completes_duplicate.signal
    | copy literal =>
      exact yields_execute_of_operand? rfl (fun _ h => h.bind_error.bind_error)
        fun _ h => (completes_copy h).signal
    | swap => exact completes_swap.signal
    | discard => exact completes_discard.signal
    | slide literal =>
      exact yields_execute_of_operand? rfl (fun _ h => h.bind_error.bind_error)
        fun _ h => (completes_slide h).signal
  | arithmetic op => exact completes_arithmeticOp.signal
  | heap op => exact completes_heapOp.signal
  | flow op =>
    cases op with
    | mark literal =>
      refine yields_execute_of_operand? rfl (fun _ h => h.bind_error) fun _ h => h.bind ?_
      exact Yields.bind (yields_modify rfl) (yields_pure _)
    | call literal =>
      refine yields_execute_of_operand? rfl (fun _ h => h.bind_error) fun label h => h.bind ?_
      refine yields_transfer label (machine.control.pc :: machine.control.calls) .call ?_
      simp [Machine.processor]
    | jump literal =>
      exact yields_execute_of_operand? rfl (fun _ h => h.bind_error)
        fun label h => h.bind (yields_jump label)
    | jumpIfZero literal =>
      exact yields_execute_of_operand? rfl (fun _ h => h.bind_error) fun _ h => yields_branch h _
    | jumpIfNegative literal =>
      exact yields_execute_of_operand? rfl (fun _ h => h.bind_error) fun _ h => yields_branch h _
    | ret => exact @yields_ret machine (Instruction.parts (.flow .ret))
    | stop => exact yields_pure _
  | io op => exact completes_ioOp.signal

end Instructions

end Whitespace
