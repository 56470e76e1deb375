import Mathlib.Data.Set.List
import Whitespace.Proofs.Machine.Calls
import Whitespace.Proofs.Traps.Scanner
import Whitespace.Proofs.Traps.Simulation

/-!
No traps. Steps, runs and lookups on a processor are those of a machine, so what can be reached on arrays
is what a machine can become, and nothing asked of it there traps. Together with what is known of tapes
this covers everything from the source text on.
-/

namespace Whitespace

open Machine Processor

def Parts.Joined (parts : Parts) : Prop := join? parts.opcode parts.parameter = .ok parts

theorem Instruction.joined_parts (instruction : Instruction) : instruction.parts.Joined := by
  simp [Parts.Joined, Parts.join?, Instruction.parts, instruction.takesOperand_opcode]

theorem exists_program_of_joined {program : Array Parts} (h : ∀ parts ∈ program, parts.Joined) :
    ∃ instructions : Program, instructions.map Instruction.parts = program := by
  have hrange : program.toList ∈ Set.range (List.map Instruction.parts) := by
    rw [Set.range_list_map]
    intro parts hmem
    exact Parts.exists_instruction_of_join? (h parts (by simpa using hmem))
  obtain ⟨instructions, hinstructions⟩ := hrange
  exact ⟨instructions.toArray, by simp [hinstructions]⟩

def Machine.RuntimeError.failure (error : RuntimeError) : Failure :=
  ⟨error.index, error.instruction.parts, error.fault⟩

namespace Machine

theorem spend_processor (machine : Machine) :
    machine.processor.spend = .ok (machine.spend.map processor) := by
  have hfuel : machine.processor.fuel = machine.fuel := rfl
  unfold Processor.spend Machine.spend
  rw [hfuel]
  cases machine.fuel with
  | none => rfl
  | some fuel =>
    obtain ⟨limit, left⟩ := fuel
    cases left <;> rfl

/-- A step of a processor does not trap, and it is a step of the machine. -/
theorem step_processor (machine : Machine) :
    machine.processor.step =
      .ok (machine.step.outcome.mapError RuntimeError.failure, machine.step.machine.processor) := by
  have hprogram : machine.processor.program = machine.program.map Instruction.parts := rfl
  have hpc : machine.processor.pc = machine.pc := rfl
  unfold Processor.step Machine.step
  simp only [hprogram, hpc, Array.getElem?_map]
  cases machine.program[machine.pc]? with
  | none => rfl
  | some instruction =>
    simp only [Option.map_some, spend_processor]
    cases machine.spend with
    | error limit => rfl
    | ok fuelled =>
      have hready : { fuelled.processor with pc := fuelled.processor.pc + 1 } =
          fuelled.advance.processor := rfl
      have hexecute := @yields_execute fuelled.advance instruction
      unfold Yields at hexecute
      simp only [Except.map, bind, Except.bind, hready, hexecute]
      cases (fuelled.advance.execute instruction).outcome with
      | error fault => rfl
      | ok signal => cases signal <;> rfl

theorem runFor_processor (count : Nat) (machine : Machine) :
    machine.processor.runFor count =
      .ok ((runFor count machine).ending.map (·.mapError RuntimeError.failure),
        (runFor count machine).machine.processor) := by
  induction count generalizing machine with
  | zero => rfl
  | succ count ih =>
    rw [Processor.runFor, step_processor]
    cases houtcome : machine.step.outcome with
    | error error =>
      rw [runFor_succ_of_error houtcome]
      rfl
    | ok halt =>
      cases halt with
      | some halt =>
        rw [runFor_succ_of_halt houtcome]
        rfl
      | none =>
        rw [runFor_succ_of_next houtcome]
        exact ih machine.step.machine

end Machine

namespace Processor

/-- Whatever is asked of the processor, it does not trap but answers as the machine does, and is left
behind as the machine is. -/
structure Follows (processor : Processor) (machine : Machine) : Prop where
  step : processor.step =
    .ok (machine.step.outcome.mapError RuntimeError.failure, machine.step.machine.processor)
  runFor (count : Nat) : processor.runFor count =
    .ok ((Machine.runFor count machine).ending.map (·.mapError RuntimeError.failure),
      (Machine.runFor count machine).machine.processor)
  resolve (label : Value) : (resolve label).run.run processor =
    .ok ((machine.resolve label).2, (machine.resolve label).1.processor)

theorem follows_processor (machine : Machine) : machine.processor.Follows machine where
  step := step_processor machine
  runFor count := runFor_processor count machine
  resolve label := yields_resolve label

theorem Reaches.exists_calls {program : Program} {input : Input} {output : Output}
    {limit : Option Nat} {processor : Processor}
    (h : Reaches (start (program.map Instruction.parts) input output limit) processor) :
    ∃ log history machine,
      Calls (Machine.start program input output limit) log history machine ∧
        machine.processor = processor := by
  induction h with
  | refl => exact ⟨[], [], _, .nil, rfl⟩
  | step _ hstep ih =>
    obtain ⟨log, history, machine, hcalls, rfl⟩ := ih
    rw [machine.step_processor] at hstep
    cases hstep
    exact ⟨_, _, _, .snoc hcalls .step, rfl⟩
  | @execute _ _ count ending _ hrun ih =>
    obtain ⟨log, history, machine, hcalls, rfl⟩ := ih
    rw [runFor_processor] at hrun
    cases hending : (Machine.runFor count machine).ending with
    | none => simp [hending] at hrun
    | some ended =>
      simp only [Except.ok.injEq, Prod.mk.injEq] at hrun
      exact ⟨_, _, _, .snoc hcalls (.execute hending), hrun.2⟩
  | @resolve _ _ label _ _ hresolve ih =>
    obtain ⟨log, history, machine, hcalls, rfl⟩ := ih
    rw [@yields_resolve machine label] at hresolve
    cases hresolve
    exact ⟨_, _, _, .snoc hcalls (.resolve label), rfl⟩

/-- Neither reading a text nor running a program that was put together ever traps, whatever the input,
the output and the bound on steps are and whatever was asked of the processor before.

A text is read to the same program or the same error from a tape as from a list, the program read is one
that was put together, and wherever on the tape an instruction is read, at least one glyph is. A processor
is always what calls make of the machine on lists, and follows that machine. -/
theorem never_traps :
    (∀ source : String,
      (Tape.ofSource source).instructions #[] 0 =
          .ok ((Program.ofSource source).map (·.map Instruction.parts)) ∧
        (∀ program, (Tape.ofSource source).instructions #[] 0 = .ok (.ok program) →
          ∀ parts ∈ program, parts.Joined) ∧
        ∀ index position : Nat, position < (Tape.ofSource source).glyphs.size →
          ∃ result, (Tape.ofSource source).instruction index position = .ok result ∧
            ∀ parts next, result = .ok (parts, next) →
              position < next ∧ next ≤ (Tape.ofSource source).glyphs.size) ∧
      ∀ (program : Array Parts) (input : Input) (output : Output) (limit : Option Nat),
        (∀ parts ∈ program, parts.Joined) →
          ∀ processor, Reaches (start program input output limit) processor →
            ∃ instructions log history machine,
              program = Array.map Instruction.parts instructions ∧
                Calls (Machine.start instructions input output limit) log history machine ∧
                processor = machine.processor ∧ processor.Follows machine := by
  constructor
  · intro source
    have hread := Tape.instructions_ofSource source
    refine ⟨hread, ?_, ?_⟩
    · intro program hprogram parts hmem
      rw [hread] at hprogram
      cases hsource : Program.ofSource source with
      | error error => simp [hsource, Except.map] at hprogram
      | ok instructions =>
        simp only [hsource, Except.map, Except.ok.injEq] at hprogram
        subst hprogram
        obtain ⟨instruction, _, rfl⟩ := Array.mem_map.mp hmem
        exact instruction.joined_parts
    · intro index position hlt
      have hholds : (Tape.ofSource source).Holds position _ := ⟨Nat.le_of_lt hlt, rfl⟩
      refine ⟨_, Tape.instruction_eq hholds index, ?_⟩
      intro parts next hresult
      apply Tape.lt_of_instruction hholds
      rw [Tape.instruction_eq hholds index, hresult]
  · intro program input output limit hprogram processor hreaches
    obtain ⟨instructions, rfl⟩ := exists_program_of_joined hprogram
    obtain ⟨log, history, machine, hcalls, rfl⟩ := hreaches.exists_calls
    exact ⟨instructions, log, history, machine, rfl, hcalls, rfl, follows_processor machine⟩

theorem never_traps_push_and_write :
    let tape := Tape.ofSource "   \t\n\t\n \t"
    let program : Array Parts :=
      #[⟨.stack (.push ()), some ⟨false, [true]⟩⟩, ⟨.io .writeNumber, none⟩]
    let first := start program { remaining := [] } {} (some 1)
    let second := { first with pc := 1, stack := #[1], fuel := some ⟨1, 0⟩ }
    tape.instructions #[] 0 = .ok (.ok program) ∧ (∀ parts ∈ program, parts.Joined) ∧
      (5 < tape.glyphs.size ∧ ∃ result, tape.instruction 1 5 = .ok result) ∧
      Reaches first second ∧ ∃ answer, second.step = .ok answer := by
  intro tape program first second
  have hsource : Program.ofSource "   \t\n\t\n \t" =
      .ok #[.stack (.push ⟨false, [true]⟩), .io .writeNumber] :=
    Program.ofSource_eq_ok_iff.mpr (by decide)
  have hread : tape.instructions #[] 0 = .ok (.ok program) := by
    rw [Tape.instructions_ofSource, hsource]
    simp only [Except.map, List.map_toArray]
    rfl
  have hjoined := (never_traps.1 "   \t\n\t\n \t").2.1 program hread
  have hlt : 5 < tape.glyphs.size := by
    rw [← (Tape.holds_ofSource _).add_length]
    decide
  have hstep : first.step = .ok (.ok none, second) := rfl
  have hreaches : Reaches first second := .step .refl hstep
  obtain ⟨result, hresult, _⟩ := (never_traps.1 "   \t\n\t\n \t").2.2 1 5 hlt
  obtain ⟨_, _, _, _, _, _, _, hfollows⟩ := never_traps.2 program _ _ _ hjoined second hreaches
  exact ⟨hread, hjoined, ⟨hlt, result, hresult⟩, hreaches, _, hfollows.step⟩

-- An instruction that was not put together traps where its operand is asked for.
example : (start #[⟨.stack (.push ()), none⟩] { remaining := [] } {} none).step = .error .operand := rfl

end Processor

end Whitespace
