import Whitespace.CommandLine.Job
import Whitespace.Proofs.Machine.Fuel
import Whitespace.Proofs.Tracing.Transparency

/-!
Commands that run a program. What such a command writes to standard output and how it exits is settled
by the program, its input and its fuel (`Concludes`); a trace only comes before what standard error holds
anyway, and it is what a tracer has written that was handed first to the reader and then to the machine
(`Tells`). A job keeps its trace in a log, and a log is a tracer.
-/

namespace Whitespace

open Machine

namespace Trace

end Trace

namespace CommandLine

instance : Tracer Log := ⟨fun log event => log.tell [event]⟩

namespace Log

end Log

def Job.Finishes (job : Job) (report : Report) : Prop :=
  ∃ count, job.advance count = .finished report

def failure? : Except RuntimeError Halt → Option String
  | .ok _ => none
  | .error error => some error.message

def Report.ofRun (told : String) (stdout : Array UInt8) : Option String → Report
  | none => ⟨0, stdout, told⟩
  | some message => ⟨1, stdout, told ++ Report.diagnostic message⟩

/-- What becomes of a tracer that is handed to the reader and then, if there is a run, to the machine. -/
def Tells {τ : Type} [Tracer τ] (environment : Environment) (options : RunOptions)
    (tracer told : τ) : Prop :=
  match options.origin.source environment with
  | .error _ => told = tracer
  | .ok source =>
    let reading := (Traced.read source).run tracer
    match reading.1, Job.openInput environment options with
    | .ok program, .ok input =>
      ∃ answer after,
        Traced.Performs (.start program input {} options.fuel) reading.2 .execute answer after told
    | _, _ => told = reading.2

section Jobs

variable {environment : Environment} {options : RunOptions} {report : Report}

theorem finishes_finished_iff {found : Report} :
    (Job.finished found).Finishes report ↔ report = found := by
  constructor
  · rintro ⟨count, h⟩
    cases h
    rfl
  · rintro rfl
    exact ⟨0, rfl⟩

theorem finishes_running_iff {session : Session} :
    (Job.running session).Finishes report ↔
      ∃ count ending, (runFor count session.machine).ending = some ending ∧
        report = .ofRun (session.log.tell (runFor count session.machine).events).text
          (runFor count session.machine).machine.output.written (failure? ending) := by
  apply exists_congr
  intro count
  simp only [Job.advance, Session.advance]
  cases (runFor count session.machine).ending with
  | none => simp
  | some ending => cases ending <;> simp [Report.ofRun, failure?, Report.failure, eq_comm]

theorem Job.Finishes.unique {job : Job} {found : Report} (hreport : job.Finishes report)
    (hfound : job.Finishes found) : report = found := by
  cases job with
  | finished _ =>
    rw [finishes_finished_iff] at hreport hfound
    exact hreport.trans hfound.symm
  | running session =>
    obtain ⟨first, ending, hfirst, rfl⟩ := finishes_running_iff.mp hreport
    obtain ⟨second, other, hsecond, rfl⟩ := finishes_running_iff.mp hfound
    have hrun := runFor_eq_of_ending hfirst hsecond
    rw [hrun, hsecond] at hfirst
    cases hfirst
    rw [hrun]

theorem load_of_source {source : String} (h : options.origin.source environment = .ok source) :
    options.origin.load environment =
      match Program.ofSource source with
      | .ok program => .ok program
      | .error error => .error (.source error) := by
  rw [Origin.load_of_source h]
  cases Program.ofSource source <;> rfl

end Jobs

end CommandLine

end Whitespace
