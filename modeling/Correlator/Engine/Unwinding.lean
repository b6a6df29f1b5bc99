import Correlator.Engine.Callbacks

/-!
# Resuming suspended mediation

The frames of a message are run from the innermost outwards, until one of them halts or fails or
none is left. A frame is off the stack before it runs, and stays off whatever becomes of it. Units
may suspend further frames while they run; these are run next.
-/

namespace Correlator

variable {σ : Type}

/-- Runs at most `rounds` frames of a message, on the number of rounds. The answer is whether the
stack was drained, or how the last unit failed. A unit may push frames without end; the bound then
cuts the resumption off as if a unit had panicked. -/
def resumeWithin (callbacks : Callbacks σ) : Nat → Message → Run σ (Message × Outcome Bool)
  | rounds, msg => do
    match msg.frames.pop? with
    | none => return (msg, .returned true)
    | some (frame, below) =>
      match rounds with
      | 0 => return (msg, .panicked .exhausted)
      | rounds + 1 =>
        let (msg, outcome) ← callbacks.continueFlow frame { msg with frames := below }
        match outcome with
        | .returned .proceed => resumeWithin callbacks rounds msg
        | .returned .halt => return (msg, .returned false)
        | .failed e => return (msg, .failed e)
        | .panicked p => return (msg, .panicked p)

/-- Runs the frames of a message, as many as the callbacks allow. -/
def resume (callbacks : Callbacks σ) (msg : Message) : Run σ (Message × Outcome Bool) :=
  resumeWithin callbacks callbacks.rounds msg

end Correlator
