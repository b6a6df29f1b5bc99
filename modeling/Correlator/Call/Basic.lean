import Correlator.Call.Expiry
import Correlator.Message

/-!
# Pending calls

A pending call holds the outbound message until somebody claims it. Its completion moves from
pending to marked once.
-/

namespace Correlator

/-- Whether a call still waits, or somebody has marked it as theirs. -/
inductive Completion where
  | pending
  | marked
  deriving DecidableEq, Inhabited

/-- An outbound message waiting for its response. -/
structure Call where
  id : CallId
  outbound : Message
  expiry : Expiry := {}
  registeredAt : Millis
  deadline : Millis
  completion : Completion := .pending
  deriving Inhabited

namespace Call

/-- Marks the call, and tells whether this was the one transition there is. It is what makes a
claim exclusive, even for a call that was taken out of the registry. -/
def mark (c : Call) : Bool × Call :=
  match c.completion with
  | .pending => (true, { c with completion := .marked })
  | .marked => (false, c)

/-- A call is expired from its deadline on. -/
def isDue (c : Call) (now : Millis) : Bool := c.deadline ≤ now

end Call

structure Receipt where
  id : CallId
  deadline : Millis
  deriving DecidableEq, Inhabited

end Correlator
