import Correlator.Instant

/-!
# Expiry of calls

When a call expires, and what happens then.
-/

namespace Correlator

/-- What an expired call does: nothing, or clear its fault handlers unrun, or run one. -/
inductive ExpiryAction where
  | drop
  | discard
  | fault
  deriving DecidableEq, Inhabited

def ExpiryAction.name : ExpiryAction → String
  | .drop => "None"
  | .discard => "Discard"
  | .fault => "Fault"

def ExpiryAction.ofName? : String → Option ExpiryAction
  | "None" => some .drop
  | "Discard" => some .discard
  | "Fault" => some .fault
  | _ => none

/-- Where the timeout comes from: the call itself, or the engine's default. -/
inductive ExpiryTerm where
  | perCall (timeout : Millis)
  | engineDefault
  deriving DecidableEq, Inhabited

/-- How a call expires. Without further word it has the default timeout and runs a fault handler. -/
structure Expiry where
  action : ExpiryAction := .fault
  term : ExpiryTerm := .engineDefault
  deriving DecidableEq, Inhabited

/-- The instant at which a call registered at `now` is due. -/
def Expiry.deadline (p : Expiry) (now defaultTimeout : Millis) : Millis :=
  match p.term with
  | .perCall timeout => now.after timeout
  | .engineDefault => now.after defaultTimeout

end Correlator
