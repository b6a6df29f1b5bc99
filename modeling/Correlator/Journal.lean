import Correlator.Admission
import Correlator.Call.Registry
import Correlator.Fault.Basic

/-!
# The journal

An engine notes what happens to its calls, what is asked of it and when its collaborators are
called. The journal is only written: no operation goes by it, so it says what happened without
taking part in it. Callbacks carry the level at which they were made; work that a callback asks for
is one level lower.
-/

namespace Correlator

/-- What became of one fault. -/
inductive Disposition where
  | handled (handler : Handler)
  /-- The handler failed; it is not run again. -/
  | handlerFailed (handler : Handler) (error : String)
  /-- A timeout that clears the handlers. -/
  | discarded
  /-- No handler was left. -/
  | undeliverable
  deriving DecidableEq, Inhabited

/-- What is pending and in flight at some moment. Entries that mark the beginning and the end of
something carry one, so that what holds in between can be said of the journal alone. -/
structure Moment where
  registry : Registry
  admission : Admission
  deriving Inhabited

/-- Who took a call out of the registry. A `place` is how long the journal was by then. -/
inductive Claimer where
  | response
  /-- A sweep at an instant, that had listed the calls that were due at the place. -/
  | sweep (now : Millis) (place : Nat)
  /-- The clean-up after a failed send, by the dispatch that registered its call at the place. -/
  | failedSend (place : Nat)
  /-- Somebody who asked the registry itself. -/
  | direct
  deriving DecidableEq, Inhabited

/-- A call to a collaborator. -/
inductive Callback where
  | transmit (wire : Message)
  | writeBack (answer : Message)
  | startFlow (msg : Message)
  | continueFlow (frame : Frame) (msg : Message)
  | compensate (handler : Handler) (cause : Fault) (msg : Message)
  deriving Inhabited

def Callback.message : Callback → Message
  | .transmit m | .writeBack m | .startFlow m | .continueFlow _ m | .compensate _ _ m => m

inductive Entry where
  | registered (call : Call)
  | claimed (claimer : Claimer) (call : Call)
  /-- A sweep at an instant listed the calls that were due. -/
  | listed (now : Millis) (moment : Moment)
  /-- Peers were told about admission. -/
  | published (state : Occupancy)
  /-- The fault of a call is about to be dealt with. -/
  | routing (level : Nat) (call : Call) (cause : Fault)
  /-- The fault of a call has been dealt with, and left the message so. -/
  | routed (level : Nat) (call : Call) (cause : Fault) (msg : Message)
      (outcome : Disposition)
  /-- An answer was kept back, because its request had been answered. -/
  | answerRefused (msg : Message)
  /-- Somebody asked for an operation, whose callbacks are made at this level. -/
  | asked (level : Nat) (moment : Moment)
  | answered (level : Nat) (moment : Moment)
  | entered (level : Nat) (callback : Callback) (moment : Moment)
  | left (level : Nat) (callback : Callback) (moment : Moment)
  deriving Inhabited

/-- What happened, the latest first. -/
abbrev Journal := List Entry

/-- The states told to peers, the latest first. -/
def Journal.publications (j : Journal) : List Occupancy :=
  j.filterMap fun
    | .published state => some state
    | _ => none

end Correlator
