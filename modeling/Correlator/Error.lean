import Correlator.Message

/-!
# Errors of engine operations

Dispatching and answering report these to the caller; responses and sweeps report through their
outcomes and notices instead.
-/

namespace Correlator

/-- Why an operation was refused or failed, or what a notice is about. Not every error is returned
by an operation: an expiry, an unmatched response and a fault without handler are met where nobody
waits for an answer, so they are worded in a notice instead. -/
inductive EngineError where
  /-- A call with the id is pending already. -/
  | duplicateId (id : CallId)
  /-- A response came for an id that is not pending. -/
  | unmatched (id : CallId)
  /-- The outbound leg failed. -/
  | sendFailed (cause : Fault)
  | timeout (id : CallId)
  | noHandler (messageId : String)
  | duplicateResponse (requestId : String)
  /-- The engine takes no calls. -/
  | notRunning
  /-- The transport failed to write a response. -/
  | transport (error : ErrorChain)
  deriving DecidableEq, Inhabited

def EngineError.message : EngineError → String
  | .duplicateId id => "duplicate correlation id: " ++ id.text
  | .unmatched id => "no pending call for correlation id " ++ id.text
  | .sendFailed cause => "sending fault " ++ toString cause.code.toInt ++ ": " ++ cause.message
  | .timeout id => "call " ++ id.text ++ " timed out"
  | .noHandler messageId => "no fault handler for message " ++ messageId
  | .duplicateResponse requestId => "response already sent for request " ++ requestId
  | .notRunning => "engine is not accepting dispatches"
  | .transport e => "transport error: " ++ e.message

/-- Why the sweeper took no task. -/
inductive WorkerError where
  | notRunning
  | closed
  deriving DecidableEq, Inhabited

def WorkerError.message : WorkerError → String
  | .notRunning => "sweeper not running"
  | .closed => "sweeper channel closed"

end Correlator
