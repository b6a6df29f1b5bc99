import Correlator.Admission
import Correlator.Call.Expiry
import Correlator.Error

/-!
# Notices

What an engine reports to its operators: warnings and errors, each with a headline and named values,
which are listed in the order of their names. Where a headline words an error of an operation it
takes the wording from there (`EngineError.message`), so the two cannot drift apart.
-/

namespace Correlator

inductive Notice where
  | duplicateRegistration (id : CallId)
  | admissionOverflow (key : String) (inFlight limit : UInt32)
  | unmatchedRelease (key : String)
  | dispatchFailed (id : CallId) (error : ErrorChain)
  | unmatchedResponse (id : CallId)
  | sendFailed (id : CallId) (cause : Fault)
  | mediationFailed (messageId : String) (error : ErrorChain)
  | noHandler (messageId traceId : String) (cause : Fault)
  | handlerFailed (messageId : String) (handler : Handler) (error : ErrorChain)
  | timedOut (id : CallId) (action : ExpiryAction) (deadline : Millis)
  | duplicateResponse (requestId messageId : String)
  deriving DecidableEq, Inhabited

namespace Notice

inductive Level where
  | warn
  | error
  deriving DecidableEq, Inhabited

def Level.word : Level → String
  | .warn => "WARN"
  | .error => "ERROR"

def level : Notice → Level
  | .duplicateRegistration .. | .mediationFailed .. | .noHandler .. | .handlerFailed .. => .error
  | .admissionOverflow .. | .unmatchedRelease .. | .dispatchFailed .. | .unmatchedResponse ..
  | .sendFailed .. | .timedOut .. | .duplicateResponse .. => .warn

def headline : Notice → String
  | .duplicateRegistration _ => "duplicate correlation id on register"
  | .admissionOverflow .. => "admission limit exceeded; admitting anyway"
  | .unmatchedRelease _ => "admission release without matching acquire"
  | .dispatchFailed .. => "outbound dispatch failed"
  | .unmatchedResponse id =>
    (EngineError.unmatched id).message ++ "; dropping late or unknown response"
  | .sendFailed .. => "sending fault"
  | .mediationFailed .. => "response mediation failed"
  | .noHandler messageId .. =>
    (EngineError.noHandler messageId).message ++ "; dropping message"
  | .handlerFailed .. => "fault handler failed"
  | .timedOut id .. => (EngineError.timeout id).message
  | .duplicateResponse .. => "response already sent; suppressing duplicate"

def values : Notice → List (String × String)
  | .duplicateRegistration id => [("correlation_id", id.text)]
  | .admissionOverflow key inFlight limit =>
    [("in_flight", toString inFlight.toNat), ("key", key), ("limit", toString limit.toNat)]
  | .unmatchedRelease key => [("key", key)]
  | .dispatchFailed id e => [("correlation_id", id.text), ("error", e.message)]
  | .unmatchedResponse _ => []
  | .sendFailed id cause =>
    [("correlation_id", id.text), ("error_code", toString cause.code.toInt),
      ("error_message", cause.message)]
  | .mediationFailed messageId e => [("error", e.message), ("message_id", messageId)]
  | .noHandler _ traceId cause =>
    [("error_code", toString cause.code.toInt), ("error_message", cause.message),
      ("trace_id", traceId)]
  | .handlerFailed messageId handler e =>
    [("error", e.message), ("handler", handler.name), ("message_id", messageId)]
  | .timedOut _ action deadline =>
    [("action", action.name), ("deadline_ms", toString deadline.toNat)]
  | .duplicateResponse requestId messageId =>
    [("message_id", messageId), ("request_id", requestId)]

/-- The line of a notice: level, headline, and the values with their names. -/
def render (n : Notice) : String :=
  " ".intercalate (n.level.word :: n.headline :: n.values.map fun (name, value) =>
    name ++ "=" ++ value)

end Notice

end Correlator
