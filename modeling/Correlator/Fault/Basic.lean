import Correlator.Failure

/-!
# Faults

A fault says why a call failed. It travels on the message to the handler that runs.
-/

namespace Correlator

/-- The class of a failure: the call expired, its outbound leg failed, or mediating its reply
did. -/
inductive FaultKind where
  | timeout
  | sending
  | mediation
  deriving DecidableEq, Inhabited

/-! ## Numbers of faults

The codes that fault handlers tell failures apart by. Those of the transport share one block; a
reply that arrived and could not be mediated has no code of its own and is given zero. -/

namespace FaultCode

def sendingFailure : Int32 := 101500

def receiveFailure : Int32 := 101501

def connectionFailed : Int32 := 101503

def callbackTimeout : Int32 := 101504

def connectionClosed : Int32 := 101505

def protocolViolation : Int32 := 101506

def connectTimeout : Int32 := 101508

def mediationFailure : Int32 := 0

def ofName? : String → Option Int32
  | "SENDING_FAILURE" => some sendingFailure
  | "RECEIVE_FAILURE" => some receiveFailure
  | "CONNECTION_FAILED" => some connectionFailed
  | "CALLBACK_TIMEOUT" => some callbackTimeout
  | "CONNECTION_CLOSED" => some connectionClosed
  | "PROTOCOL_VIOLATION" => some protocolViolation
  | "CONNECT_TIMEOUT" => some connectTimeout
  | "MEDIATION_FAILURE" => some mediationFailure
  | _ => none

end FaultCode

structure Fault where
  kind : FaultKind
  code : Int32
  message : String
  detail : Option String := none
  deriving DecidableEq, Inhabited

namespace Fault

/-- The expiry of a call that was due at `deadline`. It names the deadline and not the time of the
sweep that found it, so it does not depend on how late the sweep came. -/
def timeout (deadline : UInt64) : Fault where
  kind := .timeout
  code := FaultCode.callbackTimeout
  message := "Send timeout"
  detail := some ("no response before deadline " ++ toString deadline.toNat)

/-- A failure of the outbound leg, reported with a code. -/
def sending (code : Int32) (message : String) : Fault where
  kind := .sending
  code
  message

/-- An error met while mediating a reply: the message is its outermost context, and the detail
keeps the whole chain. -/
def mediation (e : ErrorChain) : Fault where
  kind := .mediation
  code := FaultCode.mediationFailure
  message := e.message
  detail := some e.detail

/-- The failed send of an outbound message. -/
def failedSend (e : ErrorChain) : Fault :=
  { sending FaultCode.sendingFailure e.message with detail := some e.detail }

/-- Timeouts are those found by a sweep and those reported with the timeout code. A transport may
report the expiry of its own timer as a failed send; it is treated as an expiry all the same. -/
def isTimeout (cause : Fault) : Bool :=
  cause.kind = .timeout || cause.code = FaultCode.callbackTimeout

end Fault

end Correlator
