import Correlator.Engine.FaultRouting
import Correlator.Engine.Unwinding

/-!
# Delivering responses

A response claims its call and has one consequence: nothing more, a routed failure of the outbound
leg, or mediation of the reply. Mediation that fails is routed to the top handler of the reply.
Answers to inbound requests are written at most once for each guard.
-/

namespace Correlator

variable {σ : Type}

/-- How a response was dealt with. -/
inductive Delivery where
  | unmatched
  /-- An acknowledgement closed the call. -/
  | acknowledged
  /-- Suspended mediation went on, to its end or to a unit that halted. -/
  | resumed (drained : Bool)
  /-- The reply was mediated as a new flow. -/
  | started (handled : Bool)
  /-- The failure of the outbound leg was routed. -/
  | sendFailed (outcome : Disposition)
  /-- Mediation failed, and that was routed. -/
  | mediationFailed (outcome : Disposition)
  deriving DecidableEq, Inhabited

def Metrics.countResponse (m : Metrics) (outcome : Delivery) : Metrics :=
  let r := m.responses
  { m with
    responses := match outcome with
      | .unmatched => { r with unmatched := r.unmatched + 1 }
      | .acknowledged => { r with acknowledged := r.acknowledged + 1 }
      | .resumed _ => { r with resumed := r.resumed + 1 }
      | .started _ => { r with started := r.started + 1 }
      | .sendFailed _ => { r with sendFailed := r.sendFailed + 1 }
      | .mediationFailed _ => { r with mediationFailed := r.mediationFailed + 1 } }

def State.countResponse (s : State) (outcome : Delivery) : State :=
  { s with metrics := s.metrics.countResponse outcome }

/-- Mediates a reply: resumes its frames, or starts a new flow if it has none. The frames are those
that the request left on the message when it was sent. -/
def mediate (callbacks : Callbacks σ) (msg : Message) :
    Run σ (Message × Except ErrorChain Delivery) := do
  if msg.frames.isEmpty then
    let (msg, outcome) ← callbacks.startFlow msg
    return (msg, outcome.caught.map .started)
  else
    let (msg, outcome) ← resume callbacks msg
    return (msg, outcome.caught.map .resumed)

/-- Mediates the reply to a claimed call, and routes the failure of that. Such a failure is the
message's own, not one of the call: the top handler runs, whatever the expiry action says and
whichever member answered last. -/
def deliverReply (callbacks : Callbacks σ) (call : Call) (msg : Message) :
    Run σ Delivery := do
  match ← mediate callbacks msg with
  | (_, .ok outcome) => return outcome
  | (msg, .error e) =>
    Run.update (·.notify (.mediationFailed msg.id e))
    let cause := Fault.mediation e
    return .mediationFailed (← settleFault callbacks call cause (runHandler callbacks msg cause))

/-- Deals with a response to a claimed call. Each kind of content has one consequence; only the
failure of the outbound leg goes by the rules for calls (`routeFault`). -/
def deliver (callbacks : Callbacks σ) (call : Call) (response : Response) :
    Run σ Delivery := do
  match response.kind with
  | .acknowledged => return .acknowledged
  | .sendFailed cause =>
    Run.update (·.notify (.sendFailed call.id cause))
    return .sendFailed (← settleFault callbacks call cause
      (routeFault callbacks call.outbound cause call.expiry.action))
  | .reply envelope =>
    let id ← Run.apply State.freshMessageId
    deliverReply callbacks call (call.outbound.reply id envelope response.properties)

/-- Takes a response for the call `id`. The call is claimed and counted out before anything is done
with the response, so whatever its consequence asks of the engine finds the place free. -/
def respond (callbacks : Callbacks σ) (id : CallId) (response : Response) :
    Run σ Delivery := do
  match ← Run.apply (·.collect .response id) with
  | none =>
    Run.update fun s => (s.notify (.unmatchedResponse id)).countResponse .unmatched
    return .unmatched
  | some call =>
    Run.update State.release
    let outcome ← deliver callbacks call response
    Run.update (·.countResponse outcome)
    return outcome

/-- Marks a guard, and tells whether it was marked before. -/
def State.markGuard (s : State) (g : Guard) : Bool × State :=
  let (before, guards) := s.guards.mark g
  (before, { s with guards })

/-- Refuses to answer a request again. -/
def State.refuseAnswer (s : State) (g : Guard) (msg : Message) : State :=
  { s with
    metrics := { s.metrics with duplicateResponses := s.metrics.duplicateResponses + 1 }
    notices := .duplicateResponse g.requestId msg.id :: s.notices
    journal := .answerRefused msg :: s.journal }

/-- Writes an answer whose guard, if it has one, has been marked for it. -/
def writeAnswer (callbacks : Callbacks σ) (msg : Message) :
    Run σ (Except Panic (Except EngineError Unit)) := do
  match ← callbacks.writeBack msg with
  | .returned () => return .ok (.ok ())
  | .failed e => return .ok (.error (.transport e))
  | .panicked p => return .error p

/-- Answers an inbound request, unless its guard says that it was answered. A panic of the
transport goes through to the caller. -/
def answerRequest (callbacks : Callbacks σ) (msg : Message) :
    Run σ (Except Panic (Except EngineError Unit)) := do
  match msg.guard with
  | none => writeAnswer callbacks msg
  | some g =>
    -- Marked before the answer is written: a failed write is not tried again.
    if ← Run.apply (·.markGuard g) then
      Run.update (·.refuseAnswer g msg)
      return .ok (.error (.duplicateResponse g.requestId))
    else
      writeAnswer callbacks msg

end Correlator
