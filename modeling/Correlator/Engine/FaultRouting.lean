import Correlator.Engine.Callbacks

/-!
# Routing faults

A fault consults one handler: it is taken off the stack, run once, and not run again if it fails.
A fault without handler ends the message. The failure of a call has two rules more: a timeout under
the discard action clears the handlers unrun, and the handler of the group member that last
succeeded is passed over.
-/

namespace Correlator

variable {σ : Type}

def Metrics.countFault (m : Metrics) (outcome : Disposition) : Metrics :=
  { m with
    faultCounts := match outcome with
      | .handled _ => { m.faultCounts with handled := m.faultCounts.handled + 1 }
      | .handlerFailed .. => { m.faultCounts with handlerFailed := m.faultCounts.handlerFailed + 1 }
      | .discarded => { m.faultCounts with discarded := m.faultCounts.discarded + 1 }
      | .undeliverable => { m.faultCounts with undeliverable := m.faultCounts.undeliverable + 1 } }

def State.countFault (s : State) (outcome : Disposition) : State :=
  { s with metrics := s.metrics.countFault outcome }

/-- Records the cause on the message and runs the handler on top, which has been taken off by then:
a handler that fails is not run again, and one that meets a fault of its own finds only those below
it. -/
def runHandler (callbacks : Callbacks σ) (msg : Message) (cause : Fault) :
    Run σ (Message × Disposition) := do
  let msg := { msg with fault := some cause }
  match msg.handlers.pop? with
  | none =>
    Run.update fun s =>
      (s.countFault .undeliverable).notify (.noHandler msg.id msg.traceId cause)
    return (msg, .undeliverable)
  | some (handler, below) =>
    let (msg, outcome) ← callbacks.compensate handler cause { msg with handlers := below }
    match outcome.caught with
    | .ok () =>
      Run.update (·.countFault (.handled handler))
      return (msg, .handled handler)
    | .error e =>
      let outcome := .handlerFailed handler e.message
      Run.update fun s => (s.countFault outcome).notify (.handlerFailed msg.id handler e)
      return (msg, outcome)

/-- Routes the failure of a call with the given action. This is where the two rules for calls are
applied, the timeout under `discard` first: it consults no handler, so nothing is skipped either.
-/
def routeFault (callbacks : Callbacks σ) (msg : Message) (cause : Fault)
    (action : ExpiryAction) : Run σ (Message × Disposition) := do
  if cause.isTimeout ∧ action = .discard then
    Run.update (·.countFault .discarded)
    return ({ msg with handlers := .empty, fault := some cause }, .discarded)
  else
    runHandler callbacks { msg with handlers := msg.handlers.skipMember msg.lastMember } cause

/-- Deals with a fault of a claimed call. The journal notes the fault before it is dealt with and
the outcome with the message as it was left, so both can be told from what happens in between. -/
def settleFault (callbacks : Callbacks σ) (call : Call) (cause : Fault)
    (route : Run σ (Message × Disposition)) : Run σ Disposition := do
  Run.update (·.note (.routing callbacks.level call cause))
  let (msg, outcome) ← route
  Run.update (·.note (.routed callbacks.level call cause msg outcome))
  return outcome

end Correlator
