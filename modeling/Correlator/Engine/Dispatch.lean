import Correlator.Engine.FaultRouting

/-!
# Dispatching calls

A call is counted and registered before the transport sees its message, so a response cannot come
too early. When the send fails the call is claimed back, unless a response or a sweep has it
already.
-/

namespace Correlator

variable {σ : Type}

/-- The call that dispatching a message registers. -/
def Message.toCall (m : Message) (expiry : Expiry) (now deadline : Millis) :
    Call where
  id := m.callId
  outbound := m.withCorrelation
  expiry
  registeredAt := now
  deadline

/-- Counts a call in and registers it. Admission comes first, because what is registered must be in
flight; a call that cannot be registered is counted out again, so that nothing is left of it. -/
def State.enroll (s : State) (call : Call) : Except EngineError Receipt × State :=
  let (_, s) := s.acquire
  match s.register call with
  | (.error e, s) => (.error e, s.release)
  | (.ok handle, s) =>
    (.ok handle,
      { s with metrics := { s.metrics with callsRegistered := s.metrics.callsRegistered + 1 } })

/-- Cleans up after the send of a call failed that was registered at the place: whatever call waits
under its id is claimed, and the failure is routed to it. -/
def abandon (callbacks : Callbacks σ) (place : Nat) (id : CallId) (cause : Fault) :
    Run σ Unit := do
  match ← Run.apply (·.claim (.failedSend place) id) with
  | none => return ()
  | some call =>
    Run.update State.release
    let _ ← settleFault callbacks call cause
      (routeFault callbacks call.outbound cause call.expiry.action)

/-- Registers a message and hands it to the transport. It panics only if the clock does. A failed
send is answered with an error either way; what was done about the call is in `abandon`. -/
def dispatch (callbacks : Callbacks σ) (msg : Message) (expiry : Expiry) :
    Run σ (Except Panic (Except EngineError Receipt)) := do
  let s ← Run.read
  if !s.acceptsCalls then
    return .ok (.error .notRunning)
  else
    match s.clock.read with
    | .error p => return .error p
    | .ok now =>
      let call := msg.toCall expiry now (expiry.deadline now s.config.defaultTimeout)
      match ← Run.apply (·.enroll call) with
      | .error e => return .ok (.error e)
      | .ok handle =>
        let place := (← Run.read).place
        -- From here on anybody may have claimed the call, and its id may have been given away
        -- again.
        match (← callbacks.transmit call.outbound).caught with
        | .ok () => return .ok (.ok handle)
        | .error e =>
          let cause := Fault.failedSend e
          Run.update (·.notify (.dispatchFailed call.id e))
          abandon callbacks place call.id cause
          return .ok (.error (.sendFailed cause))

end Correlator
