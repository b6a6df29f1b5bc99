import Correlator.Engine.FaultRouting

/-!
# Sweeps

A sweep lists the calls that are due and then claims them one by one, so that what a response
claimed in between is passed over. Only one sweep is in progress at a time; another one that is
started meanwhile does nothing.
-/

namespace Correlator

variable {σ : Type}

/-- What a sweep did. A sweep that found another one in progress is `skipped` and counts nothing.
Each of the `expired` calls is counted once more by what became of it: its action was to do
nothing, or its fault was discarded, or the handler ran, failed or was missing. -/
structure SweepSummary where
  skipped : Bool := false
  expired : Nat := 0
  handled : Nat := 0
  discarded : Nat := 0
  dropped : Nat := 0
  handlersFailed : Nat := 0
  undeliverable : Nat := 0
  /-- Ids that were listed as due and under which nothing waited any more when their turn came. -/
  overtaken : Nat := 0
  bindingsDropped : Nat := 0
  deriving DecidableEq, Inhabited

def SweepSummary.count (r : SweepSummary) : Disposition → SweepSummary
  | .handled _ => { r with handled := r.handled + 1 }
  | .handlerFailed .. => { r with handlersFailed := r.handlersFailed + 1 }
  | .discarded => { r with discarded := r.discarded + 1 }
  | .undeliverable => { r with undeliverable := r.undeliverable + 1 }

/-- Counts an expired call and frees its place. This comes before its action, so a handler finds
the call neither pending nor in flight. -/
def State.expireCall (s : State) : State :=
  { s with metrics := { s.metrics with timeouts := s.metrics.timeouts + 1 } }.release

/-- The outbound message of an expired call, with an empty fault for an envelope. -/
def Call.timedOut (c : Call) : Message :=
  { c.outbound with envelope := .blankFault c.outbound.protocol }

/-- Deals with a call that the sweep claimed, as its action says. Under any action but `drop` the
expiry is reported and its fault is routed; whether that runs a handler is for `routeFault` to say.
-/
def settleExpired (callbacks : Callbacks σ) (report : SweepSummary) (call : Call) :
    Run σ SweepSummary := do
  Run.update State.expireCall
  match call.expiry.action with
  | .drop => return { report with dropped := report.dropped + 1 }
  | action =>
    Run.update (·.notify (.timedOut call.id action call.deadline))
    let cause := Fault.timeout call.deadline
    return report.count (← settleFault callbacks call cause
      (routeFault callbacks call.timedOut cause action))

def State.claimExpired (s : State) (now : Millis) (place : Nat) (id : CallId) :
    Option Call × State :=
  match s.claim (.sweep now place) id with
  | (none, s) => (none, s)
  | (some call, s) => (some call, { s with registry := s.registry.countExpired })

/-- Deals with one of the ids that the sweep listed. Since handlers of earlier ones have run
meanwhile, the id may be free, or may stand for another call than the one that was listed. -/
def sweepOne (callbacks : Callbacks σ) (now : Millis) (place : Nat) (report : SweepSummary)
    (id : CallId) : Run σ SweepSummary := do
  match ← Run.apply (·.claimExpired now place id) with
  | none => return { report with overtaken := report.overtaken + 1 }
  | some call => settleExpired callbacks { report with expired := report.expired + 1 } call

/-- Expires the calls that are due at `now`, and drops the bindings that are over. The flag
`sweeping` keeps another sweep away that a handler asks for; the list of what is due is made once,
and the ids on it are claimed one by one. -/
def sweepAsOf (callbacks : Callbacks σ) (now : Millis) : Run σ SweepSummary := do
  let s ← Run.read
  if s.sweeping then
    return { skipped := true }
  else
    Run.update fun s => { s with sweeping := true }.note (.listed now s.moment)
    let place := (← Run.read).place
    -- The list is made before the first claim: what becomes due meanwhile is left to the next
    -- sweep.
    let due := callbacks.arrangement.arrange s.registry (s.registry.overdue now)
    let report ← due.foldlM (sweepOne callbacks now place) {}
    let purged ← Run.apply (·.purgeBindings now)
    Run.update ({ · with sweeping := false })
    return { report with bindingsDropped := purged }

/-- Sweeps at the clock's time. It panics only if the clock does. -/
def sweep (callbacks : Callbacks σ) : Run σ (Except Panic SweepSummary) := do
  match (← Run.read).clock.read with
  | .error p => return .error p
  | .ok now => return .ok (← sweepAsOf callbacks now)

def purgeBindingsNow : Run σ (Except Panic Nat) := do
  match (← Run.read).clock.read with
  | .error p => return .error p
  | .ok now => return .ok (← Run.apply (·.purgeBindings now))

end Correlator
