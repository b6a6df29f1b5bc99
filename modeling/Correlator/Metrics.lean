/-!
# Metrics

Counters only grow, so a counter has been touched exactly if it is not zero. Gauges are absent
until they are first set.
-/

namespace Correlator

/-- How often a fault was dealt with in each way. -/
structure FaultCounters where
  handled : UInt64 := 0
  handlerFailed : UInt64 := 0
  discarded : UInt64 := 0
  undeliverable : UInt64 := 0
  deriving DecidableEq, Inhabited

/-- How often a response was dealt with in each way. -/
structure ResponseCounters where
  unmatched : UInt64 := 0
  acknowledged : UInt64 := 0
  resumed : UInt64 := 0
  started : UInt64 := 0
  sendFailed : UInt64 := 0
  mediationFailed : UInt64 := 0
  deriving DecidableEq, Inhabited

/-- The counters and gauges of an engine. -/
structure Metrics where
  admissionOverflow : UInt64 := 0
  callsRegistered : UInt64 := 0
  timeouts : UInt64 := 0
  duplicateResponses : UInt64 := 0
  faultCounts : FaultCounters := {}
  responses : ResponseCounters := {}
  /-- The calls in flight, as last published. -/
  inFlight : Option UInt32 := none
  /-- The calls that wait in the registry. -/
  pendingCalls : Option Int := none
  deriving DecidableEq, Inhabited

namespace Metrics

def addPending (m : Metrics) (change : Int) : Metrics :=
  { m with pendingCalls := some (m.pendingCalls.getD 0 + change) }

/-- Every metric by its exported name, in the order of the names. A counter at zero and a gauge
that was never set are listed with `none`: nobody has touched them, so they are not exported. -/
def all (m : Metrics) : List (String × Option Int) :=
  let counter (n : UInt64) : Option Int := if n = 0 then none else some n.toNat
  let outcome (metric label : String) : String := metric ++ "\x7boutcome=" ++ label ++ "\x7d"
  let faults := outcome "conduit_faults_total"
  let responses := outcome "conduit_responses_total"
  [("conduit_admission_in_flight", m.inFlight.map fun n => n.toNat),
    ("conduit_admission_overflow_total", counter m.admissionOverflow),
    ("conduit_calls_registered_total", counter m.callsRegistered),
    ("conduit_duplicate_responses_total", counter m.duplicateResponses),
    (faults "discarded", counter m.faultCounts.discarded),
    (faults "handled", counter m.faultCounts.handled),
    (faults "handler_failed", counter m.faultCounts.handlerFailed),
    (faults "undeliverable", counter m.faultCounts.undeliverable),
    ("conduit_pending_calls", m.pendingCalls),
    (responses "accepted", counter m.responses.acknowledged),
    (responses "injected", counter m.responses.started),
    (responses "mediation_failed", counter m.responses.mediationFailed),
    (responses "resumed", counter m.responses.resumed),
    (responses "sending_fault", counter m.responses.sendFailed),
    (responses "unregistered", counter m.responses.unmatched),
    ("conduit_timeouts_total", counter m.timeouts)]

/-- The metrics that have been touched, with their values. -/
def touched (m : Metrics) : List (String × Int) :=
  m.all.filterMap fun (name, value) => value.map (name, ·)

end Metrics

end Correlator
