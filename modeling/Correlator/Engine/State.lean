import Correlator.Clock
import Correlator.Config
import Correlator.Identifier
import Correlator.Journal
import Correlator.Metrics
import Correlator.Notice
import Correlator.Session
import Correlator.Worker

/-!
# The state of an engine

Everything an engine shares between its operations is one record. The transitions here are the
steps between which nothing else can happen: acquiring and releasing admission, registering and
claiming a call, marking a guard. Whatever calls a collaborator is built from them elsewhere.
-/

namespace Correlator

inductive Lifecycle where
  | created
  | running
  | stopping
  | stopped
  deriving DecidableEq, Inhabited

/-- The state of an engine as it is seen: a running engine whose sweeper died has failed. -/
inductive EngineStatus where
  | created
  | running
  | stopping
  | stopped
  | failed
  deriving DecidableEq, Inhabited

def EngineStatus.name : EngineStatus → String
  | .created => "Created"
  | .running => "Running"
  | .stopping => "Stopping"
  | .stopped => "Stopped"
  | .failed => "Failed"

/-- What the sweeper can be asked to do out of turn. -/
inductive Chore where
  | sweep
  | purgeBindings
  deriving DecidableEq, Inhabited

/-- The state of an engine: what its operations share, and nothing of its collaborators. The
journal is written beside it and read by no operation, so it records a run without steering it. -/
structure State where
  config : Config := {}
  clock : Clock := {}
  registry : Registry := {}
  admission : Admission
  sessions : Sessions := {}
  guards : Guards := {}
  metrics : Metrics := {}
  /-- Reports to the operators, the latest first. -/
  notices : List Notice := []
  journal : Journal := []
  /-- Whether a sweep is in progress. -/
  sweeping : Bool := false
  lifecycle : Lifecycle := .created
  /-- The number of the engine's own worker, from start to stop. -/
  worker : Option Nat := none
  /-- The workers that live: the engine's own, and those that were told to stop and are still at
  their last item. -/
  workers : List (Worker Chore) := []
  /-- How many workers there have been. -/
  started : Nat := 0
  /-- How often a stop has been asked for that nobody waits for. -/
  stopsAside : Nat := 0
  /-- The milliseconds that have passed; workers go by them, not by the clock. -/
  time : Nat := 0
  /-- The number of the next identifier to be generated. -/
  nextId : Nat := 0
  deriving Inhabited

namespace State

/-- The state of a new engine that numbers its identifiers from `nextId` on. -/
def init (config : Config) (clock : Clock) (nextId : Nat := 0) : State where
  config
  clock
  admission := { key := config.publicationKey, limit := config.admissionLimit }
  nextId

/-! ## Generated identifiers -/

def freshUuid (s : State) : String × State :=
  (uuidText s.nextId, { s with nextId := s.nextId + 1 })

def freshMessageId (s : State) : String × State :=
  let (uuid, s) := s.freshUuid
  ("urn:uuid:" ++ uuid, s)

/-- A new message with an id and a trace of its own; an inbound request also gets a guard. -/
def compose (s : State) (envelope : Envelope) (inbound : Bool) : Message × State :=
  let (id, s) := s.freshMessageId
  let (traceId, s) := s.freshUuid
  if inbound then
    let (guard, guards) := s.guards.issue id
    ({ id, traceId, envelope, guard := some guard }, { s with guards })
  else ({ id, traceId, envelope }, s)

/-! ## Reports -/

def notify (s : State) (n : Notice) : State := { s with notices := n :: s.notices }

def note (s : State) (e : Entry) : State := { s with journal := e :: s.journal }

/-- The place that the journal has come to: its length, which tells entries made before from those
made after. -/
def place (s : State) : Nat := s.journal.length

/-- What is pending and in flight now. -/
def moment (s : State) : Moment := ⟨s.registry, s.admission⟩

/-! ## Admission -/

/-- Takes over a changed count. The gauge, the journal and the count change in one step, so at no
moment between two steps do peers know another count than the engine. -/
def publish (s : State) (admission : Admission) : State :=
  { s with
    admission
    metrics := { s.metrics with inFlight := some admission.inFlight }
    journal := .published admission.state :: s.journal }

/-- Counts a call in, and tells whether it fits under the limit. The limit is advisory: beyond it
the call is counted all the same, and the overflow is counted and reported. -/
def acquire (s : State) : Bool × State :=
  let s := s.publish s.admission.acquire
  if s.admission.state.exceedsLimit then
    let s := { s with
      metrics := { s.metrics with admissionOverflow := s.metrics.admissionOverflow + 1 } }
    (false, s.notify (.admissionOverflow s.admission.key s.admission.inFlight s.admission.limit))
  else (true, s)

/-- Counts a call out; without one to count out it is only reported. -/
def release (s : State) : State :=
  match s.admission.release? with
  | some admission => s.publish admission
  | none => s.notify (.unmatchedRelease s.admission.key)

/-! ## The registry -/

def register (s : State) (call : Call) : Except EngineError Receipt × State :=
  match s.registry.register? call with
  | none => (.error (.duplicateId call.id), s.notify (.duplicateRegistration call.id))
  | some registry =>
    (.ok ⟨call.id, call.deadline⟩,
      { s with
        registry
        metrics := s.metrics.addPending 1
        journal := .registered call :: s.journal })

/-- Notes that a call has been taken out of the registry. -/
def taken (s : State) (claimer : Claimer) (call : Call) : State :=
  { s with
    metrics := s.metrics.addPending (-1)
    journal := .claimed claimer call :: s.journal }

def claim (s : State) (claimer : Claimer) (id : CallId) : Option Call × State :=
  match s.registry.claim? id with
  | none => (none, s)
  | some (call, registry) => (some call, { s with registry }.taken claimer call)

/-- Claims a call for a response, and counts the response, also where nothing waits for it. -/
def collect (s : State) (claimer : Claimer) (id : CallId) : Option Call × State :=
  match s.registry.collect id with
  | (none, registry) => (none, { s with registry })
  | (some call, registry) => (some call, { s with registry }.taken claimer call)

/-! ## Sessions, workers and status -/

/-- Drops the bindings that are expired at `now`, and tells how many they were. -/
def purgeBindings (s : State) (now : Millis) : Nat × State :=
  let (purged, sessions) := s.sessions.purge now
  (purged, { s with sessions })

def hasWorker (s : State) (number : Nat) : Bool := s.workers.any (·.number = number)

def status (s : State) : EngineStatus :=
  match s.lifecycle with
  | .created => .created
  | .running => if s.worker.any s.hasWorker then .running else .failed
  | .stopping => .stopping
  | .stopped => .stopped

/-- Whether the engine takes calls: from its making, also before it is started, until it is stopped
or its sweeper dies. -/
def acceptsCalls (s : State) : Bool :=
  s.status = .created || s.status = .running

end State

end Correlator
