import Correlator.Crew
import Correlator.Engine.Sweep

/-!
# The life of an engine

Starting an engine gives it a worker that sweeps at every tick; stopping it takes the worker away.
Workers live by the passing of time, not by the clock that deadlines are read off, and a worker
dies if it reads a broken clock.

A worker that is told to stop while it is at an item finishes the item first. Until then the
engine is stopping, unless it is started again meanwhile; it has stopped once whoever stopped it
finds the worker gone, even if it was started again. A handler that stops the engine from inside
the worker's own item therefore waits in vain, and so does one that asks its own worker for more
tasks than can wait. A stop that nobody waits for is an errand (`Crew`).
-/

namespace Correlator

variable {σ : Type}

/-! ## Starting and stopping -/

namespace State

/-- Gives the engine a worker, unless it has one. The new one gets a number of its own, so that a
worker still at its last item is not taken for it. -/
def start (s : State) : State :=
  if s.worker.isSome then s
  else
    { s with
      worker := some s.started
      workers := s.workers ++ [.start s.started s.time s.config.sweepInterval.toNat]
      started := s.started + 1
      lifecycle := .running }

/-- Takes no more calls from here on, and tells the worker to stop. The answer is the worker's
number, if it lives. -/
def beginStop (s : State) : Option Nat × State :=
  match s.worker.filter s.hasWorker with
  | none => (none, { s with worker := none, lifecycle := .stopping })
  | some number =>
    (some number,
      { s with
        worker := none
        workers := s.workers.map fun w =>
          if w.number = number then { w with stopping := true } else w
        lifecycle := .stopping })

end State

/-- Stops the engine: once its worker is gone, it has stopped. Whoever stops an engine without a
worker does not wait. -/
def stop : Run σ Unit := do
  match ← Run.apply State.beginStop with
  | none => pure ()
  | some number => Run.await fun s => !s.hasWorker number
  Run.update ({ · with lifecycle := .stopped })

/-- Lets the others go on as far as they can before time passes. -/
def rest : Run σ Unit := Work.await .rest

/-- Asks for a stop without waiting for it, and tells how far that has come. -/
def stopAside : Run σ EngineStatus := do
  Run.update fun s => { s with stopsAside := s.stopsAside + 1 }
  rest
  return (← Run.read).status

/-- Lets time pass. -/
def elapse (duration : Nat) : Run σ Unit := do
  Work.pause (← Run.read).time duration

/-! ## The worker's items -/

/-- What a worker does at a tick or for a task; it dies if that panics. A failing handler does not
count as a panic: it is caught where it was called. -/
def sweeperItem (callbacks : Callbacks σ) : Item Chore → Run σ Bool
  | .tick | .task .sweep => return (← sweep callbacks).isOk
  | .task .purgeBindings => return (← purgeBindingsNow).isOk

def sweepers (callbacks : Callbacks σ) : Crew (Host σ) Chore where
  workers host := host.state.workers
  setWorkers workers host := { host with state := { host.state with workers } }
  now host := host.state.time
  setNow time host := { host with state := { host.state with time } }
  work := sweeperItem callbacks
  gone _ _ host := host
  errands host := host.state.stopsAside
  errand := do
    stop
    return true

/-! ## Tasks -/

/-- Hands a worker a task if there is room for it. -/
def State.submit (s : State) (number : Nat) (t : Chore) : Submission × State :=
  match s.workers.find? (·.number = number) with
  | none => (.closed, s)
  | some w =>
    let (submission, w) := w.submit t
    (submission, { s with workers := s.workers.map fun v => if v.number = number then w else v })

def State.isFull (s : State) (number : Nat) : Bool :=
  s.workers.any fun w => w.number = number && w.isFull

/-- Asks the sweeper for a task, and waits if there is no room for it. Whoever waits finds the room
when it goes on: a worker without room is at a sweep, and there is only one sweep at a time. -/
def request (t : Chore) : Run σ (Except WorkerError Unit) := do
  let s ← Run.read
  match s.worker with
  | none => return .error .notRunning
  | some number =>
    if s.isFull number then
      Run.await fun s => !s.isFull number
    match ← Run.apply (·.submit number t) with
    | .accepted => return .ok ()
    | _ => return .error .closed

/-! ## Sessions -/

/-- Binds a session for the configured time. It panics only if the clock does. -/
def bindNow (session endpoint : String) : Run σ (Except Panic Unit) := do
  let s ← Run.read
  match s.clock.read with
  | .error p => return .error p
  | .ok now =>
    let expiresAt := now.after s.config.sessionLifetime
    Run.update fun s => { s with sessions := s.sessions.bind session endpoint expiresAt }
    return .ok ()

def endpointNow (session : String) : Run σ (Except Panic (Option String)) := do
  let s ← Run.read
  return s.clock.read.map (s.sessions.lookup session)

end Correlator
