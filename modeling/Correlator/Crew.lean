import Correlator.Site
import Correlator.Worker

/-!
# Workers on a shared state

Workers whose items are work on a shared state take turns with one another and with errands, which
are work that nobody waits for. In its turn a worker goes on with its item, and then with its next
duty, until it has to wait. Time passes when nobody stands in line and nobody only waits for the
others.

A `Crew` says where the workers are in the state and what their items do. Work from outside shares
the state too: `Crew.complete` sees it through to its end, and lets the crew go on while it waits.
-/

namespace Correlator

/-- Workers that share a state `S`. -/
structure Crew (S τ : Type) where
  workers : S → List (Worker τ)
  setWorkers : List (Worker τ) → S → S
  /-- The time. -/
  now : S → Nat
  setNow : Nat → S → S
  /-- Does an item; the answer is whether the worker survives it. -/
  work : Item τ → Work S Bool
  /-- What is left to do once a worker is gone, whether it left or died. -/
  gone : (left : Bool) → Worker τ → S → S
  /-- How many errands have been asked for. -/
  errands : S → Nat := fun _ => 0
  /-- Does an errand. -/
  errand : Work S Bool := pure true

namespace Crew

variable {S τ : Type}

def worker? (crew : Crew S τ) (number : Nat) (s : S) : Option (Worker τ) :=
  (crew.workers s).find? (·.number = number)

def modifyWorker (crew : Crew S τ) (number : Nat) (f : Worker τ → Worker τ) (s : S) : S :=
  crew.setWorkers ((crew.workers s).map fun w => if w.number = number then f w else w) s

def dismiss (crew : Crew S τ) (left : Bool) (number : Nat) (s : S) : S :=
  match crew.worker? number s with
  | none => s
  | some w => crew.gone left w (crew.setWorkers ((crew.workers s).filter (·.number ≠ number)) s)

/-! ## Who is called -/

/-- Whether a worker is to be called: it is not at an item, and has something to do or nothing to
wake it. A new worker has no alarm; it sets one when it first runs. -/
def calls (crew : Crew S τ) (site : Site S) (w : Worker τ) : Bool :=
  !site.isSuspended (.worker w.number) &&
    (!site.hasAlarm (.worker w.number) || (w.duty? (crew.now site.state)).isSome)

/-- Calls those who can go on at the state as it is: work whose condition is met, workers, and
errands that have been asked for. -/
def callAll (crew : Crew S τ) (site : Site S) : Site S :=
  let met := (site.suspended.filter (·.wait.isMet site.state)).map (·.party)
  let workers := ((crew.workers site.state).filter (crew.calls site)).map (.worker ·.number)
  let asked := crew.errands site.state
  let errands := (List.range' site.errands (asked - site.errands)).map Party.errand
  { site with errands := max site.errands asked }.call (met ++ workers ++ errands)

/-! ## Turns -/

/-- A worker is gone, and its alarms with it. -/
def remove (crew : Crew S τ) (left : Bool) (number : Nat) (site : Site S) : Site S :=
  { site with
    state := crew.dismiss left number site.state
    alarms := site.alarms.filter (·.party ≠ .worker number) }

/-- Takes note of how far a party has come. A worker that survives its item stays first in line. -/
def put (crew : Crew S τ) (party : Party) (site : Site S) : Progress S Bool → Site S
  | .waiting wait s next => { site with state := s }.suspend ⟨party, wait, next⟩
  | .ended survives s =>
    match party with
    | .errand _ => { site with state := s }
    | .worker number =>
      if survives then { site with state := s, line := party :: site.line }
      else crew.remove false number { site with state := s }

/-- An idle worker turns to its next duty; without one it waits for its next tick. -/
def turnTo (crew : Crew S τ) (site : Site S) (w : Worker τ) : Site S :=
  let party : Party := .worker w.number
  -- An alarm for the next tick is set only here, where there is nothing else to do.
  match w.duty? (crew.now site.state) with
  | none => if site.hasAlarm party then site else site.setAlarm ⟨w.nextTick, party⟩
  | some .die => crew.remove false w.number site
  | some .leave => crew.remove true w.number site
  | some (.take item taken) =>
    crew.put party site
      (crew.work item (crew.modifyWorker w.number (fun _ => taken) site.state))

/-- A party takes its turn. If its work still waits the turn passes. -/
def act (crew : Crew S τ) (party : Party) (site : Site S) : Site S :=
  match site.suspended.find? (·.party = party) with
  | some item =>
    if item.wait.isOver (crew.now site.state) site.state then
      crew.put party { site with suspended := site.suspended.eraseP (·.party = party) }
        (item.next site.state)
    else site
  | none =>
    match party with
    | .errand _ => crew.put party site (crew.errand site.state)
    | .worker number => ((crew.worker? number site.state).map (crew.turnTo site)).getD site

/-- The first one in line takes its turn. -/
def turn (crew : Crew S τ) (site : Site S) : Option (Site S) :=
  match site.line with
  | [] => none
  | party :: line => some (crew.callAll (crew.act party { site with line }))

/-- It is `time` now. -/
def setTime (crew : Crew S τ) (time : Nat) (site : Site S) : Site S :=
  let state := crew.setNow (max (crew.now site.state) time) site.state
  crew.callAll ({ site with state }.ringAlarms time)

/-- Lets time pass until the next alarm rings, but not beyond `limit` if there is a limit. -/
def passTime (crew : Crew S τ) (limit : Option Nat) (site : Site S) : Option (Site S) :=
  (site.nextAlarm?.filter fun time => limit.all (time ≤ ·)).map (crew.setTime · site)

/-- The next thing that happens up to the time `limit`; `none` if nothing goes on until then. -/
def step (crew : Crew S τ) (limit : Option Nat) (site : Site S) : Option (Site S) :=
  crew.turn site <|> site.release? <|> crew.passTime limit site

/-! ## Seeing work through -/

/-- At most `fuel` steps, until `enough` holds or there is no next one. -/
def run (next : Site S → Option (Site S)) (enough : Site S → Bool) : Nat → Site S → Site S
  | 0, site => site
  | fuel + 1, site =>
    if enough site then site
    else
      match next site with
      | none => site
      | some site => run next enough fuel site

/-- Enough steps for what is known to be done by `limit`. -/
def stepBound (crew : Crew S τ) (limit : Nat) (site : Site S) : Nat :=
  site.line.length + 4 * site.suspended.length + 2 * site.alarms.length
    + (crew.workers site.state).foldl (fun n w => n + w.stepBound limit) 0

/-- Everything that happens up to the time `limit`; `spare` steps are for what is not known
beforehand. -/
def runUntil (crew : Crew S τ) (spare limit : Nat) (site : Site S) : Site S :=
  run (crew.step (some limit)) (fun _ => false) (spare + crew.stepBound limit site) site

/-- Everything that happens before time passes. -/
def settle (crew : Crew S τ) (spare : Nat) (site : Site S) : Site S :=
  crew.runUntil spare (crew.now site.state) (crew.callAll site)

/-- Lets the crew go on until a wait from outside is over. Work from outside that waited for a time
goes on before anybody else who is called then; otherwise it goes on when nobody stands in line,
before those who only wait for the others. -/
def attend (crew : Crew S τ) (spare : Nat) (site : Site S) (wait : Wait S) : Site S :=
  let called := crew.callAll site
  let fuel := spare + crew.stepBound (crew.now site.state) called
  match wait with
  | .rest => (run crew.turn (fun _ => false) fuel called).released
  | .time time =>
    if time ≤ crew.now site.state then site
    else crew.setTime time (crew.runUntil spare (time - 1) called)
  | .condition holds =>
    if holds site.state then site
    else
      let enough (site : Site S) : Bool := site.line.isEmpty && holds site.state
      (run (crew.step none) enough fuel called).released

/-- Sees work through to its end. -/
def complete {α : Type} (crew : Crew S τ) (spare : Nat) : Progress S α → Site S → α × Site S
  | .ended result s, site => (result, { site with state := s })
  | .waiting wait s next, site =>
    let site := crew.attend spare { site with state := s } wait
    crew.complete spare (next site.state) site

/-- Does work at a site. -/
def perform {α : Type} (crew : Crew S τ) (spare : Nat) (work : Work S α) (site : Site S) :
    α × Site S :=
  crew.complete spare (work site.state) site

/-- Work that does not wait leaves the crew alone. -/
theorem perform_of_ended {α : Type} (crew : Crew S τ) (spare : Nat) {work : Work S α}
    {site : Site S} {result : α} {s : S} (h : work site.state = .ended result s) :
    crew.perform spare work site = (result, { site with state := s }) := by
  simp [perform, h, complete]

end Crew

end Correlator
