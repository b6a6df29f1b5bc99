import Correlator.Crew

/-!
# A worker under observation

A worker whose items do nothing but write a log: when each one was taken up and, if it lasts, when
it was over. Tasks are numbers; ticks are counted from one.
-/

namespace Correlator

namespace Scenario

/-- What a log entry is about. -/
inductive LogKind where
  | task
  | taskDone
  | tick
  | tickDone
  | shutdown
  deriving DecidableEq, Inhabited

/-- A log entry: what it is about, the task or the number of the tick, and the time. -/
structure LogEntry where
  kind : LogKind
  number : Option Nat
  time : Nat
  deriving DecidableEq, Inhabited

/-- How the items of an observed worker go. -/
structure Drill where
  /-- How long each tick lasts, from the first one on; further ticks are over at once. -/
  tickDelays : List Nat := []
  taskDelay : Nat := 0
  fatalTick : Option Nat := none
  fatalTask : Option Nat := none
  /-- Whether ticks and the shutdown do nothing, not even write the log. -/
  tasksOnly : Bool := false
  deriving Inhabited

structure Watch where
  drill : Drill
  workers : List (Worker Nat)
  now : Nat := 0
  ticks : Nat := 0
  log : List LogEntry := []
  /-- Whether the worker has been stopped, and takes tasks no more. -/
  stopped : Bool := false
  /-- Whether somebody else can still submit tasks after that. -/
  senderKept : Bool := false
  deriving Inhabited

namespace Watch

/-- A worker started at time zero. -/
def start (drill : Drill) (interval : Nat) : Watch := { drill, workers := [.start 0 0 interval] }

def write (w : Watch) (kind : LogKind) (number : Option Nat) : Watch :=
  { w with log := ⟨kind, number, w.now⟩ :: w.log }

def note (kind : LogKind) (number : Option Nat) : Work Watch Unit :=
  Work.apply fun w => ((), w.write kind number)

/-- The rest of an item that lasts `delay` and notes its end, unless the worker dies of it. -/
def last (delay : Nat) (fatal : Bool) (noteEnd : Work Watch Unit) : Work Watch Bool := do
  if fatal then return false
  else if delay = 0 then return true
  else do
    Work.pause (← Work.apply fun w => (w.now, w)) delay
    noteEnd
    return true

def work : Item Nat → Work Watch Bool
  | .task n => do
    note .task n
    let drill ← Work.apply fun w => (w.drill, w)
    last drill.taskDelay (drill.fatalTask = some n) (note .taskDone n)
  | .tick => do
    let drill ← Work.apply fun w => (w.drill, w)
    if drill.tasksOnly then return true
    else do
      let k ← Work.apply fun w => (w.ticks + 1, { w with ticks := w.ticks + 1 })
      note .tick k
      last ((drill.tickDelays[k - 1]?).getD 0) (drill.fatalTick = some k) (note .tickDone k)

/-- The worker is gone; one that left notes it. -/
def gone (left : Bool) (w : Watch) : Watch :=
  if left && !w.drill.tasksOnly then w.write .shutdown none else w

def crew : Crew Watch Nat where
  workers w := w.workers
  setWorkers workers w := { w with workers }
  now w := w.now
  setNow now w := { w with now }
  work := work
  gone left _ w := w.gone left

/-- Whether the worker lives and has not been stopped. -/
def isRunning (w : Watch) : Bool := !w.stopped && !w.workers.isEmpty

/-- Submits a task, with the kept sender or the worker's own; `none` if there is no sender. -/
def submit (w : Watch) (kept : Bool) (n : Nat) : Option Submission × Watch :=
  if if kept then w.senderKept else !w.stopped then
    match w.workers with
    | [] => (some .closed, w)
    | worker :: others =>
      let (submission, worker) := worker.submit n
      (some submission, { w with workers := worker :: others })
  else (none, w)

def submitAll (w : Watch) (kept : Bool) : List Nat → List (Option Submission) × Watch
  | [] => ([], w)
  | n :: rest =>
    let (submission, w) := w.submit kept n
    let (submissions, w) := submitAll w kept rest
    (submission :: submissions, w)

def beginStop (w : Watch) : Watch :=
  { w with stopped := true, workers := w.workers.map ({ · with stopping := true }) }

end Watch

inductive WatchStep where
  | elapse (duration : Nat)
  | submit (kept : Bool) (tasks : List Nat)
  | stop
  | keepSender
  | rest
  deriving Inhabited

/-- A step as work. The answer is what became of the tasks, where the step submits some. -/
def WatchStep.work : WatchStep → Work Watch (Option (List (Option Submission)))
  | .elapse duration => do
    Work.pause (← Work.apply fun w => (w.now, w)) duration
    return none
  | .submit kept tasks => some <$> Work.apply fun w => w.submitAll kept tasks
  | .stop => do
    Work.apply fun w => ((), w.beginStop)
    Work.await (.condition (·.workers.isEmpty))
    return none
  | .keepSender => Work.apply fun w => (none, { w with senderKept := !w.stopped })
  | .rest => return none

/-- Takes a step at the watch, and lets the worker go on as far as it can. -/
def WatchStep.take (step : WatchStep) (site : Site Watch) :
    Option (List (Option Submission)) × Site Watch :=
  let (submissions, site) := Watch.crew.perform 0 step.work site
  (submissions, Watch.crew.settle 0 site)

end Scenario

end Correlator
