import Correlator.Work

/-!
# Taking turns

Several parties share a state and take turns. Whoever can go on stands in line, in the order in
which it was called. Work that has to wait is put aside until its party's turn comes again. For a
time that has to come an alarm is set; alarms for the same time ring in the order in which they
were set.

A `Site` is the state with the line, the work that waits and the alarms. Who the parties are and
what they do in their turns is not its affair (`Crew`).
-/

namespace Correlator

inductive Party where
  /-- The worker with this number. -/
  | worker (number : Nat)
  /-- The errand that was the n-th one to be asked for. -/
  | errand (serial : Nat)
  deriving DecidableEq, Inhabited

/-- A time at which a party is to be called. -/
structure Alarm where
  time : Nat
  party : Party
  deriving DecidableEq, Inhabited

structure Suspended (S : Type) where
  party : Party
  wait : Wait S
  next : S → Progress S Bool

/-- A shared state with those who take turns on it. -/
structure Site (S : Type) where
  state : S
  /-- Who is to take a turn, in order. -/
  line : List Party := []
  /-- The work that waits, in the order in which it began to. -/
  suspended : List (Suspended S) := []
  /-- The alarms that have not rung, in the order in which they were set. -/
  alarms : List Alarm := []
  /-- How many errands have been called. -/
  errands : Nat := 0

/-- A line with one more party in it, unless that stands in line already: a party that is called
twice before its turn takes one turn. -/
def Party.joined (line : List Party) (party : Party) : List Party :=
  if line.contains party then line else line ++ [party]

namespace Site

variable {S : Type}

def call (parties : List Party) (site : Site S) : Site S :=
  { site with line := parties.foldl Party.joined site.line }

/-- Whether a party has work that waits. -/
def isSuspended (site : Site S) (party : Party) : Bool := site.suspended.any (·.party = party)

/-- Whether an alarm is set for a party. -/
def hasAlarm (site : Site S) (party : Party) : Bool := site.alarms.any (·.party = party)

def setAlarm (alarm : Alarm) (site : Site S) : Site S :=
  { site with alarms := site.alarms ++ [alarm] }

/-- Puts aside work that waits, and sets an alarm if it waits for a time. -/
def suspend (item : Suspended S) (site : Site S) : Site S :=
  { site with
    suspended := site.suspended ++ [item]
    alarms := site.alarms ++ (item.wait.time?.map fun time => ⟨time, item.party⟩).toList }

/-- Calls those who only wait for the others, if there are any. They are called together, and only
when nobody stands in line. -/
def release? (site : Site S) : Option (Site S) :=
  match (site.suspended.filter (·.wait.isRest)).map (·.party) with
  | [] => none
  | parties => some (site.call parties)

/-- The site once those who only wait for the others have been called. -/
def released (site : Site S) : Site S := site.release?.getD site

/-- Calls those whose alarms are set for no later than `time`, in the order in which they were set,
and takes these alarms away. -/
def ringAlarms (time : Nat) (site : Site S) : Site S :=
  let due : List Alarm := site.alarms.filter (·.time ≤ time)
  let site := { site with alarms := site.alarms.filter (time < ·.time) }
  site.call (due.map (·.party))

/-- The next time at which an alarm rings. -/
def nextAlarm? (site : Site S) : Option Nat := (site.alarms.map (·.time)).min?

end Site

end Correlator
