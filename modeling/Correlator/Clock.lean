import Correlator.Failure
import Correlator.Instant

/-!
# The clock

Deadlines are read off a clock. As a rule it is set and advanced from outside, and panics whoever
reads it while it is broken. An engine may go by the time of day instead: then the hands can still
be moved, but nothing reads them.
-/

namespace Correlator

/-- A clock whose hands stand at an instant until they are moved. -/
structure Clock where
  instant : Millis := 0
  broken : Bool := false
  /-- The time of day, if that is read and not the hands. -/
  timeOfDay : Option Millis := none
  deriving DecidableEq, Inhabited

namespace Clock

/-- The time that the clock tells, or the panic of a broken one. The time of day is always told.
Whoever reads the clock passes a panic on to its own caller. -/
def read (c : Clock) : Except Panic Millis :=
  match c.timeOfDay with
  | some instant => .ok instant
  | none => if c.broken then .error (.text "clock failure") else .ok c.instant

def advance (c : Clock) (duration : Millis) : Clock := { c with instant := c.instant + duration }

/-- Sets the hands, also backwards. -/
def set (c : Clock) (instant : Millis) : Clock := { c with instant }

end Clock

end Correlator
