/-!
# Admission of outbound calls

The calls in flight are counted against a limit. The limit is advisory: a call beyond it is
reported and let through. Every change of the count is published to peers.

* `acquire_inFlight`, `release?_eq_none_iff` : one up, saturating; one down, unless nothing is held.
-/

namespace Correlator

/-- What peers are told: the limit and the calls in flight. -/
structure Occupancy where
  limit : UInt32
  inFlight : UInt32
  deriving DecidableEq, Inhabited

/-- Whether more calls are in flight than the limit names. -/
def Occupancy.exceedsLimit (s : Occupancy) : Bool := s.limit < s.inFlight

/-- A count of calls in flight, published under a key. -/
structure Admission where
  key : String
  limit : UInt32
  inFlight : UInt32 := 0
  deriving DecidableEq, Inhabited

namespace Admission

def state (a : Admission) : Occupancy := ⟨a.limit, a.inFlight⟩

/-- One more call; the count stays at the largest word, and what it cannot count is missing when
the calls are released. -/
def acquire (a : Admission) : Admission :=
  { a with inFlight := .ofNat (min (a.inFlight.toNat + 1) (UInt32.size - 1)) }

/-- One call less; `none` if none is counted. -/
def release? (a : Admission) : Option Admission :=
  if a.inFlight = 0 then none else some { a with inFlight := a.inFlight - 1 }

theorem acquire_inFlight (a : Admission) :
    a.acquire.inFlight.toNat = min (a.inFlight.toNat + 1) (UInt32.size - 1) := by
  rw [acquire, UInt32.toNat_ofNat', UInt32.size]
  omega

theorem release?_eq_none_iff (a : Admission) : a.release? = none ↔ a.inFlight = 0 := by
  simp [release?]

end Admission

end Correlator
