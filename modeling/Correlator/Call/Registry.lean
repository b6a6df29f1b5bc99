import Correlator.Call.Basic

/-!
# The registry of pending calls

Responses and sweeps both finish calls through `Registry.claim?`, which takes a call out and marks
it in one step, so a call has at most one claimer. The registry lists its calls in the order of
registration; nothing else depends on that order.

* `find?_register`, `find?_claim` : what the two operations do to the view by id.
-/

namespace Correlator

/-- Counts of what happened to calls; they wrap as 64-bit words. -/
structure Tally where
  registered : UInt64 := 0
  collected : UInt64 := 0
  expired : UInt64 := 0
  unmatched : UInt64 := 0
  deriving DecidableEq, Inhabited

/-- The calls that wait for a response. -/
structure Registry where
  calls : List Call := []
  stats : Tally := {}
  deriving Inhabited

namespace Registry

def find? (r : Registry) (id : CallId) : Option Call :=
  r.calls.find? (·.id = id)

def contains (r : Registry) (id : CallId) : Bool :=
  r.calls.any (·.id = id)

def size (r : Registry) : Nat := r.calls.length

/-- Adds a call, unless one with its id waits already. -/
def register? (r : Registry) (call : Call) : Option Registry :=
  if r.contains call.id then none
  else some
    { calls := r.calls ++ [call]
      stats := { r.stats with registered := r.stats.registered + 1 } }

/-- Takes the call with the id out and marks it; a call that is marked already stays. Looking up,
marking and taking out are one step: this is the only way out of the registry. -/
def claim? (r : Registry) (id : CallId) : Option (Call × Registry) :=
  match r.find? id with
  | none => none
  | some call =>
    match call.mark with
    | (false, _) => none
    | (true, marked) => some (marked, { r with calls := r.calls.filter (·.id ≠ id) })

/-- Claims the call for a response, and counts the response. -/
def collect (r : Registry) (id : CallId) : Option Call × Registry :=
  match r.claim? id with
  | some (call, r) =>
    (some call, { r with stats := { r.stats with collected := r.stats.collected + 1 } })
  | none =>
    (none, { r with stats := { r.stats with unmatched := r.stats.unmatched + 1 } })

/-- The ids of the calls that are expired at `now`, in the order of registration. It takes nothing
out: who goes through the list claims each id by itself. -/
def overdue (r : Registry) (now : Millis) : List CallId :=
  (r.calls.filter (·.isDue now)).map (·.id)

def countExpired (r : Registry) : Registry :=
  { r with stats := { r.stats with expired := r.stats.expired + 1 } }

theorem contains_eq_isSome_find? (r : Registry) (id : CallId) :
    r.contains id = (r.find? id).isSome := by
  rw [Bool.eq_iff_iff]
  simp [contains, find?, List.find?_isSome]

theorem find?_register {r r' : Registry} {call : Call} (h : r.register? call = some r')
    (id : CallId) :
    r'.find? id = if id = call.id then some call else r.find? id := by
  unfold register? at h
  split at h
  · simp at h
  · rename_i hnew
    obtain rfl := Option.some.inj h
    simp only [find?, List.find?_append, List.find?_cons, List.find?_nil]
    by_cases hid : id = call.id
    · subst hid
      have : r.calls.find? (·.id = call.id) = none := by
        simpa [contains] using hnew
      simp [this]
    · have : ¬ call.id = id := fun h => hid h.symm
      simp [hid, this]

theorem find?_claim {r r' : Registry} {call : Call} {id : CallId}
    (h : r.claim? id = some (call, r')) (other : CallId) :
    r'.find? other = if other = id then none else r.find? other := by
  unfold claim? at h
  split at h
  · simp at h
  · split at h
    · simp at h
    · simp only [Option.some.injEq, Prod.mk.injEq] at h
      obtain ⟨-, rfl⟩ := h
      simp only [find?, List.find?_filter]
      by_cases ho : other = id
      · subst ho
        simp
      · simp only [ho, if_false]
        congr 1
        funext c
        by_cases hc : c.id = other
        · simp [hc, ho]
        · simp [hc]

end Registry

end Correlator
