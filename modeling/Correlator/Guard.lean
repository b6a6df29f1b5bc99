/-!
# Response guards

An inbound request is answered once. Its guard is shared by every message derived from the
request; whoever marks it first may answer. A guard is a reference, and `Guards` holds the marks
of all of them: a mark is never taken back.

* `mark_fst`, `isSent_mark` : marking tells the mark before, and leaves exactly one more mark.
-/

namespace Correlator

/-- A reference to a guard, and the request that it protects. -/
structure Guard where
  serial : Nat
  requestId : String
  deriving DecidableEq, Inhabited

/-- The guards issued so far: how many, and the serials of those that are marked. -/
structure Guards where
  issued : Nat := 0
  sent : List Nat := []
  deriving DecidableEq, Inhabited

namespace Guards

/-- Issues a guard for a request, unmarked. -/
def issue (guards : Guards) (requestId : String) : Guard × Guards :=
  (⟨guards.issued, requestId⟩, { guards with issued := guards.issued + 1 })

def isSent (guards : Guards) (g : Guard) : Bool :=
  guards.sent.contains g.serial

/-- Marks the guard, and tells whether it was marked before. -/
def mark (guards : Guards) (g : Guard) : Bool × Guards :=
  if guards.isSent g then (true, guards)
  else (false, { guards with sent := g.serial :: guards.sent })

@[simp] theorem mark_fst (guards : Guards) (g : Guard) :
    (guards.mark g).1 = guards.isSent g := by
  cases h : guards.isSent g <;> simp [mark, h]

theorem isSent_mark (guards : Guards) (g g' : Guard) :
    (guards.mark g).2.isSent g' = (guards.isSent g' || g'.serial == g.serial) := by
  unfold mark
  split
  · rename_i h
    by_cases hs : g'.serial = g.serial
    · have : guards.isSent g' = true := by rw [isSent, hs]; exact h
      simp [this]
    · simp [hs]
  · simp only [isSent, List.contains_cons, Bool.or_comm]

end Guards

end Correlator
