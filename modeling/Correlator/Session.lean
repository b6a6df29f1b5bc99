import Correlator.Instant
import Correlator.Json.Value

/-!
# Sticky sessions

A session is bound to an endpoint until an instant. An expired binding answers as if it were not
there, so when it is purged cannot be seen.
-/

namespace Correlator

/-- The endpoint of a session, up to but not including an instant. -/
structure Binding where
  endpoint : String
  expiresAt : Millis
  deriving DecidableEq, Inhabited

def Binding.isLive (b : Binding) (now : Millis) : Bool := now < b.expiresAt

structure Sessions where
  bindings : List (String × Binding) := []
  deriving DecidableEq, Inhabited

namespace Sessions

/-- Binds a session, in place of any binding it had. -/
def bind (s : Sessions) (session endpoint : String) (expiresAt : Millis) : Sessions :=
  ⟨Members.insert session ⟨endpoint, expiresAt⟩ s.bindings⟩

/-- The endpoint of a session whose binding still holds at `now`. -/
def lookup (s : Sessions) (session : String) (now : Millis) : Option String :=
  ((Members.find? session s.bindings).filter (·.isLive now)).map (·.endpoint)

/-- Removes a binding, expired or not, and gives its endpoint. -/
def unbind (s : Sessions) (session : String) : Option String × Sessions :=
  ((Members.find? session s.bindings).map (·.endpoint), ⟨Members.erase session s.bindings⟩)

/-- Drops the bindings that do not hold at `now`, and tells how many they were. A lookup goes by
liveness, so none at `now` or later can tell whether this was done. -/
def purge (s : Sessions) (now : Millis) : Nat × Sessions :=
  (s.bindings.countP (!·.2.isLive now), ⟨s.bindings.filter (·.2.isLive now)⟩)

def size (s : Sessions) : Nat := s.bindings.length

end Sessions

end Correlator
