import Correlator.Stack

/-!
# Suspended mediation

Where a mediation unit sends a request it records a frame: which sequence it was in, and where.
The reply resumes the frames innermost first.
-/

namespace Correlator

/-- A position inside nested sequences, the outermost index first. -/
structure Position where
  path : List UInt64 := []
  deriving DecidableEq, Inhabited

namespace Position

/-- The position `index` of the outermost sequence. -/
def topLevel (index : UInt64) : Position := ⟨[index]⟩

/-- The position `index` below this one. -/
def child (p : Position) (index : UInt64) : Position := ⟨p.path ++ [index]⟩

/-- The indices between brackets, with points between them. -/
def display (p : Position) : String :=
  "[" ++ ".".intercalate (p.path.map fun i => toString i.toNat) ++ "]"

end Position

inductive MediationUnit where
  | named (name : String)
  | proxyIn (proxy : String)
  | proxyOut (proxy : String)
  | resource (api path : String)
  deriving DecidableEq, Inhabited

def MediationUnit.display : MediationUnit → String
  | .named name => "sequence:" ++ name
  | .proxyIn proxy => "proxy:" ++ proxy ++ ":in"
  | .proxyOut proxy => "proxy:" ++ proxy ++ ":out"
  | .resource api path => "api:" ++ api ++ ":" ++ path

/-- One suspension: the unit, and where in it to go on. -/
structure Frame where
  sequence : MediationUnit
  position : Position
  deriving DecidableEq, Inhabited

/-- The suspensions of a message, the innermost on top. -/
abbrev Suspensions := Stack Frame

/-- What a resumed unit decides: go on with the frames further out, or leave them for later. -/
inductive Verdict where
  | proceed
  | halt
  deriving DecidableEq, Inhabited

end Correlator
