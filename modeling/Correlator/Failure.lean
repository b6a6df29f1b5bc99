/-!
# How a call to a collaborator can end

A collaborator returns, fails with an error, or panics. Panics do not cross the engine: at every
call that may meet one, `Outcome.caught` turns it into an error.
-/

namespace Correlator

/-- An error and the contexts wrapped around it, in the order they were added. -/
structure ErrorChain where
  root : String
  contexts : List String := []
  deriving DecidableEq, Inhabited

namespace ErrorChain

/-- What the error says by itself: its outermost context. -/
def message (e : ErrorChain) : String :=
  e.contexts.getLast?.getD e.root

/-- The whole chain, from the outermost context to the root. -/
def detail (e : ErrorChain) : String :=
  ": ".intercalate (e.contexts.reverse ++ [e.root])

end ErrorChain

/-- What a collaborator panicked with: a text, or something that is none. The engine's own bound
on nested work shows as `exhausted`. -/
inductive Panic where
  | text (s : String)
  | other
  | exhausted
  deriving DecidableEq, Inhabited

def Panic.message : Panic → String
  | .text s => s
  | .other => "unknown panic payload"
  | .exhausted => "too much nested work"

inductive Outcome (α : Type) where
  | returned (value : α)
  | failed (error : ErrorChain)
  | panicked (panic : Panic)
  deriving DecidableEq, Inhabited

namespace Outcome

/-- The outcome with panics turned into errors. -/
def caught {α : Type} : Outcome α → Except ErrorChain α
  | .returned value => .ok value
  | .failed e => .error e
  | .panicked p => .error { root := "panicked: " ++ p.message }

end Outcome

end Correlator
