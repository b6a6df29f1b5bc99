import Correlator.Engine.State
import Correlator.Work

/-!
# What an engine reaches outside itself

The transport and the mediation engine are reached through five callbacks. An operation of the
engine is written once, for any callbacks: for real collaborators, and for the lower levels at
which a collaborator asks for further work (`Engine.Program`).
-/

namespace Correlator

/-- An engine's state beside the memory of its collaborators. -/
structure Host (σ : Type) where
  state : State
  memory : σ

/-- A piece of work on an engine. `Run.update` and `Run.apply` are single steps, between which
nothing else happens; at a callback anything may. -/
abbrev Run (σ : Type) := Work (Host σ)

namespace Run

variable {σ α : Type}

def read : Run σ State := fun host => .ended host.state host

def update (f : State → State) : Run σ Unit :=
  fun host => .ended () { host with state := f host.state }

def apply (f : State → α × State) : Run σ α :=
  fun host => .ended (f host.state).1 { host with state := (f host.state).2 }

/-- Waits until the state of the engine meets a condition. -/
def await (condition : State → Bool) : Run σ Unit :=
  Work.await (.condition fun host => condition host.state)

end Run

/-- An order in which ids are gone through. It may depend on everything the registry holds, but it
goes through each id once. A sweep promises no order, so what is shown for every arrangement holds
of it. -/
structure Arrangement where
  arrange : Registry → List CallId → List CallId
  perm : ∀ r ids, (arrange r ids).Perm ids

def Arrangement.asListed : Arrangement where
  arrange _ ids := ids
  perm _ ids := .refl ids

/-- The collaborators as an operation of the engine meets them. A callback that changes the message
at hand gives it back, however the call ended. -/
structure Callbacks (σ : Type) where
  /-- The level that callbacks are noted with in the journal. -/
  level : Nat
  /-- The most frames that one resumption may run. -/
  rounds : Nat
  /-- The order in which a sweep goes through the expired calls. -/
  arrangement : Arrangement
  /-- Hands a request to the wire. -/
  transmit : Message → Run σ (Outcome Unit)
  /-- Writes a response to the inbound caller. -/
  writeBack : Message → Run σ (Outcome Unit)
  /-- Mediates a message as a new flow, and tells whether anything handled it. -/
  startFlow : Message → Run σ (Message × Outcome Bool)
  /-- Goes on with a suspended unit. -/
  continueFlow : Frame → Message → Run σ (Message × Outcome Verdict)
  /-- Runs a fault handler. -/
  compensate : Handler → Fault → Message → Run σ (Message × Outcome Unit)

end Correlator
