import Correlator.Stack

/-!
# Fault handlers

A message carries a stack of handlers, pushed as mediation enters sequences and endpoints. The
stack says which handler a fault would run; running it is left to mediation.
-/

namespace Correlator

/-- The shape of the endpoint that pushed a handler: one address, or a group with siblings. -/
inductive Topology where
  | address
  | failover
  | loadBalance
  deriving DecidableEq, Inhabited

/-- Groups retry through a sibling. -/
def Topology.isGroup : Topology → Bool
  | .address => false
  | .failover | .loadBalance => true

/-- A compensating action: a fault sequence, or the failure hook of an endpoint. -/
inductive Handler where
  | sequence (name : String)
  | endpoint (name : String) (topology : Topology)
  deriving DecidableEq, Inhabited

def Handler.name : Handler → String
  | .sequence name => name
  | .endpoint name _ => name

/-- The handlers of a message, the next one to run on top. -/
abbrev Handlers := Stack Handler

/-- Whether the handler belongs to the member `successful` of a group. A single address is no
group, so its handler stays even if the address has the name of a member. -/
def Handler.isMember (h : Handler) (successful : Option String) : Bool :=
  match h, successful with
  | .endpoint name topology, some s => topology.isGroup && name = s
  | _, _ => false

/-- The handlers a call failure may consult: without the top one if it belongs to the group member
that last succeeded, so that the group's own handler below takes over. -/
def Handlers.skipMember (handlers : Handlers) (successful : Option String) : Handlers :=
  match handlers.pop? with
  | some (h, below) => if h.isMember successful then below else handlers
  | none => handlers

end Correlator
