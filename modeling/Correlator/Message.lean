import Correlator.Suspension
import Correlator.Fault.Handler
import Correlator.Fault.Basic
import Correlator.Guard
import Correlator.Protocol

/-!
# Messages in flight

A message owns its fault handlers and its suspended frames; only its response guard is shared. A
reply is turned into a message of the same flow by `Message.reply`.

* `Properties.get?_overlay` : of two layers of properties the upper one counts, name by name.
-/

namespace Correlator

/-! ## Properties -/

structure Properties where
  entries : List (String × Json) := []
  deriving Inhabited

namespace Properties

def get? (p : Properties) (name : String) : Option Json := Members.find? name p.entries

def set (p : Properties) (name : String) (value : Json) : Properties :=
  ⟨Members.insert name value p.entries⟩

/-- Sets every property of `upper` on top of `p`. -/
def overlay (p upper : Properties) : Properties :=
  upper.entries.foldl (fun acc e => acc.set e.1 e.2) p

@[simp] theorem get?_set_self (p : Properties) (name : String) (value : Json) :
    (p.set name value).get? name = some value := by
  simp [get?, set]

theorem get?_set_of_ne {name other : String} (h : other ≠ name) (p : Properties) (value : Json) :
    (p.set name value).get? other = p.get? other := by
  simp [get?, set, Members.find?_insert_of_ne h]

theorem get?_overlay (p : Properties) {upper : Properties}
    (hunique : (upper.entries.map (·.1)).Nodup) (name : String) :
    (p.overlay upper).get? name = (upper.get? name).or (p.get? name) := by
  obtain ⟨entries⟩ := upper
  unfold overlay
  dsimp only at hunique ⊢
  induction entries generalizing p with
  | nil => rfl
  | cons e rest ih =>
    obtain ⟨key, value⟩ := e
    obtain ⟨hnew, hrest⟩ := List.nodup_cons.mp hunique
    rw [List.foldl_cons, ih (p.set key value) hrest]
    by_cases hname : name = key
    · subst hname
      have hrest : get? ⟨rest⟩ name = none := Members.find?_of_notMem hnew
      have hfirst : get? ⟨(name, value) :: rest⟩ name = some value := if_pos rfl
      rw [hrest, hfirst, get?_set_self]
      rfl
    · have hlater : get? ⟨(key, value) :: rest⟩ name = get? ⟨rest⟩ name := if_neg hname
      rw [hlater, get?_set_of_ne hname]

end Properties

/-! ## Correlation -/

/-- Links an outbound message to the response it will get. -/
structure CallId where
  text : String
  deriving DecidableEq, Inhabited

/-- What the transport delivers for an outbound message: a reply of the other side (which may be a
fault of its own), the failure of the outbound leg, or an acknowledgement without content. -/
inductive ResponseContent where
  | reply (envelope : Envelope)
  | sendFailed (cause : Fault)
  | acknowledged
  deriving Inhabited

/-- A response as the transport delivers it. -/
structure Response where
  relatesTo : Option String := none
  kind : ResponseContent
  properties : Properties := {}
  deriving Inhabited

/-- The id that a response names: the addressing header before the echoed property, which counts
only if it is a string. -/
def Response.callId? (r : Response) : Option CallId :=
  match r.relatesTo with
  | some id => some ⟨id⟩
  | none =>
    match r.properties.get? callIdProperty with
    | some (.string id) => some ⟨id⟩
    | _ => none

/-! ## Messages -/

/-- A message in flight through mediation. -/
structure Message where
  id : String
  relatesTo : Option String := none
  /-- Common to all messages of one flow. -/
  traceId : String
  isResponse : Bool := false
  /-- The address an outbound message goes to. -/
  target : Option String := none
  envelope : Envelope
  properties : Properties := {}
  handlers : Handlers := {}
  frames : Suspensions := {}
  /-- The failure that is being handled. -/
  fault : Option Fault := none
  /-- The member of an endpoint group that last accepted this message. -/
  lastMember : Option String := none
  guard : Option Guard := none
  deriving Inhabited

namespace Message

def protocol (m : Message) : Protocol := m.envelope.protocol

/-- Outbound messages are correlated by their own id. -/
def callId (m : Message) : CallId := ⟨m.id⟩

def setProperty (m : Message) (name : String) (value : Json) : Message :=
  { m with properties := m.properties.set name value }

/-- The message with its id in a property, where the protocol has no addressing headers. -/
def withCorrelation (m : Message) : Message :=
  if m.protocol.hasAddressing then m
  else m.setProperty callIdProperty (.string m.callId.text)

/-- The message that goes on with the flow of `m` when `envelope` comes back for it: new id and
envelope; trace, stacks, group member and guard of `m`; the transport's properties over its own. -/
def reply (m : Message) (id : String) (envelope : Envelope) (properties : Properties) :
    Message where
  id
  relatesTo := some m.id
  traceId := m.traceId
  isResponse := true
  envelope
  properties := m.properties.overlay properties
  handlers := m.handlers
  frames := m.frames
  lastMember := m.lastMember
  guard := m.guard

end Message

end Correlator
