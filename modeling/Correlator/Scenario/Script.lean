import Correlator.Engine.Program

/-!
# Scripts

A scenario is a list of steps taken on an engine whose collaborators follow a script. The script
gives each collaborator behaviours by key: what it does to the message at hand, which further steps
it takes, and how it ends. The n-th call that finds an entry follows its n-th behaviour, and the
last one from then on. Messages outside the engine are kept in slots, under names.
-/

namespace Correlator

namespace Scenario

/-- What a field of a step holds. If it could not be read it holds the name of what was wrong, or
none if a part of it did not decode. -/
abbrev Legible (α : Type) := Except (Option String) α

/-- A message to be made: a new one, with the fields that are given set afterwards. -/
structure Draft where
  envelope : Envelope
  inbound : Bool := false
  id : Option String := none
  traceId : Option String := none
  target : Option String := none
  relatesTo : Option String := none
  isResponse : Option Bool := none
  properties : Option Properties := none
  handlers : List Handler := []
  frames : List Frame := []
  fault : Option Fault := none
  lastMember : Option String := none
  /-- The name of a guard; one name stands for one guard throughout a scenario. -/
  guard : Option String := none
  deriving Inhabited

/-- Where the message of a step comes from. -/
inductive Source where
  | draft (d : Draft)
  /-- A copy of a stashed message, under another id if one is given. -/
  | stashed (name : String) (id : Option String)
  deriving Inhabited

mutual

/-- What a collaborator does to the message at hand. -/
inductive Action where
  | pushHandler (handler : Handler)
  | popHandler
  | clearHandlers
  | suspend (frame : Frame)
  | setProperty (name : String) (value : Json)
  | setBody (body : Json)
  | setLastMember (endpoint : Option String)
  | markSent
  /-- Keeps a copy under a name. -/
  | stash (name : String)
  /-- Resumes the message's own frames. -/
  | resume
  | step (s : Step)
  /-- An action that could not be read, with the field that was wrong, or none if a part of it did
  not decode. -/
  | unreadable (field : Option String)

inductive Step where
  -- The engine.
  /-- The source is looked up before the expiry is read. -/
  | dispatch (source : Source) (expiry : Legible Expiry)
  | respond (id : Option String) (response : Response)
  /-- The response is read anew for each id. What could not be read ends the step, as for
  `collectAll`. -/
  | respondAll (ids : List (Legible String)) (response : Legible Response)
  | answerRequest (source : Source)
  | sweep
  | request (task : Chore)
  | bindNow (session endpoint : String)
  | endpointNow (session : String)
  | start
  | stop
  | beginStop
  | status
  | config
  | elapse (duration : Nat)
  /-- Lets the others go on before time passes. -/
  | rest
  | breakClock (broken : Bool)
  -- The parts.
  | register (id : String) (draft : Draft) (expiry : Expiry)
      (registeredAt deadline : Millis)
  | collect (id : String)
  | claim (id : String)
  | collectAll (ids : List (Legible String))
  | contains (id : String)
  | overdue (now : Millis)
  | acquire
  | release
  | admission
  | bind (session endpoint : String) (expiresAt : Millis)
  | lookup (session : String) (now : Millis)
  | unbind (session : String)
  | purge (now : Millis)
  | sessionsEmpty
  | sweepAsOf (now : Millis)
  | purgeBindings
  | setClock (instant : Millis)
  | advanceClock (duration : Millis)
  -- Messages in slots.
  | new (slot : String) (draft : Draft)
  /-- The other slot is looked up before the envelope is read. -/
  | reply (slot other : String) (envelope : Legible Envelope) (properties : Properties)
  | copy (slot other : String)
  | compare (slot other : String)
  | property (slot name : String)
  | setTarget (slot target : String)
  | protocol (slot : String)
  | callId (slot : String)
  | peekHandler (slot : String)
  | handlerCount (slot : String)
  | frameCount (slot : String)
  | peekFrame (slot : String)
  | resume (slot : String)
  | runHandler (slot : String) (cause : Fault)
  | routeFault (slot : String) (cause : Fault) (action : ExpiryAction)
  | act (slot : String) (action : Action)
  /-- A step that could not be read, as for actions. -/
  | unreadable (field : Option String)

end

instance : Inhabited Action := ⟨.popHandler⟩

instance : Inhabited Step := ⟨.sweep⟩

/-- The steps whose order of events is not fixed, because a sweep has no fixed order. -/
def Step.isUnordered : Step → Bool
  | .sweep | .sweepAsOf _ | .request .sweep | .elapse _ => true
  | _ => false

inductive Ending where
  | success
  /-- Leaves the frames further out for later. -/
  | halt
  /-- Mediates nothing. -/
  | unhandled
  | fail (error : ErrorChain)
  | panic (payload : Panic)
  deriving DecidableEq, Inhabited

/-- The outcome of a call that gives `value` if it succeeds. -/
def Ending.outcome {α : Type} (value : α) : Ending → Outcome α
  | .fail e => .failed e
  | .panic p => .panicked p
  | .success | .halt | .unhandled => .returned value

/-- What a collaborator does when it is called. -/
structure Behaviour where
  actions : List Action := []
  ending : Ending := .success
  deriving Inhabited

inductive Role where
  | compensate
  | continueFlow
  | startFlow
  | transmit
  | writeBack
  deriving DecidableEq, Inhabited

/-- The behaviours of the collaborators: for each role and key, one after another. The key `*`
stands for the keys that are not listed. -/
structure Script where
  entries : List ((Role × String) × List Behaviour) := []
  deriving Inhabited

/-- The entry that a call with this key finds. -/
def Script.entry? (s : Script) (role : Role) (key : String) :
    Option ((Role × String) × List Behaviour) :=
  (s.entries.find? (·.1 = (role, key))) <|> (s.entries.find? (·.1 = (role, "*")))

end Scenario

end Correlator
