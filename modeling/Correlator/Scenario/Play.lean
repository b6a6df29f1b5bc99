import Correlator.Scenario.Script

/-!
# Playing scenarios

Scripted collaborators are programs with a memory: how often each entry has been found, the
messages put aside, the guards by name, and what was recorded. Every call to a collaborator is
recorded with the message as it was at that moment. While the actions of a call go on, whatever is
recorded is recorded inside that call, no matter who caused it; of several such calls the one that
began last takes it.
-/

namespace Correlator

namespace Scenario

/-! ## What is found and recorded -/

/-- A message, and whether its guard was marked at the time. -/
structure Snapshot where
  msg : Message
  sent : Bool
  deriving Inhabited

structure Comparison where
  sameId : Bool
  sameTrace : Bool
  secondRelatesToFirst : Bool
  sameGuard : Bool
  deriving DecidableEq, Inhabited

inductive Finding where
  | nothing
  /-- The step could not be read, or asked for something that does not exist, in this field; a part
  of it did not decode if there is no field. -/
  | unreadable (field : Option String)
  | flag (b : Bool)
  | count (n : Nat)
  | instant (t : Millis)
  | text (s : String)
  | textOrNothing (s : Option String)
  | texts (s : List String)
  | registration (result : Except EngineError Receipt)
  | answer (result : Except EngineError Unit)
  | submission (result : Except WorkerError Unit)
  | response (outcome : Delivery)
  | responses (outcomes : List Delivery)
  | fault (outcome : Disposition)
  | report (r : SweepSummary)
  | call (claimed : Call) (outbound : Snapshot) (markedAgain : Bool)
  | admission (key : String) (state : Occupancy)
  | config (c : Config) (key : String)
  | resumption (result : Except ErrorChain Bool)
  | handler (h : Option Handler)
  | handlerInfo (h : Option Handler)
  | size (n : Nat)
  | frame (f : Option Frame)
  | protocol (p : Protocol)
  | value (v : Option Json)
  | comparison (c : Comparison)
  deriving Inhabited

/-- A call to a collaborator: what it was called with, whether the guard of the message was marked,
what its actions found, if it has any, and the calls that were recorded meanwhile. -/
inductive Event where
  | call (callback : Callback) (sent : Bool) (found : Option (List Finding))
      (meanwhile : List Event)
  deriving Inhabited

def Event.message : Event → Message
  | .call c .. => c.message

/-- The memory of scripted collaborators. -/
structure Memory where
  script : Script := {}
  /-- What events are sorted by where their order is not fixed: a function of the message id. -/
  sortKey : String → String := id
  uses : List ((Role × String) × Nat) := []
  stash : List (String × Message) := []
  slots : List (String × Message) := []
  guards : List (String × Guard) := []
  /-- The calls outside any call that goes on, the latest first. -/
  events : List Event := []
  /-- What was recorded in each call whose actions go on, the latest first; the call that began last
  comes first. -/
  unfinished : List (List Event) := []
  deriving Inhabited

abbrev Play := Program Memory

namespace Memory

/-- Sorts events by the key of their message; those with the same key keep their order. -/
def sorted (m : Memory) (events : List Event) : List Event :=
  events.mergeSort fun a b => m.sortKey a.message.id ≤ m.sortKey b.message.id

/-- The record that is added to at the moment, the latest first. -/
def current (m : Memory) : List Event := m.unfinished.headD m.events

def modifyCurrent (f : List Event → List Event) (m : Memory) : Memory :=
  match m.unfinished with
  | [] => { m with events := f m.events }
  | events :: outer => { m with unfinished := f events :: outer }

def record (event : Event) : Memory → Memory := modifyCurrent (event :: ·)

/-- Sorts what was recorded since the record had the length `mark`. -/
def sortSince (mark : Nat) (m : Memory) : Memory :=
  m.modifyCurrent fun events =>
    let new := events.take (events.length - mark)
    (m.sorted new.reverse).reverse ++ events.drop new.length

/-- Begins the record of a call whose actions go on. -/
def enter (m : Memory) : Memory := { m with unfinished := [] :: m.unfinished }

/-- Ends the record of the call that began last, and gives what is in it, the first one first. -/
def leave (m : Memory) : List Event × Memory :=
  match m.unfinished with
  | [] => ([], m)
  | events :: outer => (events.reverse, { m with unfinished := outer })

@[simp] theorem current_modifyCurrent (f : List Event → List Event) (m : Memory) :
    (m.modifyCurrent f).current = f m.current := by
  unfold modifyCurrent current
  cases m.unfinished <;> rfl

@[simp] theorem leave_enter (m : Memory) : m.enter.leave = ([], m) := rfl

end Memory

def ask (op : Operation) : Play op.Answer := Program.perform op

/-! ## Memory -/

def memory : Play Memory := Program.modify fun m => (m, m)

def remember (f : Memory → Memory) : Play Unit := Program.modify fun m => ((), f m)

/-- Does `work`, and sorts the events recorded meanwhile. -/
def sortedWork {α : Type} (work : Play α) : Play α := do
  let mark := (← memory).current.length
  let result ← work
  remember (·.sortSince mark)
  return result

/-- The behaviour that the next call with this key follows. -/
def nextBehaviour (role : Role) (key : String) : Play Behaviour :=
  Program.modify fun m =>
    match m.script.entry? role key with
    | none => ({}, m)
    | some (entry, behaviours) =>
      let used := ((m.uses.find? (·.1 = entry)).map (·.2)).getD 0
      let uses := (entry, used + 1) :: m.uses.filter (·.1 ≠ entry)
      ((behaviours[used]? <|> behaviours.getLast?).getD {}, { m with uses })

def slot? (name : String) : Play (Option Message) :=
  return Members.find? name (← memory).slots

def fill (name : String) (msg : Message) : Play Unit :=
  remember fun m => { m with slots := Members.insert name msg m.slots }

/-! ## Messages -/

def guardSent (msg : Message) : Play Bool :=
  match msg.guard with
  | none => return false
  | some g => ask (.guardSent g)

def snapshot (msg : Message) : Play Snapshot := return ⟨msg, ← guardSent msg⟩

/-- The guard of a name; the first use issues it. -/
def guardNamed (name : String) : Play Guard := do
  match Members.find? name (← memory).guards with
  | some g => return g
  | none =>
    let g ← ask (.issueGuard name)
    remember fun m => { m with guards := Members.insert name g m.guards }
    return g

def Draft.make (d : Draft) : Play Message := do
  let msg : Message ← ask (.compose d.envelope d.inbound)
  let guard ← match d.guard with
    | none => pure msg.guard
    | some name => some <$> guardNamed name
  return { msg with
    id := d.id.getD msg.id
    traceId := d.traceId.getD msg.traceId
    target := d.target
    relatesTo := d.relatesTo
    isResponse := d.isResponse.getD false
    properties := d.properties.getD {}
    handlers := .ofList d.handlers
    frames := .ofList d.frames
    fault := d.fault
    lastMember := d.lastMember
    guard }

/-- The message of a source; `none` if nothing is stashed under the name. -/
def Source.make? : Source → Play (Option Message)
  | .draft d => some <$> d.make
  | .stashed name id =>
    return (Members.find? name (← memory).stash).map fun msg => { msg with id := id.getD msg.id }

/-! ## Steps -/

abbrev RiskyPlay := ExceptT Panic Play

def attempt {α : Type} (work : Play (Except Panic α)) : RiskyPlay α := ExceptT.mk work

/-- Does `work` with what a field holds. -/
def withField {α : Type} (field : Legible α) (work : α → RiskyPlay Finding) :
    RiskyPlay Finding :=
  match field with
  | .error name => return .unreadable name
  | .ok a => work a

/-- Does `work` with the message of a source. -/
def withSource (source : Source) (work : Message → RiskyPlay Finding) : RiskyPlay Finding := do
  match ← source.make? with
  | none => return .unreadable "stash"
  | some msg => work msg

/-- Does `work` with the message in a slot, and puts back the message it leaves. -/
def withSlot (slot : String) (work : Message → Play (Message × Except Panic Finding)) :
    RiskyPlay Finding := do
  match ← slot? slot with
  | none => return .unreadable "slot"
  | some msg =>
    let (msg, finding) ← work msg
    fill slot msg
    attempt (return finding)

def askSlot (slot : String) (tell : Message → Finding) : RiskyPlay Finding :=
  withSlot slot fun msg => return (msg, .ok (tell msg))

def respondTo (id : String) : Legible Response → Play (Legible Delivery)
  | .error name => return .error name
  | .ok response => .ok <$> ask (.respond ⟨id⟩ response)

def claimed : Option Call → Play Finding
  | none => return .nothing
  | some call => return .call call (← snapshot call.outbound) call.mark.1

/-- Completes the call `id`, and tells whether it was pending. -/
def collect (id : String) : Play Bool := do
  let call : Option Call ← ask (.collect ⟨id⟩)
  return call.isSome

/-- Does `work` for ids one after another, up to something that could not be read. -/
def forIds {α : Type} (work : String → Play (Legible α)) :
    List (Legible String) → Play (Legible (List α))
  | [] => return .ok []
  | .error name :: _ => return .error name
  | .ok id :: rest => do
    match ← work id with
    | .error name => return .error name
    | .ok result => return (← forIds work rest).map (result :: ·)

def sameGuard (a b : Message) : Bool :=
  match a.guard, b.guard with
  | some g, some h => g.serial == h.serial
  | _, _ => false

/-- The finding of a resumption, or the panic that it ended with. -/
def resumption : Outcome Bool → Except Panic Finding
  | .returned drained => .ok (.resumption (.ok drained))
  | .failed e => .ok (.resumption (.error e))
  | .panicked p => .error p

mutual

/-- Does an action on the message at hand. A panic goes through, with the message as it is then. -/
def Action.play (msg : Message) : Action → Play (Message × Except Panic Finding)
  | .pushHandler handler =>
    let msg := { msg with handlers := msg.handlers.push handler }
    return (msg, .ok (.count msg.handlers.size))
  | .popHandler =>
    match msg.handlers.pop? with
    | none => return (msg, .ok (.handler none))
    | some (handler, handlers) => return ({ msg with handlers }, .ok (.handler handler))
  | .clearHandlers => return ({ msg with handlers := .empty }, .ok (.flag true))
  | .suspend frame =>
    let msg := { msg with frames := msg.frames.push frame }
    return (msg, .ok (.count msg.frames.size))
  | .setProperty name value => return (msg.setProperty name value, .ok .nothing)
  | .setBody body => return ({ msg with envelope := { msg.envelope with body } }, .ok .nothing)
  | .setLastMember lastMember => return ({ msg with lastMember }, .ok .nothing)
  | .markSent =>
    match msg.guard with
    | none => return (msg, .ok .nothing)
    | some g => return (msg, .ok (.flag (← ask (.markGuard g))))
  | .stash name => do
    remember fun m => { m with stash := Members.insert name msg m.stash }
    return (msg, .ok .nothing)
  | .resume => do
    let (msg, outcome) ← ask (.resume msg)
    return (msg, resumption outcome)
  | .step s => return (msg, ← s.play.run)
  | .unreadable field => return (msg, .ok (.unreadable field))

/-- Takes a step. A panic goes through. -/
def Step.play : Step → RiskyPlay Finding
  | .dispatch source expiry => withSource source fun msg => withField expiry fun expiry =>
    .registration <$> attempt (ask (.dispatch msg expiry))
  | .respond id response => do
    match id.map CallId.mk <|> response.callId? with
    | none => return .text "no correlation id"
    | some id => return .response (← ask (.respond id response))
  | .respondAll ids response => do
    withField (← forIds (respondTo · response) ids) fun outcomes => return .responses outcomes
  | .answerRequest source => withSource source fun msg =>
    .answer <$> attempt (ask (.answerRequest msg))
  | .sweep => .report <$> attempt (sortedWork (ask .sweep))
  | .request task => return .submission (← ask (.request task))
  | .bindNow session endpoint => do
    attempt (ask (.bindNow session endpoint))
    return .nothing
  | .endpointNow session => .textOrNothing <$> attempt (ask (.endpointNow session))
  | .start => do
    ask .start
    return .nothing
  | .stop => do
    ask .stop
    return .nothing
  | .beginStop => return .text (EngineStatus.name (← ask .beginStop))
  | .status => return .text (EngineStatus.name (← ask .status))
  | .config => do
    let (c, key) ← ask .config
    return .config c key
  | .elapse duration => do
    ask (.elapse duration)
    return .nothing
  | .rest => do
    ask .rest
    return .nothing
  | .breakClock broken => do
    ask (.breakClock broken)
    return .nothing
  | .register id draft expiry registeredAt deadline => do
    let outbound ← draft.make
    return .registration (← ask
      (.register { id := ⟨id⟩, outbound, expiry, registeredAt, deadline }))
  | .collect id => do claimed (← ask (.collect ⟨id⟩))
  | .claim id => do claimed (← ask (.claim ⟨id⟩))
  | .collectAll ids => do
    withField (← forIds (.ok <$> Scenario.collect ·) ids) fun found =>
      return .count (found.count true)
  | .contains id => return .flag (← ask (.contains ⟨id⟩))
  | .overdue now => do
    let ids : List CallId ← ask (.overdue now)
    return .texts (ids.map (·.text))
  | .acquire => return .flag (← ask .acquire)
  | .release => do
    ask .release
    return .nothing
  | .admission => do
    let (key, state) ← ask .admission
    return .admission key state
  | .bind session endpoint expiresAt => do
    ask (.bind session endpoint expiresAt)
    return .nothing
  | .lookup session now => return .textOrNothing (← ask (.lookup session now))
  | .unbind session => return .textOrNothing (← ask (.unbind session))
  | .purge now => return .count (← ask (.purge now))
  | .sessionsEmpty => do
    let n : Nat ← ask .sessionCount
    return .flag (n = 0)
  | .sweepAsOf now => return .report (← (sortedWork (ask (.sweepAsOf now)) : Play SweepSummary))
  | .purgeBindings => .count <$> attempt (ask .purgeBindingsNow)
  | .setClock instant => return .instant (← ask (.setClock instant))
  | .advanceClock duration => return .instant (← ask (.advanceClock duration))
  | .new slot draft => do
    fill slot (← draft.make)
    return .nothing
  | .reply slot other envelope properties => do
    match ← slot? other with
    | none => return .unreadable "from"
    | some msg => withField envelope fun envelope => do
      fill slot (← ask (.reply msg envelope properties))
      return .nothing
  | .copy slot other => do
    match ← slot? other with
    | none => return .unreadable "from"
    | some msg =>
      fill slot msg
      return .nothing
  | .compare slot other => do
    match ← slot? slot, ← slot? other with
    | none, _ => return .unreadable "slot"
    | _, none => return .unreadable "with"
    | some a, some b =>
      return .comparison
        { sameId := a.id = b.id
          sameTrace := a.traceId = b.traceId
          secondRelatesToFirst := b.relatesTo = some a.id
          sameGuard := sameGuard a b }
  | .property slot name => askSlot slot fun msg => .value (msg.properties.get? name)
  | .setTarget slot target => withSlot slot fun msg =>
    return ({ msg with target := some target }, .ok .nothing)
  | .protocol slot => askSlot slot fun msg => .protocol msg.protocol
  | .callId slot => askSlot slot fun msg => .text msg.callId.text
  | .peekHandler slot => askSlot slot fun msg => .handlerInfo msg.handlers.peek?
  | .handlerCount slot => askSlot slot fun msg => .size msg.handlers.size
  | .frameCount slot => askSlot slot fun msg => .size msg.frames.size
  | .peekFrame slot => askSlot slot fun msg => .frame msg.frames.peek?
  | .resume slot => withSlot slot fun msg => do
    let (msg, outcome) ← ask (.resume msg)
    return (msg, resumption outcome)
  | .runHandler slot cause => withSlot slot fun msg => do
    let (msg, outcome) ← ask (.runHandler msg cause)
    return (msg, .ok (.fault outcome))
  | .routeFault slot cause action => withSlot slot fun msg => do
    let (msg, outcome) ← ask (.routeFault msg cause action)
    return (msg, .ok (.fault outcome))
  | .act slot action => withSlot slot action.play
  | .unreadable field => return .unreadable field

end

/-! ## Collaborators -/

/-- Does actions one after another, up to a panic. -/
def playActions : List Action → Message → Play (Message × List Finding × Option Panic)
  | [], msg => return (msg, [], none)
  | action :: rest, msg => do
    match ← action.play msg with
    | (msg, .error p) => return (msg, [], some p)
    | (msg, .ok finding) =>
      let (msg, findings, panic) ← playActions rest msg
      return (msg, finding :: findings, panic)

/-- Follows the script in a call to a collaborator. The call is recorded once its actions are done,
or the first of them that panics. -/
def follow (role : Role) (key : String) (callback : Callback) (msg : Message) :
    Play (Message × Ending) := do
  let sent ← guardSent msg
  let behaviour ← nextBehaviour role key
  if behaviour.actions.isEmpty then
    remember (·.record (.call callback sent none []))
    return (msg, behaviour.ending)
  else
    remember (·.enter)
    let (msg, findings, panic) ← playActions behaviour.actions msg
    let meanwhile ← Program.modify Memory.leave
    remember (·.record (.call callback sent (some findings) meanwhile))
    return (msg, (panic.map .panic).getD behaviour.ending)

/-- Collaborators that follow the script in their memory. -/
def collaborators : Collaborators Memory where
  transmit wire := do
    let (_, ending) ← follow .transmit wire.id (.transmit wire) wire
    return ending.outcome ()
  writeBack answer := do
    let (_, ending) ← follow .writeBack answer.id (.writeBack answer) answer
    return ending.outcome ()
  startFlow msg := do
    let (msg, ending) ← follow .startFlow (msg.relatesTo.getD "") (.startFlow msg) msg
    return (msg, ending.outcome (ending ≠ .unhandled))
  continueFlow frame msg := do
    let (msg, ending) ← follow .continueFlow frame.sequence.display (.continueFlow frame msg) msg
    return (msg, ending.outcome (if ending = .halt then .halt else .proceed))
  compensate handler cause msg := do
    let (msg, ending) ← follow .compensate handler.name (.compensate handler cause msg) msg
    return (msg, ending.outcome ())

/-! ## Scenarios -/

/-- A step that was taken: what it found, the calls that were recorded outside any that goes on,
and where things stand after it. -/
structure Record where
  finding : Except Panic Finding
  events : List Event
  before : State
  after : State
  memory : Memory

/-- The reports of a step, the first one first. -/
def Record.notices (r : Record) : List Notice :=
  (r.after.notices.take (r.after.notices.length - r.before.notices.length)).reverse

/-- What peers were told in a step, the first one first. -/
def Record.publications (r : Record) : List Occupancy :=
  let new := r.after.journal.take (r.after.journal.length - r.before.journal.length)
  (Journal.publications new).reverse

/-- Bounds that no scenario reaches, here for resumption and below for the nesting of callbacks. -/
def environment : Environment Memory := { collaborators, rounds := 1000000 }

def depth : Nat := 10000

/-- Takes a step, lets background work come to rest, and collects what was recorded. -/
def Step.record (s : Step) (site : Site (Host Memory)) : Record × Site (Host Memory) :=
  let before := site.state.state
  let (found, site) := environment.complete depth s.play.run site
  let site := environment.settle depth site
  let host := site.state
  let events := host.memory.events.reverse
  let events := if s.isUnordered then host.memory.sorted events else events
  let memory := { host.memory with events := [] }
  ({ finding := found, events, before, after := host.state, memory },
    { site with state := { host with memory } })

def playSteps : List Step → Site (Host Memory) → List Record × Site (Host Memory)
  | [], site => ([], site)
  | s :: rest, site =>
    let (record, site) := s.record site
    let (records, site) := playSteps rest site
    (record :: records, site)

end Scenario

end Correlator
