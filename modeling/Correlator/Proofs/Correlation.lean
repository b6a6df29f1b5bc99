import Correlator.Proofs.Legs
import Correlator.Proofs.Sweeping

/-!
# Replies find their calls

A message is correlated by its id.  The id travels into the registry, onto the wire, into the
response and from there back to the registry; the wire carries it in an addressing header or, where
the protocol has none, in a property.  On the way back the reply becomes a message of its own, with
the properties of the message that was sent under those of the response.  When that message is
dispatched in turn, it still has the property of the leg before, and that leg's id in it.  Nothing
but the dispatch stands between a response and the wrong call: it must set the property anew, and
change nothing else.

A response need not come to an end, since mediation may wait for as long as it likes.  So what a
response does is said of the state that it begins with: everything that can be seen of the engine
from then on, whether the work waits or has ended, is later than that.

## Main definitions

* `Response.Answers` : the response names a message that was sent.
* `Message.IsReply` : what a reply keeps of the message that was sent.
* `Environment.Correlates` : a call that was dispatched, and its responses.
* `Environment.Chain` : legs, each of which dispatches the reply of the one before.

## Main results

* `Environment.correlates` : a message that is dispatched gets its own responses.
* `Environment.Chain.correlated` : so does every leg of a chain.
-/

namespace Correlator

variable {σ α : Type}

/-! ## Names on the wire -/

/-- The response names the message by its addressing header or, where the protocol has none, by
giving back the property that the wire had. It is the other side that answers, so this is all that
can be expected of it. -/
def Response.Answers (r : Response) (wire : Message) : Prop :=
  r.relatesTo = some wire.id ∨
    wire.protocol.hasAddressing = false ∧ r.relatesTo = none ∧
      r.properties.get? callIdProperty = wire.properties.get? callIdProperty

namespace Message

/-- The message goes on with what another one has been through: its trace, its handlers, its
frames, its group member and its guard. -/
structure Continues (reply sent : Message) : Prop where
  traceId : reply.traceId = sent.traceId
  handlers : reply.handlers = sent.handlers
  frames : reply.frames = sent.frames
  lastMember : reply.lastMember = sent.lastMember
  guard : reply.guard = sent.guard

theorem Continues.refl (m : Message) : m.Continues m := ⟨rfl, rfl, rfl, rfl, rfl⟩

theorem Continues.trans {m m' m'' : Message} (h : m''.Continues m') (h' : m'.Continues m) :
    m''.Continues m where
  traceId := h.traceId.trans h'.traceId
  handlers := h.handlers.trans h'.handlers
  frames := h.frames.trans h'.frames
  lastMember := h.lastMember.trans h'.lastMember
  guard := h.guard.trans h'.guard

theorem Continues.sameFlow {m m' : Message} (h : m'.Continues m) : m'.SameFlow m :=
  ⟨h.guard, h.traceId⟩

/-- The message is the reply to another one, with the properties that came with it. -/
structure IsReply (reply sent : Message) (properties : Properties) : Prop
    extends reply.Continues sent where
  relatesTo : reply.relatesTo = some sent.id
  isResponse : reply.isResponse = true
  fault : reply.fault = none
  target : reply.target = none
  /-- What came with the reply counts, name by name, before what the message had. -/
  overlaid : ∀ name, reply.properties.get? name =
    (properties.get? name).or (sent.properties.get? name)

theorem reply_isReply (m : Message) (id : String) (envelope : Envelope) {properties : Properties}
    (hunique : (properties.entries.map (·.1)).Nodup) :
    (m.reply id envelope properties).IsReply m properties :=
  { traceId := rfl, handlers := rfl, frames := rfl, lastMember := rfl, guard := rfl
    relatesTo := rfl, isResponse := rfl, fault := rfl, target := rfl
    overlaid := m.properties.get?_overlay hunique }

theorem withCorrelation_continues (m : Message) : m.withCorrelation.Continues m := by
  unfold withCorrelation
  split <;> exact ⟨rfl, rfl, rfl, rfl, rfl⟩

/-- The wire differs from the message in nothing but the properties. -/
theorem withCorrelation_eq (m : Message) :
    m.withCorrelation = { m with properties := m.withCorrelation.properties } := by
  unfold withCorrelation
  split <;> rfl

/-- And of the properties in nothing but the one that carries the id, which is set anew whatever it
was. -/
theorem withCorrelation_get? (m : Message) (name : String) :
    m.withCorrelation.properties.get? name =
      if m.protocol.hasAddressing = false ∧ name = callIdProperty then some (.string m.id)
      else m.properties.get? name := by
  unfold withCorrelation
  cases m.protocol.hasAddressing with
  | true => rfl
  | false =>
    by_cases hname : name = callIdProperty
    · rw [if_neg (by decide), if_pos ⟨rfl, hname⟩, hname]
      exact Properties.get?_set_self _ _ _
    · rw [if_neg (by decide), if_neg fun h => hname h.2]
      exact Properties.get?_set_of_ne hname _ _

/-- The call to mediation that a reply begins with. -/
def mediation (m : Message) : Callback :=
  match m.frames.pop? with
  | none => .startFlow m
  | some (frame, below) => .continueFlow frame { m with frames := below }

end Message

/-- Whatever is left of an earlier leg in the message, a response that answers it names it. An
addressing header counts before any property, and without one the property has been overwritten by
the dispatch. -/
theorem Response.callId?_of_answers {r : Response} {m : Message}
    (h : r.Answers m.withCorrelation) : r.callId? = some m.callId := by
  have hid : m.withCorrelation.id = m.id := congrArg (·.id) m.withCorrelation_eq
  have hprotocol : m.withCorrelation.protocol = m.protocol :=
    congrArg (·.protocol) m.withCorrelation_eq
  unfold callId?
  rcases h with hrelates | ⟨haddressing, hnone, hechoed⟩
  · rw [hrelates, hid]
    rfl
  · rw [hprotocol] at haddressing
    rw [m.withCorrelation_get?, if_pos ⟨haddressing, rfl⟩] at hechoed
    rw [hnone, hechoed]
    rfl

/-! ## What a response begins with -/

/-- Counting a call out is no claim, and calls nobody. -/
theorem State.release_views (s : State) :
    s.release.journal.claimed = s.journal.claimed ∧
      s.release.journal.callbacks = s.journal.callbacks := by
  rcases s.release_journal with hsame | ⟨state, hpublished⟩
  · exact ⟨congrArg _ hsame, congrArg _ hsame⟩
  · rw [hpublished]
    exact ⟨rfl, rfl⟩

section Begin

variable {env : Environment σ} {callbacks : Callbacks σ} {patient : Prop}
  {rel : Host σ → Host σ → Prop} [IsPreorder (Host σ) rel]

/-- The first thing that mediation of a reply does is on record from then on, whether it ends or
waits: a new flow, or the unit of the innermost frame. -/
theorem mediate_enters (hc : callbacks.Along env.collaborators patient rel)
    (henter : callbacks.Enter env.collaborators patient rel) (hrounds : 0 < callbacks.rounds)
    (msg : Message) (host : Host σ) :
    (mediate callbacks msg host).Meets patient rel
      (fun result later => later.state.journal.Vouches env.collaborators result.1)
      (host.entered callbacks.level msg.mediation) := by
  unfold mediate Message.mediation
  rw [Stack.isEmpty_eq_isNone_pop?]
  cases hpop : msg.frames.pop? with
  | none =>
    rw [if_pos Option.isNone_none]
    exact Progress.Meets.bind (henter.startFlow msg host) fun _ later _ hback =>
      ⟨refl_of rel later, hback⟩
  | some top =>
    obtain ⟨frame, below⟩ := top
    rw [if_neg (by simp)]
    have hresume : (resume callbacks msg host).Meets patient rel
        (fun result later => later.state.journal.Vouches env.collaborators result.1)
        (host.entered callbacks.level (.continueFlow frame { msg with frames := below })) := by
      unfold resume
      rw [← Nat.sub_add_cancel hrounds]
      exact resumeWithin_meets_after hpop (henter.continueFlow frame _ host)
        (resumeWithin_meets hc _)
    exact Progress.Meets.bind hresume fun _ later _ hback => ⟨refl_of rel later, hback⟩

end Begin

section Responding

variable {env : Environment σ} {waiting : Host σ} {id : CallId} {call : Call}

/-- Whatever the response, its call is claimed before anything else happens. The state that is
named here is the one right after the claim; all that can be seen later comes after it. -/
theorem respond_claims (level : Nat) (hfind : waiting.state.registry.find? id = some call)
    (hpending : call.completion = .pending) (response : Response) :
    ∃ claimed : Host σ,
      claimed.state.journal = .claimed .response call.marked :: waiting.state.journal ∧
      claimed.state.registry.calls = waiting.state.registry.calls.filter (·.id ≠ id) ∧
      (respond (env.callbacks level) id response waiting).Along True Host.Holds claimed := by
  obtain ⟨s, hcollect, hjournal, hcalls, -⟩ := State.collect_of_find? hfind hpending
  refine ⟨⟨s, waiting.memory⟩, hjournal, hcalls, ?_⟩
  have hvouched : s.release.journal.Vouches env.collaborators call.marked.outbound :=
    State.vouches_release (hjournal ▸ Message.SameFlow.refl _)
  have hreleased : Host.Holds ⟨s, waiting.memory⟩ ⟨s.release, waiting.memory⟩ :=
    State.Holds.release s
  unfold respond
  rw [Run.apply_bind, hcollect]
  dsimp only
  rw [Run.update_bind]
  refine Progress.Meets.of_earlier hreleased (Progress.Meets.bind
    (deliver_along env.allows_holds (env.callbacks_hold level) hvouched response) ?_)
  intro delivery later _ _
  exact Run.meets_update_bind (env.allows_holds.move (.quiet (.countResponse _ _)))
    (Work.along_pure _ _)

/-- A reply is mediated next, as a message that goes on with the one that was sent. Between the
claim and this call there are only the release and the new id, and neither calls anybody. -/
theorem respond_mediates (hrounds : 0 < env.rounds) (level : Nat)
    (hfind : waiting.state.registry.find? id = some call) (hpending : call.completion = .pending)
    (relatesTo : Option String) (envelope : Envelope) (properties : Properties) :
    ∃ mediated : Host σ,
      mediated.state.journal.claimed =
        (.response, call.marked) :: waiting.state.journal.claimed ∧
      mediated.state.journal.callbacks =
        (level, (call.outbound.reply waiting.state.freshMessageId.1 envelope properties).mediation)
          :: waiting.state.journal.callbacks ∧
      (respond (env.callbacks level) id { relatesTo, kind := .reply envelope, properties }
        waiting).Along True Host.Holds mediated := by
  obtain ⟨s, hcollect, hjournal, -, hnext⟩ := State.collect_of_find? hfind hpending
  have hfresh : s.release.freshMessageId.1 = waiting.state.freshMessageId.1 :=
    State.freshMessageId_of_nextId (s.release_nextId.trans hnext)
  have hlevel : (env.callbacks level).level = level := env.callbacks_level level
  have hmore : 0 < (env.callbacks level).rounds := env.callbacks_rounds level ▸ hrounds
  have hc := env.callbacks_hold level
  refine ⟨Host.entered level
    (call.outbound.reply waiting.state.freshMessageId.1 envelope properties).mediation
    ⟨s.release.freshMessageId.2, waiting.memory⟩, ?_, ?_, ?_⟩
  · change s.release.journal.claimed = _
    rw [s.release_views.1, hjournal]
    rfl
  · change (level, _) :: s.release.journal.callbacks = _
    rw [s.release_views.2, hjournal]
    rfl
  · unfold respond
    rw [Run.apply_bind, hcollect]
    dsimp only
    rw [Run.update_bind]
    unfold deliver
    dsimp only
    rw [Work.bind_apply, Run.apply_bind, hfresh]
    have hmediate := mediate_enters hc
      -- What mediation begins with is on record, since the callbacks of a level record themselves.
      (Environment.callbacks_enter env.allows_holds env.collaborators.askOnly_true level) hmore
      (call.outbound.reply waiting.state.freshMessageId.1 envelope properties)
      ⟨s.release.freshMessageId.2, waiting.memory⟩
    rw [hlevel] at hmediate
    refine Progress.Meets.bind
      (deliverReply_along_of env.allows_holds hc call.marked hmediate) ?_
    intro delivery later _ _
    exact Run.meets_update_bind (env.allows_holds.move (.quiet (.countResponse _ _)))
      (Work.along_pure _ _)

end Responding

/-! ## Legs -/

/-- A call that has been dispatched, and what its responses come to. -/
structure Environment.Correlates (env : Environment σ) (level : Nat) (msg : Message)
    (receipt : Receipt) (call : Call) (before dispatched : Host σ) : Prop where
  id : receipt.id = msg.callId
  /-- The call was registered, and then its message was handed to the transport. -/
  sent : ∃ occupancy moment,
    .entered level (.transmit call.outbound) moment :: .registered call :: .published occupancy ::
      before.state.journal <:+ dispatched.state.journal
  /-- The wire is the message, with its own id in the property if it needs one there. -/
  outbound : call.outbound = msg.withCorrelation
  wire : call.outbound = { msg with properties := call.outbound.properties }
  carries : ∀ name, call.outbound.properties.get? name =
    if msg.protocol.hasAddressing = false ∧ name = callIdProperty then some (.string msg.id)
    else msg.properties.get? name
  /-- A response that answers the wire names the call. -/
  named : ∀ response : Response, response.Answers call.outbound →
    response.callId? = some receipt.id
  /-- The call waits until its id is claimed. -/
  waits : ∀ waiting : Host σ, Host.Holds dispatched waiting →
    waiting.state.journal.claimCount receipt.id = before.state.journal.claimCount receipt.id →
    waiting.state.registry.find? receipt.id = some call
  /-- As long as it does, each response to it claims it, and no other call. -/
  claims : ∀ (place : Nat) (waiting : Host σ) (response : Response),
    waiting.state.registry.find? receipt.id = some call →
    ∃ claimed : Host σ,
      claimed.state.journal = .claimed .response call.marked :: waiting.state.journal ∧
      claimed.state.registry.calls =
        waiting.state.registry.calls.filter (·.id ≠ receipt.id) ∧
      (respond (env.callbacks place) receipt.id response waiting).Along True Host.Holds claimed
  /-- A reply becomes a message that goes on with the one on the wire. -/
  replied : ∀ (id : String) (envelope : Envelope) {properties : Properties},
    (properties.entries.map (·.1)).Nodup →
    (call.outbound.reply id envelope properties).IsReply call.outbound properties
  /-- The first thing that is done with a reply is to mediate this message. -/
  mediates : ∀ (place : Nat) (waiting : Host σ) (relatesTo : Option String) (envelope : Envelope)
    (properties : Properties), waiting.state.registry.find? receipt.id = some call →
    ∃ mediated : Host σ,
      mediated.state.journal.claimed =
        (.response, call.marked) :: waiting.state.journal.claimed ∧
      mediated.state.journal.callbacks =
        (place, (call.outbound.reply waiting.state.freshMessageId.1 envelope properties).mediation)
          :: waiting.state.journal.callbacks ∧
      (respond (env.callbacks place) receipt.id { relatesTo, kind := .reply envelope, properties }
        waiting).Along True Host.Holds mediated

/-- A message that has been dispatched gets its own responses, whatever it has been through. The
dispatch tells what was registered; the rest follows from what is registered there and not from how
the message came about, so legs can be chained. -/
theorem Environment.correlates {env : Environment σ} (hrounds : 0 < env.rounds) {level : Nat}
    {msg : Message} {expiry : Expiry} {receipt : Receipt} {before dispatched : Host σ}
    (h : (dispatch (env.callbacks level) msg expiry before).CanEnd Host.Holds (.ok (.ok receipt))
      dispatched) : ∃ call, env.Correlates level msg receipt call before dispatched := by
  obtain ⟨call, s, outcome, hid, houtbound, hpending, henroll, hsent⟩ := dispatch_registers h
  obtain ⟨hregister, -, hjournal, -⟩ := State.enroll_eq_ok henroll
  have hreceipt : receipt.id = call.id := State.receipt_id_of_enroll henroll
  have hlevel : (env.callbacks level).level = level := env.callbacks_level level
  have hentered := ((callbacks_enter env.allows_holds env.collaborators.askOnly_true
    level).transmit call.outbound ⟨s, before.memory⟩)
  rw [hlevel] at hentered
  have hlater : Host.Holds (Host.entered level (.transmit call.outbound) ⟨s, before.memory⟩)
      dispatched := (hentered.of_canEnd hsent).1
  refine ⟨call, ?_⟩
  constructor
  case id => exact hreceipt.trans hid
  case sent =>
    refine ⟨before.state.admission.acquire.state, s.moment, ?_⟩
    rw [← hjournal]
    exact hlater.suffix
  case outbound => exact houtbound
  case wire =>
    rw [houtbound]
    exact msg.withCorrelation_eq
  case carries =>
    rw [houtbound]
    exact msg.withCorrelation_get?
  case named =>
    intro response hanswers
    rw [houtbound] at hanswers
    rw [hreceipt, hid]
    exact Response.callId?_of_answers hanswers
  case waits =>
    intro waiting hwaiting hunclaimed
    rw [hreceipt] at hunclaimed ⊢
    have hfound : s.registry.find? call.id = some call := by
      rw [Registry.find?_register hregister, if_pos rfl]
    -- From the registration to the call of the transport, through that call, and on to where it
    -- waits.
    have hheld : s.Holds waiting.state := ((State.Holds.note s _).trans hlater).trans hwaiting
    refine hheld.waits call.id call hfound ?_
    rw [hunclaimed, hjournal]
    rfl
  case claims =>
    exact fun place waiting response hfind => respond_claims place hfind hpending response
  case replied =>
    exact fun id envelope _ hunique => call.outbound.reply_isReply id envelope hunique
  case mediates =>
    exact fun place waiting relatesTo envelope properties hfind =>
      respond_mediates hrounds place hfind hpending relatesTo envelope properties

/-! ## Chains of legs -/

/-- A leg: a message that was dispatched, and the reply that came for it, if one came. -/
structure Exchange (σ : Type) where
  sent : Message
  receipt : Receipt
  before : Host σ
  dispatched : Host σ
  /-- The engine when the reply comes. -/
  waiting : Host σ
  envelope : Envelope
  properties : Properties

namespace Exchange

/-- The message that the reply becomes. -/
def reply (x : Exchange σ) : Message :=
  x.sent.withCorrelation.reply x.waiting.state.freshMessageId.1 x.envelope x.properties

/-- The message was dispatched, and the transport took it. -/
def IsSent (x : Exchange σ) (env : Environment σ) (level : Nat) : Prop :=
  ∃ expiry, (dispatch (env.callbacks level) x.sent expiry x.before).CanEnd Host.Holds
    (.ok (.ok x.receipt)) x.dispatched

/-- The call still waits when the reply comes. -/
structure IsAnswered (x : Exchange σ) : Prop where
  later : Host.Holds x.dispatched x.waiting
  unclaimed : x.waiting.state.journal.claimCount x.receipt.id =
    x.before.state.journal.claimCount x.receipt.id

theorem reply_continues (x : Exchange σ) (id : String) :
    Message.Continues { x.reply with id } x.sent := by
  have hreply : Message.Continues { x.reply with id } x.sent.withCorrelation :=
    ⟨rfl, rfl, rfl, rfl, rfl⟩
  exact hreply.trans x.sent.withCorrelation_continues

theorem reply_sameFlow (x : Exchange σ) : x.reply.SameFlow x.sent :=
  (x.reply_continues x.reply.id).sameFlow

end Exchange

namespace Environment

variable {env : Environment σ} {level : Nat} {msg : Message} {legs : List (Exchange σ)}

/-- The reply of each leg is given an id that no leg had before and dispatched in turn, by whatever
engine. -/
inductive Chain (env : Environment σ) (level : Nat) : Message → List (Exchange σ) → Prop
  | last {x : Exchange σ} (hsent : x.IsSent env level) : Chain env level x.sent [x]
  | onward {x : Exchange σ} {id : String} {rest : List (Exchange σ)} (hsent : x.IsSent env level)
      (hanswered : x.IsAnswered) (hrest : Chain env level { x.reply with id } rest)
      (hnew : ∀ y ∈ rest, y.sent.id ≠ x.sent.id) : Chain env level x.sent (x :: rest)

/-- What it means that the legs of a chain find their calls. -/
structure Correlated (env : Environment σ) (level : Nat) (msg : Message)
    (legs : List (Exchange σ)) : Prop where
  correlates : ∀ x ∈ legs, ∃ call, env.Correlates level x.sent x.receipt call x.before x.dispatched
  /-- What names the call of one leg does not name the call of another. -/
  distinct : legs.Pairwise fun x y => x.receipt.id ≠ y.receipt.id
  /-- What was suspended at the beginning goes along. -/
  continues : ∀ x ∈ legs, x.sent.Continues msg

namespace Chain

theorem correlates (hrounds : 0 < env.rounds) (h : env.Chain level msg legs) :
    ∀ x ∈ legs, ∃ call,
      env.Correlates level x.sent x.receipt call x.before x.dispatched := by
  induction h with
  | @last x hsent =>
    obtain ⟨expiry, hdispatch⟩ := hsent
    exact fun y hy => List.mem_singleton.mp hy ▸ Environment.correlates hrounds hdispatch
  | @onward x id rest hsent _ _ _ ih =>
    obtain ⟨expiry, hdispatch⟩ := hsent
    intro y hy
    rcases List.mem_cons.mp hy with rfl | hlater
    · exact Environment.correlates hrounds hdispatch
    · exact ih y hlater

/-- What one leg leaves the next one is dispatched with. -/
theorem continues (h : env.Chain level msg legs) : ∀ x ∈ legs, x.sent.Continues msg := by
  induction h with
  | last => exact fun y hy => List.mem_singleton.mp hy ▸ .refl _
  | @onward x id _ _ _ _ _ ih =>
    intro y hy
    rcases List.mem_cons.mp hy with rfl | hlater
    · exact .refl _
    · exact (ih y hlater).trans (x.reply_continues id)

/-- Receipts go by the ids of the messages, and these differ. -/
theorem distinct (hrounds : 0 < env.rounds) (h : env.Chain level msg legs) :
    legs.Pairwise fun x y => x.receipt.id ≠ y.receipt.id := by
  induction h with
  | last => exact List.pairwise_singleton _ _
  | @onward x id rest hsent _ hrest hnew ih =>
    obtain ⟨expiry, hdispatch⟩ := hsent
    obtain ⟨call, hcall⟩ := Environment.correlates hrounds hdispatch
    refine List.pairwise_cons.mpr ⟨fun y hy hsame => hnew y hy ?_, ih⟩
    obtain ⟨other, hother⟩ := hrest.correlates hrounds y hy
    exact (congrArg CallId.text ((hcall.id.symm.trans hsame).trans hother.id)).symm

/-- Every reply finds its call, on every leg. -/
theorem correlated (hrounds : 0 < env.rounds) (h : env.Chain level msg legs) :
    env.Correlated level msg legs :=
  ⟨h.correlates hrounds, h.distinct hrounds, h.continues⟩

end Chain

end Environment

/-! ## Two legs without addressing -/

/-- A dispatch and, as soon as it is over, a reply without properties. -/
def Environment.exchange? (env : Environment σ) (msg : Message) (before : Host σ) :
    Option (Exchange σ) :=
  match dispatch (env.callbacks 1) msg {} before with
  | .ended (.ok (.ok receipt)) dispatched =>
    some { sent := msg, receipt, before, dispatched, waiting := dispatched
           envelope := ⟨.rest, .null, false⟩, properties := {} }
  | _ => none

theorem Environment.isSent_of_exchange? {env : Environment σ} {msg : Message} {before : Host σ}
    {x : Exchange σ} (h : env.exchange? msg before = some x) :
    x.sent = msg ∧ x.IsSent env 1 ∧ Host.Holds x.dispatched x.waiting := by
  unfold exchange? at h
  split at h
  · rename_i receipt dispatched hdispatch
    cases h
    exact ⟨rfl, ⟨{}, .of_ended hdispatch⟩, refl_of Host.Holds dispatched⟩
  · cases h

/-- The property carries the id of some leg that is long over. -/
def Message.stale : Message :=
  { Message.plain "a" with properties := ⟨[(callIdProperty, .string "z")]⟩ }

/-- Collaborators that do nothing. -/
def Environment.idle : Environment Unit where
  collaborators := .idle
  rounds := 1

/-- The id that a response names which echoes what was on the wire. -/
def Exchange.echoed? (x : Exchange σ) : Option CallId :=
  Response.callId? { kind := .acknowledged, properties := x.sent.withCorrelation.properties }

/-- The reply to "a" is dispatched as "b".  Each time an echo names the call that waits. -/
theorem correlated_twoLegs :
    ∃ legs, Environment.idle.Correlated 1 .stale legs ∧
      legs.map (fun x => (x.receipt.id.text, x.echoed?)) =
        [("a", some ⟨"a"⟩), ("b", some ⟨"b"⟩)] := by
  have hlegs : ((Environment.idle.exchange? .stale ⟨State.init {} {} 0, ()⟩).bind fun x =>
      (Environment.idle.exchange? { x.reply with id := "b" } x.waiting).map fun y =>
        (x.waiting.state.journal.claimCount x.receipt.id,
          x.before.state.journal.claimCount x.receipt.id,
          [x, y].map fun x => (x.receipt.id.text, x.echoed?))) =
      some (0, 0, [("a", some ⟨"a"⟩), ("b", some ⟨"b"⟩)]) := by decide +kernel
  obtain ⟨x, hx, hlater⟩ := Option.bind_eq_some_iff.mp hlegs
  obtain ⟨y, hy, hseen⟩ := Option.map_eq_some_iff.mp hlater
  simp only [Prod.mk.injEq] at hseen
  obtain ⟨hwaiting, hbefore, hnamed⟩ := hseen
  obtain ⟨hxsent, hxgoes, hxlater⟩ := Environment.isSent_of_exchange? hx
  obtain ⟨hysent, hygoes, -⟩ := Environment.isSent_of_exchange? hy
  have hnew : ∀ z ∈ [y], z.sent.id ≠ x.sent.id := by
    intro z hz
    rw [List.mem_singleton.mp hz, hysent, hxsent]
    exact (by decide : "b" ≠ "a")
  have hrest : Environment.idle.Chain 1 { x.reply with id := "b" } [y] := hysent ▸ .last hygoes
  have hchain : Environment.idle.Chain 1 .stale [x, y] :=
    hxsent ▸ .onward hxgoes ⟨hxlater, hwaiting.trans hbefore.symm⟩ hrest hnew
  exact ⟨[x, y], hchain.correlated (by decide), hnamed⟩

end Correlator
