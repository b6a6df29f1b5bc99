import Correlator.Engine.Delivery
import Correlator.Proofs.Endings
import Correlator.Proofs.Resuming
import Correlator.Proofs.Routing

/-!
# One response, one consequence

What a response comes to depends on its kind, on whether its call still waits, on the frames of the
call's message, on how mediation ends and on which handlers there are then. A failure while a reply
is mediated is not routed like a failed send: the handler on top runs, whoever it belongs to, and no
action clears the handlers. Each combination has one consequence, and it is told by the calls that
are made for it.

## Main definitions

* `Message.Mediates` : how a reply is mediated.
* `Call.Consequence` : what a response to a call comes to.
* `Call.Engages` : which collaborators it calls, and how often.

## Main results

* `respond_once` : a response to a call that waits has one consequence, and any other response has
  none.
-/

namespace Correlator

variable {σ : Type}

/-! ## Consequences -/

/-- The message is mediated by these calls; it is left so, and this is the result. Whether it is
started or resumed is decided by the frames alone. -/
inductive Message.Mediates (rounds : Nat) (msg : Message) :
    List Called → Message → Except ErrorChain Delivery → Prop
  | started {back : Message} {outcome : Outcome Bool} (hframes : msg.frames.items = []) :
      Mediates rounds msg [.startFlow msg back outcome] back (outcome.caught.map .started)
  | resumed {stages : List Stage} {left : Message} {outcome : Outcome Bool}
      (hframes : msg.frames.items ≠ []) (hstages : stages ≠ [])
      (hanswers : Answers rounds stages left outcome) :
      Mediates rounds msg (stages.map Stage.called) left (outcome.caught.map .resumed)

/-- What a response that has claimed the call comes to: nothing more, the routing of the failure
that it reports, or the mediation of the reply, which becomes a message with the new id. Only if
that fails is a fault consulted after mediation. -/
inductive Call.Consequence (rounds : Nat) (call : Call) (newId : String) (response : Response) :
    List Called → Delivery → Prop
  | acknowledged (hkind : response.kind = .acknowledged) :
      Consequence rounds call newId response [] .acknowledged
  | sendFailed {cause : Fault} {calls : List Called} {back : Message} {outcome : Disposition}
      (hkind : response.kind = .sendFailed cause)
      (hroutes : call.outbound.Routes cause call.expiry.action calls back outcome) :
      Consequence rounds call newId response calls (.sendFailed outcome)
  | mediated {envelope : Envelope} {calls : List Called} {left : Message} {delivery : Delivery}
      (hkind : response.kind = .reply envelope)
      (hmediates : (call.outbound.reply newId envelope response.properties).Mediates rounds calls
        left (.ok delivery)) :
      Consequence rounds call newId response calls delivery
  /-- The handlers are those that mediation has left. -/
  | mediationFailed {envelope : Envelope} {calls calls' : List Called} {left back : Message}
      {e : ErrorChain} {outcome : Disposition} (hkind : response.kind = .reply envelope)
      (hmediates : (call.outbound.reply newId envelope response.properties).Mediates rounds calls
        left (.error e))
      (hconsults : left.Consults (.mediation e) left.handlers.items calls' back outcome) :
      Consequence rounds call newId response (calls ++ calls') (.mediationFailed outcome)

namespace Called

def isStart : Called → Bool
  | .startFlow .. => true
  | _ => false

def isContinuation : Called → Bool
  | .continueFlow .. => true
  | _ => false

def isCompensation : Called → Bool
  | .compensate .. => true
  | _ => false

end Called

/-- Whether the response has content to mediate. -/
def ResponseContent.isReply : ResponseContent → Bool
  | .reply _ => true
  | _ => false

/-- Which collaborators a response to the call engages: a flow is started or units are resumed,
never both, and only for a reply; at most one handler runs, and nobody else is called. -/
structure Call.Engages (call : Call) (response : Response) (calls : List Called) : Prop where
  starts : calls.countP Called.isStart =
    if response.kind.isReply ∧ call.outbound.frames.items = [] then 1 else 0
  continues : (∃ c ∈ calls, c.isContinuation) ↔
    response.kind.isReply ∧ call.outbound.frames.items ≠ []
  compensates : calls.countP Called.isCompensation ≤ 1
  /-- The transport is not engaged. -/
  mediation : ∀ c ∈ calls, c.isStart ∨ c.isContinuation ∨ c.isCompensation

/-- The host after a response that nobody waits for. -/
def Host.unmatched (host : Host σ) (id : CallId) : Host σ :=
  { host with
    state := { host.state with
      registry := { host.state.registry with
        stats := { host.state.registry.stats with
          unmatched := host.state.registry.stats.unmatched + 1 } }
      metrics := { host.state.metrics with
        responses := { host.state.metrics.responses with
          unmatched := host.state.metrics.responses.unmatched + 1 } }
      notices := .unmatchedResponse id :: host.state.notices } }

/-- The call has been taken out and counted out, and nobody has been called yet. -/
structure Host.Frees (host : Host σ) (id : CallId) (freed : Host σ) : Prop where
  calls : freed.state.registry.calls = host.state.registry.calls.filter (·.id ≠ id)
  admission : freed.state.admission = host.state.admission.release?.getD host.state.admission
  memory : freed.memory = host.memory

/-- What a response to `id` comes to at this host. -/
structure Callbacks.RespondsOnce (callbacks : Callbacks σ) (id : CallId) (response : Response)
    (host : Host σ) : Prop where
  unmatched : (∀ call, host.state.registry.find? id = some call → call.completion ≠ .pending) →
    respond callbacks id response host = .ended .unmatched (host.unmatched id)
  matched : ∀ call, host.state.registry.find? id = some call → call.completion = .pending →
    ∃ freed, host.Frees id freed ∧
      ∀ rel, (respond callbacks id response host).Achieves rel fun delivery later =>
        ∃ calls, callbacks.Makes rel freed calls later ∧
          call.Consequence callbacks.rounds host.state.freshMessageId.1 response calls delivery ∧
          call.Engages response calls

/-! ## Which collaborators are engaged -/

namespace Called

theorem of_isContinuation {c : Called} (h : c.isContinuation) :
    c.isStart = false ∧ c.isCompensation = false := by
  cases c with
  | continueFlow => exact ⟨rfl, rfl⟩
  | _ => cases h

theorem of_isCompensation {c : Called} (h : c.isCompensation) :
    c.isStart = false ∧ c.isContinuation = false := by
  cases c with
  | compensate => exact ⟨rfl, rfl⟩
  | _ => cases h

/-- One handler is called at most, and nobody else. -/
structure Compensate (calls : List Called) : Prop where
  once : calls.length ≤ 1
  all : ∀ c ∈ calls, c.isCompensation

namespace Compensate

variable {calls : List Called}

theorem nil : Compensate [] := ⟨Nat.zero_le 1, by simp⟩

theorem starts (h : Compensate calls) : calls.countP isStart = 0 := by
  rw [List.countP_eq_zero]
  intro c hc hstart
  rw [(of_isCompensation (h.all c hc)).1] at hstart
  cases hstart

theorem no_continuation (h : Compensate calls) : ¬ ∃ c ∈ calls, c.isContinuation := by
  rintro ⟨c, hc, hcontinuation⟩
  rw [(of_isCompensation (h.all c hc)).2] at hcontinuation
  cases hcontinuation

end Compensate

end Called

section Engaging

variable {rounds : Nat} {msg left back : Message} {cause : Fault} {handlers : List Handler}
  {calls calls' : List Called} {call : Call} {response : Response}

theorem Message.Consults.compensate {outcome : Disposition}
    (h : msg.Consults cause handlers calls back outcome) : Called.Compensate calls := by
  refine ⟨h.length_le, fun c hc => ?_⟩
  cases h with
  | undeliverable => cases hc
  | handled => exact List.mem_singleton.mp hc ▸ rfl
  | handlerFailed => exact List.mem_singleton.mp hc ▸ rfl

theorem Message.Routes.compensate {action : ExpiryAction} {outcome : Disposition}
    (h : msg.Routes cause action calls back outcome) : Called.Compensate calls := by
  by_cases hdiscard : cause.isTimeout ∧ action = .discard
  · obtain ⟨rfl, -⟩ := h.discards hdiscard.1 hdiscard.2
    exact .nil
  · exact (h.consults hdiscard).compensate

/-- Without a reply there is nothing to mediate. -/
theorem Called.Compensate.engages (h : Called.Compensate calls)
    (hkind : response.kind.isReply = false) : call.Engages response calls := by
  constructor
  case starts => simp [h.starts, hkind]
  case continues => simp [h.no_continuation, hkind]
  case compensates => exact le_trans List.countP_le_length h.once
  case mediation => exact fun c hc => Or.inr (Or.inr (h.all c hc))

/-- A reply is mediated first, and then a handler may run. The frames of the call's message decide
which of the two ways of mediation it is. -/
theorem Message.Mediates.engages {result : Except ErrorChain Delivery}
    (h : msg.Mediates rounds calls left result) (hframes : msg.frames = call.outbound.frames)
    (hkind : response.kind.isReply = true) (h' : Called.Compensate calls') :
    call.Engages response (calls ++ calls') := by
  cases h with
  | @started back outcome hempty =>
    rw [hframes] at hempty
    constructor
    case starts =>
      show (Called.startFlow msg left outcome :: calls').countP Called.isStart = _
      rw [List.countP_cons_of_pos rfl, h'.starts, if_pos ⟨hkind, hempty⟩]
    case continues => simpa [hempty, Called.isContinuation] using h'.no_continuation
    case compensates =>
      have hfew : calls'.countP Called.isCompensation ≤ 1 :=
        le_trans List.countP_le_length h'.once
      simpa [Called.isCompensation] using hfew
    case mediation =>
      intro c hc
      rcases List.mem_cons.mp hc with rfl | hlater
      · exact Or.inl rfl
      · exact Or.inr (Or.inr (h'.all c hlater))
  | @resumed stages left outcome hfilled hstages hanswers =>
    rw [hframes] at hfilled
    have hall : ∀ c ∈ stages.map Stage.called, c.isContinuation := by
      intro c hc
      obtain ⟨stage, -, rfl⟩ := List.mem_map.mp hc
      rfl
    constructor
    case starts =>
      have hnone : (stages.map Stage.called).countP Called.isStart = 0 :=
        List.countP_eq_zero.mpr fun c hc => by simp [(Called.of_isContinuation (hall c hc)).1]
      rw [List.countP_append, hnone, h'.starts, if_neg fun hempty => hfilled hempty.2]
    case continues =>
      refine iff_of_true ?_ ⟨hkind, hfilled⟩
      obtain ⟨stage, hstage⟩ := List.exists_mem_of_ne_nil stages hstages
      exact ⟨stage.called, List.mem_append_left _ (List.mem_map_of_mem hstage), rfl⟩
    case compensates =>
      have hnone : (stages.map Stage.called).countP Called.isCompensation = 0 :=
        List.countP_eq_zero.mpr fun c hc => by simp [(Called.of_isContinuation (hall c hc)).2]
      rw [List.countP_append, hnone, Nat.zero_add]
      exact le_trans List.countP_le_length h'.once
    case mediation =>
      intro c hc
      rcases List.mem_append.mp hc with hstage | hlater
      · exact Or.inr (Or.inl (hall c hstage))
      · exact Or.inr (Or.inr (h'.all c hlater))

theorem Call.Consequence.engages {newId : String} {delivery : Delivery}
    (h : call.Consequence rounds newId response calls delivery) :
    call.Engages response calls := by
  cases h with
  | acknowledged hkind => exact Called.Compensate.nil.engages (by rw [hkind]; rfl)
  | sendFailed hkind hroutes => exact hroutes.compensate.engages (by rw [hkind]; rfl)
  | mediated hkind hmediates =>
    have hengages : call.Engages response (calls ++ []) :=
      hmediates.engages rfl (by rw [hkind]; rfl) .nil
    rw [List.append_nil] at hengages
    exact hengages
  | mediationFailed hkind hmediates hconsults =>
    exact hmediates.engages rfl (by rw [hkind]; rfl) hconsults.compensate

end Engaging

/-- Claiming a call marks it, which makes no difference here. -/
theorem Call.Consequence.of_marked {rounds : Nat} {call : Call} {newId : String}
    {response : Response} {calls : List Called} {delivery : Delivery}
    (h : call.marked.Consequence rounds newId response calls delivery) :
    call.Consequence rounds newId response calls delivery := by
  cases h with
  | acknowledged hkind => exact .acknowledged hkind
  | sendFailed hkind hroutes => exact .sendFailed hkind hroutes
  | mediated hkind hmediates => exact .mediated hkind hmediates
  | mediationFailed hkind hmediates hconsults => exact .mediationFailed hkind hmediates hconsults

/-! ## Responses -/

section Responding

variable {callbacks : Callbacks σ} {rel : Host σ → Host σ → Prop} {host later : Host σ}
  {msg left : Message} {call : Call} {id : CallId} {response : Response}

theorem mediate_makes {result : Except ErrorChain Delivery}
    (h : (mediate callbacks msg host).CanEnd rel (left, result) later) :
    ∃ calls, callbacks.Makes rel host calls later ∧ msg.Flows calls left ∧
      (0 < callbacks.rounds → msg.Mediates callbacks.rounds calls left result) := by
  unfold mediate at h
  by_cases hitems : msg.frames.items = []
  · have hempty : msg.frames.isEmpty = true := List.isEmpty_iff.mpr hitems
    rw [if_pos hempty] at h
    obtain ⟨⟨back, outcome⟩, mid, hcall, heq, rfl⟩ := Progress.canEnd_bind.mp h
    cases heq
    exact ⟨_, .single (c := .startFlow msg left outcome) hcall .mk,
      .call (.refl msg) (.none (.refl left)), fun _ => .started hitems⟩
  · have hfilled : ¬ msg.frames.isEmpty = true := fun hempty => hitems (List.isEmpty_iff.mp hempty)
    rw [if_neg hfilled] at h
    obtain ⟨⟨back, outcome⟩, mid, hresume, heq, rfl⟩ := Progress.canEnd_bind.mp h
    cases heq
    obtain ⟨stages, hstages, hmakes, hflows, hanswers⟩ := resume_makes hresume
    exact ⟨_, hmakes, hflows, fun hrounds => .resumed hitems (hstages hrounds hitems) hanswers⟩

/-- To settle a fault is to route it, with reports around it. -/
theorem settleFault_makes {cause : Fault} {route : Run σ (Message × Disposition)}
    {outcome : Disposition} {Q : List Called → Message → Disposition → Prop}
    (hroute : ∀ host later back outcome, (route host).CanEnd rel (back, outcome) later →
      ∃ calls, callbacks.Makes rel host calls later ∧ Q calls back outcome)
    (h : (settleFault callbacks call cause route host).CanEnd rel outcome later) :
    ∃ calls back, callbacks.Makes rel host calls later ∧ Q calls back outcome := by
  obtain ⟨back, ended, hrouted, rfl⟩ := canEnd_of_settleFault h
  obtain ⟨calls, hmakes, hQ⟩ := hroute _ _ _ _ hrouted
  exact ⟨calls, back, (hmakes.of_earlier .mk).to_later .mk, hQ⟩

/-- Whatever the response, the calls go on from the message of the call. What is said of flows
needs no bound on the frames; what is said of consequences needs it to let one unit run. -/
theorem deliver_makes {delivery : Delivery}
    (h : (deliver callbacks call response host).CanEnd rel delivery later) :
    ∃ calls left, callbacks.Makes rel host calls later ∧ call.outbound.Flows calls left ∧
      (0 < callbacks.rounds → call.Consequence callbacks.rounds host.state.freshMessageId.1
        response calls delivery) := by
  unfold deliver at h
  cases hkind : response.kind with
  | acknowledged =>
    rw [hkind] at h
    obtain ⟨rfl, rfl⟩ := h
    exact ⟨[], _, .none .mk, .none (.refl _), fun _ => .acknowledged hkind⟩
  | sendFailed cause =>
    rw [hkind] at h
    dsimp only at h
    rw [Run.update_bind] at h
    obtain ⟨outcome, mid, hsettle, rfl, rfl⟩ := Progress.canEnd_bind.mp h
    obtain ⟨calls, back, hmakes, hroutes⟩ :=
      settleFault_makes (fun _ _ _ _ hroute => routeFault_routes hroute) hsettle
    exact ⟨calls, back, hmakes.of_earlier .mk, hroutes.flows, fun _ => .sendFailed hkind hroutes⟩
  | reply envelope =>
    rw [hkind] at h
    dsimp only at h
    rw [Run.apply_bind] at h
    obtain ⟨⟨left, result⟩, mid, hmediate, hend⟩ := Progress.canEnd_bind.mp h
    obtain ⟨calls, hmakes, hflows, hmediates⟩ := mediate_makes hmediate
    have hmakes : callbacks.Makes rel host calls mid := hmakes.of_earlier .mk
    have hreply : call.outbound.Flows calls left :=
      hflows.of_sameFlow (call.outbound.reply_sameFlow _ _ _)
    cases result with
    | ok delivery =>
      obtain ⟨rfl, rfl⟩ := hend
      exact ⟨calls, left, hmakes, hreply, fun hrounds => .mediated hkind (hmediates hrounds)⟩
    | error e =>
      dsimp only at hend
      rw [Run.update_bind] at hend
      obtain ⟨outcome, settled, hsettle, rfl, rfl⟩ := Progress.canEnd_bind.mp hend
      obtain ⟨calls', back, hmakes', hconsults⟩ :=
        settleFault_makes (fun _ _ _ _ hrun => runHandler_consults hrun) hsettle
      -- The handler goes on from what mediation has left, not from the reply.
      refine ⟨calls ++ calls', back, hmakes.append (hmakes'.of_earlier .mk),
        hreply.append hconsults.flows, fun hrounds => ?_⟩
      exact .mediationFailed hkind (hmediates hrounds) hconsults

/-- Whoever has claimed a call and counted it out has freed its place. -/
theorem Host.frees_of_claim {claimer : Claimer} {t s : State}
    (hclaim : host.state.claim claimer id = (some call, t)) (hquiet : t.release.Quiet s) :
    host.Frees id { host with state := s } := by
  obtain ⟨hr, hadmission, -, -⟩ := State.claim_eq_some hclaim
  obtain ⟨waiting, -, -, -, hcalls⟩ := Registry.claim?_eq_some hr
  cases hquiet
  constructor
  case calls =>
    show t.release.registry.calls = _
    rw [State.release_registry, hcalls]
  case admission =>
    show t.release.admission = _
    rw [State.release_admission, hadmission]
  case memory => rfl

theorem respond_of_not_pending
    (h : ∀ call, host.state.registry.find? id = some call → call.completion ≠ .pending) :
    respond callbacks id response host = .ended .unmatched (host.unmatched id) := by
  unfold respond
  rw [Run.apply_bind, State.collect_of_not_pending h]
  rfl

/-- A response takes the call out that waits, and calls nobody before it has done so. From there on
its way is that of `deliver`. -/
theorem respond_makes (hfind : host.state.registry.find? id = some call)
    (hpending : call.completion = .pending) :
    ∃ freed, host.Frees id freed ∧ ∀ rel delivery later,
      (respond callbacks id response host).CanEnd rel delivery later →
      ∃ calls left, callbacks.Makes rel freed calls later ∧ call.outbound.Flows calls left ∧
        (0 < callbacks.rounds → call.Consequence callbacks.rounds host.state.freshMessageId.1
          response calls delivery) := by
  obtain ⟨s, hcollect, -, -, hnext⟩ := State.collect_of_find? hfind hpending
  obtain ⟨t, hclaim, hquiet⟩ := State.collect_eq_some hcollect
  have hfrees : host.Frees id { host with state := s.release } :=
    Host.frees_of_claim hclaim hquiet.release
  refine ⟨_, hfrees, fun rel delivery later h => ?_⟩
  unfold respond at h
  rw [Run.apply_bind, hcollect] at h
  dsimp only at h
  rw [Run.update_bind] at h
  obtain ⟨delivery, mid, hdeliver, rfl, rfl⟩ := Progress.canEnd_bind.mp h
  obtain ⟨calls, left, hmakes, hflows, hconsequence⟩ := deliver_makes hdeliver
  refine ⟨calls, left, hmakes.to_later .mk, hflows, fun hrounds => ?_⟩
  have hnumbered := hconsequence hrounds
  rw [State.freshMessageId_of_nextId (s.release_nextId.trans hnext)] at hnumbered
  exact hnumbered.of_marked

/-- A response has one consequence, whatever it is and whatever the collaborators do. All that is
asked of the bound on frames is that it lets one unit run. Whether the call still waits is decided
at the claim, and nothing later can change it. -/
theorem respond_once (hrounds : 0 < callbacks.rounds) (id : CallId) (response : Response)
    (host : Host σ) : callbacks.RespondsOnce id response host := by
  constructor
  case unmatched => exact respond_of_not_pending
  case matched =>
    intro call hfind hpending
    obtain ⟨freed, hfrees, hmakes⟩ := respond_makes hfind hpending
    refine ⟨freed, hfrees, fun rel => Progress.achieves fun delivery later h => ?_⟩
    obtain ⟨calls, _, hcalls, -, hconsequence⟩ := hmakes rel delivery later h
    exact ⟨calls, hcalls, hconsequence hrounds, (hconsequence hrounds).engages⟩

end Responding

/-! ## A unit that is gone -/

/-- Units fail, and handlers do what their names say. -/
def Environment.derailing : Environment (List Handler) where
  collaborators :=
    { Environment.patching.collaborators with
      continueFlow := fun _ msg => .done (msg, .failed { root := "unit is gone" }) }
  rounds := 1

/-- The call that waits has a suspended unit, and its message was last taken by the member whose
handler is on top. -/
def Call.regrouped : Call where
  id := ⟨"m"⟩
  outbound := { Message.regrouped with frames := ⟨[⟨.named "unit", .topLevel 1⟩]⟩ }
  registeredAt := 0
  deadline := 5

def Host.derailed : Host (List Handler) where
  state :=
    { State.init {} {} with
      registry := { calls := [.regrouped] }
      admission := { key := "key", limit := 10, inFlight := 1 } }
  memory := []

/-- The failed send of the message would pass the member's handler over. The failure to mediate its
reply does not. -/
theorem respond_once_derailed :
    ∃ freed calls later,
      Host.derailed.Frees ⟨"m"⟩ freed ∧
        (Environment.derailing.callbacks 1).Makes Eq freed calls later ∧
        Call.regrouped.Consequence 1 Host.derailed.state.freshMessageId.1
          { kind := .reply ⟨.rest, .null, false⟩ } calls
          (.mediationFailed (.handlerFailed (.endpoint "a" .loadBalance) "down")) ∧
        Call.regrouped.Engages { kind := .reply ⟨.rest, .null, false⟩ } calls ∧
        later.memory = [.endpoint "a" .loadBalance] := by
  have honce : (Environment.derailing.callbacks 1).RespondsOnce ⟨"m"⟩
      { kind := .reply ⟨.rest, .null, false⟩ } Host.derailed := respond_once (by decide) _ _ _
  have hend : ∃ later, (respond (Environment.derailing.callbacks 1) ⟨"m"⟩
      { kind := .reply ⟨.rest, .null, false⟩ } Host.derailed).CanEnd Eq
        (.mediationFailed (.handlerFailed (.endpoint "a" .loadBalance) "down")) later ∧
      later.memory = [.endpoint "a" .loadBalance] := ⟨_, ⟨rfl, rfl⟩, rfl⟩
  obtain ⟨later, hrespond, hmemory⟩ := hend
  obtain ⟨freed, hfrees, hconsequence⟩ := honce.matched .regrouped rfl rfl
  obtain ⟨calls, hmakes, hcomes, hengages⟩ := (hconsequence _).holds _ _ hrespond
  exact ⟨freed, calls, later, hfrees, hmakes, hcomes, hengages, hmemory⟩

end Correlator
