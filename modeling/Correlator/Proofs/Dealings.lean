import Correlator.Proofs.Posture
import Correlator.Proofs.Reach

/-!
# Every operation is made of deeds

If the callbacks at hand go deed by deed, so do the operations of the engine that call them, and
each operation finishes what it has begun.  The one callback that leaves something to its caller is
that of a fault handler, since what becomes of it is counted after it has come back.

It follows that a run that begins with a new engine goes deed by deed, and that whatever is in hand
at a site somebody waits for (`Environment.Leads.bears`).  Where nobody waits, all that was begun
has been finished.

## Main results

* `dispatch_concludes`, `respond_concludes`, `sweepAsOf_carries` : the operations that register or
  claim.
* `perform_concludes`, `sweepers_carry` : everything that can be asked for, and the workers.
* `Environment.Reaches.bears`, `Environment.Leads.bears` : a run has come from a new engine, and
  from any earlier site, deed by deed.
* `Environment.Reaches.borne` : what every deed keeps holds throughout every run.
-/

namespace Correlator

variable {σ α β : Type} {allowed : Operation → Prop} {callbacks : Callbacks σ}
  {d d' : Undertakings} {host : Host σ} {s' : State}

namespace Host.Does

theorem deed (h : State.Deed allowed d host.state d' s') :
    Does allowed d host d' { host with state := s' } := .of_deed h

/-- What needs nothing to have been begun can be done whatever is in hand. -/
theorem free (h : State.Deed allowed 0 host.state 0 s') :
    Does allowed d host d { host with state := s' } := by
  have hframed := State.Deeds.frame d (.of_deed h)
  rwa [add_zero] at hframed

theorem neutral (h : host.state.Neutral s') : Does allowed d host d { host with state := s' } :=
  free (.neutral h)

theorem life (h : State.Life allowed host.state s') :
    Does allowed d host d { host with state := s' } := free (.life h)

end Host.Does

namespace Run

variable {post : β → Undertakings → Host σ → Prop}

theorem carries_update_bind {change : State → State} {f : Unit → Run σ β}
    (h : Host.Does allowed d host d' { host with state := change host.state })
    (hf : (f () { host with state := change host.state }).Carries (Host.Does allowed) post d'
      { host with state := change host.state }) :
    ((update change >>= f) host).Carries (Host.Does allowed) post d host :=
  hf.of_earlier h

theorem carries_apply_bind {change : State → α × State} {f : α → Run σ β}
    (h : Host.Does allowed d host d' { host with state := (change host.state).2 })
    (hf : (f (change host.state).1 { host with state := (change host.state).2 }).Carries
      (Host.Does allowed) post d' { host with state := (change host.state).2 }) :
    ((apply change >>= f) host).Carries (Host.Does allowed) post d host :=
  hf.of_earlier h

theorem concludes_read : (read : Run σ State).Concludes (Host.Does allowed) := fun _ =>
  Progress.carries_ended ⟨rfl, trivial⟩

theorem concludes_update {change : State → State}
    (h : ∀ host : Host σ, Host.Does allowed 0 host 0 { host with state := change host.state }) :
    (update change : Run σ Unit).Concludes (Host.Does allowed) := fun host =>
  ⟨0, h host, rfl, trivial⟩

theorem concludes_apply {change : State → α × State}
    (h : ∀ host : Host σ,
      Host.Does allowed 0 host 0 { host with state := (change host.state).2 }) :
    (apply change : Run σ α).Concludes (Host.Does allowed) := fun host =>
  ⟨0, h host, rfl, trivial⟩

end Run

/-- The callbacks finish what they begin, save that a fault handler that has been called is still to
be counted.  Such a one is called only for a reason. -/
structure Callbacks.Carry (callbacks : Callbacks σ) (allowed : Operation → Prop) : Prop where
  transmit : ∀ wire, (callbacks.transmit wire).Concludes (Host.Does allowed)
  writeBack : ∀ answer, (callbacks.writeBack answer).Concludes (Host.Does allowed)
  startFlow : ∀ msg, (callbacks.startFlow msg).Concludes (Host.Does allowed)
  continueFlow : ∀ frame msg, (callbacks.continueFlow frame msg).Concludes (Host.Does allowed)
  compensate : ∀ handler cause msg host, host.state.journal.Compels allowed callbacks.level cause →
    (callbacks.compensate handler cause msg host).Carries (Host.Does allowed)
      (fun _ i _ => i = {.handler}) 0 host

/-! ## Fault routing -/

/-- A fault that runs a handler leaves nothing in hand: the handler is counted once it has come
back, and a fault without a handler is counted at once.  It is never discarded, since discarding is
decided before. -/
theorem runHandler_concludes (hc : callbacks.Carry allowed) {cause : Fault}
    (h : host.state.journal.Compels allowed callbacks.level cause) (msg : Message) :
    (runHandler callbacks msg cause host).Concludes (Host.Does allowed)
      (fun result _ => result.2 ≠ .discarded) host := by
  unfold runHandler
  cases msg.handlers.pop? with
  | none =>
    have hcounted : Host.Does allowed 0 host 0
        { host with state := host.state.countFault .undeliverable } := .deed (.notRun rfl)
    refine Run.carries_update_bind (Ledger.trans hcounted (.neutral (.notify _))) ?_
    exact Progress.carries_ended ⟨rfl, nofun⟩
  | some top =>
    -- From here until it is counted the handler is in hand.
    refine (hc.compensate top.1 cause _ host h).bind ?_
    rintro ⟨answer, outcome⟩ _ later rfl
    dsimp only
    cases outcome.caught with
    | ok _ =>
      refine Run.carries_update_bind (.deed (.ran rfl)) ?_
      exact Progress.carries_ended ⟨rfl, nofun⟩
    | error e =>
      have hcounted : Host.Does allowed {.handler} later 0
          { later with state := later.state.countFault (.handlerFailed top.1 e.message) } :=
        .deed (.ran rfl)
      refine Run.carries_update_bind (Ledger.trans hcounted (.neutral (.notify _))) ?_
      exact Progress.carries_ended ⟨rfl, nofun⟩

/-- A timeout that is discarded is only counted, and clears the handlers. -/
theorem routeFault_of_discard {cause : Fault} {action : ExpiryAction}
    (h : cause.isTimeout ∧ action = .discard) (msg : Message) (host : Host σ) :
    routeFault callbacks msg cause action host =
      .ended ({ msg with handlers := .empty, fault := some cause }, .discarded)
        { host with state := host.state.countFault .discarded } := by
  unfold routeFault
  rw [if_pos h]
  rfl

/-- Any other fault consults a handler. -/
theorem routeFault_of_not_discard {cause : Fault} {action : ExpiryAction}
    (h : ¬ (cause.isTimeout ∧ action = .discard)) (msg : Message) :
    routeFault callbacks msg cause action =
      runHandler callbacks { msg with handlers := msg.handlers.skipMember msg.lastMember }
        cause := by
  unfold routeFault
  rw [if_neg h]

section Settling

variable {call : Call} {cause : Fault}

theorem settleFault_carries (purpose : Purpose) (hcause : ¬ call.Discards cause)
    {route : Run σ (Message × Disposition)}
    (hroute : ∀ later : Host σ, later.state.journal.Compels allowed callbacks.level cause →
      (route later).Concludes (Host.Does allowed) (fun result _ => result.2 ≠ .discarded) later)
    (host : Host σ) :
    (settleFault callbacks call cause route host).Carries (Host.Does allowed)
      (fun _ i later => i = {.claimed purpose call} ∧ later.state.journal.EndsWith call cause)
      {.claimed purpose call} host := by
  unfold settleFault
  -- The note that the fault is about to be dealt with is what compels the handler.
  refine Run.carries_update_bind (.deed (.routing callbacks.level hcause)) ?_
  refine Progress.Concludes.bind (hroute _ ⟨rfl, rfl, hcause⟩) ?_
  rintro ⟨msg, outcome⟩ later houtcome
  refine Run.carries_update_bind (.deed (.routed callbacks.level msg hcause houtcome)) ?_
  exact Progress.carries_ended ⟨rfl, callbacks.level, msg, outcome, _, rfl⟩

/-- The failure of a claimed call is dealt with as its action says.  The call stays in hand, and the
journal ends with the note of how it was dealt with; whoever has claimed the call finishes it by
that. -/
theorem settleRouted_carries (hc : callbacks.Carry allowed) (purpose : Purpose) (msg : Message)
    (host : Host σ) :
    (settleFault callbacks call cause
        (routeFault callbacks msg cause call.expiry.action) host).Carries (Host.Does allowed)
      (fun _ i later => i = {.claimed purpose call} ∧ later.state.journal.EndsWith call cause)
      {.claimed purpose call} host := by
  by_cases hcause : call.Discards cause
  · -- Nobody gets in between, so the whole is one deed.
    unfold settleFault
    rw [Run.update_bind, Work.bind_apply, routeFault_of_discard (Fault.isDiscarded_iff.mp hcause)]
    refine ⟨_, .deed (.discarded callbacks.level msg hcause), rfl, ?_⟩
    exact ⟨callbacks.level, _, .discarded, _, rfl⟩
  · rw [routeFault_of_not_discard fun h => hcause (Fault.isDiscarded_iff.mpr h)]
    exact settleFault_carries purpose hcause (fun later h => runHandler_concludes hc h _) host

end Settling

/-! ## Dispatching -/

theorem abandon_carries (hc : callbacks.Carry allowed) (place : Nat) (id : CallId) (cause : Fault)
    (host : Host σ) :
    (abandon callbacks place id cause host).Carries (Host.Does allowed) (fun _ i _ => i = 0)
      {.sending id} host := by
  unfold abandon
  rw [Run.apply_bind]
  cases hclaim : host.state.claim (.failedSend place) id with
  | mk result s =>
    cases result with
    | none =>
      -- Somebody else has claimed the call meanwhile, and has it in hand.
      rw [State.claim_eq_none hclaim]
      exact ⟨0, .deed (.sent id), rfl⟩
    | some call =>
      dsimp only
      rw [Run.update_bind]
      refine Progress.Carries.of_earlier (Host.Does.deed (.abandoned hclaim)) ?_
      refine (settleRouted_carries hc .cleanUp _ _).bind ?_
      rintro _ _ later ⟨rfl, -⟩
      exact ⟨0, .deed (.settled nofun nofun), rfl⟩

/-- A call that is refused has been counted in and out. -/
theorem State.deeds_of_refused {s : State} {call : Call} {e : EngineError}
    (h : s.enroll call = (.error e, s')) : State.Deeds allowed 0 s 0 s' := by
  have release (t : State) : t.Neutral t.release := by
    unfold State.release
    split
    · exact .mk [.published _] fun e he => by rw [List.mem_singleton.mp he]; rfl
    · exact .notify _
  have acquire : s.Neutral s.acquire.2 := by
    unfold State.acquire
    dsimp only
    split <;> exact .mk [.published _] fun e he => by rw [List.mem_singleton.mp he]; rfl
  obtain ⟨-, rfl⟩ := State.enroll_eq_error h
  have hreported : State.Deeds allowed 0 s.acquire.2 0
      (s.acquire.2.notify (.duplicateRegistration call.id)) := .of_deed (.neutral (.notify _))
  refine .trans (.of_deed (.neutral acquire)) (hreported.trans ?_)
  exact .of_deed (.neutral (release _))

/-- What is left of a dispatch once its call has been registered, from there on. -/
theorem dispatch_carries_of_enrolled (hc : callbacks.Carry allowed) {msg : Message}
    {expiry : Expiry} {now : Millis} {receipt : Receipt} (hopen : host.state.acceptsCalls = true)
    (hclock : host.state.clock.read = .ok now) {call : Call}
    (hcall : msg.toCall expiry now (expiry.deadline now host.state.config.defaultTimeout) = call)
    (henroll : host.state.enroll call = (.ok receipt, s')) :
    (dispatch callbacks msg expiry host).Carries (Host.Does allowed) (fun _ i _ => i = 0)
      {.sending call.id} { host with state := s' } := by
  unfold dispatch
  rw [Run.read_bind, if_neg (by simp [hopen]), hclock]
  dsimp only
  rw [hcall, Run.apply_bind, henroll]
  dsimp only
  rw [Run.read_bind]
  refine Progress.Concludes.bind (hc.transmit _ _) fun outcome sent _ => ?_
  cases outcome.caught with
  | ok _ => exact ⟨0, .deed (.sent call.id), rfl⟩
  | error e =>
    refine Run.carries_update_bind (.neutral (.notify _)) ?_
    refine (abandon_carries hc _ _ _ _).bind ?_
    rintro _ _ later rfl
    exact Progress.carries_ended rfl

/-- A dispatch whose id is taken is refused at once, with what registering has left of the state:
the call has been counted in and out again. -/
theorem dispatch_of_duplicate {msg : Message} {expiry : Expiry} {now : Millis} {e : EngineError}
    {call : Call} (hopen : host.state.acceptsCalls = true)
    (hclock : host.state.clock.read = .ok now)
    (hcall : msg.toCall expiry now (expiry.deadline now host.state.config.defaultTimeout) = call)
    (henroll : host.state.enroll call = (.error e, s')) :
    dispatch callbacks msg expiry host = .ended (.ok (.error e)) { host with state := s' } := by
  unfold dispatch
  rw [Run.read_bind, if_neg (by simp [hopen]), hclock]
  dsimp only
  rw [hcall, Run.apply_bind, henroll]
  rfl

/-- An engine that takes no calls refuses a dispatch at once. -/
theorem dispatch_of_closed (hclosed : host.state.acceptsCalls = false) (msg : Message)
    (expiry : Expiry) :
    dispatch callbacks msg expiry host = .ended (.ok (.error .notRunning)) host := by
  unfold dispatch
  rw [Run.read_bind, if_pos (by simp [hclosed])]
  rfl

/-- A dispatch panics if the clock cannot be read, before it has touched anything. -/
theorem dispatch_of_broken {p : Panic} (hopen : host.state.acceptsCalls = true)
    (hclock : host.state.clock.read = .error p) (msg : Message) (expiry : Expiry) :
    dispatch callbacks msg expiry host = .ended (.error p) host := by
  unfold dispatch
  rw [Run.read_bind, if_neg (by simp [hopen]), hclock]
  rfl

theorem dispatch_concludes (hc : callbacks.Carry allowed) (msg : Message) (expiry : Expiry) :
    (dispatch callbacks msg expiry).Concludes (Host.Does allowed) := by
  intro host
  cases hopen : host.state.acceptsCalls with
  | false =>
    rw [dispatch_of_closed hopen]
    exact Work.concludes_pure _ host
  | true =>
    cases hclock : host.state.clock.read with
    | error p =>
      rw [dispatch_of_broken hopen hclock]
      exact Work.concludes_pure _ host
    | ok now =>
      generalize hcall : msg.toCall expiry now _ = call
      have hpending : call.completion = .pending := hcall ▸ rfl
      cases henroll : host.state.enroll call with
      | mk result s =>
        cases result with
        | error e =>
          rw [dispatch_of_duplicate hopen hclock hcall henroll]
          exact ⟨0, State.deeds_of_refused henroll, rfl, trivial⟩
        | ok receipt =>
          -- The registered call is in hand until the transport has come back.
          have hrest := dispatch_carries_of_enrolled hc hopen hclock hcall henroll
          refine Progress.Carries.of_earlier (Host.Does.deed (.enrolled hopen hpending henroll)) ?_
          exact hrest.mono fun _ _ _ hi => ⟨hi, trivial⟩

/-! ## Responses -/

/-- The induction is on the frames that may still be run. -/
theorem resumeWithin_concludes (hc : callbacks.Carry allowed) (rounds : Nat) (msg : Message) :
    (resumeWithin callbacks rounds msg).Concludes (Host.Does allowed) := by
  induction rounds generalizing msg with
  | zero =>
    unfold resumeWithin
    cases msg.frames.pop? with
    | none => exact Work.concludes_pure _
    | some top => exact Work.concludes_pure _
  | succ rounds ih =>
    unfold resumeWithin
    cases msg.frames.pop? with
    | none => exact Work.concludes_pure _
    | some top =>
      refine Work.concludes_bind (hc.continueFlow _ _) ?_
      rintro ⟨back, outcome⟩
      cases outcome with
      | returned verdict =>
        cases verdict with
        | proceed => exact ih back
        | halt => exact Work.concludes_pure _
      | failed e => exact Work.concludes_pure _
      | panicked p => exact Work.concludes_pure _

theorem mediate_concludes (hc : callbacks.Carry allowed) (msg : Message) :
    (mediate callbacks msg host).Concludes (Host.Does allowed)
      (fun result _ => result.2 ≠ .ok .unmatched) host := by
  have mapped {γ : Type} (f : γ → Delivery) (hf : ∀ a, f a ≠ .unmatched)
      (result : Except ErrorChain γ) : result.map f ≠ .ok .unmatched := by
    cases result with
    | ok a => exact fun h => hf a (Except.ok.inj h)
    | error e => nofun
  unfold mediate
  split
  · refine Progress.Concludes.bind (hc.startFlow msg host) fun result later _ => ?_
    exact Progress.carries_ended ⟨rfl, mapped .started (fun _ => nofun) _⟩
  · refine Progress.Concludes.bind (resumeWithin_concludes hc _ msg host) fun result later _ => ?_
    exact Progress.carries_ended ⟨rfl, mapped .resumed (fun _ => nofun) _⟩

/-- While a response is dealt with its call is in hand, whatever mediation and the fault handlers
do meanwhile.  What comes of it is never that the response was unmatched, so the count of responses
that follows is that of a response which had a call. -/
theorem deliver_carries (hc : callbacks.Carry allowed) (call : Call) (response : Response) :
    (deliver callbacks call response host).Carries (Host.Does allowed)
      (fun outcome i _ => i = {.claimed .response call} ∧ outcome ≠ .unmatched)
      {.claimed .response call} host := by
  unfold deliver
  cases response.kind with
  | acknowledged => exact Progress.carries_ended ⟨rfl, nofun⟩
  | sendFailed cause =>
    refine Run.carries_update_bind (.neutral (.notify _)) ?_
    refine (settleRouted_carries hc .response _ _).bind ?_
    rintro outcome _ later ⟨rfl, -⟩
    exact Progress.carries_ended ⟨rfl, nofun⟩
  | reply envelope =>
    refine Run.carries_apply_bind (.neutral (.mk [] fun _ => nofun)) ?_
    refine Progress.Concludes.bind (mediate_concludes hc _) ?_
    rintro ⟨back, result⟩ later hresult
    cases result with
    | ok outcome => exact Progress.carries_ended ⟨rfl, fun h => hresult (congrArg _ h)⟩
    | error e =>
      refine Run.carries_update_bind (.neutral (.notify _)) ?_
      -- A failure of mediation is no timeout.
      have hcause : ¬ call.Discards (.mediation e) := by
        rintro ⟨hkind | hcode, -⟩
        · cases hkind
        · exact absurd hcode (show FaultCode.mediationFailure ≠ 101504 by decide)
      refine (settleFault_carries .response hcause
        (fun later h => runHandler_concludes hc h _) _).bind ?_
      rintro outcome _ settled ⟨rfl, -⟩
      exact Progress.carries_ended ⟨rfl, nofun⟩

theorem State.claim?_of_collect {s s' : State} {claimer : Claimer} {id : CallId}
    (h : s.collect claimer id = (none, s')) : s.registry.claim? id = none := by
  cases hclaim : s.registry.claim? id with
  | none => rfl
  | some result => simp [collect, Registry.collect, hclaim] at h

/-- What is left of a response once it has claimed its call, from there on. -/
theorem respond_carries_of_collected (hc : callbacks.Carry allowed) {id : CallId} {call : Call}
    (hcollect : host.state.collect .response id = (some call, s')) (response : Response) :
    (respond callbacks id response host).Carries (Host.Does allowed)
      (fun outcome i _ => i = 0 ∧ outcome ≠ .unmatched) {.claimed .response call}
      { host with state := s'.release } := by
  unfold respond
  rw [Run.apply_bind, hcollect]
  dsimp only
  rw [Run.update_bind]
  refine (deliver_carries hc call response).bind ?_
  rintro outcome _ later ⟨rfl, houtcome⟩
  exact ⟨0, .deed (.responded call houtcome), rfl, houtcome⟩

theorem respond_concludes (hc : callbacks.Carry allowed) (id : CallId) (response : Response) :
    (respond callbacks id response).Concludes (Host.Does allowed) := by
  intro host
  cases hcollect : host.state.collect .response id with
  | mk result s =>
    cases result with
    | none =>
      -- The count of the registry and the metric are one deed, so that they cannot come apart.
      unfold respond
      rw [Run.apply_bind, hcollect]
      have hcounted :
          Host.Does allowed 0 host 0 { host with state := s.countResponse .unmatched } :=
        .deed (.unmatched hcollect)
      refine ⟨0, Ledger.trans hcounted ?_, rfl, trivial⟩
      exact .neutral (.notify (.unmatchedResponse id))
    | some call =>
      refine Progress.Carries.of_earlier (Host.Does.deed (.collected hcollect)) ?_
      exact (respond_carries_of_collected hc hcollect response).mono fun _ _ _ h => ⟨h.1, trivial⟩

theorem answerRequest_concludes (hc : callbacks.Carry allowed) (msg : Message) :
    (answerRequest callbacks msg).Concludes (Host.Does allowed) := by
  have written : (writeAnswer callbacks msg).Concludes (Host.Does allowed) := by
    unfold writeAnswer
    refine Work.concludes_bind (hc.writeBack msg) fun outcome => ?_
    cases outcome <;> exact Work.concludes_pure _
  unfold answerRequest
  cases msg.guard with
  | none => exact written
  | some guard =>
    dsimp only
    refine Work.concludes_bind ?_ fun before => ?_
    · exact Run.concludes_apply fun _ => .neutral (.mk [] fun _ => nofun)
    · split
      · refine Work.concludes_bind (Run.concludes_update fun _ => ?_) fun _ => Work.concludes_pure _
        exact .neutral (.mk [.answerRefused msg] fun e he => by
          rw [List.mem_singleton.mp he]; rfl)
      · exact written

/-! ## Sweeps -/

/-- A call that has been claimed by a sweep is counted out in the same go. -/
theorem settleExpired_carries (hc : callbacks.Carry allowed) (report : SweepSummary) {call : Call}
    {others : Undertakings} {host₀ host : Host σ}
    (h : Host.Does allowed d host₀ (others + {.claimed .expiry call})
      { host with state := host.state.expireCall }) :
    (settleExpired callbacks report call host).Carries (Host.Does allowed)
      (fun _ i _ => i = others) d host₀ := by
  unfold settleExpired
  rw [Run.update_bind]
  refine Progress.Carries.of_earlier h ?_
  -- An expired call is done with if there was nothing to do, or the journal says how it was done.
  have settled {later : Host σ} (hexpiry : call.expiry.action = .drop ∨
      later.state.journal.EndsWith call (.timeout call.deadline)) :
      Host.Does allowed (others + {.claimed .expiry call}) later others later := by
    have hsettled : State.Deed allowed {.claimed .expiry call} later.state 0 later.state :=
      .settled nofun fun _ => hexpiry
    have hframed := State.Deeds.frame others (.of_deed hsettled)
    rwa [add_zero] at hframed
  have hfault (action : ExpiryAction) (haction : call.expiry.action = action) :
      ((do
        Run.update (·.notify (.timedOut call.id action call.deadline))
        let cause := Fault.timeout call.deadline
        return report.count (← settleFault callbacks call cause
          (routeFault callbacks call.timedOut cause action)) : Run σ SweepSummary)
        { host with state := host.state.expireCall }).Carries (Host.Does allowed)
        (fun _ i _ => i = others) (others + {.claimed .expiry call})
        { host with state := host.state.expireCall } := by
    subst haction
    refine Run.carries_update_bind (.neutral (.notify _)) ?_
    refine (settleRouted_carries hc .expiry _ _).bind_framed ?_
    rintro outcome _ later ⟨rfl, hends⟩
    exact ⟨others, settled (.inr hends), rfl⟩
  cases haction : call.expiry.action with
  | drop => exact ⟨others, settled (.inl haction), rfl⟩
  | discard => exact hfault .discard haction
  | fault => exact hfault .fault haction

theorem State.claim?_of_claimExpired {s s' : State} {now : Millis} {place : Nat} {id : CallId}
    (h : s.claimExpired now place id = (none, s')) : s.registry.claim? id = none := by
  cases hclaim : s.registry.claim? id with
  | none => rfl
  | some result => simp [claimExpired, claim, hclaim] at h

theorem sweepOne_carries (hc : callbacks.Carry allowed) (now : Millis) (place : Nat)
    (report : SweepSummary) (id : CallId) (left : List CallId) (host : Host σ) :
    (sweepOne callbacks now place report id host).Carries (Host.Does allowed)
      (fun _ i _ => i = {.sweep now left}) {.sweep now (id :: left)} host := by
  unfold sweepOne
  rw [Run.apply_bind]
  cases hclaim : host.state.claimExpired now place id with
  | mk result s =>
    cases result with
    | none =>
      have hnone : host.state.registry.claim? id = none := State.claim?_of_claimExpired hclaim
      rw [State.claimExpired_eq_none hclaim]
      exact ⟨_, .deed (.overtaken hnone), rfl⟩
    | some call => exact settleExpired_carries hc _ (.deed (.expired hclaim))

/-- The induction is on the ids that are left. -/
theorem sweepAll_carries (hc : callbacks.Carry allowed) (now : Millis) (place : Nat)
    (ids : List CallId) (report : SweepSummary) (host : Host σ) :
    (ids.foldlM (sweepOne callbacks now place) report host).Carries (Host.Does allowed)
      (fun _ i _ => i = {.sweep now []}) {.sweep now ids} host := by
  induction ids generalizing report host with
  | nil => exact Progress.carries_ended rfl
  | cons id ids ih =>
    rw [List.foldlM_cons]
    refine (sweepOne_carries hc now place report id ids host).bind ?_
    rintro report _ later rfl
    exact ih report later

/-- A sweep is one undertaking from the lock to the end: the ids that it has listed are in hand, and
each is taken off as it is dealt with.  A worker that has begun an item has a sweep in hand until
one is in progress, be it its own or the one that makes it skip its turn (`hrelieved`). -/
theorem sweepAsOf_carries (hc : callbacks.Carry allowed)
    (hrelieved : ∀ h : Host σ, h.state.sweeping = true → Host.Does allowed d h 0 h) {now : Millis}
    (hnow : host.state.clock.read = .ok now ∨ allowed (.sweepAsOf now)) :
    (sweepAsOf callbacks now host).Carries (Host.Does allowed) (fun _ i _ => i = 0) d host := by
  cases hsweeping : host.state.sweeping with
  | true =>
    rw [sweepAsOf_of_locked hsweeping]
    exact ⟨0, hrelieved host hsweeping, rfl⟩
  | false =>
    rw [sweepAsOf_of_free hsweeping]
    have hperm := callbacks.arrangement.perm host.state.registry (host.state.registry.overdue now)
    let order := callbacks.arrangement.arrange host.state.registry (host.state.registry.overdue now)
    let locked : Host σ := { host with state := host.state.lock now }
    -- Locking takes the sweep in hand, and only then can what waited for it be let go.
    have hlocked : Host.Does allowed (d + 0) host (d + {.sweep now order}) locked :=
      State.Deeds.frame d (.of_deed (.locked hsweeping hnow hperm))
    have hbegun : Host.Does allowed ({.sweep now order} + d) locked ({.sweep now order} + 0)
        locked := Ledger.frame _ (hrelieved locked rfl)
    rw [add_zero] at hlocked hbegun
    rw [add_comm] at hbegun
    have hswept : Host.Does allowed d host {.sweep now order} locked :=
      Ledger.trans hlocked hbegun
    refine Progress.Carries.of_earlier hswept ?_
    refine (sweepAll_carries hc now _ _ {} _).bind ?_
    rintro report _ later rfl
    have hpurged : Host.Does allowed {.sweep now []} later {.sweep now []}
        { later with state := (later.state.purgeBindings now).2 } := .neutral (.sessions _)
    exact ⟨0, Ledger.trans hpurged (.deed (.unlocked now)), rfl⟩

/-- A sweep that cannot read the clock does not begin. -/
theorem sweep_carries (hc : callbacks.Carry allowed)
    (hrelieved : ∀ h : Host σ, h.state.sweeping = true → Host.Does allowed d h 0 h)
    (host : Host σ) :
    (sweep callbacks host).Carries (Host.Does allowed)
      (fun result i _ => i = if result.isOk then 0 else d) d host := by
  unfold sweep
  rw [Run.read_bind]
  cases hclock : host.state.clock.read with
  | error p => exact Progress.carries_ended rfl
  | ok now =>
    refine (sweepAsOf_carries hc hrelieved (.inl hclock)).bind ?_
    rintro report _ later rfl
    exact Progress.carries_ended rfl

/-! ## Everything that can be asked for -/

theorem stop_concludes (hstop : allowed .stop ∨ allowed .beginStop) :
    (stop : Run σ Unit).Concludes (Host.Does allowed) := by
  have hend : (Run.update ({ · with lifecycle := .stopped }) : Run σ Unit).Concludes
      (Host.Does allowed) := Run.concludes_update fun _ => .life (.stopped hstop)
  refine Work.concludes_bind (Run.concludes_apply fun _ => .life (.beginStop hstop)) ?_
  intro number
  cases number with
  | none => exact hend
  | some number => exact Work.concludes_bind (Work.concludes_await _) fun _ => hend

theorem Worker.mem_queue_of_submit {w : Worker Chore} {t : Chore}
    (h : (w.submit t).1 = .accepted) : t ∈ (w.submit t).2.queue := by
  unfold submit at h ⊢
  split
  · rename_i hfull
    rw [if_pos hfull] at h
    cases h
  · exact List.mem_append_right _ (List.mem_singleton_self t)

/-- A task that has been accepted is in the queue of the worker. -/
theorem State.mem_queue_of_submit {s : State} {number : Nat} {t : Chore}
    (h : (s.submit number t).1 = .accepted) :
    ∀ w ∈ (s.submit number t).2.workers, w.number = number → t ∈ w.queue := by
  unfold submit at h ⊢
  cases hfound : s.workers.find? (·.number = number) with
  | none =>
    rw [hfound] at h
    cases h
  | some found =>
    rw [hfound] at h
    have haccepted : t ∈ (found.submit t).2.queue := Worker.mem_queue_of_submit h
    intro w hmem hnumber
    obtain ⟨v, hv, rfl⟩ := List.mem_map.mp hmem
    split at hnumber
    · rw [if_pos ‹_›]
      exact haccepted
    · exact absurd hnumber ‹_›

theorem request_submits (t : Chore) (host : Host σ) :
    (request t host).Concludes (Host.Does allowed)
      (fun result later => result = .ok () → ∃ number, host.state.worker = some number ∧
        ∀ w ∈ later.state.workers, w.number = number → t ∈ w.queue) host := by
  unfold request
  rw [Run.read_bind]
  cases host.state.worker with
  | none => exact Progress.carries_ended ⟨rfl, nofun⟩
  | some number =>
    refine Work.concludes_await_if _ _ (fun h => ?_) host
    refine Run.carries_apply_bind (.life (.submit number t)) ?_
    have hqueued := @State.mem_queue_of_submit h.state number t
    cases hresult : (h.state.submit number t).1 with
    | accepted => exact Progress.carries_ended ⟨rfl, fun _ => ⟨number, rfl, hqueued hresult⟩⟩
    | full | closed => exact Progress.carries_ended ⟨rfl, nofun⟩

theorem request_concludes (t : Chore) : (request t : Run σ _).Concludes (Host.Does allowed) :=
  fun host => (request_submits t host).mono fun _ _ _ h => ⟨h.1, trivial⟩

theorem purgeBindingsNow_concludes :
    (purgeBindingsNow : Run σ _).Concludes (Host.Does allowed) := by
  refine Work.concludes_bind Run.concludes_read fun s => ?_
  cases s.clock.read with
  | error p => exact Work.concludes_pure _
  | ok now =>
    refine Work.concludes_bind (Run.concludes_apply fun _ => .neutral (.sessions _)) fun _ => ?_
    exact Work.concludes_pure _

theorem bindNow_concludes (session endpoint : String) :
    (bindNow session endpoint : Run σ _).Concludes (Host.Does allowed) := by
  refine Work.concludes_bind Run.concludes_read fun s => ?_
  cases s.clock.read with
  | error p => exact Work.concludes_pure _
  | ok now =>
    refine Work.concludes_bind (Run.concludes_update fun _ => .neutral (.sessions _)) fun _ => ?_
    exact Work.concludes_pure _

/-- What calls nobody and does not go past the engine. -/
theorem perform_concludes_of_inside {op : Operation} (hop : allowed op) (hindirect : op.IsIndirect)
    (hcalls : ¬ op.CallsOut) : (perform callbacks op).Concludes (Host.Does allowed) := by
  cases op with
  | dispatch | respond | answerRequest | sweep | sweepAsOf | resume | runHandler | routeFault =>
    exact absurd trivial hcalls
  | register | collect | claim | acquire | release => exact hindirect.elim
  | request t => exact request_concludes t
  | bindNow session endpoint => exact bindNow_concludes session endpoint
  | purgeBindingsNow => exact purgeBindingsNow_concludes
  | endpointNow session =>
    exact Work.concludes_bind Run.concludes_read fun _ => Work.concludes_pure _
  | start => exact Run.concludes_update fun _ => .life (.start hop)
  | stop => exact stop_concludes (.inl hop)
  | beginStop =>
    refine Work.concludes_bind (Run.concludes_update fun _ => .life (.stopAside hop)) fun _ => ?_
    refine Work.concludes_bind (Work.concludes_await _) fun _ => ?_
    exact Work.concludes_bind Run.concludes_read fun _ => Work.concludes_pure _
  | elapse duration =>
    exact Work.concludes_bind Run.concludes_read fun _ => Work.concludes_pause _ _
  | rest => exact Work.concludes_await _
  | compose envelope inbound =>
    intro host
    cases inbound <;>
      exact ⟨0, .neutral (.mk [] fun _ => nofun), rfl, trivial⟩
  | setClock instant => exact fun host => ⟨0, .deed (.timed hop (.set instant _)), rfl, trivial⟩
  | advanceClock duration =>
    exact fun host => ⟨0, .deed (.timed hop (.advance duration _)), rfl, trivial⟩
  | breakClock broken => exact fun host => ⟨0, .deed (.timed hop (.breaks broken _)), rfl, trivial⟩
  -- The others look at the state, or change what nobody goes by.
  | _ => exact fun host => ⟨0, .neutral (.mk [] fun _ => nofun), rfl, trivial⟩

/-- Whoever asks for an operation is a reason to call the fault handlers that it is about. -/
theorem perform_concludes (hc : callbacks.Carry allowed) {op : Operation} (hop : allowed op)
    (hindirect : op.IsIndirect)
    {m : Moment} {past : Journal} (hasked : host.state.journal = .asked callbacks.level m :: past) :
    (perform callbacks op host).Concludes (Host.Does allowed) (fun _ _ => True) host := by
  have relieved (h : Host σ) (_ : h.state.sweeping = true) : Host.Does allowed 0 h 0 h :=
    Ledger.refl 0 h
  have compelled {cause : Fault} (hconsults : op.Consults cause) :
      host.state.journal.Compels allowed callbacks.level cause := by
    rw [hasked]
    exact ⟨rfl, op, hop, hconsults⟩
  cases op with
  | dispatch msg expiry => exact dispatch_concludes hc msg expiry host
  | respond id response => exact respond_concludes hc id response host
  | answerRequest msg => exact answerRequest_concludes hc msg host
  | sweep =>
    refine (sweep_carries hc relieved host).mono fun result i _ hi => ⟨?_, trivial⟩
    rw [hi, ite_self]
  | sweepAsOf now =>
    exact (sweepAsOf_carries hc relieved (.inr hop)).mono fun _ _ _ hi => ⟨hi, trivial⟩
  | resume msg => exact resumeWithin_concludes hc _ msg host
  | runHandler msg cause =>
    exact (runHandler_concludes hc (compelled rfl) msg).mono fun _ _ _ h => ⟨h.1, trivial⟩
  | routeFault msg cause action =>
    change (routeFault callbacks msg cause action host).Concludes _ _ host
    by_cases hcause : cause.IsDiscarded action
    · rw [routeFault_of_discard (Fault.isDiscarded_iff.mp hcause)]
      exact ⟨0, .deed (.notRun rfl), rfl, trivial⟩
    · rw [routeFault_of_not_discard fun h => hcause (Fault.isDiscarded_iff.mpr h)]
      refine (runHandler_concludes hc (compelled ⟨rfl, hcause⟩) _).mono fun _ _ _ h => ?_
      exact ⟨h.1, trivial⟩
  | _ => exact perform_concludes_of_inside hop hindirect (fun h => h) host

/-- The induction is on the program. -/
theorem Program.run_concludes {answer : (op : Operation) → Run σ op.Answer}
    (hanswer : ∀ op, allowed op → (answer op).Concludes (Host.Does allowed)) {p : Program σ α}
    (hp : p.AsksOnly allowed) : (p.run answer).Concludes (Host.Does allowed) := by
  intro host
  induction p generalizing host with
  | done result => exact Work.concludes_pure result host
  | «recall» next ih => exact ih host.memory (hp host.memory) host
  | remember memory next ih =>
    have hsame : Host.Does allowed 0 host 0 { host with memory } := .refl
    exact Progress.Carries.of_earlier hsame (ih hp { host with memory })
  | ask op next ih =>
    refine Progress.Concludes.bind (hanswer op hp.1 host) fun a later _ => ?_
    exact ih a (hp.2 a) later

namespace Environment

variable {env : Environment σ} {depth : Nat}

/-- Notes that nobody goes by may stand around any work. -/
theorem noted_concludes {before after : Moment → Entry} {work : Run σ α} {post : α → Host σ → Prop}
    (hbefore : ∀ m, (before m).isNeutral = true) (hafter : ∀ m, (after m).isNeutral = true)
    (hpost : ∀ a (later : Host σ) e, post a later →
      post a { later with state := later.state.note e })
    (hwork : (work { host with state := host.state.note (before host.state.moment) }).Concludes
      (Host.Does allowed) post { host with state := host.state.note (before host.state.moment) }) :
    (noted before after work host).Concludes (Host.Does allowed) post host := by
  unfold noted
  refine Run.carries_update_bind (.neutral (.note (hbefore _))) ?_
  refine Progress.Concludes.bind hwork fun a later ha => ?_
  refine Run.carries_update_bind (.neutral (.note (hafter _))) ?_
  exact Progress.carries_ended ⟨rfl, hpost a later _ ha⟩

theorem serve_concludes (hindirect : ∀ op, allowed op → op.IsIndirect)
    (hc : callbacks.Carry allowed) {op : Operation} (hop : allowed op) :
    (serve callbacks op).Concludes (Host.Does allowed) := fun _ =>
  noted_concludes (fun _ => rfl) (fun _ => rfl) (fun _ _ _ h => h)
    (perform_concludes hc hop (hindirect op hop) rfl)

/-- Any callback but that of a fault handler is nobody's undertaking. -/
theorem call_concludes {level : Nat} {callback : Callback} {work : Run σ α}
    (hentered : ∀ m, (Entry.entered level callback m).isNeutral = true)
    (hwork : work.Concludes (Host.Does allowed)) :
    (call level callback work).Concludes (Host.Does allowed) := fun _ =>
  noted_concludes hentered (fun _ => rfl) (fun _ _ _ h => h) (hwork _)

theorem compensate_carries {level : Nat} {handler : Handler} {cause : Fault} {msg : Message}
    {work : Run σ α} (h : host.state.journal.Compels allowed level cause)
    (hwork : work.Concludes (Host.Does allowed)) :
    (call level (.compensate handler cause msg) work host).Carries (Host.Does allowed)
      (fun _ i _ => i = {.handler}) 0 host := by
  unfold call noted
  refine Run.carries_update_bind (.deed (.called handler msg h)) ?_
  refine Progress.Concludes.bind (hwork _) fun a later _ => ?_
  exact Run.carries_update_bind (.neutral (.note rfl)) (Progress.carries_ended rfl)

/-- The induction is on the level: what a collaborator asks for at one level is done with the
callbacks of the level below. -/
theorem callbacks_carry (hindirect : ∀ op, allowed op → op.IsIndirect)
    (hcol : env.collaborators.AskOnly allowed) (level : Nat) :
    (env.callbacks level).Carry allowed := by
  induction level with
  | zero =>
    unfold callbacks
    constructor
    · exact fun wire => call_concludes (fun _ => rfl) (Work.concludes_pure _)
    · exact fun answer => call_concludes (fun _ => rfl) (Work.concludes_pure _)
    · exact fun msg => call_concludes (fun _ => rfl) (Work.concludes_pure _)
    · exact fun frame msg => call_concludes (fun _ => rfl) (Work.concludes_pure _)
    · exact fun handler cause msg host h => compensate_carries h (Work.concludes_pure _)
  | succ level ih =>
    have inner {β : Type} {p : Program σ β} (hp : p.AsksOnly allowed) :
        (p.run fun op host => serve (env.callbacks level) op host).Concludes
          (Host.Does allowed) :=
      Program.run_concludes (fun _ hop => serve_concludes hindirect ih hop) hp
    unfold callbacks
    constructor
    · exact fun wire => call_concludes (fun _ => rfl) (inner (hcol.transmit wire))
    · exact fun answer => call_concludes (fun _ => rfl) (inner (hcol.writeBack answer))
    · exact fun msg => call_concludes (fun _ => rfl) (inner (hcol.startFlow msg))
    · exact fun frame msg => call_concludes (fun _ => rfl) (inner (hcol.continueFlow frame msg))
    · exact fun handler cause msg host h =>
        compensate_carries h (inner (hcol.compensate handler cause msg))

theorem run_concludes (hindirect : ∀ op, allowed op → op.IsIndirect)
    (hcol : env.collaborators.AskOnly allowed) (depth : Nat) {p : Program σ α}
    (hp : p.AsksOnly allowed) : (env.run depth p).Concludes (Host.Does allowed) :=
  Program.run_concludes
    (fun _ hop => serve_concludes hindirect (callbacks_carry hindirect hcol depth) hop) hp

end Environment

/-! ## Workers -/

/-- Whoever is dismissed is gone, whether it was there or not. -/
theorem Crew.dismiss_eq (callbacks : Callbacks σ) (left : Bool) (number : Nat) (host : Host σ) :
    (sweepers callbacks).dismiss left number host =
      { host with state := host.state.without number } := by
  unfold Crew.dismiss
  cases hworker : (sweepers callbacks).worker? number host with
  | some w => rfl
  | none =>
    have hall : host.state.workers.filter (·.number ≠ number) = host.state.workers := by
      refine List.filter_eq_self.mpr fun w hw => ?_
      simpa using List.find?_eq_none.mp hworker w hw
    rw [State.without, hall]

/-- A worker that has taken up an item finishes it, or dies at it.  Either way nothing is left in
hand: a sweep that could not read the clock, which is what a worker dies at, has not begun. -/
theorem sweeperItem_carries (hc : callbacks.Carry allowed) {w taken : Worker Chore}
    {item : Item Chore} (hw : w ∈ host.state.workers)
    (hduty : w.duty? host.state.time = some (.take item taken)) :
    (sweeperItem callbacks item
        { host with state := host.state.exchange w.number taken }).Carries (Host.Does allowed)
      ((sweepers callbacks).Rests (Host.Does allowed) (.worker w.number)) 0 host := by
  have dismissed {i : Undertakings} {later : Host σ}
      (hgone : Host.Does allowed i later 0 { later with state := later.state.without w.number }) :
      (sweepers callbacks).Rests (Host.Does allowed) (.worker w.number) false i later := by
    change Host.Does allowed i later 0 ((sweepers callbacks).dismiss false w.number later)
    rw [Crew.dismiss_eq]
    exact hgone
  have survived (later : Host σ) :
      (sweepers callbacks).Rests (Host.Does allowed) (.worker w.number) true 0 later :=
    State.Deeds.refl
  have swept (hitem : item ≠ .task .purgeBindings) :
      ((do return (← sweep callbacks).isOk : Run σ Bool)
        { host with state := host.state.exchange w.number taken }).Carries (Host.Does allowed)
        ((sweepers callbacks).Rests (Host.Does allowed) (.worker w.number)) 0 host := by
    refine Progress.Carries.of_earlier (Host.Does.deed (.begun hw hduty hitem)) ?_
    refine (sweep_carries hc (fun h hsweeping => .deed (.relieved _ hsweeping)) _).bind ?_
    rintro result i later rfl
    cases result with
    | ok summary => exact Progress.carries_ended (survived later)
    | error p => exact Progress.carries_ended (dismissed (.deed (.died w.number)))
  cases item with
  | tick => exact swept nofun
  | task t =>
    cases t with
    | sweep => exact swept nofun
    | purgeBindings =>
      refine Progress.Carries.of_earlier (Host.Does.life (.purge hw hduty)) ?_
      refine Progress.Concludes.bind (purgeBindingsNow_concludes _) fun result later _ => ?_
      cases result with
      | ok purged => exact Progress.carries_ended (survived later)
      | error p => exact Progress.carries_ended (dismissed (.life (.gone w.number)))

/-- The workers of an engine go deed by deed. -/
theorem sweepers_carry (hc : callbacks.Carry allowed) :
    (sweepers callbacks).Carries (Host.Does allowed) where
  setNow time host := .life (.pass time)
  left host w _ _ := by
    rw [Crew.dismiss_eq]
    exact .life (.gone w.number)
  died host w _ _ := by
    rw [Crew.dismiss_eq]
    exact .life (.gone w.number)
  work host w hw item taken hduty := sweeperItem_carries hc hw hduty

theorem sweepers_errandsCarry (callbacks : Callbacks σ) (hasked : allowed .beginStop) :
    (sweepers callbacks).ErrandsCarry (Host.Does allowed) := fun host _ =>
  Progress.Concludes.bind (stop_concludes (.inr hasked) host) fun _ _ _ =>
    Progress.carries_ended State.Deeds.refl

/-! ## Runs -/

/-- The site from which a run goes on, and those at which it arrives from there. -/
inductive Environment.Leads (env : Environment σ) (allowed : Operation → Prop) (depth : Nat)
    (site : Site (Host σ)) : Site (Host σ) → Prop
  | refl : Leads env allowed depth site site
  /-- A program from outside has been seen through. -/
  | completed {site' : Site (Host σ)} {α : Type} {p : Program σ α} (hp : p.AsksOnly allowed)
      (h : Leads env allowed depth site site') :
      Leads env allowed depth site (env.complete depth p site').2
  /-- The workers have gone on as far as they could. -/
  | settled {site' : Site (Host σ)} (h : Leads env allowed depth site site') :
      Leads env allowed depth site (env.settle depth site')

namespace Environment

variable {env : Environment σ} {depth : Nat} {site site' : Site (Host σ)}

/-- What is in hand at a site has come from what was in hand before, and nobody is on an errand
unless somebody may ask for one. -/
def Bears (env : Environment σ) (allowed : Operation → Prop) (depth : Nat) (d : Undertakings)
    (host : Host σ) (site : Site (Host σ)) : Prop :=
  site.Bears (sweepers (env.callbacks depth)) (Host.Does allowed) d host 0 ∧
    (allowed .beginStop ∨ host.state.stopsAside = 0 ∧ site.IsErrandless)

/-- Where nobody waits nothing is in hand. -/
theorem Bears.of_nobody (h : env.Bears allowed depth d host site) (hnobody : site.suspended = []) :
    Host.Does allowed d host 0 site.state := h.1.of_nobody hnobody

/-- Anew from a site at which somebody waits for what is in hand. -/
theorem Bears.restart (h : env.Bears allowed depth d host site) :
    ∃ d', Host.Does allowed d host d' site.state ∧ (site.suspended = [] → d' = 0) ∧
      env.Bears allowed depth d' site.state site := by
  obtain ⟨⟨d', hbear, hdeeds⟩, herrands⟩ := h
  rw [zero_add] at hdeeds
  refine ⟨d', hdeeds, fun hnobody => ?_, ⟨d', hbear, ?_⟩, ?_⟩
  · rw [hnobody] at hbear
    cases hbear
    rfl
  · rw [zero_add]
    exact State.Deeds.refl
  · refine or_iff_not_imp_left.mpr fun hunasked => ?_
    obtain ⟨hnone, herrandless⟩ := herrands.resolve_left hunasked
    exact ⟨State.Deeds.stopsAside hunasked hdeeds hnone, herrandless⟩

section

variable (hindirect : ∀ op, allowed op → op.IsIndirect)
  (hcol : env.collaborators.AskOnly allowed)

include hindirect hcol

/-- The crew goes deed by deed, with errands or without. -/
theorem crew_preserves (depth : Nat) (d : Undertakings)
    (hunasked : allowed .beginStop ∨ host.state.stopsAside = 0) (own : Undertakings) :
    (sweepers (env.callbacks depth)).Preserves fun site =>
      site.Bears (sweepers (env.callbacks depth)) (Host.Does allowed) d host own ∧
        (allowed .beginStop ∨ site.IsErrandless) := by
  have hcrew := sweepers_carry (callbacks_carry hindirect hcol depth)
  -- Errands are only those of a stop that nobody waits for.
  by_cases hasked : allowed .beginStop
  · have hpreserves := hcrew.preserves (sweepers_errandsCarry _ hasked) d host own
    exact
      { callAll := fun h => ⟨hpreserves.callAll h.1, .inl hasked⟩
        released := fun h => ⟨hpreserves.released h.1, .inl hasked⟩
        act := fun h hline => ⟨hpreserves.act h.1 hline, .inl hasked⟩
        setTime := fun time h => ⟨hpreserves.setTime time h.1, .inl hasked⟩ }
  · simp only [hasked, false_or]
    refine hcrew.preserves_errandless (fun hdeeds => ?_) own
    exact State.Deeds.stopsAside hasked hdeeds (hunasked.resolve_left hasked)

/-- What a program from outside makes of the site, and what it has to say of its own end. -/
theorem complete_bears_of {p : Run σ α} {post : α → Host σ → Prop}
    (h : env.Bears allowed depth d host site)
    (hp : (p site.state).Concludes (Host.Does allowed) post site.state) :
    env.Bears allowed depth d host
        ((sweepers (env.callbacks depth)).perform env.rounds p site).2 ∧
      post ((sweepers (env.callbacks depth)).perform env.rounds p site).1
        ((sweepers (env.callbacks depth)).perform env.rounds p site).2.state := by
  obtain ⟨hbears, herrands⟩ := h
  have hcrew := crew_preserves hindirect hcol depth d (herrands.imp_right And.left)
  obtain ⟨_, hlater, herrandless, rfl, hpost⟩ := Crew.complete_bears hcrew
    (fun s hC => hC.imp_right fun h => h.setState s) env.rounds hbears
    (herrands.imp_right And.right) hp
  refine ⟨⟨hlater, ?_⟩, hpost⟩
  exact or_iff_not_imp_left.mpr fun hunasked =>
    ⟨(herrands.resolve_left hunasked).1, herrandless.resolve_left hunasked⟩

theorem complete_bears {p : Program σ α} (hp : p.AsksOnly allowed)
    (h : env.Bears allowed depth d host site) :
    env.Bears allowed depth d host (env.complete depth p site).2 :=
  (complete_bears_of hindirect hcol h (run_concludes hindirect hcol depth hp site.state)).1

theorem settle_bears (h : env.Bears allowed depth d host site) :
    env.Bears allowed depth d host (env.settle depth site) := by
  obtain ⟨hbears, herrands⟩ := h
  have hcrew := crew_preserves hindirect hcol depth d (herrands.imp_right And.left) 0
  obtain ⟨hlater, herrandless⟩ :=
    hcrew.settle env.rounds ⟨hbears, herrands.imp_right And.right⟩
  refine ⟨hlater, or_iff_not_imp_left.mpr fun hunasked => ?_⟩
  exact ⟨(herrands.resolve_left hunasked).1, herrandless.resolve_left hunasked⟩

/-- Whatever is in hand at a site, a run leads on from there deed by deed. -/
theorem Leads.bears (h : env.Leads allowed depth site site')
    (hsite : env.Bears allowed depth d host site) : env.Bears allowed depth d host site' := by
  induction h with
  | refl => exact hsite
  | completed hp _ ih => exact complete_bears hindirect hcol hp ih
  | settled _ ih => exact settle_bears hindirect hcol ih

/-- A run has come from a new engine deed by deed, and somebody waits for each thing that is in
hand.  The induction is on the run; what each program from outside and each worker adds is a series
of deeds that begins with nothing in hand. -/
theorem Reaches.bears (h : env.Reaches allowed depth site) :
    ∃ config clock nextId memory,
      env.Bears allowed depth 0 ⟨State.init config clock nextId, memory⟩ site := by
  induction h with
  | fresh config clock nextId memory =>
    exact ⟨config, clock, nextId, memory, ⟨0, .nil, State.Deeds.refl⟩, .inr ⟨rfl, .fresh _⟩⟩
  | completed hp _ ih =>
    obtain ⟨config, clock, nextId, memory, hsite⟩ := ih
    exact ⟨config, clock, nextId, memory, complete_bears hindirect hcol hp hsite⟩
  | settled _ ih =>
    obtain ⟨config, clock, nextId, memory, hsite⟩ := ih
    exact ⟨config, clock, nextId, memory, settle_bears hindirect hcol hsite⟩

/-- What a new engine has and every deed keeps, holds throughout every run, of what is in hand.
This is how an invariant of a run is shown: by what one deed does to it, with what it takes up and
what it leaves, whatever else is in hand. -/
theorem Reaches.borne {P : Undertakings → State → Prop}
    (hinit : ∀ config clock nextId, P 0 (State.init config clock nextId))
    (hdeed : ∀ {others need left s s'}, State.Deed allowed need s left s' → P (others + need) s →
      P (others + left) s')
    (h : env.Reaches allowed depth site) :
    ∃ d, (site.suspended = [] → d = 0) ∧ P d site.state.state := by
  obtain ⟨config, clock, nextId, memory, hbears⟩ := h.bears hindirect hcol
  obtain ⟨d, hdeeds, hnobody, -⟩ := hbears.restart
  exact ⟨d, hnobody, State.Deeds.keeps hdeed hdeeds (hinit config clock nextId)⟩

end

end Environment

end Correlator
