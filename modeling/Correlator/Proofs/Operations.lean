import Correlator.Engine.Delivery
import Correlator.Engine.Dispatch
import Correlator.Engine.Lifecycle
import Correlator.Proofs.Move

/-!
# Every operation is made of moves

The engine is written for any callbacks.  If the callbacks at hand go along a relation that takes in
all moves, so do the operations of the engine that call them.  So a property of all runs is checked
on the moves alone.

There are two places where a move needs to know more than the state at hand.  A sweep and the
clean-up after a failed send claim long after they listed or registered, and what they did then is
still in the journal, since that only grows.  And a message that is passed on to a collaborator has
a reason in what was noted last, so the callbacks ask for that, and those that hand a message back
give a reason for it.

## Main results

* `dispatch_along`, `respond_along`, `sweepAsOf_along` : the three operations that register or
  claim.
* `answerRequest_along` : marking a guard and calling the transport are one move.
* `perform_along_of_apart` : the operations that call nobody leave books and guards alone, apart
  from those that ask for just that.
-/

namespace Correlator

open Relation

variable {σ : Type}

/-! ## Callbacks -/

/-- The callbacks go along the relation if they are made with messages that the journal vouches
for. Writing an answer comes in one go with what was done just before, because the mark of the
guard and the call of the transport must not be told apart. -/
structure Callbacks.Along (callbacks : Callbacks σ) (c : Collaborators σ) (patient : Prop)
    (rel : Host σ → Host σ → Prop) : Prop where
  transmit : ∀ {wire : Message} {host : Host σ}, host.state.journal.Vouches c wire →
    (callbacks.transmit wire host).Along patient rel host
  writeBack : ∀ {answer : Message} {host₀ host : Host σ},
    rel host₀ { host with
      state := host.state.note (.entered callbacks.level (.writeBack answer) host.state.moment) } →
    (callbacks.writeBack answer host).Along patient rel host₀
  startFlow : ∀ {msg : Message} {host : Host σ}, host.state.journal.Vouches c msg →
    (callbacks.startFlow msg host).Meets patient rel
      (fun result later => later.state.journal.Vouches c result.1) host
  continueFlow : ∀ (frame : Frame) {msg : Message} {host : Host σ},
    host.state.journal.Vouches c msg →
    (callbacks.continueFlow frame msg host).Meets patient rel
      (fun result later => later.state.journal.Vouches c result.1) host
  compensate : ∀ (handler : Handler) (cause : Fault) {msg : Message} {host : Host σ},
    host.state.journal.Vouches c msg →
    (callbacks.compensate handler cause msg host).Along patient rel host

variable {env : Environment σ} {callbacks : Callbacks σ} {patient : Prop}
  {allowed : Operation → Prop} {rel : Host σ → Host σ → Prop} [IsPreorder (Host σ) rel]

/-! ## Fault routing -/

theorem runHandler_along (ha : env.Allows patient allowed rel)
    (hc : callbacks.Along env.collaborators patient rel) {msg : Message} {host : Host σ}
    (hmsg : host.state.journal.Vouches env.collaborators msg) (cause : Fault) :
    (runHandler callbacks msg cause host).Along patient rel host := by
  unfold runHandler
  cases msg.handlers.pop? with
  | none =>
    refine Run.meets_update_bind ?_ (Work.along_pure _ _)
    exact ha.move (.quiet (.notify (.countFault _ _)))
  | some top =>
    refine Progress.Along.bind (hc.compensate top.1 cause (hmsg.sameFlow ⟨rfl, rfl⟩)) ?_
    rintro ⟨answer, outcome⟩ later -
    dsimp only
    cases outcome.caught with
    | ok _ =>
      refine Run.meets_update_bind ?_ (Work.along_pure _ _)
      exact ha.move (.quiet (.countFault _ _))
    | error e =>
      refine Run.meets_update_bind ?_ (Work.along_pure _ _)
      exact ha.move (.quiet (.notify (.countFault _ _)))

theorem routeFault_along (ha : env.Allows patient allowed rel)
    (hc : callbacks.Along env.collaborators patient rel) {msg : Message} {host : Host σ}
    (hmsg : host.state.journal.Vouches env.collaborators msg) (cause : Fault)
    (action : ExpiryAction) :
    (routeFault callbacks msg cause action host).Along patient rel host := by
  unfold routeFault
  by_cases hdiscard : cause.isTimeout ∧ action = .discard
  · rw [if_pos hdiscard]
    refine Run.meets_update_bind ?_ (Work.along_pure _ _)
    exact ha.move (.quiet (.countFault _ _))
  · rw [if_neg hdiscard]
    refine runHandler_along ha hc ?_ cause
    exact hmsg.sameFlow ⟨rfl, rfl⟩

/-- Dealing with a fault begins with a note; where that is taken to is up to the caller.  The note
does not come between a message and its reason. -/
theorem settleFault_along (ha : env.Allows patient allowed rel) {call : Call} {cause : Fault}
    {route : Run σ (Message × Disposition)} {msg : Message} {host₀ host : Host σ}
    (hmsg : host.state.journal.Vouches env.collaborators msg)
    (hroute : ∀ {later : Host σ}, later.state.journal.Vouches env.collaborators msg →
      (route later).Along patient rel later)
    (h : rel host₀
      { host with state := host.state.note (.routing callbacks.level call cause) }) :
    (settleFault callbacks call cause route host).Along patient rel host₀ := by
  unfold settleFault
  rw [Run.update_bind]
  refine Progress.Meets.of_earlier h (Progress.Meets.bind (hroute hmsg) ?_)
  rintro ⟨answer, outcome⟩ later - -
  exact Run.meets_update_bind (ha.move (.routed _ _ _ _ _)) (Work.along_pure _ _)

/-! ## Dispatching -/

theorem State.vouches_release {c : Collaborators σ} {s : State} {msg : Message}
    (h : s.journal.Vouches c msg) : s.release.journal.Vouches c msg := by
  rcases s.release_journal with hsame | ⟨state, hpublished⟩
  · rw [hsame]
    exact h
  · rw [hpublished]
    exact h

/-- Whoever has claimed a call has a reason to have its message. -/
theorem State.vouches_of_claim {c : Collaborators σ} {s s' : State} {claimer : Claimer}
    {id : CallId} {call : Call} (h : s.claim claimer id = (some call, s')) :
    s'.journal.Vouches c call.outbound := by
  rw [(claim_eq_some h).2.2.1]
  exact .refl _

/-- The clean-up comes after its dispatch has registered the call `own`, and knows where. That it
may claim whatever waits under the id by then is no matter here: the reason for the claim is the
registration, which is still in the journal. -/
theorem abandon_along (ha : env.Allows patient allowed rel)
    (hc : callbacks.Along env.collaborators patient rel) {own : Call} {prior : Journal}
    (e : ErrorChain) {host : Host σ} (hown : .registered own :: prior <:+ host.state.journal) :
    (abandon callbacks (prior.length + 1) own.id (.failedSend e) host).Along patient rel host := by
  unfold abandon
  rw [Run.apply_bind]
  cases hclaim : host.state.claim (.failedSend (prior.length + 1)) own.id with
  | mk result s =>
    cases result with
    | none => exact State.claim_eq_none hclaim ▸ Work.along_pure () host
    | some call =>
      dsimp only
      rw [Run.update_bind]
      refine Progress.Along.bind ?_ fun _ later _ => Work.along_pure () later
      refine settleFault_along ha (State.vouches_release (State.vouches_of_claim hclaim))
        (fun hmsg => routeFault_along ha hc hmsg _ _) ?_
      exact ha.move (.abandoned (.failedSend (Journal.upTo_of_suffix hown) rfl) hclaim)

theorem dispatch_along (ha : env.Allows patient allowed rel)
    (hc : callbacks.Along env.collaborators patient rel) (msg : Message) (expiry : Expiry) :
    (dispatch callbacks msg expiry).Along patient rel := by
  intro host
  unfold dispatch
  rw [Run.read_bind]
  split
  · exact Work.along_pure _ host
  · cases hclock : host.state.clock.read with
    | error p => exact Work.along_pure _ host
    | ok now =>
      dsimp only
      rw [Run.apply_bind]
      generalize hcall : msg.toCall expiry now _ = call
      have hpending : call.completion = .pending := hcall ▸ rfl
      cases henroll : host.state.enroll call with
      | mk result s =>
        cases result with
        | error e =>
          exact Progress.Meets.of_earlier (ha.move (.refused henroll)) (Work.along_pure _ _)
        | ok receipt =>
          -- The registration stays in the journal while the transport does as it likes.
          have hjournal := (State.enroll_eq_ok henroll).2.2.1
          refine Progress.Meets.of_earlier (ha.move (.registered hpending henroll)) ?_
          dsimp only
          rw [Run.read_bind, State.place, hjournal]
          have hwire : s.journal.Vouches env.collaborators call.outbound :=
            hjournal ▸ Message.SameFlow.refl _
          refine Progress.Meets.bind (hc.transmit hwire) fun outcome sent hsent _ => ?_
          cases hsend : outcome.caught with
          | ok _ => exact Work.along_pure _ sent
          | error e =>
            dsimp only
            have hreported : rel sent
                { sent with state := sent.state.notify (.dispatchFailed call.id e) } :=
              ha.move (.quiet (.notify (.refl _)))
            refine Run.meets_update_bind hreported ?_
            refine Progress.Along.bind (abandon_along ha hc e ?_) fun _ later _ =>
              Work.along_pure _ later
            have hsuffix : s.journal <:+ sent.state.journal := ha.suffix hsent
            exact hjournal ▸ hsuffix

/-! ## Responses -/

/-- Once a unit has gone on, further frames are run or left. The message that comes back has a
reason by then, because the callback that handed it back gives one. -/
theorem resumeWithin_meets_after {rounds : Nat} {msg : Message} {host₀ host : Host σ}
    {frame : Frame} {below : Suspensions} (hpop : msg.frames.pop? = some (frame, below))
    (hcall : (callbacks.continueFlow frame { msg with frames := below } host).Meets patient rel
      (fun result later => later.state.journal.Vouches env.collaborators result.1) host₀)
    (hrest : ∀ {back : Message} {later : Host σ},
      later.state.journal.Vouches env.collaborators back →
      (resumeWithin callbacks rounds back later).Meets patient rel
        (fun result later => later.state.journal.Vouches env.collaborators result.1) later) :
    (resumeWithin callbacks (rounds + 1) msg host).Meets patient rel
      (fun result later => later.state.journal.Vouches env.collaborators result.1) host₀ := by
  unfold resumeWithin
  rw [hpop]
  refine Progress.Meets.bind hcall ?_
  rintro ⟨back, outcome⟩ later - hback
  cases outcome with
  | returned verdict =>
    cases verdict with
    | proceed => exact hrest hback
    | halt => exact ⟨refl_of rel later, hback⟩
  | failed e => exact ⟨refl_of rel later, hback⟩
  | panicked p => exact ⟨refl_of rel later, hback⟩

theorem resumeWithin_meets (hc : callbacks.Along env.collaborators patient rel) (rounds : Nat)
    {msg : Message} {host : Host σ} (hmsg : host.state.journal.Vouches env.collaborators msg) :
    (resumeWithin callbacks rounds msg host).Meets patient rel
      (fun result later => later.state.journal.Vouches env.collaborators result.1) host := by
  induction rounds generalizing msg host with
  | zero =>
    unfold resumeWithin
    cases msg.frames.pop? with
    | none => exact ⟨refl_of rel host, hmsg⟩
    | some top => exact ⟨refl_of rel host, hmsg⟩
  | succ rounds ih =>
    cases hpop : msg.frames.pop? with
    | none =>
      unfold resumeWithin
      rw [hpop]
      exact ⟨refl_of rel host, hmsg⟩
    | some top =>
      exact resumeWithin_meets_after hpop (hc.continueFlow top.1 (hmsg.sameFlow ⟨rfl, rfl⟩)) ih

theorem mediate_meets (hc : callbacks.Along env.collaborators patient rel) {msg : Message}
    {host : Host σ} (hmsg : host.state.journal.Vouches env.collaborators msg) :
    (mediate callbacks msg host).Meets patient rel
      (fun result later => later.state.journal.Vouches env.collaborators result.1) host := by
  unfold mediate
  split
  · exact Progress.Meets.bind (hc.startFlow hmsg) fun _ later _ hback => ⟨refl_of rel later, hback⟩
  · exact Progress.Meets.bind (resumeWithin_meets hc _ hmsg) fun _ later _ hback =>
      ⟨refl_of rel later, hback⟩

/-- Wherever the mediation of a reply begins, so does what comes of it. -/
theorem deliverReply_along_of (ha : env.Allows patient allowed rel)
    (hc : callbacks.Along env.collaborators patient rel) (call : Call) {msg : Message}
    {host₀ host : Host σ}
    (hmediate : (mediate callbacks msg host).Meets patient rel
      (fun result later => later.state.journal.Vouches env.collaborators result.1) host₀) :
    (deliverReply callbacks call msg host).Along patient rel host₀ := by
  unfold deliverReply
  refine Progress.Meets.bind hmediate ?_
  rintro ⟨back, result⟩ later - hback
  cases result with
  | ok outcome => exact Work.along_pure outcome later
  | error e =>
    refine Run.meets_update_bind (ha.move (.quiet (.notify (.refl _)))) ?_
    refine Progress.Along.bind ?_ fun _ later _ => Work.along_pure _ later
    exact settleFault_along ha hback (fun hback => runHandler_along ha hc hback _)
      (ha.move (.routing _ _ _))

theorem deliverReply_along (ha : env.Allows patient allowed rel)
    (hc : callbacks.Along env.collaborators patient rel) (call : Call) {msg : Message}
    {host : Host σ} (hmsg : host.state.journal.Vouches env.collaborators msg) :
    (deliverReply callbacks call msg host).Along patient rel host :=
  deliverReply_along_of ha hc call (mediate_meets hc hmsg)

theorem deliver_along (ha : env.Allows patient allowed rel)
    (hc : callbacks.Along env.collaborators patient rel) {call : Call} {host : Host σ}
    (hcall : host.state.journal.Vouches env.collaborators call.outbound) (response : Response) :
    (deliver callbacks call response host).Along patient rel host := by
  unfold deliver
  cases response.kind with
  | acknowledged => exact Work.along_pure _ host
  | sendFailed cause =>
    refine Run.meets_update_bind (ha.move (.quiet (.notify (.refl _)))) ?_
    refine Progress.Along.bind ?_ fun _ later _ => Work.along_pure _ later
    exact settleFault_along ha hcall (fun hmsg => routeFault_along ha hc hmsg _ _)
      (ha.move (.routing _ _ _))
  | reply envelope =>
    refine Run.meets_apply_bind (ha.move (.quiet (.mk fun _ h => h))) ?_
    exact deliverReply_along ha hc call (hcall.sameFlow ⟨rfl, rfl⟩)

/-- What a response collects has been claimed; only the statistics say more. Claims for a response
are thereby covered by what is known of all claims. -/
theorem State.collect_eq_some {s s' : State} {claimer : Claimer} {id : CallId} {call : Call}
    (h : s.collect claimer id = (some call, s')) :
    ∃ t, s.claim claimer id = (some call, t) ∧ t.Quiet s' := by
  unfold collect Registry.collect at h
  unfold claim
  cases hclaim : s.registry.claim? id with
  | none => simp [hclaim] at h
  | some result =>
    simp only [hclaim, Prod.mk.injEq, Option.some.injEq] at h ⊢
    obtain ⟨rfl, rfl⟩ := h
    exact ⟨_, ⟨rfl, rfl⟩, .mk fun _ h => h⟩

theorem State.collect_eq_none {s s' : State} {claimer : Claimer} {id : CallId}
    (h : s.collect claimer id = (none, s')) : s.Quiet s' := by
  unfold collect Registry.collect at h
  cases hclaim : s.registry.claim? id with
  | none =>
    simp only [hclaim, Prod.mk.injEq, true_and] at h
    exact h ▸ .mk fun _ h => h
  | some result => simp [hclaim] at h

/-- A response to a call that waits claims it, and touches no other call. -/
theorem State.collect_of_find? {s : State} {id : CallId} {call : Call}
    (hfind : s.registry.find? id = some call) (hpending : call.completion = .pending) :
    ∃ s', s.collect .response id = (some call.marked, s') ∧
      s'.journal = .claimed .response call.marked :: s.journal ∧
      s'.registry.calls = s.registry.calls.filter (·.id ≠ id) ∧ s'.nextId = s.nextId := by
  simp only [State.collect, Registry.collect, Registry.claim?, hfind, Call.mark, hpending]
  exact ⟨_, rfl, rfl, rfl, rfl⟩

/-- A response that nobody waits for is counted. -/
theorem State.collect_of_not_pending {s : State} {claimer : Claimer} {id : CallId}
    (h : ∀ call, s.registry.find? id = some call → call.completion ≠ .pending) :
    s.collect claimer id = (none, { s with registry := { s.registry with
      stats := { s.registry.stats with unmatched := s.registry.stats.unmatched + 1 } } }) := by
  have hclaim : s.registry.claim? id = none := by
    unfold Registry.claim?
    cases hfind : s.registry.find? id with
    | none => rfl
    | some call =>
      cases hcompletion : call.completion with
      | pending => exact absurd hcompletion (h call hfind)
      | marked => simp [Call.mark, hcompletion]
  simp [State.collect, Registry.collect, hclaim]

theorem respond_along (ha : env.Allows patient allowed rel)
    (hc : callbacks.Along env.collaborators patient rel) (id : CallId) (response : Response) :
    (respond callbacks id response).Along patient rel := by
  intro host
  unfold respond
  rw [Run.apply_bind]
  cases hcollect : host.state.collect .response id with
  | mk result s =>
    cases result with
    | none =>
      have hquiet := (State.collect_eq_none hcollect).notify (n := .unmatchedResponse id)
      refine Progress.Meets.of_earlier (ha.move (.quiet ?_)) (Work.along_pure _ _)
      exact hquiet.trans (.countResponse _ _)
    | some call =>
      obtain ⟨t, hclaim, hquiet⟩ := State.collect_eq_some hcollect
      dsimp only
      rw [Run.update_bind]
      -- Nobody gets between the claim and the release, so they are one move.
      have hmove : rel host { host with state := s.release } :=
        ha.move (.claimed (by simp) .response hclaim hquiet.release)
      refine Progress.Meets.of_earlier hmove ?_
      have hcall : s.journal.Vouches env.collaborators call.outbound :=
        hquiet.aside.journal ▸ State.vouches_of_claim hclaim
      refine Progress.Meets.bind (deliver_along ha hc (State.vouches_release hcall) response) ?_
      intro outcome later _ _
      exact Run.meets_update_bind (ha.move (.quiet (.countResponse _ _))) (Work.along_pure _ _)

/-! ## Answers -/

theorem writeAnswer_along (hc : callbacks.Along env.collaborators patient rel) {answer : Message}
    {host₀ host : Host σ}
    (h : rel host₀ { host with
      state := host.state.note (.entered callbacks.level (.writeBack answer) host.state.moment) }) :
    (writeAnswer callbacks answer host).Along patient rel host₀ := by
  unfold writeAnswer
  refine Progress.Meets.bind (hc.writeBack h) fun outcome later _ _ => ?_
  cases outcome <;> exact Work.along_pure _ later

/-- A guard that is marked already is not changed. -/
theorem State.markGuard_eq_true {s s' : State} {guard : Guard}
    (h : s.markGuard guard = (true, s')) : s.guards.isSent guard = true ∧ s' = s := by
  unfold markGuard Guards.mark at h
  cases hsent : s.guards.isSent guard with
  | true =>
    simp only [hsent, if_true, Prod.mk.injEq, true_and] at h
    exact ⟨rfl, h.symm⟩
  | false => simp [hsent] at h

theorem answerRequest_along (ha : env.Allows patient allowed rel)
    (hc : callbacks.Along env.collaborators patient rel) (answer : Message) :
    (answerRequest callbacks answer).Along patient rel := by
  intro host
  unfold answerRequest
  cases hguard : answer.guard with
  | none => exact writeAnswer_along hc (ha.move (.written callbacks.level hguard))
  | some guard =>
    dsimp only
    rw [Run.apply_bind]
    cases hmark : host.state.markGuard guard with
    | mk before s =>
      cases before with
      | true =>
        obtain ⟨hsent, rfl⟩ := State.markGuard_eq_true hmark
        refine Run.meets_update_bind ?_ (Work.along_pure _ _)
        exact ha.move (.answerRefused hguard hsent)
      | false => exact writeAnswer_along hc (ha.move (.marked callbacks.level hguard hmark))

/-! ## Sweeps -/

theorem State.claimExpired_eq_some {s s' : State} {now : Millis} {place : Nat} {id : CallId}
    {call : Call} (h : s.claimExpired now place id = (some call, s')) :
    ∃ t, s.claim (.sweep now place) id = (some call, t) ∧ t.Quiet s' := by
  unfold claimExpired at h
  split at h
  · simp at h
  · rename_i found t hclaim
    simp only [Prod.mk.injEq, Option.some.injEq] at h
    obtain ⟨rfl, rfl⟩ := h
    exact ⟨t, hclaim, .mk fun _ h => h⟩

theorem State.claimExpired_eq_none {s s' : State} {now : Millis} {place : Nat} {id : CallId}
    (h : s.claimExpired now place id = (none, s')) : s' = s := by
  unfold claimExpired at h
  split at h
  · rename_i t hclaim
    simp only [Prod.mk.injEq, true_and] at h
    exact h ▸ claim_eq_none hclaim
  · simp at h

theorem settleExpired_along (ha : env.Allows patient allowed rel)
    (hc : callbacks.Along env.collaborators patient rel) (report : SweepSummary) {call : Call}
    {host₀ host : Host σ} (h : rel host₀ { host with state := host.state.expireCall })
    (hcall : host.state.expireCall.journal.Vouches env.collaborators call.outbound) :
    (settleExpired callbacks report call host).Along patient rel host₀ := by
  unfold settleExpired
  rw [Run.update_bind]
  refine Progress.Meets.of_earlier h ?_
  have hfault (action : ExpiryAction) : Progress.Along patient rel
      { host with state := host.state.expireCall }
      ((do
        Run.update (·.notify (.timedOut call.id action call.deadline))
        let cause := Fault.timeout call.deadline
        return report.count (← settleFault callbacks call cause
          (routeFault callbacks call.timedOut cause action)) : Run σ SweepSummary)
        { host with state := host.state.expireCall }) := by
    refine Run.meets_update_bind (ha.move (.quiet (.notify (.refl _)))) ?_
    refine Progress.Along.bind ?_ fun _ later _ => Work.along_pure _ later
    -- An expired message differs from the outbound one in its envelope only, so it belongs to the
    -- same flow.
    have hmsg : host.state.expireCall.journal.Vouches env.collaborators call.timedOut :=
      hcall.sameFlow ⟨rfl, rfl⟩
    exact settleFault_along ha hmsg (fun hmsg => routeFault_along ha hc hmsg _ _)
      (ha.move (.routing _ _ _))
  cases call.expiry.action with
  | drop => exact Work.along_pure _ _
  | discard => exact hfault .discard
  | fault => exact hfault .fault

/-- The sweep has listed the id before, and knows where. Handlers of earlier ids have run since,
but the list stays in the journal. -/
theorem sweepOne_along (ha : env.Allows patient allowed rel)
    (hc : callbacks.Along env.collaborators patient rel) {now : Millis} {listing : Moment}
    {prior : Journal} (report : SweepSummary) {id : CallId}
    (hid : id ∈ listing.registry.overdue now) {host : Host σ}
    (hlisted : .listed now listing :: prior <:+ host.state.journal) :
    (sweepOne callbacks now (prior.length + 1) report id host).Along patient rel host := by
  unfold sweepOne
  rw [Run.apply_bind]
  cases hclaim : host.state.claimExpired now (prior.length + 1) id with
  | mk result s =>
    cases result with
    | none => exact State.claimExpired_eq_none hclaim ▸ Work.along_pure _ host
    | some call =>
      obtain ⟨t, htaken, hquiet⟩ := State.claimExpired_eq_some hclaim
      have hwhy : (Claimer.sweep now (prior.length + 1)).IsJustified host.state.journal id :=
        .sweep (Journal.upTo_of_suffix hlisted) hid
      have hcounted : t.Quiet
          { s with metrics := { s.metrics with timeouts := s.metrics.timeouts + 1 } } :=
        hquiet.trans (.mk fun _ h => h)
      refine settleExpired_along ha hc _ ?_ ?_
      · exact ha.move (.claimed (by simp) hwhy htaken hcounted.release)
      · refine State.vouches_release ?_
        exact hcounted.aside.journal ▸ State.vouches_of_claim htaken

/-- The induction is on the ids that are left; that they were listed stays in the journal,
whatever the fault handlers do. -/
theorem sweepAll_along (ha : env.Allows patient allowed rel)
    (hc : callbacks.Along env.collaborators patient rel) {now : Millis} {listing : Moment}
    {prior : Journal} {ids : List CallId} (hids : ∀ id ∈ ids, id ∈ listing.registry.overdue now)
    (report : SweepSummary) {host : Host σ}
    (hlisted : .listed now listing :: prior <:+ host.state.journal) :
    (ids.foldlM (sweepOne callbacks now (prior.length + 1)) report host).Along patient rel
      host := by
  induction ids generalizing report host with
  | nil => exact Work.along_pure report host
  | cons id ids ih =>
    rw [List.foldlM_cons]
    have hfirst := sweepOne_along ha hc report (hids id List.mem_cons_self) hlisted
    refine hfirst.bind fun report later hlater => ?_
    refine ih (fun other hother => hids other (List.mem_cons_of_mem _ hother)) report ?_
    exact hlisted.trans (ha.suffix hlater)

/-- A sweep that begins: it lists what is due, goes through it, and drops the bindings that are
over. -/
theorem sweepAsOf_of_free {host : Host σ} (hfree : host.state.sweeping = false) (now : Millis) :
    sweepAsOf callbacks now host =
      ((callbacks.arrangement.arrange host.state.registry
          (host.state.registry.overdue now)).foldlM
        (sweepOne callbacks now (host.state.journal.length + 1)) ({} : SweepSummary)
        { host with state := host.state.lock now }).bind fun report later =>
          .ended { report with bindingsDropped := (later.state.purgeBindings now).1 }
            { later with state := (later.state.purgeBindings now).2.unlock } := by
  unfold sweepAsOf
  rw [Run.read_bind, if_neg (by simp [hfree])]
  rfl

/-- A sweep that finds another one in progress does nothing. -/
theorem sweepAsOf_of_locked {host : Host σ} (hlocked : host.state.sweeping = true) (now : Millis) :
    sweepAsOf callbacks now host = .ended { skipped := true } host := by
  unfold sweepAsOf
  rw [Run.read_bind, if_pos hlocked]
  rfl

theorem sweep_of_locked {host : Host σ} (hlocked : host.state.sweeping = true) :
    sweep callbacks host =
      .ended (host.state.clock.read.map fun _ => { skipped := true }) host := by
  unfold sweep
  rw [Run.read_bind]
  cases host.state.clock.read with
  | error p => rfl
  | ok now =>
    dsimp only
    rw [Work.bind_apply, sweepAsOf_of_locked hlocked]
    rfl

theorem sweepAsOf_along (ha : env.Allows patient allowed rel)
    (hc : callbacks.Along env.collaborators patient rel) (now : Millis) :
    (sweepAsOf callbacks now).Along patient rel := by
  intro host
  cases hsweeping : host.state.sweeping with
  | true =>
    rw [sweepAsOf_of_locked hsweeping]
    exact Work.along_pure _ host
  | false =>
    rw [sweepAsOf_of_free hsweeping]
    have hids : ∀ id ∈ callbacks.arrangement.arrange host.state.registry
        (host.state.registry.overdue now), id ∈ host.state.registry.overdue now :=
      fun id hid => (callbacks.arrangement.perm host.state.registry _).mem_iff.mp hid
    have hlisted : .listed now host.state.moment :: host.state.journal <:+
        (Host.mk (host.state.lock now) host.memory).state.journal := List.suffix_refl _
    have hall := sweepAll_along ha hc hids {} hlisted
    have hpurged (h : Host σ) : rel h { h with state := (h.state.purgeBindings now).2 } :=
      ha.move (.quiet (.mk fun _ h => h))
    have hwhole {p : Progress (Host σ) SweepSummary}
        (hp : p.Along patient rel { host with state := host.state.lock now }) :
        (p.bind fun report later =>
          .ended { report with bindingsDropped := (later.state.purgeBindings now).1 }
            { later with state := (later.state.purgeBindings now).2.unlock }).Along patient rel
          host := by
      by_cases hpatient : patient
      · refine Progress.Meets.of_earlier (ha.lock hpatient host now) (hp.bind ?_)
        intro report later _
        exact ⟨trans_of rel (hpurged later) (ha.unlock hpatient _), trivial⟩
      · -- Nobody waits, so the sweep is one stretch from its beginning to its end.
        obtain ⟨report, later, rfl, hlater, -⟩ := hp.ended_of_not_patient hpatient
        have hrest := trans_of rel hlater (hpurged later)
        exact ⟨ha.sweep hpatient host _ now hsweeping hrest, trivial⟩
    exact hwhole hall

theorem sweep_along (ha : env.Allows patient allowed rel)
    (hc : callbacks.Along env.collaborators patient rel) : (sweep callbacks).Along patient rel := by
  intro host
  unfold sweep
  rw [Run.read_bind]
  cases host.state.clock.read with
  | error p => exact Work.along_pure _ host
  | ok now =>
    refine Progress.Meets.bind (sweepAsOf_along ha hc now host) fun _ later _ _ => ?_
    exact Work.along_pure _ later

/-! ## Operations that call nobody -/

/-- The state differs neither in the books nor in the journal nor in the marks of the guards. -/
structure State.Apart (s s' : State) : Prop extends s.Aside s' where
  sent : s'.guards.sent = s.guards.sent

theorem State.Apart.refl (s : State) : s.Apart s := ⟨.refl s, rfl⟩

theorem State.apart_start (s : State) : s.Apart s.start := by
  unfold start
  split
  · exact .refl s
  · exact ⟨⟨rfl, rfl, rfl, fun _ h => h⟩, rfl⟩

theorem State.apart_beginStop (s : State) : s.Apart s.beginStop.2 := by
  unfold beginStop
  split <;> exact ⟨⟨rfl, rfl, rfl, fun _ h => h⟩, rfl⟩

theorem State.apart_submit (s : State) (number : Nat) (t : Chore) :
    s.Apart (s.submit number t).2 := by
  unfold submit
  split
  · exact .refl s
  · exact ⟨⟨rfl, rfl, rfl, fun _ h => h⟩, rfl⟩

/-- The operation asks for a change of the books or for the mark of a guard, and for nothing else.
It reaches past the engine into its parts: no dispatch, response or sweep is behind it, and nothing
that it does has a reason in the journal. -/
def Operation.IsDirect : Operation → Prop
  | .register _ | .collect _ | .claim _ | .acquire | .release | .markGuard _ => True
  | _ => False

namespace State

theorem journal_suffix_register (s : State) (call : Call) :
    s.journal <:+ (s.register call).2.journal := by
  unfold register
  cases s.registry.register? call with
  | none => exact List.suffix_refl _
  | some registry => exact List.suffix_cons _ _

theorem journal_suffix_claim (s : State) (claimer : Claimer) (id : CallId) :
    s.journal <:+ (s.claim claimer id).2.journal := by
  cases hclaim : s.claim claimer id with
  | mk result t =>
    cases result with
    | none => exact claim_eq_none hclaim ▸ List.suffix_refl _
    | some call => exact (claim_eq_some hclaim).2.2.1 ▸ List.suffix_cons _ _

theorem journal_suffix_collect (s : State) (claimer : Claimer) (id : CallId) :
    s.journal <:+ (s.collect claimer id).2.journal := by
  cases hcollect : s.collect claimer id with
  | mk result t =>
    cases result with
    | none => exact (collect_eq_none hcollect).aside.journal ▸ List.suffix_refl _
    | some call =>
      obtain ⟨u, hclaim, hquiet⟩ := collect_eq_some hcollect
      rw [hquiet.aside.journal, (claim_eq_some hclaim).2.2.1]
      exact List.suffix_cons _ _

theorem journal_suffix_acquire (s : State) : s.journal <:+ s.acquire.2.journal :=
  s.acquire_journal ▸ List.suffix_cons _ _

end State

theorem Run.along_read : (Run.read : Run σ State).Along patient rel := fun host =>
  ⟨refl_of rel host, trivial⟩

section Sessions

variable (hsessions : ∀ (h : Host σ) (sessions : Sessions),
  rel h { h with state := { h.state with sessions } })

include hsessions

theorem purgeBindingsNow_along : (purgeBindingsNow : Run σ _).Along patient rel := by
  refine Work.along_bind Run.along_read fun s => ?_
  cases s.clock.read with
  | error p => exact Work.along_pure _
  | ok now =>
    exact Work.along_bind (fun host => ⟨hsessions host _, trivial⟩) fun _ => Work.along_pure _

theorem bindNow_along (session endpoint : String) :
    (bindNow session endpoint : Run σ _).Along patient rel := by
  refine Work.along_bind Run.along_read fun s => ?_
  cases s.clock.read with
  | error p => exact Work.along_pure _
  | ok now =>
    exact Work.along_bind (fun host => ⟨hsessions host _, trivial⟩) fun _ => Work.along_pure _

end Sessions

/-- The operation is about starting and stopping the engine, about asking its worker for a task, or
about letting time pass. -/
def Operation.IsVital : Operation → Prop
  | .start | .stop | .beginStop | .request _ | .elapse _ | .rest => True
  | _ => False

/-- The relation takes in what such operations do at a time. -/
structure Host.AllowsLife (rel : Host σ → Host σ → Prop) : Prop where
  start : ∀ h : Host σ, rel h { h with state := h.state.start }
  beginStop : ∀ h : Host σ, rel h { h with state := h.state.beginStop.2 }
  stopped : ∀ h : Host σ, rel h { h with state := { h.state with lifecycle := .stopped } }
  stopAside : ∀ h : Host σ,
    rel h { h with state := { h.state with stopsAside := h.state.stopsAside + 1 } }
  submit : ∀ (h : Host σ) (number : Nat) (t : Chore),
    rel h { h with state := (h.state.submit number t).2 }

section Life

variable (hpatient : patient) (hlife : Host.AllowsLife rel)

include hpatient hlife

theorem stop_along : (stop : Run σ Unit).Along patient rel := by
  have hend : (Run.update ({ · with lifecycle := .stopped }) : Run σ Unit).Along patient rel :=
    fun host => ⟨hlife.stopped host, trivial⟩
  refine Work.along_bind (fun host => ⟨hlife.beginStop host, trivial⟩) fun number => ?_
  cases number with
  | none => exact hend
  | some number => exact Work.along_bind (Work.along_await hpatient _) fun _ => hend

theorem stopAside_along : (stopAside : Run σ EngineStatus).Along patient rel := by
  refine Work.along_bind (fun host => ⟨hlife.stopAside host, trivial⟩) fun _ => ?_
  refine Work.along_bind (Work.along_await hpatient _) fun _ => ?_
  exact Work.along_bind Run.along_read fun _ => Work.along_pure _

theorem request_along (t : Chore) : (request t : Run σ _).Along patient rel := by
  refine Work.along_bind Run.along_read fun s => ?_
  cases s.worker with
  | none => exact Work.along_pure _
  | some number =>
    refine Work.along_await_if hpatient _ _ ?_
    refine Work.along_bind (fun host => ⟨hlife.submit host number t, trivial⟩) fun result => ?_
    cases result <;> exact Work.along_pure _

theorem perform_along_of_vital {op : Operation} (hop : op.IsVital) :
    (perform callbacks op).Along patient rel := by
  cases op with
  | start => exact fun host => ⟨hlife.start host, trivial⟩
  | stop => exact stop_along hpatient hlife
  | beginStop => exact stopAside_along hpatient hlife
  | request t => exact request_along hpatient hlife t
  | elapse duration => exact Work.along_bind Run.along_read fun _ => Work.along_pause hpatient _ _
  | rest => exact Work.along_await hpatient _
  | _ => exact hop.elim

end Life

section Apart

variable (hpatient : patient)
  (hapart : ∀ (h : Host σ) {s' : State}, h.state.Apart s' → rel h { h with state := s' })

include hapart

omit [IsPreorder (Host σ) rel] in
theorem sessions_of_apart (h : Host σ) (sessions : Sessions) :
    rel h { h with state := { h.state with sessions } } :=
  hapart h ⟨⟨rfl, rfl, rfl, fun _ h => h⟩, rfl⟩

omit [IsPreorder (Host σ) rel] in
theorem Host.AllowsLife.of_apart : Host.AllowsLife rel where
  start h := hapart h h.state.apart_start
  beginStop h := hapart h h.state.apart_beginStop
  stopped h := hapart h ⟨⟨rfl, rfl, rfl, fun _ h => h⟩, rfl⟩
  stopAside h := hapart h ⟨⟨rfl, rfl, rfl, fun _ h => h⟩, rfl⟩
  submit h number t := hapart h (h.state.apart_submit number t)

include hpatient

/-- Where work may wait, what calls nobody goes along every relation that does not look at what it
changes. -/
theorem perform_along_of_apart {op : Operation} (hcalls : ¬ op.CallsOut) (hdirect : ¬ op.IsDirect) :
    (perform callbacks op).Along patient rel := by
  cases op with
  | dispatch | respond | answerRequest | sweep | sweepAsOf | resume | runHandler | routeFault =>
    exact absurd trivial hcalls
  | register | collect | claim | acquire | release | markGuard => exact absurd trivial hdirect
  | purgeBindingsNow => exact purgeBindingsNow_along (sessions_of_apart hapart)
  | bindNow session endpoint => exact bindNow_along (sessions_of_apart hapart) session endpoint
  | endpointNow session => exact Work.along_bind Run.along_read fun _ => Work.along_pure _
  | start | stop | beginStop | request | elapse | rest =>
    exact perform_along_of_vital hpatient (.of_apart hapart) trivial
  | compose envelope inbound =>
    intro host
    cases inbound <;> exact ⟨hapart host ⟨⟨rfl, rfl, rfl, fun _ h => h⟩, rfl⟩, trivial⟩
  -- The others look at the state, or change what is no book.
  | _ =>
    intro host
    refine ⟨hapart host ?_, trivial⟩
    exact ⟨⟨rfl, rfl, rfl, fun _ h => h⟩, rfl⟩

end Apart

/-! ## Everything that can be asked for -/

/-- Whoever asks for an operation vouches for the messages that it brings along. The cases are
those of the operations: each is a move by itself, or a piece of the engine that calls the
callbacks at hand. -/
theorem perform_along (ha : env.Allows patient allowed rel)
    (hc : callbacks.Along env.collaborators patient rel) {op : Operation} (hop : allowed op)
    {host : Host σ} (hasked : ∀ m, host.state.journal.Vouches env.collaborators m) :
    (perform callbacks op host).Along patient rel host := by
  cases op with
  | dispatch msg expiry => exact dispatch_along ha hc msg expiry host
  | respond id response => exact respond_along ha hc id response host
  | answerRequest msg => exact answerRequest_along ha hc msg host
  | sweep => exact sweep_along ha hc host
  | sweepAsOf now => exact sweepAsOf_along ha hc now host
  | resume msg => exact (resumeWithin_meets hc _ (hasked msg)).along
  | runHandler msg cause => exact runHandler_along ha hc (hasked msg) cause
  | routeFault msg cause action => exact routeFault_along ha hc (hasked msg) cause action
  | _ => exact ha.inside hop (fun h => h) callbacks host

/-- A worker drops session bindings without having been asked by a collaborator. -/
theorem sweeperItem_along (ha : env.Allows patient allowed rel)
    (hc : callbacks.Along env.collaborators patient rel) (item : Item Chore) :
    (sweeperItem callbacks item).Along patient rel := by
  have hsweep : (do return (← sweep callbacks).isOk : Run σ Bool).Along patient rel :=
    Work.along_bind (sweep_along ha hc) fun _ => Work.along_pure _
  have hpurge : (purgeBindingsNow : Run σ _).Along patient rel :=
    purgeBindingsNow_along fun _ _ => ha.move (.quiet (.mk fun _ h => h))
  cases item with
  | tick => exact hsweep
  | task t =>
    cases t with
    | sweep => exact hsweep
    | purgeBindings => exact Work.along_bind hpurge fun _ => Work.along_pure _

/-- The workers of an engine and its errands go along every relation that takes in all moves and
does not look at workers. -/
theorem sweepers_along (ha : env.Allows True allowed rel)
    (hapart : ∀ (h : Host σ) {s' : State}, h.state.Apart s' → rel h { h with state := s' })
    (hc : callbacks.Along env.collaborators True rel) : (sweepers callbacks).Along rel := by
  refine .of_setWorkers ?_ ?_ ?_ (sweeperItem_along ha hc) ?_
  · exact fun _ host => hapart host ⟨⟨rfl, rfl, rfl, fun _ h => h⟩, rfl⟩
  · exact fun _ host => hapart host ⟨⟨rfl, rfl, rfl, fun _ h => h⟩, rfl⟩
  · exact fun _ _ host => refl_of rel host
  · exact Work.along_bind (stop_along trivial (.of_apart hapart)) fun _ => Work.along_pure _

end Correlator
