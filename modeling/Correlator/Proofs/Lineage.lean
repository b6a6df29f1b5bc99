import Correlator.Proofs.Correlation
import Correlator.Proofs.Sending

/-!
# What the engine makes of a message

A message that is dispatched goes on in many shapes: as the snapshot in the registry, as what the
transport is given, as the reply that mediation gets, as what a unit or a fault handler is called
with, and from the reply on as the message of the next leg.  None of this leaves the flow of the
message, however far it is from it.

There are two ends to hold on to.  A dispatch either calls nobody or has registered its message
before it calls the transport (`Callbacks.Launches`).  And whoever is called for a call that waited
is called after this call has been taken out of the registry, by a response, by a sweep or by a
dispatch whose send has failed, and goes on from its message (`Callbacks.Serves`).  The last of the
three need not have registered that call itself, so what it goes on from need not be its own
message; but it is the message of the call that it has taken.

## Main definitions

* `Callbacks.Serves` : what is done for the call that waits under an id.
* `Callbacks.Launches` : how a dispatch goes.

## Main results

* `respond_serves`, `sweepOne_serves`, `abandon_serves` : all who take calls out serve them.
* `dispatch_launches` : every dispatch goes in one of two ways.
-/

namespace Correlator

variable {σ : Type}

/-! ## Serving calls -/

/-- Between the two hosts the call that waits under the id is taken out, and then nobody is called
but for the message of this call, and whatever is handed back meanwhile.  If none waits under the
id, nobody is called at all. -/
inductive Callbacks.Serves (callbacks : Callbacks σ) (rel : Host σ → Host σ → Prop) (id : CallId)
    (host later : Host σ) : Prop
  | nobody
      (hnone : ∀ call, host.state.registry.find? id = some call → call.completion ≠ .pending)
      (hjournal : later.state.journal = host.state.journal) (hmemory : later.memory = host.memory)
  | claimed {call : Call} {freed : Host σ} {calls : List Called} {left : Message}
      (hfind : host.state.registry.find? id = some call) (hpending : call.completion = .pending)
      (hfrees : host.Frees id freed) (hmakes : callbacks.Makes rel freed calls later)
      (hflows : call.outbound.Flows calls left)

theorem Registry.not_pending_of_claim? {r : Registry} {id : CallId} (h : r.claim? id = none)
    (call : Call) (hfind : r.find? id = some call) : call.completion ≠ .pending := by
  intro hpending
  have hclaimed := Registry.claim?_of_pending hfind hpending
  rw [h] at hclaimed
  cases hclaimed

section Serving

variable {callbacks : Callbacks σ} {rel : Host σ → Host σ → Prop} {id : CallId}
  {host later : Host σ}

/-- What has been claimed and counted out is served by whatever goes on from its message. -/
theorem Callbacks.Serves.of_claim {claimer : Claimer} {call : Call} {t s : State}
    {calls : List Called} {left : Message}
    (hclaim : host.state.claim claimer id = (some call, t)) (hquiet : t.release.Quiet s)
    (hmakes : callbacks.Makes rel { host with state := s } calls later)
    (hflows : call.outbound.Flows calls left) : callbacks.Serves rel id host later := by
  obtain ⟨waiting, hfind, hpending, rfl, -⟩ :=
    Registry.claim?_eq_some (State.claim_eq_some hclaim).1
  exact .claimed hfind hpending (Host.frees_of_claim hclaim hquiet) hmakes hflows

/-- A response claims before it calls anybody, and goes on from the message of the call also where
the reply is a new message. -/
theorem respond_serves {response : Response} {delivery : Delivery}
    (h : (respond callbacks id response host).CanEnd rel delivery later) :
    callbacks.Serves rel id host later := by
  by_cases hwaits : ∃ call, host.state.registry.find? id = some call ∧ call.completion = .pending
  · obtain ⟨call, hfind, hpending⟩ := hwaits
    obtain ⟨freed, hfrees, hmakes⟩ := respond_makes hfind hpending
    obtain ⟨calls, left, hcalls, hflows, -⟩ := hmakes rel delivery later h
    exact .claimed hfind hpending hfrees hcalls hflows
  · have hnone : ∀ call, host.state.registry.find? id = some call → call.completion ≠ .pending :=
      fun call hfind hpending => hwaits ⟨call, hfind, hpending⟩
    rw [respond_of_not_pending hnone] at h
    obtain ⟨-, rfl⟩ := h
    exact .nobody hnone rfl rfl

/-- What a sweep hands to a fault handler is the message of the call with an empty fault for an
envelope, so it is of the flow of the call too. -/
theorem sweepOne_serves {now : Millis} {place : Nat} {report summary : SweepSummary}
    (h : (sweepOne callbacks now place report id host).CanEnd rel summary later) :
    callbacks.Serves rel id host later := by
  -- An expired call is counted before its place is given up; neither matters here.
  have hexpire {t s : State} (hquiet : t.Quiet s) : t.release.Quiet s.expireCall := by
    cases hquiet with
    | mk h => exact State.Quiet.release (.mk h)
  cases sweepOneEnds_of_canEnd h with
  | overtaken hclaim =>
    exact .nobody (Registry.not_pending_of_claim? (State.claim?_of_claimExpired hclaim)) rfl rfl
  | dropped hclaim =>
    obtain ⟨t, hclaim, hquiet⟩ := State.claimExpired_eq_some hclaim
    exact .of_claim hclaim (hexpire hquiet) (.none .mk) (.none (.refl _))
  | @settled call s outcome _ hclaim _ hsettle =>
    obtain ⟨t, hclaim, hquiet⟩ := State.claimExpired_eq_some hclaim
    obtain ⟨calls, back, hmakes, hroutes⟩ :=
      settleFault_makes (fun _ _ _ _ hroute => routeFault_routes hroute) hsettle
    have htimedOut : call.timedOut.SameFlow call.outbound := ⟨rfl, rfl⟩
    exact .of_claim hclaim (hexpire hquiet) (hmakes.of_earlier .mk)
      (hroutes.flows.of_sameFlow htimedOut)

/-- The call that a failed send takes back need not be the one that the dispatch has registered:
that one may be gone, and another one may wait under its id.  It is the message of the call that is
taken which is routed. -/
theorem abandon_serves {place : Nat} {cause : Fault}
    (h : (abandon callbacks place id cause host).CanEnd rel () later) :
    callbacks.Serves rel id host later := by
  unfold abandon at h
  rw [Run.apply_bind] at h
  cases hclaim : host.state.claim (.failedSend place) id with
  | mk result t =>
    rw [hclaim] at h
    cases result with
    | none =>
      obtain rfl := State.claim_eq_none hclaim
      obtain ⟨-, rfl⟩ := h
      have hnone : host.state.registry.claim? id = none := by
        cases hr : host.state.registry.claim? id with
        | none => rfl
        | some taken => simp [State.claim, hr] at hclaim
      exact .nobody (Registry.not_pending_of_claim? hnone) rfl rfl
    | some call =>
      dsimp only at h
      rw [Run.update_bind] at h
      obtain ⟨outcome, mid, hsettle, -, rfl⟩ := Progress.canEnd_bind.mp h
      obtain ⟨calls, back, hmakes, hroutes⟩ :=
        settleFault_makes (fun _ _ _ _ hroute => routeFault_routes hroute) hsettle
      exact .of_claim hclaim (.refl _) hmakes hroutes.flows

end Serving

/-! ## Dispatching messages -/

/-- A dispatch calls nobody and gives no receipt, since the engine takes no calls, its clock is
broken, or the id is taken; or it registers the message, hands it to the transport and goes on when
that comes back, with the receipt or with cleaning up. -/
inductive Callbacks.Launches (callbacks : Callbacks σ) (msg : Message) (host : Host σ) :
    Progress (Host σ) (Except Panic (Except EngineError Receipt)) → Prop
  | refused {result : Except Panic (Except EngineError Receipt)} {s : State}
      (hreason : host.state.acceptsCalls = false ∨ (∃ p, host.state.clock.read = .error p) ∨
        host.state.registry.contains msg.callId = true)
      (hresult : ∀ receipt, result ≠ .ok (.ok receipt))
      (hcalls : s.registry.calls = host.state.registry.calls)
      (hcallbacks : s.journal.callbacks = host.state.journal.callbacks) :
      Launches callbacks msg host (.ended result { host with state := s })
  | registered {call : Call} {occupancy : Occupancy} {sending : Host σ}
      {rest : Outcome Unit → Run σ (Except Panic (Except EngineError Receipt))}
      (hid : call.id = msg.callId) (hflow : call.outbound.SameFlow msg)
      (hcalls : sending.state.registry.calls = host.state.registry.calls ++ [call])
      (hjournal : sending.state.journal =
        .registered call :: .published occupancy :: host.state.journal)
      (hmemory : sending.memory = host.memory)
      (hsent : ∀ outcome left, outcome.caught = .ok () →
        rest outcome left = .ended (.ok (.ok ⟨call.id, call.deadline⟩)) left)
      (hfailed : ∀ outcome left e, outcome.caught = .error e → ∀ rel result later,
        (rest outcome left).CanEnd rel result later → callbacks.Serves rel call.id left later) :
      Launches callbacks msg host ((callbacks.transmit call.outbound sending).bind rest)

section Dispatching

variable {callbacks : Callbacks σ} {host : Host σ} {call : Call} {place : Nat}

/-- A failed send is reported, which makes no difference to whoever waits under the id. -/
theorem concludeSend_serves {rel : Host σ → Host σ → Prop} {outcome : Outcome Unit}
    {left later : Host σ} {e : ErrorChain} {result : Except Panic (Except EngineError Receipt)}
    (herror : outcome.caught = .error e)
    (h : (concludeSend callbacks call place outcome left).CanEnd rel result later) :
    callbacks.Serves rel call.id left later := by
  unfold concludeSend at h
  rw [herror] at h
  dsimp only at h
  rw [Run.update_bind] at h
  obtain ⟨_, mid, habandon, -, rfl⟩ := Progress.canEnd_bind.mp h
  cases abandon_serves habandon with
  | nobody hnone hjournal hmemory => exact .nobody hnone hjournal hmemory
  | claimed hfind hpending hfrees hmakes hflows =>
    exact .claimed hfind hpending ⟨hfrees.calls, hfrees.admission, hfrees.memory⟩ hmakes hflows

/-- Every dispatch calls nobody, for one of the three reasons that there are, or registers first.
Whether it is refused does not depend on the collaborators. -/
theorem dispatch_launches (callbacks : Callbacks σ) (msg : Message) (expiry : Expiry)
    (host : Host σ) : callbacks.Launches msg host (dispatch callbacks msg expiry host) := by
  cases haccepts : host.state.acceptsCalls with
  | false =>
    rw [dispatch_of_closed haccepts]
    exact .refused (.inl haccepts) nofun rfl rfl
  | true =>
    cases hclock : host.state.clock.read with
    | error p =>
      rw [dispatch_of_broken haccepts hclock]
      exact .refused (.inr (.inl ⟨p, hclock⟩)) nofun rfl rfl
    | ok now =>
      generalize hcall :
        msg.toCall expiry now (expiry.deadline now host.state.config.defaultTimeout) = call
      cases henroll : host.state.enroll call with
      | mk result s =>
        cases result with
        | error e =>
          -- The refused call has been counted in and out: peers have been told, nobody was called.
          obtain ⟨htaken, hs⟩ := State.enroll_eq_error henroll
          have hid : call.id = msg.callId := hcall ▸ rfl
          rw [hid] at htaken
          rw [dispatch_of_duplicate haccepts hclock hcall henroll, hs]
          refine .refused (.inr (.inr htaken)) nofun ?_ ?_
          · rw [State.release_registry]
            exact congrArg _ host.state.acquire_registry
          · rw [(State.release_views _).2]
            show host.state.acquire.2.journal.callbacks = _
            rw [State.acquire_journal]
            rfl
        | ok receipt =>
          -- The transport gets what was registered, and not what was dispatched.
          obtain ⟨hregister, -, hjournal, -⟩ := State.enroll_eq_ok henroll
          obtain ⟨hnew, hcalls⟩ := Registry.register?_eq_some hregister
          obtain ⟨s', hnewly⟩ := State.enroll_of_new hnew
          cases henroll.symm.trans hnewly
          rw [dispatch_eq_concludeSend haccepts hclock hcall henroll]
          refine .registered (hcall ▸ rfl) ?_ hcalls hjournal rfl ?_ ?_
          · exact hcall ▸ msg.withCorrelation_sameFlow
          · exact fun outcome left hsent => concludeSend_of_ok hsent left
          · exact fun outcome left e herror rel result later => concludeSend_serves herror

end Dispatching

end Correlator
