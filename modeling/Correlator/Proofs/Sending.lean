import Correlator.Proofs.Consequence
import Correlator.Proofs.Pending

/-!
# A call is registered before it is sent

A response may overtake the dispatch of its own call: it may arrive while the transport still has
the message in hand, and the transport may even deliver it itself before it returns.  A dispatch is
ready for that.  The call is counted and in the registry when the transport is called, with the
message that the transport gets as its snapshot, so whoever responds finds it (`respond_matched`).
And when the transport comes back the dispatch does not take it for granted that the call is still
there (`concludeSend_of_gone`).

Nobody says which operations are asked for while the transport is at it: its own program asks for
some, so do the collaborators that these call in turn, and others go on while it waits.  But each of
them is on record with the journal and the registry that it was asked at.  What is proved of all
records (`State.Transfers.holds_moment`) is proved of all responses from inside, however deep.

## Main definitions

* `concludeSend` : what a dispatch does after the transport has come back.
* `Environment.SendsRegistered` : what a dispatch does that is not refused.

## Main results

* `Environment.sends_registered` : every dispatch that is not refused does this.
-/

namespace Correlator

variable {σ : Type}

/-- How long a call may take. -/
def Expiry.timeout (p : Expiry) (defaultTimeout : Millis) : Millis :=
  match p.term with
  | .perCall timeout => timeout
  | .engineDefault => defaultTimeout

theorem Expiry.deadline_eq_after (p : Expiry) (now defaultTimeout : Millis) :
    p.deadline now defaultTimeout = now.after (p.timeout defaultTimeout) := by
  unfold deadline timeout
  cases p.term <;> rfl

/-- What the dispatch of a registered call goes on to when the transport comes back. It is the end
of `dispatch` with a name, so that something can be said about it at whatever host the transport
has left. -/
def concludeSend (callbacks : Callbacks σ) (call : Call) (place : Nat) (outcome : Outcome Unit) :
    Run σ (Except Panic (Except EngineError Receipt)) := do
  match outcome.caught with
  | .ok () => return .ok (.ok ⟨call.id, call.deadline⟩)
  | .error e =>
    Run.update (·.notify (.dispatchFailed call.id e))
    abandon callbacks place call.id (Fault.failedSend e)
    return .ok (.error (.sendFailed (Fault.failedSend e)))

/-- How the dispatch of a message under a new id goes: `call` is registered, the transport is called
at `sending`, and with its outcome the dispatch goes on to `rest`. -/
structure Environment.SendsRegistered (env : Environment σ) (level : Nat) (msg : Message)
    (expiry : Expiry) (host : Host σ) (now : Millis) (call : Call) (sending : Host σ)
    (rest : Outcome Unit → Run σ (Except Panic (Except EngineError Receipt))) : Prop where
  /-- Nobody is called before the transport, and it gets the message that the call has. -/
  sends : dispatch (env.callbacks level) msg expiry host =
    ((env.callbacks level).transmit call.outbound sending).bind rest
  memory : sending.memory = host.memory
  outbound : call.outbound = msg.withCorrelation
  /-- When the transport is called, the call waits under the id of its message. -/
  registered : sending.state.registry.find? msg.callId = some call
  pending : call.completion = .pending
  expires : call.expiry = expiry
  deadline : call.deadline.toNat = min
    (now.toNat + (expiry.timeout host.state.config.defaultTimeout).toNat) (UInt64.size - 1)
  /-- It is counted by then, and peers know. -/
  counted : sending.state.admission.inFlight.toNat =
    min (host.state.admission.inFlight.toNat + 1) (UInt32.size - 1)
  published : sending.state.journal.publications =
    sending.state.admission.state :: host.state.journal.publications
  /-- Whoever looks before the transport comes back finds the call, unless it has been claimed. -/
  found : ∀ outcome left,
    ((env.callbacks level).transmit call.outbound sending).CanEnd Host.Transfers outcome left →
    ∀ (e : Entry) (past : Journal) (m : Moment), e :: past <:+ left.state.journal →
      sending.state.journal <:+ past → e.moment? = some m →
      past.claimCount msg.callId = sending.state.journal.claimCount msg.callId →
      m.registry.find? msg.callId = some call
  /-- A response that is asked for before the transport comes back finds its call, unless it has
  been claimed. -/
  matched : ∀ outcome left,
    ((env.callbacks level).transmit call.outbound sending).CanEnd Host.Transfers outcome left →
    ∀ place (during : Host σ),
      .asked place during.state.moment :: during.state.journal <:+ left.state.journal →
      sending.state.journal <:+ during.state.journal →
      during.state.journal.claimCount msg.callId =
        sending.state.journal.claimCount msg.callId →
      ∀ (callbacks : Callbacks σ) (response : Response) rel delivery later,
        (Environment.serve callbacks (.respond msg.callId response) during).CanEnd rel delivery
          later →
        delivery ≠ .unmatched
  /-- If the transport takes the message, the dispatch gives the receipt, whatever has happened. -/
  succeeds : ∀ outcome left, outcome.caught = .ok () →
    rest outcome left = .ended (.ok (.ok ⟨msg.callId, call.deadline⟩)) left
  /-- If it fails or panics after the call has been claimed, and the id has not been registered
  again, then the call has been claimed once, and the dispatch adds a report to that and nothing
  else. -/
  fails : ∀ outcome left e,
    ((env.callbacks level).transmit call.outbound sending).CanEnd Host.Transfers outcome left →
    outcome.caught = .error e →
    left.state.journal.claimCount msg.callId ≠ sending.state.journal.claimCount msg.callId →
    left.state.journal.registerCount msg.callId =
      sending.state.journal.registerCount msg.callId →
    left.state.journal.claimCount msg.callId =
        sending.state.journal.claimCount msg.callId + 1 ∧
      rest outcome left = .ended (.ok (.error (.sendFailed (Fault.failedSend e))))
        { left with state := left.state.notify (.dispatchFailed msg.callId e) }

/-! ## Responses find their calls -/

section Responding

variable {callbacks : Callbacks σ} {rel : Host σ → Host σ → Prop} {host later : Host σ}
  {call : Call} {id : CallId} {response : Response} {delivery : Delivery}

/-- A response that has claimed a call comes to something: an acknowledgement, a fault that is
routed, or a reply that is mediated, and none of these is the outcome of a response without a call.
-/
theorem deliver_matched (h : (deliver callbacks call response host).CanEnd rel delivery later) :
    delivery ≠ .unmatched := by
  unfold deliver at h
  cases hkind : response.kind with
  | acknowledged =>
    rw [hkind] at h
    obtain ⟨rfl, -⟩ := h
    exact nofun
  | sendFailed cause =>
    rw [hkind] at h
    dsimp only at h
    rw [Run.update_bind] at h
    obtain ⟨outcome, mid, -, rfl, -⟩ := Progress.canEnd_bind.mp h
    exact nofun
  | reply envelope =>
    rw [hkind] at h
    dsimp only at h
    rw [Run.apply_bind] at h
    obtain ⟨⟨left, result⟩, mid, hmediate, hend⟩ := Progress.canEnd_bind.mp h
    cases result with
    | ok outcome =>
      obtain ⟨rfl, -⟩ := hend
      unfold mediate at hmediate
      split at hmediate
      all_goals
        obtain ⟨⟨back, verdict⟩, ended, -, heq, -⟩ := Progress.canEnd_bind.mp hmediate
        cases verdict <;> cases heq
        exact nofun
    | error e =>
      dsimp only at hend
      rw [Run.update_bind] at hend
      obtain ⟨outcome, settled, -, rfl, -⟩ := Progress.canEnd_bind.mp hend
      exact nofun

/-- A response to a call that waits claims it. -/
theorem respond_matched (hfind : host.state.registry.find? id = some call)
    (hpending : call.completion = .pending)
    (h : (respond callbacks id response host).CanEnd rel delivery later) :
    delivery ≠ .unmatched := by
  obtain ⟨s, hcollect, -⟩ := State.collect_of_find? hfind hpending
  unfold respond at h
  rw [Run.apply_bind, hcollect] at h
  dsimp only at h
  rw [Run.update_bind] at h
  obtain ⟨outcome, mid, hdeliver, rfl, -⟩ := Progress.canEnd_bind.mp h
  exact deliver_matched hdeliver

/-- To be asked for changes nothing about that. -/
theorem serve_respond_matched (hfind : host.state.registry.find? id = some call)
    (hpending : call.completion = .pending)
    (h : (Environment.serve callbacks (.respond id response) host).CanEnd rel delivery later) :
    delivery ≠ .unmatched := by
  unfold Environment.serve Environment.noted at h
  rw [Run.update_bind] at h
  obtain ⟨result, mid, hrespond, rfl, -⟩ := Progress.canEnd_bind.mp h
  have hasked : (host.asked callbacks.level).state.registry.find? id = some call := hfind
  exact respond_matched hasked hpending hrespond

end Responding

/-! ## Dispatches register first -/

/-- A call under a new id is counted in and registered. -/
theorem State.enroll_of_new {s : State} {call : Call} (hnew : s.registry.contains call.id = false) :
    ∃ s', s.enroll call = (.ok ⟨call.id, call.deadline⟩, s') := by
  unfold enroll register Registry.register?
  dsimp only
  rw [acquire_registry, hnew, if_neg Bool.false_ne_true]
  exact ⟨_, rfl⟩

section Dispatching

variable {callbacks : Callbacks σ} {rel : Host σ → Host σ → Prop} {host left : Host σ}
  {msg : Message} {expiry : Expiry} {now : Millis} {call : Call} {place : Nat}
  {outcome : Outcome Unit}

theorem dispatch_eq_concludeSend {s : State} (haccepts : host.state.acceptsCalls = true)
    (hclock : host.state.clock.read = .ok now)
    (hcall : msg.toCall expiry now (expiry.deadline now host.state.config.defaultTimeout) = call)
    (henroll : host.state.enroll call = (.ok ⟨call.id, call.deadline⟩, s)) :
    dispatch callbacks msg expiry host =
      (callbacks.transmit call.outbound { host with state := s }).bind
        (concludeSend callbacks call s.place) := by
  unfold dispatch
  rw [Run.read_bind, haccepts, hclock, if_neg (by simp)]
  dsimp only
  rw [hcall, Run.apply_bind, henroll]
  rfl

theorem concludeSend_of_ok (h : outcome.caught = .ok ()) (left : Host σ) :
    concludeSend callbacks call place outcome left =
      .ended (.ok (.ok ⟨call.id, call.deadline⟩)) left := by
  unfold concludeSend
  rw [h]
  rfl

/-- There is nothing to clean up if nothing waits under the id any more: the dispatch reports that
the send has failed, its claim comes back empty, and it neither routes nor counts anything. -/
theorem concludeSend_of_gone {e : ErrorChain} (h : outcome.caught = .error e)
    (hgone : left.state.registry.find? call.id = none) :
    concludeSend callbacks call place outcome left =
      .ended (.ok (.error (.sendFailed (Fault.failedSend e))))
        { left with state := left.state.notify (.dispatchFailed call.id e) } := by
  have hclaim : (left.state.notify (.dispatchFailed call.id e)).claim (.failedSend place) call.id =
      (none, left.state.notify (.dispatchFailed call.id e)) := by
    unfold State.claim Registry.claim?
    rw [show (left.state.notify (.dispatchFailed call.id e)).registry.find? call.id = none from
      hgone]
  unfold concludeSend
  rw [h]
  dsimp only
  rw [Run.update_bind, Work.bind_apply]
  unfold abandon
  rw [Run.apply_bind, hclaim]
  rfl

namespace Environment

/-- What goes on while the transport is at it is made of transfers, as the message that the
transport has got is on record: it is the snapshot of the call that has just been registered. -/
theorem transfers_of_transmit (env : Environment σ) {level : Nat} {s : State} {memory : σ}
    (hvouched : s.journal.Vouches env.collaborators call.outbound)
    (h : ((env.callbacks level).transmit call.outbound ⟨s, memory⟩).CanEnd Host.Transfers outcome
      left) : State.Transfers s left.state :=
  (((env.callbacks_transfer level).transmit hvouched).of_canEnd h).1

/-- A dispatch that is not refused registers its call before it calls the transport, and what it
does when the transport comes back depends on what has become of the call meanwhile. The transport
is any collaborator here, and so is whoever it lets in. -/
theorem sends_registered (env : Environment σ) (level : Nat)
    (haccepts : host.state.acceptsCalls = true) (hclock : host.state.clock.read = .ok now)
    (hnew : host.state.registry.contains msg.callId = false) :
    ∃ call sending rest, env.SendsRegistered level msg expiry host now call sending rest := by
  generalize hcall :
    msg.toCall expiry now (expiry.deadline now host.state.config.defaultTimeout) = call
  have hid : call.id = msg.callId := hcall ▸ rfl
  obtain ⟨s, henroll⟩ := State.enroll_of_new (hid ▸ hnew)
  obtain ⟨hregister, hadmission, hjournal, -⟩ := State.enroll_eq_ok henroll
  have hpending : call.completion = .pending := hcall ▸ rfl
  have hfind : s.registry.find? msg.callId = some call := by
    rw [Registry.find?_register hregister, if_pos hid.symm]
  have hvouched : s.journal.Vouches env.collaborators call.outbound :=
    hjournal ▸ Message.SameFlow.refl _
  refine ⟨call, ⟨s, host.memory⟩, concludeSend (env.callbacks level) call s.place, ?_⟩
  constructor
  case sends => exact dispatch_eq_concludeSend haccepts hclock hcall henroll
  case memory => rfl
  case outbound => exact hcall ▸ rfl
  case registered => exact hfind
  case pending => exact hpending
  case expires => exact hcall ▸ rfl
  case deadline =>
    have hdeadline : call.deadline = now.after _ :=
      (hcall ▸ rfl : call.deadline = expiry.deadline now host.state.config.defaultTimeout).trans
        (expiry.deadline_eq_after _ _)
    rw [hdeadline, Millis.toNat_after]
  case counted =>
    show s.admission.inFlight.toNat = _
    rw [hadmission]
    exact Admission.acquire_inFlight _
  case published =>
    show s.journal.publications = _
    rw [hjournal, hadmission]
    rfl
  case found =>
    intro outcome left hsent e past m hsuffix hsince hmoment hcount
    exact (env.transfers_of_transmit hvouched hsent).holds_moment hfind hsuffix hsince hmoment
      hcount
  case matched =>
    intro outcome left hsent place during hasked hsince hcount callbacks response rel delivery
      later hserved
    have hwaits : during.state.moment.registry.find? msg.callId = some call :=
      (env.transfers_of_transmit hvouched hsent).holds_moment hfind hasked hsince rfl hcount
    exact serve_respond_matched hwaits hpending hserved
  case succeeds =>
    intro outcome left hok
    rw [concludeSend_of_ok hok, hid]
  case fails =>
    -- Without a new registration the call can have been claimed no more than once, so a changed
    -- count means that it is gone.
    intro outcome left e hsent herror hclaimed hnone
    rcases (env.transfers_of_transmit hvouched hsent).claims_once hnone with
      ⟨-, hcount⟩ | ⟨-, hgone, hcount⟩
    · exact absurd hcount hclaimed
    · refine ⟨hcount, ?_⟩
      rw [← hid] at hgone ⊢
      exact concludeSend_of_gone herror hgone

/-- The transport gets the response to its message while it sends it, keeps what became of it, and
then fails. -/
def overtaken : Environment (Option Delivery) where
  collaborators :=
    { Collaborators.idle with
      transmit := fun wire =>
        .ask (.respond wire.callId { kind := .acknowledged }) fun delivery =>
          .remember (some delivery) (.done (.failed { root := "connection reset" })) }
  rounds := 1

/-- The response has found its call, so the dispatch that fails after it has nothing to clean up. -/
theorem sends_registered_overtaken :
    (∃ call sending rest, overtaken.SendsRegistered 2 (.plain "a") {} ⟨State.init {} {}, none⟩ 0
      call sending rest) ∧
    ∃ (cause : Fault) (later : Host (Option Delivery)),
      dispatch (overtaken.callbacks 2) (.plain "a") {} ⟨State.init {} {}, none⟩ =
        .ended (.ok (.error (.sendFailed cause))) later ∧
      later.memory = some .acknowledged ∧
      later.state.journal.claimCount ⟨"a"⟩ = 1 ∧ later.state.admission.inFlight = 0 :=
  ⟨overtaken.sends_registered 2 rfl rfl rfl, _, _, rfl, rfl, by decide +kernel,
    by decide +kernel⟩

end Environment

end Dispatching

end Correlator
