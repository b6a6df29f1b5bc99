import Correlator.Proofs.Congruence

/-!
# What does not depend on the life of an engine

Two engines that differ in their workers, or in whether they have been started or stopped, do the
same with a response: nothing that goes on there looks at any of this, unless a collaborator does.
Nobody says so in one place, since responses reach fault handlers and mediation units, and these
come back to the engine.

`Progress.Matches` compares two pieces of work stretch by stretch: they end alike, or they wait for
the same and go on alike at whatever states they find, if those are alike.  `Work.Overlooks` says of
one piece of work that it matches itself wherever it begins.  What it takes for everything that goes
on in an engine to match itself is the same for every likeness of states: `State.Congruent` for what
reaches collaborators, `State.Overlooked` for what calls nobody.  The life of an engine is one case.

## Main definitions

* `State.Congruent` : the steps of an engine lead from states that are alike to such.
* `State.Overlooked` : and so do the operations that call nobody.
* `Host.Alike` : the two engines differ at most in their life, and in nothing that is on record.
* `Operation.OverlooksLife` : what goes the same way whatever the life of the engine.

## Main results

* `State.Congruent.congruence` : what is kept by the steps is kept by all work.
* `State.Overlooked.perform_overlooks` : and by the operations that call nobody.
* `Environment.run_overlooks` : whole programs overlook the life of the engine, if the collaborators
  do.
-/

namespace Correlator

/-! ## Work at states that are alike -/

section

variable {S α β : Type} {rel : S → S → Prop}

/-- They wait for the same. -/
def Wait.Matches (rel : S → S → Prop) : Wait S → Wait S → Prop
  | .rest, .rest => True
  | .time t, .time t' => t = t'
  | .condition holds, .condition holds' => ∀ s s', rel s s' → holds s = holds' s'
  | _, _ => False

/-- They end with the same result, or wait for the same and go on alike from there. What the others
do in the meantime may differ, as long as it leads to states that are alike again. -/
def Progress.Matches (rel : S → S → Prop) : Progress S α → Progress S α → Prop
  | .ended a s, .ended a' s' => a = a' ∧ rel s s'
  | .waiting wait s next, .waiting wait' s' next' =>
    wait.Matches rel wait' ∧ rel s s' ∧ ∀ t t', rel t t' → (next t).Matches rel (next' t')
  | _, _ => False

theorem Progress.Matches.bind {p p' : Progress S α} {f f' : α → Work S β}
    (h : p.Matches rel p') (hf : ∀ a s s', rel s s' → (f a s).Matches rel (f' a s')) :
    (p.bind f).Matches rel (p'.bind f') := by
  induction p generalizing p' with
  | ended a s =>
    cases p' with
    | ended a' s' =>
      obtain ⟨rfl, hs⟩ := h
      exact hf a s s' hs
    | waiting => exact h.elim
  | waiting wait s next ih =>
    cases p' with
    | ended => exact h.elim
    | waiting wait' s' next' =>
      obtain ⟨hwait, hs, hnext⟩ := h
      exact ⟨hwait, hs, fun t t' ht => ih t (hnext t t' ht)⟩

namespace Work

/-- Work that matches itself at states that are alike. -/
def Overlooks (rel : S → S → Prop) (work : Work S α) : Prop :=
  ∀ s s', rel s s' → (work s).Matches rel (work s')

theorem overlooks_pure (a : α) : (pure a : Work S α).Overlooks rel := fun _ _ h => ⟨rfl, h⟩

theorem overlooks_bind {work : Work S α} {f : α → Work S β} (hw : work.Overlooks rel)
    (hf : ∀ a, (f a).Overlooks rel) : (work >>= f).Overlooks rel := fun s s' h =>
  (hw s s' h).bind hf

theorem overlooks_await {wait : Wait S} (hwait : wait.Matches rel wait) :
    (await wait).Overlooks rel := fun _ _ h => ⟨hwait, h, fun _ _ h => ⟨rfl, h⟩⟩

theorem overlooks_pause (now duration : Nat) :
    (pause now duration : Work S Unit).Overlooks rel := by
  unfold pause
  split
  · exact overlooks_pure ()
  · exact overlooks_await rfl

end Work

end

/-! ## Likeness of states -/

variable {σ α : Type} {allowed : Operation → Prop}

/-- The steps that engines are made of lead from states that are alike to such, with the same
answers, and what operations look at in passing does not differ. A likeness is checked on these
steps alone; the work that is built from them then follows suit. -/
structure State.Congruent (allowed : Operation → Prop) (r : State → State → Prop) : Prop where
  stroke : ∀ {α : Type} {f : State → α × State} {s s' : State}, State.Stroke f → r s s' →
    (f s).1 = (f s').1 ∧ r (f s).2 (f s').2
  lock : ∀ {s s' : State} (now : Millis), r s s' → r (s.lock now) (s'.lock now)
  unlock : ∀ {s s' : State}, r s s' → r s.unlock s'.unlock
  registry : ∀ {s s' : State}, r s s' → s'.registry = s.registry
  sweeping : ∀ {s s' : State}, r s s' → s'.sweeping = s.sweeping
  clock : ∀ {s s' : State}, r s s' → s'.clock = s.clock
  defaultTimeout : ∀ {s s' : State}, r s s' → s'.config.defaultTimeout = s.config.defaultTimeout
  /-- What either side remembers is a place in its own journal. -/
  cleanUp : ∀ {s s' t t' : State}, r s s' → r t t' → ∀ id,
    (t.claim (.failedSend s.place) id).1 = (t'.claim (.failedSend s'.place) id).1 ∧
      r (t.claim (.failedSend s.place) id).2 (t'.claim (.failedSend s'.place) id).2
  claimExpired : ∀ {s s' t t' : State}, r s s' → r t t' → ∀ now id,
    (t.claimExpired now s.place id).1 = (t'.claimExpired now s'.place id).1 ∧
      r (t.claimExpired now s.place id).2 (t'.claimExpired now s'.place id).2
  expireCall : ∀ {s s' : State}, r s s' → r s.expireCall s'.expireCall
  accepts : ∀ {s s' : State} {msg : Message} {expiry : Expiry}, allowed (.dispatch msg expiry) →
    r s s' → s'.acceptsCalls = s.acceptsCalls

/-- The two pieces of work match at hosts that are alike. -/
def Run.Match (rel : Host σ → Host σ → Prop) : Run.Pairing σ := fun _ work work' =>
  ∀ host host', rel host host' → (work host).Matches rel (work' host')

namespace State.Congruent

variable {r : State → State → Prop} {rel : Host σ → Host σ → Prop}

/-- The collaborators have to remember the same, and the operations that call nobody are still to
be looked at one by one. Everything else that goes on in an engine is put together from the steps
of `State.Congruent`. -/
theorem congruence (h : Congruent allowed r)
    (hrel : ∀ {host host' : Host σ},
      rel host host' ↔ r host.state host'.state ∧ host'.memory = host.memory)
    (hinside : ∀ {op : Operation}, allowed op → ¬ op.CallsOut → ∀ callbacks : Callbacks σ,
      (perform callbacks op).Overlooks rel) :
    Run.Congruence allowed r (Run.Match rel) where
  pure a := Work.overlooks_pure a
  bind hw hf host host' hs := (hw host host' hs).bind hf
  look hf host host' hs := hf _ _ (hrel.mp hs).1 host host' hs
  «recall» hf host host' hs := by
    dsimp only
    rw [(hrel.mp hs).2]
    exact hf host.memory host host' hs
  remember memory hw host host' hs := hw _ _ (hrel.mpr ⟨(hrel.mp hs).1, rfl⟩)
  stroke hf host host' hs :=
    ⟨(h.stroke hf (hrel.mp hs).1).1, hrel.mpr ⟨(h.stroke hf (hrel.mp hs).1).2, (hrel.mp hs).2⟩⟩
  clock := h.clock
  defaultTimeout := h.defaultTimeout
  cleanUp hseen id host host' hs :=
    ⟨(h.cleanUp hseen (hrel.mp hs).1 id).1,
      hrel.mpr ⟨(h.cleanUp hseen (hrel.mp hs).1 id).2, (hrel.mp hs).2⟩⟩
  accepts := h.accepts
  inside hop hcalls callbacks := hinside hop hcalls callbacks

theorem keepsSweeps (h : Congruent allowed r)
    (hrel : ∀ {host host' : Host σ},
      rel host host' ↔ r host.state host'.state ∧ host'.memory = host.memory)
    (hP : Run.Congruence allowed r (Run.Match rel)) : (Run.Match rel).KeepsSweeps := by
  intro callbacks callbacks' hc now host host' hs
  obtain ⟨hstate, hmemory⟩ := hrel.mp hs
  have hlocked := h.lock now hstate
  have hexpire : Run.Match rel (Run.update State.expireCall) (Run.update State.expireCall) :=
    fun _ _ ht => ⟨rfl, hrel.mpr ⟨h.expireCall (hrel.mp ht).1, (hrel.mp ht).2⟩⟩
  have hclaim (id : CallId) : Run.Match rel
      (Run.apply (·.claimExpired now (host.state.lock now).place id))
      (Run.apply (·.claimExpired now (host'.state.lock now).place id)) := fun t t' ht => by
    obtain ⟨hresult, hclaimed⟩ := h.claimExpired hlocked (hrel.mp ht).1 now id
    exact ⟨hresult, hrel.mpr ⟨hclaimed, (hrel.mp ht).2⟩⟩
  -- Either both find the lock taken and skip, or both take it and list the same calls.
  cases hsweeping : host.state.sweeping with
  | true =>
    rw [sweepAsOf_of_locked hsweeping, sweepAsOf_of_locked ((h.sweeping hstate).trans hsweeping)]
    exact ⟨rfl, hs⟩
  | false =>
    rw [sweepAsOf_of_free hsweeping, sweepAsOf_of_free ((h.sweeping hstate).trans hsweeping),
      h.registry hstate, hc.arrangement]
    refine (hP.foldlM (hP.sweepOne_congruent hc hexpire hclaim) _ _ _ _ ?_).bind ?_
    · exact hrel.mpr ⟨hlocked, hmemory⟩
    · intro report later later' hlater
      obtain ⟨hpurged, hleft⟩ := h.stroke (.purgeBindings now) (hrel.mp hlater).1
      exact ⟨by rw [hpurged], hrel.mpr ⟨h.unlock hleft, (hrel.mp hlater).2⟩⟩

end State.Congruent

/-! ## Operations that call nobody -/

/-- The steps that an operation is made of which calls nobody, listed with the operation that they
belong to, so that a likeness need only keep the steps of operations that are allowed. -/
inductive Operation.Stroke : Operation → {α : Type} → (State → α × State) → Prop
  | register (call : Call) : Stroke (.register call) (·.register call)
  | collect (id : CallId) : Stroke (.collect id) (·.collect .direct id)
  | claim (id : CallId) : Stroke (.claim id) (·.claim .direct id)
  | contains (id : CallId) : Stroke (.contains id) fun s => (s.registry.contains id, s)
  | overdue (now : Millis) : Stroke (.overdue now) fun s => (s.registry.overdue now, s)
  | acquire : Stroke .acquire State.acquire
  | release : Stroke .release fun s => ((), s.release)
  | admission : Stroke .admission fun s => ((s.admission.key, s.admission.state), s)
  | config : Stroke .config fun s => ((s.config, s.admission.key), s)
  | submit (number : Nat) (t : Chore) : Stroke (.request t) (·.submit number t)
  | start : Stroke .start fun s => ((), s.start)
  | beginStop : Stroke .stop State.beginStop
  | stopped : Stroke .stop fun s => ((), { s with lifecycle := .stopped })
  | stopAside : Stroke .beginStop fun s => ((), { s with stopsAside := s.stopsAside + 1 })
  | compose (envelope : Envelope) (inbound : Bool) :
      Stroke (.compose envelope inbound) (·.compose envelope inbound)
  | issueGuard (requestId : String) : Stroke (.issueGuard requestId) fun s =>
      ((s.guards.issue requestId).1, { s with guards := (s.guards.issue requestId).2 })
  | markGuard (guard : Guard) : Stroke (.markGuard guard) (·.markGuard guard)
  | guardSent (guard : Guard) : Stroke (.guardSent guard) fun s => (s.guards.isSent guard, s)
  | reply (msg : Message) (envelope : Envelope) (properties : Properties) :
      Stroke (.reply msg envelope properties) fun s =>
        (msg.reply s.freshMessageId.1 envelope properties, s.freshMessageId.2)
  | bindNow (session endpoint : String) (expiresAt : Millis) :
      Stroke (.bindNow session endpoint) fun s =>
        ((), { s with sessions := s.sessions.bind session endpoint expiresAt })
  | bind (session endpoint : String) (expiresAt : Millis) :
      Stroke (.bind session endpoint expiresAt) fun s =>
        ((), { s with sessions := s.sessions.bind session endpoint expiresAt })
  | lookup (session : String) (now : Millis) :
      Stroke (.lookup session now) fun s => (s.sessions.lookup session now, s)
  | unbind (session : String) : Stroke (.unbind session) fun s =>
      ((s.sessions.unbind session).1, { s with sessions := (s.sessions.unbind session).2 })
  | purge (now : Millis) : Stroke (.purge now) (·.purgeBindings now)
  | purgeBindings (now : Millis) : Stroke .purgeBindingsNow (·.purgeBindings now)
  | sessionCount : Stroke .sessionCount fun s => (s.sessions.size, s)
  | setClock (instant : Millis) :
      Stroke (.setClock instant) fun s => (instant, { s with clock := s.clock.set instant })
  | advanceClock (duration : Millis) : Stroke (.advanceClock duration) fun s =>
      ((s.clock.advance duration).instant, { s with clock := s.clock.advance duration })
  | breakClock (broken : Bool) :
      Stroke (.breakClock broken) fun s => ((), { s with clock := { s.clock with broken } })

/-- The operation goes by how far the life of the engine has come, or by its workers. -/
def Operation.MindsLife : Operation → Prop
  | .request _ | .stop | .beginStop | .status => True
  | _ => False

/-- The operations that call nobody lead from states that are alike to such, with the same answers,
and what they look at in passing does not differ. -/
structure State.Overlooked (allowed : Operation → Prop) (r : State → State → Prop) : Prop where
  stroke : ∀ {op : Operation} {α : Type} {f : State → α × State} {s s' : State}, allowed op →
    op.Stroke f → r s s' → (f s).1 = (f s').1 ∧ r (f s).2 (f s').2
  clock : ∀ {s s' : State}, r s s' → s'.clock = s.clock
  sessions : ∀ {s s' : State}, r s s' → s'.sessions = s.sessions
  sessionLifetime : ∀ {s s' : State}, r s s' →
    s'.config.sessionLifetime = s.config.sessionLifetime
  time : ∀ {s s' : State}, r s s' → s'.time = s.time
  life : ∀ {op : Operation} {s s' : State}, allowed op → op.MindsLife → r s s' →
    s'.lifecycle = s.lifecycle ∧ s'.worker = s.worker ∧ s'.workers = s.workers

namespace State.Overlooked

variable {r : State → State → Prop} {rel : Host σ → Host σ → Prop} {op : Operation}

section

variable (h : Overlooked allowed r)
  (hrel : ∀ {host host' : Host σ},
    rel host host' ↔ r host.state host'.state ∧ host'.memory = host.memory)

include hrel

omit h in
/-- Whoever looks at the state goes by what does not differ. -/
theorem overlooks_read_bind {f : State → Run σ α} (hsame : ∀ {s s' : State}, r s s' → f s' = f s)
    (hf : ∀ s, (f s).Overlooks rel) : (Run.read >>= f).Overlooks rel := by
  intro host host' hs
  rw [Run.read_bind, Run.read_bind, hsame (hrel.mp hs).1]
  exact hf _ _ _ hs

omit h in
theorem overlooks_await {condition : State → Bool}
    (hsame : ∀ {s s' : State}, r s s' → condition s = condition s') :
    (Run.await condition : Run σ Unit).Overlooks rel :=
  Work.overlooks_await fun _ _ hs => hsame (hrel.mp hs).1

include h

theorem overlooks_apply (hop : allowed op) {f : State → α × State} (hf : op.Stroke f) :
    (Run.apply f : Run σ α).Overlooks rel := fun _ _ hs =>
  ⟨(h.stroke hop hf (hrel.mp hs).1).1,
    hrel.mpr ⟨(h.stroke hop hf (hrel.mp hs).1).2, (hrel.mp hs).2⟩⟩

theorem overlooks_update (hop : allowed op) {change : State → State}
    (hf : op.Stroke fun s => ((), change s)) : (Run.update change : Run σ Unit).Overlooks rel :=
  h.overlooks_apply hrel hop hf

/-- Whatever is done as of the time on the clock. -/
theorem overlooks_clocked {f : State → Millis → Run σ α}
    (hsame : ∀ {s s' : State} now, r s s' → f s' now = f s now)
    (hf : ∀ s now, (f s now).Overlooks rel) :
    (do
      let s ← Run.read
      match s.clock.read with
      | .error p => return .error p
      | .ok now => return .ok (← f s now) : Run σ (Except Panic α)).Overlooks rel := by
  refine overlooks_read_bind hrel (fun {s s'} hs => ?_) fun s => ?_
  · have hf : f s' = f s := funext fun now => hsame now hs
    rw [h.clock hs, hf]
  · cases s.clock.read with
    | error p => exact Work.overlooks_pure _
    | ok now => exact Work.overlooks_bind (hf s now) fun _ => Work.overlooks_pure _

theorem stop_overlooks (hop : allowed .stop) : (stop : Run σ Unit).Overlooks rel := by
  have hend : (Run.update ({ · with lifecycle := .stopped }) : Run σ Unit).Overlooks rel :=
    h.overlooks_update hrel hop .stopped
  refine Work.overlooks_bind (h.overlooks_apply hrel hop .beginStop) fun number => ?_
  cases number with
  | none => exact hend
  | some number =>
    refine Work.overlooks_bind (overlooks_await hrel fun hs => ?_) fun _ => hend
    unfold State.hasWorker
    rw [(h.life hop trivial hs).2.2]

theorem request_overlooks {t : Chore} (hop : allowed (.request t)) :
    (request t : Run σ _).Overlooks rel := by
  have hsubmit (number : Nat) : Work.Overlooks rel (Run.apply (·.submit number t)) :=
    h.overlooks_apply hrel hop (.submit number t)
  have hfull {s s' : State} (hs : r s s') (number : Nat) : s'.isFull number = s.isFull number := by
    unfold State.isFull
    rw [(h.life hop trivial hs).2.2]
  refine overlooks_read_bind hrel (fun hs => ?_) fun s => ?_
  · rw [(h.life hop trivial hs).2.1]
    simp only [hfull hs]
  · cases s.worker with
    | none => exact Work.overlooks_pure _
    | some number =>
      dsimp only
      split
      · refine Work.overlooks_bind (overlooks_await hrel fun hs => ?_) fun _ => ?_
        · rw [hfull hs]
        · refine Work.overlooks_bind (hsubmit number) fun result => ?_
          cases result <;> exact Work.overlooks_pure _
      · refine Work.overlooks_bind (hsubmit number) fun result => ?_
        cases result <;> exact Work.overlooks_pure _

/-- An operation that calls nobody is no different at states that are alike. Most are one step; the
rest look at the state first, and go by what a likeness keeps. -/
theorem perform_overlooks (hop : allowed op) (hcalls : ¬ op.CallsOut)
    (callbacks : Callbacks σ) : (perform callbacks op).Overlooks rel := by
  have hstatus {op : Operation} (hop : allowed op) (hminds : op.MindsLife) {s s' : State}
      (hs : r s s') : s'.status = s.status := by
    obtain ⟨hlifecycle, hworker, hworkers⟩ := h.life hop hminds hs
    unfold State.status State.hasWorker
    rw [hlifecycle, hworker, hworkers]
  cases op with
  | dispatch | respond | answerRequest | sweep | sweepAsOf | resume | runHandler | routeFault =>
    exact absurd trivial hcalls
  | register => exact h.overlooks_apply hrel hop (.register _)
  | collect => exact h.overlooks_apply hrel hop (.collect _)
  | claim => exact h.overlooks_apply hrel hop (.claim _)
  | contains => exact h.overlooks_apply hrel hop (.contains _)
  | overdue => exact h.overlooks_apply hrel hop (.overdue _)
  | acquire => exact h.overlooks_apply hrel hop .acquire
  | release => exact h.overlooks_update hrel hop .release
  | admission => exact h.overlooks_apply hrel hop .admission
  | config => exact h.overlooks_apply hrel hop .config
  | request => exact h.request_overlooks hrel hop
  | start => exact h.overlooks_update hrel hop .start
  | stop => exact h.stop_overlooks hrel hop
  | beginStop =>
    refine Work.overlooks_bind (h.overlooks_update hrel hop .stopAside) fun _ => ?_
    refine Work.overlooks_bind (Work.overlooks_await trivial) fun _ => ?_
    refine overlooks_read_bind hrel (fun hs => ?_) fun _ => Work.overlooks_pure _
    rw [hstatus hop trivial hs]
  | status =>
    intro host host' hs
    exact ⟨(hstatus hop trivial (hrel.mp hs).1).symm, hs⟩
  | elapse =>
    refine overlooks_read_bind hrel (fun hs => ?_) fun _ => Work.overlooks_pause _ _
    rw [h.time hs]
  | rest => exact Work.overlooks_await trivial
  | compose => exact h.overlooks_apply hrel hop (.compose _ _)
  | issueGuard => exact h.overlooks_apply hrel hop (.issueGuard _)
  | markGuard => exact h.overlooks_apply hrel hop (.markGuard _)
  | guardSent => exact h.overlooks_apply hrel hop (.guardSent _)
  | reply => exact h.overlooks_apply hrel hop (.reply _ _ _)
  | bindNow session endpoint =>
    refine h.overlooks_clocked hrel (fun now hs => ?_) fun s now => ?_
    · rw [h.sessionLifetime hs]
    · exact h.overlooks_update hrel hop (.bindNow _ _ _)
  | endpointNow =>
    refine overlooks_read_bind hrel (fun hs => ?_) fun _ => Work.overlooks_pure _
    rw [h.clock hs, h.sessions hs]
  | bind => exact h.overlooks_update hrel hop (.bind _ _ _)
  | lookup => exact h.overlooks_apply hrel hop (.lookup _ _)
  | unbind => exact h.overlooks_apply hrel hop (.unbind _)
  | purge => exact h.overlooks_apply hrel hop (.purge _)
  | purgeBindingsNow =>
    refine h.overlooks_clocked hrel (fun _ _ => rfl) fun _ now => ?_
    exact h.overlooks_apply hrel hop (.purgeBindings now)
  | sessionCount => exact h.overlooks_apply hrel hop .sessionCount
  | setClock => exact h.overlooks_apply hrel hop (.setClock _)
  | advanceClock => exact h.overlooks_apply hrel hop (.advanceClock _)
  | breakClock => exact h.overlooks_update hrel hop (.breakClock _)

end

end State.Overlooked

/-! ## Engines that are alike -/

/-- The states differ at most in what the life of the engine has come to and in its workers. -/
inductive State.Alike (s : State) : State → Prop
  | mk {lifecycle : Lifecycle} {worker : Option Nat} {workers : List (Worker Chore)}
      {started stopsAside : Nat} :
      Alike s { s with lifecycle, worker, workers, started, stopsAside }

/-- And so do the engines, whose collaborators remember the same. -/
inductive Host.Alike (host : Host σ) : Host σ → Prop
  | mk {s' : State} (h : host.state.Alike s') : Alike host { host with state := s' }

namespace State.Alike

variable {s s' : State}

theorem release (h : s.Alike s') : s.release.Alike s'.release := by
  cases h
  unfold State.release
  dsimp only
  split <;> exact .mk

theorem collect (h : s.Alike s') (claimer : Claimer) (id : CallId) :
    (s.collect claimer id).1 = (s'.collect claimer id).1 ∧
      (s.collect claimer id).2.Alike (s'.collect claimer id).2 := by
  cases h
  unfold State.collect
  dsimp only
  split <;> exact ⟨rfl, .mk⟩

theorem acquire (h : s.Alike s') : s.acquire.2.Alike s'.acquire.2 := by
  cases h
  unfold State.acquire
  dsimp only
  split
  · rw [if_pos (by assumption)]
    exact .mk
  · rw [if_neg (by assumption)]
    exact .mk

theorem register (h : s.Alike s') (call : Call) :
    (s.register call).1 = (s'.register call).1 ∧
      (s.register call).2.Alike (s'.register call).2 := by
  cases h
  unfold State.register
  dsimp only
  split <;> exact ⟨rfl, .mk⟩

theorem claim (h : s.Alike s') (claimer : Claimer) (id : CallId) :
    (s.claim claimer id).1 = (s'.claim claimer id).1 ∧
      (s.claim claimer id).2.Alike (s'.claim claimer id).2 := by
  cases h
  unfold State.claim
  dsimp only
  split <;> exact ⟨rfl, .mk⟩

theorem claimExpired (h : s.Alike s') (now : Millis) (place : Nat) (id : CallId) :
    (s.claimExpired now place id).1 = (s'.claimExpired now place id).1 ∧
      (s.claimExpired now place id).2.Alike (s'.claimExpired now place id).2 := by
  obtain ⟨hresult, hclaimed⟩ := h.claim (.sweep now place) id
  exact State.claimExpired_congruent hresult hclaimed fun | .mk => .mk

theorem enroll (h : s.Alike s') (call : Call) :
    (s.enroll call).1 = (s'.enroll call).1 ∧ (s.enroll call).2.Alike (s'.enroll call).2 := by
  obtain ⟨hresult, hbooked⟩ := h.acquire.register call
  exact State.enroll_congruent hresult hbooked release fun | .mk => .mk

theorem expireCall (h : s.Alike s') : s.expireCall.Alike s'.expireCall := by
  cases h
  exact Alike.release .mk

/-- What is forbidden is to dispatch, which looks at the life of the engine: it refuses calls once
that is over. -/
theorem congruent
    (hallowed : ∀ {msg : Message} {expiry : Expiry}, ¬ allowed (.dispatch msg expiry)) :
    Congruent allowed Alike where
  stroke hf hs := by
    cases hf with
    | enroll call => exact hs.enroll call
    | release => exact ⟨rfl, hs.release⟩
    | collect id => exact hs.collect _ id
    | _ =>
      cases hs
      exact ⟨rfl, .mk⟩
  lock _ := fun | .mk => .mk
  unlock := fun | .mk => .mk
  registry := fun | .mk => rfl
  sweeping := fun | .mk => rfl
  clock := fun | .mk => rfl
  defaultTimeout := fun | .mk => rfl
  cleanUp hs ht id := by
    cases hs
    exact ht.claim _ id
  claimExpired hs ht now id := by
    cases hs
    exact ht.claimExpired now _ id
  expireCall := expireCall
  accepts hdispatch := absurd hdispatch hallowed

end State.Alike

/-! ## Everything that can be asked for -/

/-- The operation neither looks at the life of the engine nor changes it. -/
def Operation.OverlooksLife : Operation → Prop
  | .dispatch .. | .request _ | .start | .stop | .beginStop | .status => False
  | op => op.IsIndirect

theorem State.Alike.overlooked : State.Overlooked Operation.OverlooksLife State.Alike where
  stroke hop hf hs := by
    cases hf with
    | submit | start | beginStop | stopped | stopAside => exact hop.elim
    | register | collect | claim | acquire | release => exact False.elim hop
    | compose envelope inbound =>
      cases hs
      cases inbound <;> exact ⟨rfl, .mk⟩
    | _ =>
      cases hs
      exact ⟨rfl, .mk⟩
  clock := fun | .mk => rfl
  sessions := fun | .mk => rfl
  sessionLifetime := fun | .mk => rfl
  time := fun | .mk => rfl
  life {op} _ _ hop hminds := by
    cases op with
    | request | stop | beginStop | status => exact hop.elim
    | _ => exact hminds.elim

namespace Host.Alike

theorem iff_state {host host' : Host σ} :
    Host.Alike host host' ↔ host.state.Alike host'.state ∧ host'.memory = host.memory := by
  constructor
  · rintro ⟨h⟩
    exact ⟨h, rfl⟩
  · obtain ⟨state, memory⟩ := host'
    rintro ⟨h, rfl⟩
    exact .mk h

end Host.Alike

/-- A program that overlooks the life of the engine does the same at engines that are alike. -/
theorem Environment.run_overlooks {env : Environment σ}
    (hcol : env.collaborators.AskOnly Operation.OverlooksLife) (depth : Nat)
    {p : Program σ α} (hp : p.AsksOnly Operation.OverlooksLife) :
    (env.run depth p).Overlooks Host.Alike := by
  have hr : State.Congruent Operation.OverlooksLife State.Alike := State.Alike.congruent id
  have hP := hr.congruence (σ := σ) Host.Alike.iff_state
    (State.Alike.overlooked.perform_overlooks Host.Alike.iff_state)
  exact hP.run_congruent (hr.keepsSweeps Host.Alike.iff_state hP) hcol depth hp

end Correlator
