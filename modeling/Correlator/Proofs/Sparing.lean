import Correlator.Proofs.Carried
import Correlator.Proofs.Congruence
import Correlator.Proofs.Containment
import Mathlib.Algebra.Group.Nat.Defs

/-!
# What only sweeps touch

A sweep holds a lock, and only sweeps count expired calls.  So whoever holds the lock should be able
to rely on the lock and on these counts, whatever the others do meanwhile: workers and programs from
outside, and the collaborators that the sweep itself calls, with all that they ask for.  But others
may begin and end sweeps of their own while the lock is free, and nothing that happens then tells
them apart from those that may not.

What tells them apart is what they have in hand.  A stretch of work that knows how many sweeps it
has in hand itself takes for granted that the lock tells rightly how many there are with those of
the others, and leaves it so; and if the others have one, it has left the counts alone
(`Host.Spares`).  Work that is done for a sweep is work beside it (`Beside`), and there the counts
may change.

Most of what an engine does touches none of this, and is no different for one notion of being in
hand than for another.  So that part is about any notion that allows for it.

## Main definitions

* `State.Unswept` : neither the lock nor the counts of expired calls have been touched.
* `Host.Spares` : a stretch of work takes the lock, gives it back or leaves it alone, and spares the
  sweeps of others.

## Main results

* `congruence_concluding` : all that an engine does but sweeps leaves the lock and the counts alone.
* `Environment.run_spares` : whole programs spare the sweeps of others.
* `Environment.Reaches.sweeps_spared` : in every run those who wait have as many sweeps in hand as
  the lock says.
-/

namespace Correlator

variable {σ α β : Type} {allowed : Operation → Prop} {callbacks callbacks' : Callbacks σ}

/-! ## What is left alone -/

/-- Neither the lock nor the counts of expired calls have been touched. There are two such counts,
one in the statistics of the registry and one among the metrics; a sweep counts every call that it
claims in both. -/
structure State.Unswept (s s' : State) : Prop where
  sweeping : s'.sweeping = s.sweeping
  expired : s'.registry.stats.expired = s.registry.stats.expired
  timeouts : s'.metrics.timeouts = s.metrics.timeouts

namespace State

variable {s s' s'' : State}

theorem Unswept.refl (s : State) : s.Unswept s := ⟨rfl, rfl, rfl⟩

theorem Unswept.trans (h : s.Unswept s') (h' : s'.Unswept s'') : s.Unswept s'' :=
  ⟨h'.sweeping.trans h.sweeping, h'.expired.trans h.expired, h'.timeouts.trans h.timeouts⟩

theorem unswept_acquire (s : State) : s.Unswept s.acquire.2 := by
  unfold acquire
  dsimp only
  split <;> exact ⟨rfl, rfl, rfl⟩

theorem unswept_release (s : State) : s.Unswept s.release := by
  unfold release
  split <;> exact ⟨rfl, rfl, rfl⟩

theorem unswept_register (s : State) (call : Call) : s.Unswept (s.register call).2 := by
  unfold register Registry.register?
  split
  · exact ⟨rfl, rfl, rfl⟩
  · rename_i registry hregister
    split at hregister
    · cases hregister
    · obtain rfl := Option.some.inj hregister
      exact ⟨rfl, rfl, rfl⟩

theorem unswept_enroll (s : State) (call : Call) : s.Unswept (s.enroll call).2 := by
  have hbooked := s.unswept_acquire.trans (s.acquire.2.unswept_register call)
  unfold enroll
  dsimp only
  split
  · rename_i e registered hregister
    rw [hregister] at hbooked
    exact hbooked.trans registered.unswept_release
  · rename_i receipt registered hregister
    rw [hregister] at hbooked
    exact hbooked.trans ⟨rfl, rfl, rfl⟩

/-- A claim leaves the statistics to whoever claims. -/
theorem unswept_claim (s : State) (claimer : Claimer) (id : CallId) :
    s.Unswept (s.claim claimer id).2 := by
  unfold claim
  cases hclaim : s.registry.claim? id with
  | none => exact .refl s
  | some result =>
    obtain ⟨call, registry⟩ := result
    have hstats : registry.stats = s.registry.stats := by
      unfold Registry.claim? at hclaim
      split at hclaim
      · cases hclaim
      · split at hclaim
        · cases hclaim
        · cases hclaim
          rfl
    exact ⟨rfl, congrArg (·.expired) hstats, rfl⟩

theorem unswept_collect (s : State) (claimer : Claimer) (id : CallId) :
    s.Unswept (s.collect claimer id).2 := by
  have hclaimed := s.unswept_claim claimer id
  unfold claim at hclaimed
  unfold collect Registry.collect
  cases hclaim : s.registry.claim? id with
  | none => exact ⟨rfl, rfl, rfl⟩
  | some result =>
    rw [hclaim] at hclaimed
    exact ⟨rfl, hclaimed.expired, rfl⟩

theorem unswept_start (s : State) : s.Unswept s.start := by
  unfold start
  split <;> exact ⟨rfl, rfl, rfl⟩

theorem unswept_beginStop (s : State) : s.Unswept s.beginStop.2 := by
  unfold beginStop
  split <;> exact ⟨rfl, rfl, rfl⟩

theorem unswept_submit (s : State) (number : Nat) (t : Chore) :
    s.Unswept (s.submit number t).2 := by
  unfold submit
  split <;> exact ⟨rfl, rfl, rfl⟩

/-- What is not part of sweeps themselves leaves it all alone. Registering and collecting change
the statistics too, but not this count; so they need a closer look, and the others do not. -/
theorem Stroke.unswept {f : State → α × State} (h : Stroke f) (s : State) :
    s.Unswept (f s).2 := by
  cases h with
  | enroll call => exact s.unswept_enroll call
  | release => exact s.unswept_release
  | collect id => exact s.unswept_collect _ id
  | _ => exact ⟨rfl, rfl, rfl⟩

end State

/-! ## Everything but sweeps -/

section Concluding

variable {step : ℕ → Host σ → ℕ → Host σ → Prop} [Ledger step]
  (hfree : ∀ {host host' : Host σ}, host.state.Unswept host'.state → step 0 host 0 host')

include hfree

omit [Ledger step] in
theorem Run.concludes_apply_of_unswept {change : State → α × State}
    (h : ∀ s : State, s.Unswept (change s).2) :
    (Run.apply change : Run σ α).Concludes step := fun host =>
  ⟨0, hfree (h host.state), rfl, trivial⟩

omit [Ledger step] in
theorem Run.concludes_update_of_unswept {change : State → State}
    (h : ∀ s : State, s.Unswept (change s)) :
    (Run.update change : Run σ Unit).Concludes step := fun host =>
  ⟨0, hfree (h host.state), rfl, trivial⟩

omit hfree [Ledger step] in
theorem Run.concludes_read_bind {f : State → Run σ α} (h : ∀ s, (f s).Concludes step) :
    (Run.read >>= f).Concludes step := fun host => h host.state host

theorem stop_leaves : (stop : Run σ Unit).Concludes step := by
  have hend : (Run.update ({ · with lifecycle := .stopped }) : Run σ Unit).Concludes step :=
    Run.concludes_update_of_unswept hfree fun _ => ⟨rfl, rfl, rfl⟩
  have hbegin : (Run.apply State.beginStop : Run σ _).Concludes step :=
    Run.concludes_apply_of_unswept hfree State.unswept_beginStop
  refine Work.concludes_bind hbegin fun number => ?_
  cases number with
  | none => exact hend
  | some number => exact Work.concludes_bind (Work.concludes_await _) fun _ => hend

theorem request_leaves (t : Chore) : (request t : Run σ _).Concludes step := by
  refine Run.concludes_read_bind fun s => ?_
  cases s.worker with
  | none => exact Work.concludes_pure _
  | some number =>
    refine fun host => Work.concludes_await_if _ _ (fun h => ?_) host
    have hsubmit : (Run.apply (·.submit number t) : Run σ Submission).Concludes step :=
      Run.concludes_apply_of_unswept hfree fun s => s.unswept_submit number t
    refine Work.concludes_bind hsubmit (fun result => ?_) h
    cases result <;> exact Work.concludes_pure _

omit hfree in
/-- What reads the clock first leaves alone what the rest leaves alone. -/
theorem clocked_leaves {f : State → Millis → Run σ β}
    (h : ∀ s now, (f s now).Concludes step) :
    (do
      let s ← Run.read
      match s.clock.read with
      | .error p => return .error p
      | .ok now => return .ok (← f s now) : Run σ (Except Panic β)).Concludes step := by
  refine Run.concludes_read_bind fun s => ?_
  cases s.clock.read with
  | error p => exact Work.concludes_pure _
  | ok now => exact Work.concludes_bind (h s now) fun _ => Work.concludes_pure _

/-- No operation that calls nobody touches the lock or the counts. -/
theorem perform_leaves {op : Operation} (hcalls : ¬ op.CallsOut) :
    (perform callbacks op).Concludes step := by
  have happly {α : Type} {change : State → α × State}
    (h : ∀ s : State, s.Unswept (change s).2) :=
    Run.concludes_apply_of_unswept hfree h
  have hupdate {change : State → State}
    (h : ∀ s : State, s.Unswept (change s)) :=
    Run.concludes_update_of_unswept hfree h
  cases op with
  | dispatch | respond | answerRequest | sweep | sweepAsOf | resume | runHandler | routeFault =>
    exact absurd trivial hcalls
  | register call => exact happly fun s => s.unswept_register call
  | collect id => exact happly fun s => s.unswept_collect _ id
  | claim id => exact happly fun s => s.unswept_claim _ id
  | acquire => exact happly State.unswept_acquire
  | release => exact hupdate State.unswept_release
  | request t => exact request_leaves hfree t
  | start => exact hupdate State.unswept_start
  | stop => exact stop_leaves hfree
  | beginStop =>
    refine Work.concludes_bind (hupdate fun _ => ⟨rfl, rfl, rfl⟩) fun _ => ?_
    refine Work.concludes_bind (Work.concludes_await _) fun _ => ?_
    exact Run.concludes_read_bind fun _ => Work.concludes_pure _
  | rest => exact Work.concludes_await _
  | elapse duration => exact Run.concludes_read_bind fun _ => Work.concludes_pause _ _
  | bindNow session endpoint =>
    exact clocked_leaves fun _ _ => hupdate fun _ => ⟨rfl, rfl, rfl⟩
  | purgeBindingsNow => exact clocked_leaves fun _ _ => happly fun _ => ⟨rfl, rfl, rfl⟩
  | endpointNow session => exact Run.concludes_read_bind fun _ => Work.concludes_pure _
  | compose envelope inbound =>
    intro host
    cases inbound <;> exact ⟨0, hfree ⟨rfl, rfl, rfl⟩, rfl, trivial⟩
  | _ => exact fun host => ⟨0, hfree ⟨rfl, rfl, rfl⟩, rfl, trivial⟩

/-- Work that has nothing in hand when it begins and nothing when it has ended. As a relation of
two pieces of work it ignores the second, so that the congruences for pairs of engines can be used
for a single one. -/
def Run.Concluding (step : ℕ → Host σ → ℕ → Host σ → Prop) : Run.Pairing σ := fun _ work _ =>
  work.Concludes step

theorem congruence_concluding :
    Run.Congruence (fun _ => True) Eq (Run.Concluding step) where
  pure := Work.concludes_pure
  bind hw hf := Work.concludes_bind hw hf
  look hf := Run.concludes_read_bind fun s => hf s s rfl
  «recall» hf host := hf host.memory host
  remember memory hw host := by
    have hsame : step 0 host 0 { host with memory } := hfree (.refl host.state)
    exact Progress.Carries.of_earlier hsame (hw { host with memory })
  stroke hf := Run.concludes_apply_of_unswept hfree hf.unswept
  clock := fun | rfl => rfl
  defaultTimeout := fun | rfl => rfl
  cleanUp := fun | rfl => fun id =>
    Run.concludes_apply_of_unswept hfree fun s => s.unswept_claim _ id
  accepts := fun _ => fun | rfl => rfl
  inside _ hcalls _ := perform_leaves hfree hcalls

end Concluding

/-! ## Sweeps in hand -/

/-- A stretch of work that has `i` sweeps in hand when it begins has `i'` in hand when it ends.  If
the lock tells rightly how many there are with those that the others have in hand, it still does,
and if the others have one in hand, the counts of expired calls are as they were. -/
def Host.Spares (i : ℕ) (host : Host σ) (i' : ℕ) (host' : Host σ) : Prop :=
  ∀ others, others + i = host.state.sweeping.toNat →
    others + i' = host'.state.sweeping.toNat ∧ (others = 1 → host.state.Unswept host'.state)

/-- Nobody has more than one sweep in hand. -/
theorem Host.inHand_le {host : Host σ} {i : ℕ} (h : i = host.state.sweeping.toNat) : i ≤ 1 :=
  h ▸ Bool.toNat_le _

instance : Ledger (Host.Spares (σ := σ)) where
  refl _ host _ h := ⟨h, fun _ => .refl host.state⟩
  trans h h' others hothers := by
    obtain ⟨hmid, hspared⟩ := h others hothers
    obtain ⟨hlater, hspared'⟩ := h' others hmid
    exact ⟨hlater, fun hone => (hspared hone).trans (hspared' hone)⟩
  frame others i host i' host' h more hmore := by
    rw [← add_assoc] at hmore ⊢
    obtain ⟨hlater, hspared⟩ := h (more + others) hmore
    refine ⟨hlater, fun hone => hspared ?_⟩
    have hle := Host.inHand_le hmore
    omega

namespace Host.Spares

variable {host host' : Host σ}

theorem free (h : host.state.Unswept host'.state) : Spares 0 host 0 host' := by
  intro others hothers
  rw [h.sweeping]
  exact ⟨hothers, fun _ => h⟩

/-- Whoever finds the lock free takes it and has a sweep in hand. -/
theorem lock (hfree : host.state.sweeping = false) (now : Millis) :
    Spares 0 host 1 { host with state := host.state.lock now } := by
  intro others hothers
  rw [hfree] at hothers
  obtain rfl : others = 0 := hothers
  exact ⟨rfl, nofun⟩

/-- Whoever has a sweep in hand may count, since nobody else has one. The condition on the counts
is about a sweep of the others, and that there is one is then impossible. -/
theorem held (h : host'.state.sweeping = host.state.sweeping) : Beside 1 Spares 0 host 0 host' := by
  intro others hothers
  refine ⟨h ▸ hothers, fun hone => ?_⟩
  have hle := Host.inHand_le hothers
  omega

/-- Whoever has a sweep in hand gives the lock back. -/
theorem unlock : Spares 1 host 0 { host with state := host.state.unlock } := by
  intro others hothers
  have hle := Host.inHand_le hothers
  obtain rfl : others = 0 := by omega
  exact ⟨rfl, nofun⟩

theorem beside_free (h : host.state.Unswept host'.state) : Beside 1 Spares 0 host 0 host' :=
  held h.sweeping

end Host.Spares

theorem State.sweeping_claimExpired (s : State) (now : Millis) (place : Nat) (id : CallId) :
    (s.claimExpired now place id).2.sweeping = s.sweeping := by
  have hclaimed := (s.unswept_claim (.sweep now place) id).sweeping
  unfold claimExpired
  split
  · rename_i t hclaim
    rw [hclaim] at hclaimed
    exact hclaimed
  · rename_i call t hclaim
    rw [hclaim] at hclaimed
    exact hclaimed

theorem State.sweeping_expireCall (s : State) : s.expireCall.sweeping = s.sweeping :=
  (State.unswept_release _).sweeping

theorem Callbacks.Correspond.mono {P Q : Run.Pairing σ}
    (hsub : ∀ {α : Type} {work work' : Run σ α}, P work work' → Q work work')
    (hc : callbacks.Correspond P callbacks') : callbacks.Correspond Q callbacks' where
  level := hc.level
  rounds := hc.rounds
  arrangement := hc.arrangement
  transmit wire := hsub (hc.transmit wire)
  writeBack answer := hsub (hc.writeBack answer)
  startFlow msg := hsub (hc.startFlow msg)
  continueFlow frame msg := hsub (hc.continueFlow frame msg)
  compensate handler cause msg := hsub (hc.compensate handler cause msg)

/-- What is done for a sweep is done beside it. -/
theorem Callbacks.Correspond.beside
    (hc : callbacks.Correspond (Run.Concluding Host.Spares) callbacks') :
    callbacks.Correspond (Run.Concluding (Beside 1 Host.Spares)) callbacks' :=
  hc.mono fun hwork host => (hwork host).mono_step (Ledger.frame 1)

/-- A sweep goes through the ids that it has listed while it holds the lock. All this is done
beside it, and only claiming a call and expiring it touch the counts. -/
theorem sweepAll_leaves (hc : callbacks.Correspond (Run.Concluding Host.Spares) callbacks')
    (now : Millis) (place : Nat) (report : SweepSummary) (ids : List CallId) :
    (ids.foldlM (sweepOne callbacks now place) report : Run σ SweepSummary).Concludes
      (Beside 1 Host.Spares) := by
  have hP : Run.Congruence (fun _ => True) Eq (Run.Concluding (σ := σ) (Beside 1 Host.Spares)) :=
    congruence_concluding Host.Spares.beside_free
  have hclaim (id : CallId) : (Run.apply (·.claimExpired now place id) : Run σ _).Concludes
      (Beside 1 Host.Spares) := fun host =>
    ⟨0, .held (host.state.sweeping_claimExpired now place id), rfl, trivial⟩
  have hexpire : (Run.update State.expireCall : Run σ Unit).Concludes (Beside 1 Host.Spares) :=
    fun host => ⟨0, .held host.state.sweeping_expireCall, rfl, trivial⟩
  have hone (report : SweepSummary) (id : CallId) : Run.Concluding (Beside 1 Host.Spares)
      (sweepOne callbacks now place report id) (sweepOne callbacks' now place report id) :=
    hP.sweepOne_congruent hc.beside hexpire hclaim report id
  exact hP.foldlM hone ids report

/-- A sweep takes the lock and gives it back, whatever happens in between. -/
theorem keepsSweeps_sparing : (Run.Concluding (Host.Spares (σ := σ))).KeepsSweeps := by
  intro callbacks callbacks' hc now host
  cases hsweeping : host.state.sweeping with
  | true =>
    rw [sweepAsOf_of_locked hsweeping]
    exact Progress.carries_ended ⟨rfl, trivial⟩
  | false =>
    rw [sweepAsOf_of_free hsweeping]
    refine Progress.Carries.of_earlier (Host.Spares.lock hsweeping now) ?_
    -- Between taking the lock and giving it back there is one sweep in hand throughout.
    refine (sweepAll_leaves hc now _ _ _ _).of_beside.bind ?_
    rintro report _ later ⟨_, rfl, rfl, -⟩
    have hpurged : Host.Spares 0 later 0
        { later with state := (later.state.purgeBindings now).2 } := .free ⟨rfl, rfl, rfl⟩
    exact ⟨0, Ledger.trans (Ledger.frame 1 hpurged) .unlock, rfl, trivial⟩

/-! ## Workers and runs -/

theorem Crew.unswept_dismiss (callbacks : Callbacks σ) (left : Bool) (number : Nat)
    (host : Host σ) :
    host.state.Unswept ((sweepers callbacks).dismiss left number host).state := by
  unfold Crew.dismiss
  split <;> exact ⟨rfl, rfl, rfl⟩

namespace Environment

variable {env : Environment σ} {depth : Nat} {site : Site (Host σ)}

theorem callbacks_spare (env : Environment σ) (level : Nat) :
    (env.callbacks level).Correspond (Run.Concluding Host.Spares) (env.callbacks level) :=
  (congruence_concluding Host.Spares.free).callbacks_correspond keepsSweeps_sparing
    env.collaborators.askOnly_true level

/-- Whatever a program does, and the collaborators that it has called, the sweeps of others are
spared. -/
theorem run_spares (env : Environment σ) (depth : Nat) (p : Program σ α) :
    (env.run depth p).Concludes Host.Spares :=
  (congruence_concluding Host.Spares.free).run_congruent keepsSweeps_sparing
    env.collaborators.askOnly_true depth p.asksOnly_true

theorem sweepers_spare (env : Environment σ) (depth : Nat) :
    (sweepers (env.callbacks depth)).Carries Host.Spares where
  setNow _ _ := .free ⟨rfl, rfl, rfl⟩
  left _ _ _ _ := .free (Crew.unswept_dismiss _ _ _ _)
  died _ _ _ _ := .free (Crew.unswept_dismiss _ _ _ _)
  work host w _ item taken _ := by
    have htaken : Host.Spares 0 host 0
        ((sweepers (env.callbacks depth)).modifyWorker w.number (fun _ => taken) host) :=
      .free ⟨rfl, rfl, rfl⟩
    have hitem := (congruence_concluding Host.Spares.free).sweeperItem_congruent
      (env.callbacks_spare depth) keepsSweeps_sparing item
    refine Progress.Carries.of_earlier htaken ((hitem _).mono ?_)
    rintro survives _ later ⟨rfl, -⟩
    cases survives with
    | true => exact .free (.refl later.state)
    | false => exact .free (Crew.unswept_dismiss _ _ _ _)

theorem errands_spare (env : Environment σ) (depth : Nat) :
    (sweepers (env.callbacks depth)).ErrandsCarry Host.Spares := fun host _ =>
  Progress.Concludes.bind (stop_leaves Host.Spares.free host) fun _ later _ =>
    Progress.carries_ended (.free (.refl later.state))

/-- Of those who wait as many have a sweep in hand as the lock says: one if it is held, and
otherwise nobody. The induction is on the run, which begins with the lock free and nobody waiting.
-/
theorem Reaches.sweeps_spared (h : env.Reaches allowed depth site) :
    (sweepers (env.callbacks depth)).Bear Host.Spares site.suspended
      site.state.state.sweeping.toNat := by
  have hcrew (host : Host σ) (own : ℕ) := (env.sweepers_spare depth).preserves
    (env.errands_spare depth) 0 host own
  have hbears : ∃ host : Host σ, host.state.sweeping = false ∧
      site.Bears (sweepers (env.callbacks depth)) Host.Spares 0 host 0 := by
    induction h with
    | fresh config clock nextId memory =>
      exact ⟨_, rfl, 0, .nil, .free (.refl _)⟩
    | @completed site _ p _ _ ih =>
      obtain ⟨host, hfree, hsite⟩ := ih
      have hboth (own : ℕ) : (sweepers (env.callbacks depth)).Preserves fun site =>
          site.Bears (sweepers (env.callbacks depth)) Host.Spares 0 host own ∧ True := by
        simpa only [and_true] using hcrew host own
      obtain ⟨_, hlater, -, rfl, -⟩ := Crew.complete_bears hboth (fun _ h => h) env.rounds hsite
        trivial (env.run_spares depth p site.state)
      exact ⟨host, hfree, hlater⟩
    | settled _ ih =>
      obtain ⟨host, hfree, hsite⟩ := ih
      exact ⟨host, hfree, (hcrew host 0).settle env.rounds hsite⟩
  obtain ⟨host, hfree, i, hbear, hspares⟩ := hbears
  have hnumber := (hspares 0 (by rw [hfree]; rfl)).1
  rw [zero_add, zero_add] at hnumber
  rwa [← hnumber]

end Environment

end Correlator
