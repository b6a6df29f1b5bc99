import Correlator.Proofs.Endings
import Correlator.Proofs.Reach
import Mathlib.Data.List.Nodup

/-!
# Failures of collaborators stay where they are

A collaborator may return, fail or panic, and before that it may call back into the engine.  What
the life of an engine goes by (`Vitals`) is no affair of such a callback: the status, the workers,
the lock of the sweeps and whether the clock can be read are the same after it as before.  A sweep
takes the lock and gives it back, and nothing that happens in between keeps it from doing so,
because a collaborator that asks only for prompt operations never waits.

So an operation that reaches collaborators ends, with a result and not with a panic, and the worker
of a running engine survives its items.

## Main definitions

* `Operation.IsPrompt` : what a collaborator may ask for without waiting.
* `Vitals.IsHealthy` : the lock is free, and a running engine has a worker that lives and was not
  told to stop.

## Main results

* `Environment.allows_unmoved` : whatever collaborators do leaves the vitals alone.
* `Environment.sweepers_keep` : a healthy engine survives everything that its workers do.
* `Environment.Reaches.contains_failures` : the three operations end with a result at every level of
  nesting, and every run leaves the engine healthy.
-/

namespace Correlator

/-! ## Vitals -/

/-- What the life of an engine goes by. -/
structure Vitals where
  config : Config
  broken : Bool
  timeOfDay : Option Millis
  sweeping : Bool
  lifecycle : Lifecycle
  worker : Option Nat
  workers : List (Worker Chore)
  started : Nat

namespace State

/-- The vitals of a state. -/
def vitals (s : State) : Vitals where
  config := s.config
  broken := s.clock.broken
  timeOfDay := s.clock.timeOfDay
  sweeping := s.sweeping
  lifecycle := s.lifecycle
  worker := s.worker
  workers := s.workers
  started := s.started

variable {s s' : State}

theorem Booked.vitals (h : s.Booked s') : s'.vitals = s.vitals := by
  cases h
  rfl

/-- No move touches the vitals. -/
theorem Move.vitals {σ : Type} {c : Collaborators σ} (h : Move c s s') : s'.vitals = s.vitals := by
  have claimed {t : State} {claimer : Claimer} {id : CallId} {call : Call}
      (hclaim : s.claim claimer id = (some call, t)) : s.Booked t.release := by
    have hbooked := Booked.claim s claimer id
    rw [hclaim] at hbooked
    exact hbooked.trans (.release t)
  cases h with
  | quiet hquiet => exact (Booked.quiet hquiet).vitals
  | @registered _ call _ _ henroll =>
    have hbooked := Booked.enroll s call
    rw [henroll] at hbooked
    exact hbooked.vitals
  | @refused _ call _ henroll =>
    have hbooked := Booked.enroll s call
    rw [henroll] at hbooked
    exact hbooked.vitals
  | claimed _ _ hclaim hquiet => exact ((claimed hclaim).trans (.quiet hquiet)).vitals
  | abandoned _ hclaim => exact (claimed hclaim).vitals
  | @marked t _ _ guard _ hmark =>
    have hvitals : (s.markGuard guard).2.vitals = s.vitals := rfl
    rw [hmark] at hvitals
    exact hvitals
  | _ => rfl

end State

/-- The journal has only grown, and the vitals are the same. -/
structure Host.Unmoved {σ : Type} (h h' : Host σ) : Prop where
  suffix : h.state.journal <:+ h'.state.journal
  vitals : h'.state.vitals = h.state.vitals

instance {σ : Type} : IsPreorder (Host σ) Host.Unmoved where
  refl _ := ⟨List.suffix_refl _, rfl⟩
  trans _ _ _ h h' := ⟨h.suffix.trans h'.suffix, h'.vitals.trans h.vitals⟩

/-! ## What collaborators may do -/

/-- The operation neither waits nor has to do with the life of the engine, and it leaves the clock
whole. It may still call collaborators, which may call back in turn, as deep as the nesting goes.
-/
def Operation.IsPrompt : Operation → Prop
  | .start | .stop | .beginStop | .request _ | .elapse _ | .rest | .breakClock _ => False
  | _ => True

/-- The operation leaves the clock whole. -/
def Operation.SparesClock : Operation → Prop
  | .breakClock _ => False
  | _ => True

variable {σ α : Type} {callbacks : Callbacks σ} {env : Environment σ}

/-- What calls nobody and is prompt ends at once and leaves the vitals alone. -/
theorem perform_unmoved {patient : Prop} {op : Operation} (hprompt : op.IsPrompt)
    (hcalls : ¬ op.CallsOut) : (perform callbacks op).Along patient Host.Unmoved := by
  have hsessions (h : Host σ) (sessions : Sessions) :
      Host.Unmoved h { h with state := { h.state with sessions } } := ⟨List.suffix_refl _, rfl⟩
  intro host
  cases op with
  | dispatch | respond | answerRequest | sweep | sweepAsOf | resume | runHandler | routeFault =>
    exact absurd trivial hcalls
  | start | stop | beginStop | request | elapse | rest | breakClock => exact hprompt.elim
  | register call =>
    exact ⟨⟨State.journal_suffix_register _ call, (State.Booked.register _ call).vitals⟩, trivial⟩
  | collect id =>
    exact ⟨⟨State.journal_suffix_collect _ _ id, (State.Booked.collect _ _ id).vitals⟩, trivial⟩
  | claim id =>
    exact ⟨⟨State.journal_suffix_claim _ _ id, (State.Booked.claim _ _ id).vitals⟩, trivial⟩
  | acquire => exact ⟨⟨State.journal_suffix_acquire _, (State.Booked.acquire _).vitals⟩, trivial⟩
  | release => exact ⟨⟨State.release_journal_suffix _, (State.Booked.release _).vitals⟩, trivial⟩
  | purgeBindingsNow => exact purgeBindingsNow_along hsessions host
  | bindNow session endpoint => exact bindNow_along hsessions session endpoint host
  | endpointNow session => exact ⟨refl_of Host.Unmoved host, trivial⟩
  | compose envelope inbound => cases inbound <;> exact ⟨⟨List.suffix_refl _, rfl⟩, trivial⟩
  -- The others look at the state, or change what is no sign of life.
  | _ => exact ⟨⟨List.suffix_refl _, rfl⟩, trivial⟩

/-- Whatever prompt collaborators do leaves the vitals alone. They never wait, so a sweep is over
before anybody gets to see its lock, and its two changes of the lock cancel out. -/
theorem Environment.allows_unmoved (env : Environment σ) :
    env.Allows False Operation.IsPrompt Host.Unmoved where
  suffix h := h.suffix
  memory _ _ := ⟨List.suffix_refl _, rfl⟩
  move h := ⟨h.steps.journal_suffix, h.vitals⟩
  lock h := h.elim
  unlock h := h.elim
  sweep _ h h' now hfree hlocked := by
    refine ⟨(State.steps_lock h.state now).journal_suffix.trans hlocked.suffix, ?_⟩
    have hvitals : h'.state.vitals = { h.state.vitals with sweeping := true } := hlocked.vitals
    have hunlocked : h'.state.unlock.vitals = { h'.state.vitals with sweeping := false } := rfl
    rw [hunlocked, hvitals, ← hfree]
    rfl
  inside hprompt hcalls _ := perform_unmoved hprompt hcalls

/-! ## Results -/

section Results

variable {host later : Host σ} {now : Millis}

/-- Only a broken clock lets a dispatch panic. All that a collaborator can do is caught where it is
called, on both ways that a dispatch can end. -/
theorem dispatch_ok {msg : Message} {expiry : Expiry} {result : Except Panic _}
    (hclock : host.state.clock.read = .ok now)
    (h : dispatch callbacks msg expiry host = .ended result later) : ∃ r, result = .ok r := by
  unfold dispatch at h
  rw [Run.read_bind] at h
  split at h
  · cases h
    exact ⟨_, rfl⟩
  · rw [hclock] at h
    dsimp only at h
    rw [Run.apply_bind] at h
    -- From here on the clock is not read any more, so nothing is left that could panic.
    cases henroll : host.state.enroll (msg.toCall expiry now _) with
    | mk enrolled s =>
      rw [henroll] at h
      cases enrolled with
      | error e =>
        cases h
        exact ⟨_, rfl⟩
      | ok receipt =>
        dsimp only at h
        rw [Run.read_bind] at h
        obtain ⟨outcome, sent, -, hsent⟩ := Progress.bind_eq_ended h
        cases hcaught : outcome.caught with
        | ok _ =>
          rw [hcaught] at hsent
          cases hsent
          exact ⟨_, rfl⟩
        | error e =>
          rw [hcaught] at hsent
          dsimp only at hsent
          rw [Run.update_bind] at hsent
          obtain ⟨_, cleaned, -, hend⟩ := Progress.bind_eq_ended hsent
          cases hend
          exact ⟨_, rfl⟩

/-- Only a broken clock lets a sweep panic. -/
theorem sweep_eq_ended {result : Except Panic SweepSummary}
    (hclock : host.state.clock.read = .ok now) (h : sweep callbacks host = .ended result later) :
    ∃ summary, result = .ok summary ∧ sweepAsOf callbacks now host = .ended summary later := by
  unfold sweep at h
  rw [Run.read_bind, hclock] at h
  obtain ⟨summary, swept, hswept, hend⟩ := Progress.bind_eq_ended h
  cases hend
  exact ⟨summary, rfl, hswept⟩

section Skipped

variable {rel : Host σ → Host σ → Prop} {report summary : SweepSummary}

theorem sweepAll_skipped {place : Nat} {ids : List CallId}
    (h : (ids.foldlM (sweepOne callbacks now place) report host).CanEnd rel summary later) :
    summary.skipped = report.skipped := by
  refine sweepAll_keeps (P := fun _ summary _ => summary.skipped = report.skipped) ?_ (n := 0) rfl h
  intro n prior summary id host later hprior hone
  cases hone with
  | overtaken => exact hprior
  | dropped => exact hprior
  | @settled call s outcome => cases outcome <;> exact hprior

/-- A sweep that finds the lock free is not skipped. -/
theorem sweepAsOf_not_skipped (hfree : host.state.sweeping = false)
    (h : (sweepAsOf callbacks now host).CanEnd rel summary later) : summary.skipped = false := by
  rw [sweepAsOf_of_free hfree] at h
  obtain ⟨report, swept, hswept, hend⟩ := Progress.canEnd_bind.mp h
  obtain ⟨rfl, -⟩ := hend
  exact sweepAll_skipped hswept

end Skipped

end Results

/-! ## Health -/

/-- An engine is not built with an interval of zero. -/
theorem Config.sweepInterval_ne_zero {c : Config} (h : c.error? = none) : c.sweepInterval ≠ 0 := by
  intro hzero
  rw [error?, if_pos hzero] at h
  cases h

namespace Vitals

/-- The engine has been given settings that it can run with, and a clock that can be read. -/
structure IsFit (v : Vitals) : Prop where
  config : v.config.error? = none
  clock : v.timeOfDay = none → v.broken = false

/-- No sweep is in progress, and a running engine has a worker that lives and was not told to stop.
That numbers differ and are below the next one is what keeps a new worker apart from one that is at
its last item. -/
structure IsHealthy (v : Vitals) : Prop where
  free : v.sweeping = false
  staffed : v.lifecycle = .running → v.worker.isSome
  alive : ∀ number, v.worker = some number →
    ∃ w ∈ v.workers, w.number = number ∧ w.stopping = false
  unique : (v.workers.map (·.number)).Nodup
  known : ∀ w ∈ v.workers, w.number < v.started
  paced : ∀ w ∈ v.workers, w.interval ≠ 0

namespace IsHealthy

variable {v : Vitals}

/-- Workers may be changed, as long as they keep their numbers and their pace, and the engine's own
is not told to stop. Stopping, submitting and taking up an item are all changes of this kind. -/
theorem map (h : v.IsHealthy) {f : Worker Chore → Worker Chore} {worker : Option Nat}
    {lifecycle : Lifecycle} (hnumber : ∀ w ∈ v.workers, (f w).number = w.number)
    (hinterval : ∀ w ∈ v.workers, (f w).interval = w.interval)
    (hstaffed : lifecycle = .running → worker.isSome)
    (halive : ∀ number, worker = some number → v.worker = some number ∧
      ∀ w ∈ v.workers, w.number = number → (f w).stopping = w.stopping) :
    IsHealthy { v with workers := v.workers.map f, worker, lifecycle } := by
  constructor
  · exact h.free
  · exact hstaffed
  · intro number hown
    obtain ⟨hworker, hstopping⟩ := halive number hown
    obtain ⟨w, hw, rfl, hgoing⟩ := h.alive number hworker
    refine ⟨f w, List.mem_map_of_mem hw, hnumber w hw, ?_⟩
    rw [hstopping w hw rfl]
    exact hgoing
  · have hsame : (v.workers.map f).map (·.number) = v.workers.map (·.number) := by
      rw [List.map_map]
      exact List.map_congr_left hnumber
    rw [hsame]
    exact h.unique
  · intro w hw
    obtain ⟨old, hold, rfl⟩ := List.mem_map.mp hw
    rw [hnumber old hold]
    exact h.known old hold
  · intro w hw
    obtain ⟨old, hold, rfl⟩ := List.mem_map.mp hw
    rw [hinterval old hold]
    exact h.paced old hold

/-- A worker that was told to stop may go. -/
theorem dismiss (h : v.IsHealthy) {w : Worker Chore} (hw : w ∈ v.workers)
    (hstopping : w.stopping = true) :
    IsHealthy { v with workers := v.workers.filter (·.number ≠ w.number) } := by
  constructor
  · exact h.free
  · exact h.staffed
  · intro number hown
    obtain ⟨own, hmem, rfl, hgoing⟩ := h.alive number hown
    refine ⟨own, List.mem_filter.mpr ⟨hmem, decide_eq_true fun hsame => ?_⟩, rfl, hgoing⟩
    -- Numbers tell workers apart, and the engine's own was not told to stop.
    obtain rfl := List.inj_on_of_nodup_map h.unique hmem hw hsame
    rw [hgoing] at hstopping
    cases hstopping
  · exact h.unique.sublist (List.filter_sublist.map _)
  · exact fun other hother => h.known other (List.mem_filter.mp hother).1
  · exact fun other hother => h.paced other (List.mem_filter.mp hother).1

end IsHealthy

end Vitals

namespace State

variable {s s' : State}

/-- If the engine is fit it is healthy. This is what is kept throughout a run; of an engine that is
not fit it says nothing. -/
def IsSound (s : State) : Prop := s.vitals.IsFit → s.vitals.IsHealthy

theorem isFit_iff : s.vitals.IsFit ↔
    s.config.error? = none ∧ ∃ now, s.clock.read = .ok now := by
  have hclock : (s.clock.timeOfDay = none → s.clock.broken = false) ↔
      ∃ now, s.clock.read = .ok now := by
    unfold Clock.read
    cases s.clock.timeOfDay with
    | some instant => simp
    | none => cases s.clock.broken <;> simp
  exact ⟨fun h => ⟨h.config, hclock.mp h.clock⟩, fun h => ⟨h.1, hclock.mpr h.2⟩⟩

theorem init_isSound (config : Config) (clock : Clock) (nextId : Nat) :
    (State.init config clock nextId).IsSound := fun _ =>
  ⟨rfl, nofun, fun _ => nofun, List.nodup_nil, fun _ => nofun, fun _ => nofun⟩

/-- A healthy engine does not report that it has failed. -/
theorem status_ne_failed (h : s.vitals.IsHealthy) : s.status ≠ .failed := by
  unfold status
  cases hlife : s.lifecycle with
  | running =>
    obtain ⟨number, hworker⟩ := Option.isSome_iff_exists.mp (h.staffed hlife)
    obtain ⟨w, hw, hnumber, -⟩ := h.alive number hworker
    have hlives : s.hasWorker number = true := List.any_eq_true.mpr ⟨w, hw, decide_eq_true hnumber⟩
    have hany : s.worker.any s.hasWorker = true := by
      rw [show s.worker = some number from hworker]
      exact hlives
    simp [hany]
  | created | stopping | stopped => simp

theorem start_isSound (h : s.IsSound) : s.start.IsSound := by
  unfold start
  split
  · exact h
  · intro hfit
    have hs : s.vitals.IsHealthy := h ⟨hfit.config, hfit.clock⟩
    have hnew : ∀ w ∈ s.workers, w.number ≠ s.started := fun w hw => Nat.ne_of_lt (hs.known w hw)
    constructor
    · exact hs.free
    · exact fun _ => rfl
    · intro number hown
      -- The engine's own worker is now the new one, and nobody else has its number.
      obtain rfl := Option.some.inj hown
      exact ⟨_, List.mem_append_right _ List.mem_cons_self, rfl, rfl⟩
    · change ((s.workers ++ [Worker.start _ _ _]).map Worker.number).Nodup
      rw [List.map_append, List.nodup_append]
      refine ⟨hs.unique, List.nodup_singleton _, ?_⟩
      rintro number hold other hother rfl
      obtain ⟨w, hw, rfl⟩ := List.mem_map.mp hold
      exact hnew w hw (List.mem_singleton.mp hother)
    · intro w hw
      rcases List.mem_append.mp hw with hold | hnew
      · exact Nat.lt_succ_of_lt (hs.known w hold)
      · rw [List.mem_singleton.mp hnew]
        exact Nat.lt_succ_self _
    · intro w hw
      rcases List.mem_append.mp hw with hold | hnew
      · exact hs.paced w hold
      · have hinterval : s.config.sweepInterval.toNat ≠ 0 := fun hzero =>
          Config.sweepInterval_ne_zero hfit.config (UInt64.toNat_inj.mp hzero)
        rw [List.mem_singleton.mp hnew]
        simp only [Worker.start, longestPause]
        omega

theorem beginStop_isSound (h : s.IsSound) : s.beginStop.2.IsSound := by
  unfold beginStop
  split
  · intro hfit
    have hs : s.vitals.IsHealthy := h ⟨hfit.config, hfit.clock⟩
    exact ⟨hs.free, nofun, fun _ => nofun, hs.unique, hs.known, hs.paced⟩
  · intro hfit
    have hs : s.vitals.IsHealthy := h ⟨hfit.config, hfit.clock⟩
    refine hs.map (fun w _ => ?_) (fun w _ => ?_) nofun (fun _ => nofun)
    all_goals
      split <;> rfl

theorem stopped_isSound (h : s.IsSound) : IsSound { s with lifecycle := .stopped } := by
  intro hfit
  have hs : s.vitals.IsHealthy := h ⟨hfit.config, hfit.clock⟩
  exact ⟨hs.free, nofun, hs.alive, hs.unique, hs.known, hs.paced⟩

/-- A worker may be replaced by one with the same number and pace that was not told to stop
either. -/
theorem replace_isSound (h : s.IsSound) {w taken : Worker Chore} (hw : w ∈ s.workers)
    (hnumber : taken.number = w.number) (hinterval : taken.interval = w.interval)
    (hstopping : taken.stopping = w.stopping) :
    IsSound
      { s with workers := s.workers.map fun v => if v.number = w.number then taken else v } := by
  intro hfit
  have hs : s.vitals.IsHealthy := h ⟨hfit.config, hfit.clock⟩
  have hsame (v : Worker Chore) (hv : v ∈ s.workers) :
      (if v.number = w.number then taken else v).number = v.number ∧
        (if v.number = w.number then taken else v).interval = v.interval ∧
        (if v.number = w.number then taken else v).stopping = v.stopping := by
    by_cases hsame : v.number = w.number
    · -- There is only one worker with the number.
      obtain rfl := List.inj_on_of_nodup_map hs.unique hv hw hsame
      rw [if_pos rfl]
      exact ⟨hnumber, hinterval, hstopping⟩
    · rw [if_neg hsame]
      exact ⟨rfl, rfl, rfl⟩
  exact hs.map (fun v hv => (hsame v hv).1) (fun v hv => (hsame v hv).2.1) hs.staffed
    fun number hown => ⟨hown, fun v hv _ => (hsame v hv).2.2⟩

theorem submit_isSound (h : s.IsSound) (number : Nat) (t : Chore) :
    (s.submit number t).2.IsSound := by
  unfold submit
  cases hfind : s.workers.find? (·.number = number) with
  | none => exact h
  | some w =>
    have hnumber : w.number = number := by simpa using List.find?_some hfind
    subst hnumber
    refine State.replace_isSound h (List.mem_of_find?_eq_some hfind) ?_ ?_ ?_
    all_goals
      unfold Worker.submit
      split <;> rfl

end State

/-! ## The workers -/

namespace Host

variable {h h' : Host σ}

/-- A sound engine stays sound if its vitals stay the same. -/
theorem Unmoved.keeps (hsame : Unmoved h h') : Keeps State.IsSound h h' := by
  refine ⟨hsame.suffix, fun hsound => ?_⟩
  unfold State.IsSound
  rw [hsame.vitals]
  exact hsound

theorem allowsLife_keeps : AllowsLife (Keeps State.IsSound : Host σ → Host σ → Prop) where
  start h := ⟨h.state.apart_start.journal ▸ List.suffix_refl _, State.start_isSound⟩
  beginStop h := ⟨h.state.apart_beginStop.journal ▸ List.suffix_refl _, State.beginStop_isSound⟩
  stopped _ := ⟨List.suffix_refl _, State.stopped_isSound⟩
  stopAside _ := ⟨List.suffix_refl _, fun hsound => hsound⟩
  submit h number t := ⟨(h.state.apart_submit number t).journal ▸ List.suffix_refl _,
    fun hsound => State.submit_isSound hsound number t⟩

end Host

/-- With a clock that can be read a worker survives its item, whether that is a sweep or a purge:
neither of them panics for any other reason. -/
theorem sweeperItem_survives {host later : Host σ} {now : Millis} {item : Item Chore}
    {survives : Bool} (hclock : host.state.clock.read = .ok now)
    (h : sweeperItem callbacks item host = .ended survives later) : survives = true := by
  have hsweep (h : (do return (← sweep callbacks).isOk : Run σ Bool) host = .ended survives later) :
      survives = true := by
    obtain ⟨result, swept, hswept, hend⟩ := Progress.bind_eq_ended h
    obtain ⟨summary, rfl, -⟩ := sweep_eq_ended hclock hswept
    cases hend
    rfl
  cases item with
  | tick => exact hsweep h
  | task t =>
    cases t with
    | sweep => exact hsweep h
    | purgeBindings =>
      obtain ⟨result, purged, hpurged, hend⟩ := Progress.bind_eq_ended h
      unfold purgeBindingsNow at hpurged
      rw [Run.read_bind, hclock] at hpurged
      cases hpurged
      cases hend
      rfl

theorem Crew.dismiss_state (callbacks : Callbacks σ) (left : Bool) (number : Nat) (host : Host σ) :
    (sweepers callbacks).dismiss left number host = host ∨
      (sweepers callbacks).dismiss left number host =
        { host with state := { host.state with
            workers := host.state.workers.filter (·.number ≠ number) } } := by
  unfold Crew.dismiss
  cases (sweepers callbacks).worker? number host with
  | none => exact .inl rfl
  | some w => exact .inr rfl

/-- A healthy engine survives everything that its workers do: one that leaves was told to stop, and
none dies. -/
theorem sweepers_keep (hc : callbacks.Along env.collaborators False Host.Unmoved) :
    (sweepers callbacks).Along (Host.Keeps State.IsSound) := by
  constructor
  · exact fun time host => ⟨List.suffix_refl _, fun hsound => hsound⟩
  · intro host w hw hduty
    rcases Crew.dismiss_state callbacks true w.number host with hsame | hgone
    · rw [hsame]
      exact refl_of _ host
    · rw [hgone]
      refine ⟨List.suffix_refl _, fun hsound hfit => ?_⟩
      exact (hsound ⟨hfit.config, hfit.clock⟩).dismiss hw (Worker.stopping_of_leave hduty)
  · intro host w hw hduty
    rcases Crew.dismiss_state callbacks false w.number host with hsame | hgone
    · rw [hsame]
      exact refl_of _ host
    · rw [hgone]
      refine ⟨List.suffix_refl _, fun hsound hfit => ?_⟩
      have hpace := (hsound ⟨hfit.config, hfit.clock⟩).paced w hw
      exact absurd (Worker.interval_of_die hduty) hpace
  · intro host w hw item taken hduty
    obtain ⟨hnumber, hinterval, hstopping⟩ := Worker.same_of_take hduty
    have hbegun : Host.Keeps State.IsSound host
        ((sweepers callbacks).modifyWorker w.number (fun _ => taken) host) :=
      ⟨List.suffix_refl _, fun hsound =>
        State.replace_isSound hsound hw hnumber hinterval hstopping⟩
    generalize (sweepers callbacks).modifyWorker w.number (fun _ => taken) host = begun at hbegun ⊢
    refine Progress.Meets.of_earlier hbegun ?_
    obtain ⟨survives, later, hended, hlater, -⟩ :=
      (sweeperItem_along env.allows_unmoved hc item begun).ended_of_not_patient not_false
    change Progress.Meets True _ _ begun (sweeperItem callbacks item begun)
    rw [hended]
    refine ⟨hlater.keeps, ?_⟩
    cases survives with
    | true => exact trivial
    | false =>
      -- Only a clock that cannot be read makes a worker die at its item.
      change Host.Keeps State.IsSound later ((sweepers callbacks).dismiss false w.number later)
      rcases Crew.dismiss_state callbacks false w.number later with hsame | hgone
      · rw [hsame]
        exact refl_of _ later
      · rw [hgone]
        refine ⟨List.suffix_refl _, fun _ hfit => ?_⟩
        have hbefore : begun.state.vitals.IsFit := hlater.vitals ▸ ⟨hfit.config, hfit.clock⟩
        obtain ⟨-, now, hclock⟩ := State.isFit_iff.mp hbefore
        cases sweeperItem_survives hclock hended
  · exact Work.along_bind (stop_along trivial Host.allowsLife_keeps) fun _ => Work.along_pure _

namespace Environment

variable {depth : Nat} {site : Site (Host σ)}

/-- Whatever is asked for from outside keeps the engine sound. -/
theorem serve_keeps (hc : callbacks.Along env.collaborators False Host.Unmoved) {op : Operation}
    (hop : op.SparesClock) : (serve callbacks op).Along True (Host.Keeps State.IsSound) := by
  intro host
  by_cases hprompt : op.IsPrompt
  · exact (serve_along env.allows_unmoved hc hprompt host).of_not_patient not_false
      fun later hlater => hlater.keeps
  · have hvital : op.IsVital := by
      cases op with
      | start | stop | beginStop | request | elapse | rest => exact trivial
      | breakClock => exact hop.elim
      | _ => exact absurd trivial hprompt
    have hnote (h : Host σ) (e : Entry) :
        Host.Keeps State.IsSound h { h with state := h.state.note e } :=
      ⟨List.suffix_cons _ _, fun hsound => hsound⟩
    unfold serve noted
    refine Run.meets_update_bind (hnote _ _) ?_
    refine Progress.Along.bind
      (perform_along_of_vital trivial Host.allowsLife_keeps hvital _) fun a later _ => ?_
    exact Run.meets_update_bind (hnote _ _) (Work.along_pure a _)

theorem callbacks_unmoved (hcol : env.collaborators.AskOnly Operation.IsPrompt) (level : Nat) :
    (env.callbacks level).Along env.collaborators False Host.Unmoved :=
  callbacks_along env.allows_unmoved hcol level

/-- A fit engine is healthy wherever a run arrives. -/
theorem Reaches.isHealthy (hcol : env.collaborators.AskOnly Operation.IsPrompt)
    (h : env.Reaches Operation.SparesClock depth site) : site.state.state.IsSound := by
  have hc := callbacks_unmoved hcol depth
  have hmemory (h : Host σ) (memory : σ) : Host.Keeps State.IsSound h { h with memory } :=
    ⟨List.suffix_refl _, id⟩
  obtain ⟨config, clock, nextId, memory, hsite⟩ := h.isAlong (sweepers_keep hc) fun hp host =>
    (Program.run_meets hmemory (fun _ hop => serve_keeps hc hop) hp host).along
  exact hsite.state.keeps (State.init_isSound config clock nextId)

/-- What is asked for from outside, and does not wait, is done with the workers as they are. -/
theorem complete_perform {op : Operation} {answer : op.Answer} {later : Host σ}
    (h : serve (env.callbacks depth) op site.state = .ended answer later) :
    env.complete depth (.perform op) site = (answer, { site with state := later }) := by
  refine Crew.perform_of_ended _ _ ?_
  change (serve (env.callbacks depth) op site.state).bind _ = _
  rw [h]
  rfl

/-- The operations of an engine that take calls through their lives end with a result and not with
a panic, and leave the vitals as they were. -/
structure Completes (callbacks : Callbacks σ) (host : Host σ) : Prop where
  dispatch : ∀ msg expiry, ∃ answer later,
    Correlator.dispatch callbacks msg expiry host = .ended (.ok answer) later ∧
      later.state.vitals = host.state.vitals
  respond : ∀ id response, ∃ delivery later,
    Correlator.respond callbacks id response host = .ended delivery later ∧
      later.state.vitals = host.state.vitals
  sweep : ∃ summary later, Correlator.sweep callbacks host = .ended (.ok summary) later ∧
    later.state.vitals = host.state.vitals ∧
    (host.state.sweeping = false → summary.skipped = false)
  sweepAsOf : ∀ now, ∃ summary later,
    Correlator.sweepAsOf callbacks now host = .ended summary later ∧
      later.state.vitals = host.state.vitals ∧
      (host.state.sweeping = false → summary.skipped = false)

theorem completes (hc : callbacks.Along env.collaborators False Host.Unmoved) {host : Host σ}
    {now : Millis} (hclock : host.state.clock.read = .ok now) : Completes callbacks host where
  dispatch msg expiry := by
    obtain ⟨result, later, hended, hlater, -⟩ :=
      (dispatch_along env.allows_unmoved hc msg expiry host).ended_of_not_patient not_false
    obtain ⟨answer, rfl⟩ := dispatch_ok hclock hended
    exact ⟨answer, later, hended, hlater.vitals⟩
  respond id response := by
    obtain ⟨delivery, later, hended, hlater, -⟩ :=
      (respond_along env.allows_unmoved hc id response host).ended_of_not_patient not_false
    exact ⟨delivery, later, hended, hlater.vitals⟩
  sweep := by
    obtain ⟨result, later, hended, hlater, -⟩ :=
      (sweep_along env.allows_unmoved hc host).ended_of_not_patient not_false
    obtain ⟨summary, rfl, hswept⟩ := sweep_eq_ended hclock hended
    have hend : (Correlator.sweepAsOf callbacks now host).CanEnd Host.Unmoved summary later :=
      .of_ended hswept
    exact ⟨summary, later, hended, hlater.vitals, fun hfree => sweepAsOf_not_skipped hfree hend⟩
  sweepAsOf now := by
    obtain ⟨summary, later, hended, hlater, -⟩ :=
      (sweepAsOf_along env.allows_unmoved hc now host).ended_of_not_patient not_false
    have hend : (Correlator.sweepAsOf callbacks now host).CanEnd Host.Unmoved summary later :=
      .of_ended hended
    exact ⟨summary, later, hended, hlater.vitals, fun hfree => sweepAsOf_not_skipped hfree hend⟩

/-- What it means that failures of collaborators stay where they are, for a run that has arrived
somewhere: its operations complete at every level of nesting, its worker lives, and the next sweep
is not skipped. -/
structure ContainsFailures (env : Environment σ) (depth : Nat) (site : Site (Host σ)) : Prop where
  /-- At every level of nesting dispatches, responses and sweeps end with a result, as long as the
  clock can be read. -/
  completes : ∀ level (host : Host σ) (now : Millis), host.state.clock.read = .ok now →
    Completes (env.callbacks level) host
  sound : site.state.state.status ≠ .failed
  /-- An engine that was started and not stopped has a worker that lives. -/
  alive : ∀ number, site.state.state.worker = some number →
    site.state.state.hasWorker number = true
  free : site.state.state.sweeping = false
  /-- The next sweep from outside is not skipped. -/
  sweeps : ∃ summary, (env.complete depth (.perform .sweep) site).1 = Except.ok summary ∧
    summary.skipped = false

/-- Whatever collaborators do that do not wait, their failures stay where they are, if the engine
has been given settings that it can run with and its clock can be read. -/
theorem Reaches.contains_failures (hcol : env.collaborators.AskOnly Operation.IsPrompt)
    (h : env.Reaches Operation.SparesClock depth site)
    (hconfig : site.state.state.config.error? = none) {now : Millis}
    (hclock : site.state.state.clock.read = .ok now) : env.ContainsFailures depth site := by
  have hcompletes (level : Nat) (host : Host σ) (now : Millis)
      (hclock : host.state.clock.read = .ok now) : Completes (env.callbacks level) host :=
    completes (callbacks_unmoved hcol level) hclock
  have hhealthy : site.state.state.vitals.IsHealthy :=
    h.isHealthy hcol (State.isFit_iff.mpr ⟨hconfig, now, hclock⟩)
  constructor
  case completes => exact hcompletes
  case sound => exact State.status_ne_failed hhealthy
  case alive =>
    intro number hworker
    obtain ⟨w, hw, hnumber, -⟩ := hhealthy.alive number hworker
    exact List.any_eq_true.mpr ⟨w, hw, decide_eq_true hnumber⟩
  case free => exact hhealthy.free
  case sweeps =>
    have hsweep := (hcompletes depth { site.state with
      state := site.state.state.note (.asked (env.callbacks depth).level site.state.state.moment) }
      now hclock).sweep
    obtain ⟨summary, later, hended, -, hskipped⟩ := hsweep
    refine ⟨summary, ?_, hskipped hhealthy.free⟩
    have hserved : serve (env.callbacks depth) .sweep site.state = .ended (Except.ok summary) _ :=
      noted_eq_ended hended
    rw [complete_perform hserved]

end Environment

/-! ## A run in which a fault handler panics -/

/-- Writing an answer panics, and so does a fault handler after it has asked for further work. -/
def Environment.panicking : Environment Unit where
  collaborators :=
    { Collaborators.idle with
      transmit := fun _ => .ask .sweep fun _ => .done (.returned ())
      writeBack := fun _ => .done (.panicked .other)
      compensate := fun _ _ msg =>
        .ask .sweep fun _ => .ask (.dispatch { msg with id := "again" } {}) fun _ =>
          .ask (.answerRequest msg) fun _ => .done (msg, .panicked .other) }
  rounds := 4

/-- The engine is started, a call expires, and its worker finds it. -/
def Program.expireOne : Program Unit Unit :=
  .ask .start fun _ =>
    .ask (.dispatch (.plain "a") { term := .perCall 5 }) fun _ =>
      .ask (.advanceClock 10) fun _ => .ask (.elapse 1500) fun _ => .done ()

def Site.afterPanic : Site (Host Unit) :=
  (Environment.panicking.complete 2 .expireOne { state := ⟨State.init {} {} 0, ()⟩ }).2

theorem panicking_askOnly :
    Environment.panicking.collaborators.AskOnly Operation.IsPrompt :=
  { idle_askOnly Operation.IsPrompt with
    transmit := fun _ => ⟨trivial, fun _ => trivial⟩
    writeBack := fun _ => trivial
    compensate := fun _ _ _ => ⟨trivial, fun _ => ⟨trivial, fun _ => ⟨trivial, fun _ => trivial⟩⟩⟩ }

theorem afterPanic_reaches :
    Environment.panicking.Reaches Operation.SparesClock 2 Site.afterPanic :=
  .completed
    ⟨trivial, fun _ => ⟨trivial, fun _ => ⟨trivial, fun _ => ⟨trivial, fun _ => trivial⟩⟩⟩⟩
    (.fresh {} {} 0 ())

/-- The handler has panicked inside the worker's sweep, and the worker lives. -/
theorem contains_failures_afterPanic :
    Site.afterPanic.state.state.status ≠ .failed ∧
      Site.afterPanic.state.state.status = .running ∧
      Site.afterPanic.state.state.metrics.faultCounts.handlerFailed = 1 := by
  have hclock : Site.afterPanic.state.state.clock.read = .ok 10 := by decide +kernel
  have hconfig : Site.afterPanic.state.state.config.error? = none := by decide +kernel
  have hcontained := Environment.Reaches.contains_failures panicking_askOnly afterPanic_reaches
    hconfig hclock
  refine ⟨hcontained.sound, ?_, ?_⟩ <;> decide +kernel

end Correlator
