import Correlator.Proofs.Dealings
import Correlator.Proofs.Endings
import Correlator.Proofs.Replication
import Correlator.Proofs.Sweeping
import Correlator.Proofs.Twins

/-!
# Rejected dispatches leave no trace

A dispatch is rejected by an engine that takes no calls, or because its id is taken.  The first kind
looks at the engine and goes.  The second has been counted in by the time that it fails, peers know
of it, and the limit may have been passed and reported; so it is counted out again.  Both ways pass
through a word that saturates, and counting in and out only comes back to the same count if there
was room.  There is room when fewer calls are pending than the word can tell, since no more are in
flight than are pending (`Moment.IsCovered`).

What is left are reports.  Nobody who works on the engine reads them, so an engine that has rejected
a dispatch and one that was never asked go on alike from there (`State.SameButReports`).  Their
journals are not equally long, and the journal is what sweeps and clean-ups remember places in; but
a place says who claims a call and not which.

## Main definitions

* `State.SameButReports` : what a rejection may make a difference to.
* `Environment.RejectsCleanly` : what a dispatch that is rejected does.
* `Environment.Attempts` : two runs, in one of which dispatches were attempted and rejected.

## Main results

* `Environment.run_overlooks_reports` : nobody reads the reports.
* `Environment.rejections_leave_no_trace` : rejections change nothing but reports, and no run can
  tell whether there have been any.
-/

namespace Correlator

variable {σ α : Type} {s s' : State}

/-! ## Forgetting reports -/

/-- The notice is about a call that is one too many or whose id is taken. -/
def Notice.isRejection : Notice → Bool
  | .admissionOverflow .. | .duplicateRegistration _ => true
  | _ => false

/-- The states differ at most in what has been reported about calls beyond the limit and ids that
are taken, in the gauge, and in the journal; they agree on who has been called and with what. The
gauge is among these because it is set by the count that a rejected dispatch is counted in with,
also if no count had been published before. -/
inductive State.SameButReports (s : State) : State → Prop
  | mk {overflow : UInt64} {gauge : Option UInt32} {notices : List Notice} {journal : Journal}
      (hnotices : notices.filter (!·.isRejection) = s.notices.filter (!·.isRejection))
      (hcallbacks : journal.callbacks = s.journal.callbacks) :
      SameButReports s
        { s with
          metrics := { s.metrics with admissionOverflow := overflow, inFlight := gauge }
          notices, journal }

namespace Journal

variable {j j' : Journal}

theorem callbacks_cons (h : j'.callbacks = j.callbacks) (e : Entry) :
    callbacks (e :: j') = callbacks (e :: j) := by
  unfold callbacks at h ⊢
  rw [List.filterMap_cons, List.filterMap_cons, h]

theorem callbacks_cons_of_silent {e : Entry} (he : callbacks [e] = []) (j : Journal) :
    callbacks (e :: j) = j.callbacks := by
  have happend : callbacks ([e] ++ j) = callbacks [e] ++ j.callbacks := List.filterMap_append
  rw [he] at happend
  exact happend

end Journal

namespace State.SameButReports

variable {s'' : State}

theorem refl (s : State) : s.SameButReports s := .mk rfl rfl

theorem symm (h : s.SameButReports s') : s'.SameButReports s := by
  cases h with
  | mk hnotices hcallbacks => exact .mk hnotices.symm hcallbacks.symm

theorem trans (h : s.SameButReports s') (h' : s'.SameButReports s'') : s.SameButReports s'' := by
  cases h with
  | mk hnotices hcallbacks =>
    cases h' with
    | mk hnotices' hcallbacks' =>
      exact .mk (hnotices'.trans hnotices) (hcallbacks'.trans hcallbacks)

theorem registry (h : s.SameButReports s') : s'.registry = s.registry := by
  cases h
  rfl

theorem admission (h : s.SameButReports s') : s'.admission = s.admission := by
  cases h
  rfl

theorem moment (h : s.SameButReports s') : s'.moment = s.moment := by
  cases h
  rfl

theorem callsRegistered (h : s.SameButReports s') :
    s'.metrics.callsRegistered = s.metrics.callsRegistered := by
  cases h
  rfl

theorem callbacks (h : s.SameButReports s') : s'.journal.callbacks = s.journal.callbacks := by
  cases h with
  | mk _ hcallbacks => exact hcallbacks

/-! ### Steps of an engine -/

theorem note (h : s.SameButReports s') (e : Entry) : (s.note e).SameButReports (s'.note e) := by
  cases h with
  | mk hnotices hcallbacks => exact .mk hnotices (Journal.callbacks_cons hcallbacks e)

/-- Whatever is noted at one of the engines alone, if nobody is called. -/
theorem noted {e : Entry} (he : Journal.callbacks [e] = []) (s : State) :
    s.SameButReports (s.note e) := .mk rfl (Journal.callbacks_cons_of_silent he _)

theorem notify (h : s.SameButReports s') (n : Notice) :
    (s.notify n).SameButReports (s'.notify n) := by
  cases h with
  | mk hnotices hcallbacks =>
    refine .mk ?_ hcallbacks
    change (n :: _).filter _ = (n :: s.notices).filter _
    rw [List.filter_cons, List.filter_cons, hnotices]

/-- Whatever is reported at one of the engines alone, if it is about a rejection. -/
theorem notified {n : Notice} (hn : n.isRejection = true) (s : State) :
    s.SameButReports (s.notify n) := .mk (List.filter_cons_of_neg (by simp [hn])) rfl

theorem publish (h : s.SameButReports s') (admission : Admission) :
    (s.publish admission).SameButReports (s'.publish admission) := by
  cases h with
  | mk hnotices hcallbacks => exact .mk hnotices (Journal.callbacks_cons hcallbacks _)

/-- A count that is taken back makes no difference to the engine. -/
theorem published_back (s : State) (admission : Admission) :
    s.SameButReports ((s.publish admission).publish s.admission) := .mk rfl rfl

/-- That a call is beyond the limit is reported, and nothing else. -/
theorem acquire_publish (s : State) :
    (s.publish s.admission.acquire).SameButReports s.acquire.2 := by
  unfold State.acquire
  dsimp only
  split
  · exact .mk (List.filter_cons_of_neg (by simp [Notice.isRejection])) rfl
  · exact refl _

theorem acquire (h : s.SameButReports s') : s.acquire.2.SameButReports s'.acquire.2 := by
  have hpublished := h.publish s.admission.acquire
  have hlater := acquire_publish s'
  rw [h.admission] at hlater
  exact (acquire_publish s).symm.trans (hpublished.trans hlater)

/-- Whether a call fits depends on the count and the limit. -/
theorem fits (h : s.SameButReports s') : s.acquire.1 = s'.acquire.1 := by
  rw [Bool.eq_iff_iff, acquire_fits, acquire_fits, h.admission, h.acquire.admission]

theorem release (h : s.SameButReports s') : s.release.SameButReports s'.release := by
  unfold State.release
  rw [h.admission]
  cases s.admission.release? with
  | none => exact h.notify _
  | some admission => exact h.publish admission

theorem register (h : s.SameButReports s') (call : Call) :
    (s.register call).1 = (s'.register call).1 ∧
      (s.register call).2.SameButReports (s'.register call).2 := by
  unfold State.register
  rw [h.registry]
  cases s.registry.register? call with
  | none => exact ⟨rfl, h.notify _⟩
  | some registry =>
    cases h with
    | mk hnotices hcallbacks => exact ⟨rfl, .mk hnotices (Journal.callbacks_cons hcallbacks _)⟩

theorem enroll (h : s.SameButReports s') (call : Call) :
    (s.enroll call).1 = (s'.enroll call).1 ∧
      (s.enroll call).2.SameButReports (s'.enroll call).2 := by
  obtain ⟨hresult, hbooked⟩ := h.acquire.register call
  exact State.enroll_congruent hresult hbooked release
    fun | .mk hnotices hcallbacks => .mk hnotices hcallbacks

/-- Who claims a call is noted, and where in the journal he remembers to have begun. The places may
differ, as the journals are not equally long. -/
theorem claim (h : s.SameButReports s') (claimer claimer' : Claimer) (id : CallId) :
    (s.claim claimer id).1 = (s'.claim claimer' id).1 ∧
      (s.claim claimer id).2.SameButReports (s'.claim claimer' id).2 := by
  unfold State.claim
  rw [h.registry]
  cases s.registry.claim? id with
  | none => exact ⟨rfl, h⟩
  | some result =>
    cases h with
    | mk hnotices hcallbacks => exact ⟨rfl, .mk hnotices hcallbacks⟩

theorem collect (h : s.SameButReports s') (claimer : Claimer) (id : CallId) :
    (s.collect claimer id).1 = (s'.collect claimer id).1 ∧
      (s.collect claimer id).2.SameButReports (s'.collect claimer id).2 := by
  unfold State.collect
  rw [h.registry]
  cases h with
  | mk hnotices hcallbacks => split <;> exact ⟨rfl, .mk hnotices hcallbacks⟩

theorem expireCall (h : s.SameButReports s') : s.expireCall.SameButReports s'.expireCall := by
  cases h with
  | mk hnotices hcallbacks => exact release (.mk hnotices hcallbacks)

/-- Reports make no difference to the steps of an engine. Each of them is done by two engines that
differ in reports, with the same answer, and they differ in no more afterwards. -/
theorem congruent : State.Congruent (fun _ => True) SameButReports where
  stroke hf hs := by
    cases hf with
    | note e => exact ⟨rfl, hs.note e⟩
    | asked | answered | entered | left =>
      dsimp only
      rw [hs.moment]
      exact ⟨rfl, hs.note _⟩
    | notify n => exact ⟨rfl, hs.notify n⟩
    | enroll call => exact hs.enroll call
    | release => exact ⟨rfl, hs.release⟩
    | collect id => exact hs.collect _ id
    | refuseAnswer guard answer =>
      have hnoted := (hs.notify (.duplicateResponse guard.requestId answer.id)).note
        (.answerRefused answer)
      cases hs
      cases hnoted with
      | mk hnotices hcallbacks => exact ⟨rfl, .mk hnotices hcallbacks⟩
    | _ =>
      cases hs with
      | mk hnotices hcallbacks => exact ⟨rfl, .mk hnotices hcallbacks⟩
  lock {s s'} now hs := by
    have hbegun : SameButReports { s with sweeping := true } { s' with sweeping := true } := by
      cases hs with
      | mk hnotices hcallbacks => exact .mk hnotices hcallbacks
    unfold State.lock
    rw [hs.moment]
    exact hbegun.note _
  unlock := fun | .mk hnotices hcallbacks => .mk hnotices hcallbacks
  registry := registry
  sweeping := fun | .mk _ _ => rfl
  clock := fun | .mk _ _ => rfl
  defaultTimeout := fun | .mk _ _ => rfl
  cleanUp _ ht id := ht.claim _ _ id
  claimExpired _ ht now id := by
    obtain ⟨hresult, hclaimed⟩ := ht.claim (.sweep now _) (.sweep now _) id
    exact State.claimExpired_congruent hresult hclaimed
      fun | .mk hnotices hcallbacks => .mk hnotices hcallbacks
  expireCall := expireCall
  accepts _ := fun | .mk _ _ => rfl

theorem beginStop (h : s.SameButReports s') :
    s.beginStop.1 = s'.beginStop.1 ∧ s.beginStop.2.SameButReports s'.beginStop.2 := by
  have hlives : s'.worker.filter s'.hasWorker = s.worker.filter s.hasWorker := by
    cases h
    rfl
  unfold State.beginStop
  rw [hlives]
  cases h with
  | mk hnotices hcallbacks => split <;> exact ⟨rfl, .mk hnotices hcallbacks⟩

theorem start (h : s.SameButReports s') : s.start.SameButReports s'.start := by
  cases h with
  | mk hnotices hcallbacks =>
    unfold State.start
    dsimp only
    split <;> exact .mk hnotices hcallbacks

theorem submit (h : s.SameButReports s') (number : Nat) (t : Chore) :
    (s.submit number t).1 = (s'.submit number t).1 ∧
      (s.submit number t).2.SameButReports (s'.submit number t).2 := by
  cases h with
  | mk hnotices hcallbacks =>
    unfold State.submit
    dsimp only
    split <;> exact ⟨rfl, .mk hnotices hcallbacks⟩

theorem compose (h : s.SameButReports s') (envelope : Envelope) (inbound : Bool) :
    (s.compose envelope inbound).1 = (s'.compose envelope inbound).1 ∧
      (s.compose envelope inbound).2.SameButReports (s'.compose envelope inbound).2 := by
  cases h with
  | mk hnotices hcallbacks => cases inbound <;> exact ⟨rfl, .mk hnotices hcallbacks⟩

/-- Nor to what calls nobody. -/
theorem overlooked : Overlooked (fun _ => True) SameButReports where
  stroke _ hf hs := by
    cases hf with
    | register call => exact hs.register call
    | collect id => exact hs.collect _ id
    | claim id => exact hs.claim _ _ id
    | acquire => exact ⟨hs.fits, hs.acquire⟩
    | release => exact ⟨rfl, hs.release⟩
    | submit number t => exact hs.submit number t
    | start => exact ⟨rfl, hs.start⟩
    | beginStop => exact hs.beginStop
    | compose envelope inbound => exact hs.compose envelope inbound
    | _ =>
      cases hs with
      | mk hnotices hcallbacks => exact ⟨rfl, .mk hnotices hcallbacks⟩
  clock := fun | .mk _ _ => rfl
  sessions := fun | .mk _ _ => rfl
  sessionLifetime := fun | .mk _ _ => rfl
  time := fun | .mk _ _ => rfl
  life _ _ := fun | .mk _ _ => ⟨rfl, rfl, rfl⟩

theorem attended : Attended SameButReports where
  workers := fun | .mk _ _ => rfl
  time := fun | .mk _ _ => rfl
  stopsAside := fun | .mk _ _ => rfl
  setWorkers _ := fun | .mk hnotices hcallbacks => .mk hnotices hcallbacks
  setTime _ := fun | .mk hnotices hcallbacks => .mk hnotices hcallbacks

end State.SameButReports

/-- And so do the engines, whose collaborators remember the same. -/
def Host.SameButReports (host host' : Host σ) : Prop :=
  host.state.SameButReports host'.state ∧ host'.memory = host.memory

namespace Environment

variable {env : Environment σ} {depth : Nat}

theorem congruence_reports : Run.Congruence (fun _ => True) State.SameButReports
    (Run.Match (Host.SameButReports (σ := σ))) :=
  State.SameButReports.congruent.congruence Iff.rfl
    (State.SameButReports.overlooked.perform_overlooks Iff.rfl)

theorem keepsSweeps_reports : (Run.Match (Host.SameButReports (σ := σ))).KeepsSweeps :=
  State.SameButReports.congruent.keepsSweeps Iff.rfl congruence_reports

/-- Nobody reads the reports, whatever is asked for. -/
theorem run_overlooks_reports (env : Environment σ) (depth : Nat) (p : Program σ α) :
    (env.run depth p).Overlooks Host.SameButReports :=
  congruence_reports.run_congruent keepsSweeps_reports env.collaborators.askOnly_true depth
    p.asksOnly_true

theorem sweepers_overlook_reports (env : Environment σ) (depth : Nat) :
    (sweepers (env.callbacks depth)).Overlooks Host.SameButReports :=
  State.SameButReports.attended.sweepers_overlook State.SameButReports.overlooked Iff.rfl
    congruence_reports keepsSweeps_reports trivial env.collaborators.askOnly_true depth

end Environment

/-! ## Room -/

/-- No more calls are in flight than are pending. The books are not asked to be balanced: a word
that is full counts no further, and then fewer are in flight than wait. -/
structure Moment.IsCovered (m : Moment) (j : Journal) : Prop where
  agrees : m.registry.Agrees j
  inFlight : m.admission.inFlight.toNat ≤ m.registry.size

namespace State

theorem release_inFlight (s : State) :
    s.release.admission.inFlight.toNat = s.admission.inFlight.toNat - 1 := by
  by_cases hzero : s.admission.inFlight = 0
  · rw [(release_at_zero hzero).2, hzero]
    rfl
  · have hless := (release_counts hzero).1
    omega

theorem acquire_inFlight_le (s : State) :
    s.acquire.2.admission.inFlight.toNat ≤ s.admission.inFlight.toNat + 1 := by
  rw [acquire_admission, Admission.acquire_inFlight]
  omega

/-- A claim takes one call out, and at most one is counted out with it. -/
theorem covered_of_claim (hs : s.moment.IsCovered s.journal) {claimer : Claimer} {id : CallId}
    {call : Call} (h : s.claim claimer id = (some call, s')) :
    s'.release.admission.inFlight.toNat ≤ s'.release.registry.size := by
  obtain ⟨hclaim, hadmission, -, -⟩ := claim_eq_some h
  have hsize : s'.registry.size + 1 = s.registry.size :=
    Registry.size_of_claim? hs.agrees.unique hclaim
  have hcount : s.admission.inFlight.toNat ≤ s.registry.size := hs.inFlight
  rw [release_inFlight, release_registry, hadmission]
  omega

/-- Every step keeps the calls in flight covered. -/
theorem Step.covered (h : Step s s') (hs : s.moment.IsCovered s.journal) :
    s'.moment.IsCovered s'.journal := by
  refine ⟨h.agrees hs.agrees, ?_⟩
  have hcount : s.admission.inFlight.toNat ≤ s.registry.size := hs.inFlight
  show s'.admission.inFlight.toNat ≤ s'.registry.size
  cases h with
  | aside h =>
    rw [h.admission, Registry.size, h.calls]
    exact hcount
  | noted => exact hcount
  | registered _ h =>
    obtain ⟨hregister, hadmission, -, -⟩ := enroll_eq_ok h
    have hmore := s.acquire_inFlight_le
    rw [acquire_admission] at hmore
    rw [hadmission, Registry.size, (Registry.register?_eq_some hregister).2, List.length_append]
    exact hmore.trans (Nat.add_le_add_right hcount 1)
  | @refused _ call e h =>
    obtain ⟨-, rfl⟩ := enroll_eq_error h
    have hmore := s.acquire_inFlight_le
    rw [release_inFlight, release_registry]
    show s.acquire.2.admission.inFlight.toNat - 1 ≤ s.acquire.2.registry.size
    rw [acquire_registry]
    omega
  | claimed _ _ h => exact covered_of_claim hs h
  | abandoned _ h => exact covered_of_claim hs h

end State

/-- Somebody who looks at the engine finds this: between programs, or when something was noted. -/
def Site.Shows (site : Site (Host σ)) (m : Moment) : Prop :=
  m = site.state.state.moment ∨ ∃ e ∈ site.state.state.journal, e.moment? = some m

/-- Whenever anybody looks no more calls are in flight than are pending, so a registry with room
for one more tells that the count has it too. -/
theorem Environment.Reaches.covered {env : Environment σ} {depth : Nat} {site : Site (Host σ)}
    (hcol : env.collaborators.AskOnly Operation.IsIndirect)
    (h : env.Reaches Operation.IsIndirect depth site) {m : Moment} (hm : site.Shows m) :
    m.admission.inFlight.toNat ≤ m.registry.size := by
  obtain ⟨hnow, heach⟩ := h.always (Q := Moment.IsCovered)
    (fun _ _ _ => ⟨.init, Nat.le_refl 0⟩) (fun hs hstep => hstep.covered hs) hcol
  rcases hm with rfl | ⟨e, he, hm⟩
  · exact hnow.inFlight
  · obtain ⟨later, past, hjournal⟩ := List.append_of_mem he
    exact ((heach.of_suffix ⟨later, hjournal.symm⟩).moment m hm).inFlight

/-! ## Coming back -/

/-- With room for one more, counting in and out comes back to the same count. Without it the count
stays at its greatest value when a call is counted in, and is one less when it is counted out. -/
theorem Admission.release?_acquire {a : Admission} (h : a.inFlight.toNat < UInt32.size - 1) :
    a.acquire.release? = some a := by
  have hmore : a.acquire.inFlight.toNat = a.inFlight.toNat + 1 := by
    rw [acquire_inFlight]
    omega
  have hone : (1 : UInt32) ≤ a.acquire.inFlight := by
    rw [UInt32.le_iff_toNat_le, hmore]
    exact Nat.le_add_left 1 _
  have hne : a.acquire.inFlight ≠ 0 := by
    intro hzero
    rw [hzero] at hmore
    exact Nat.noConfusion hmore
  have hback : a.acquire.inFlight - 1 = a.inFlight := by
    rw [← UInt32.toNat_inj, UInt32.toNat_sub_of_le _ _ hone, hmore]
    rfl
  rw [release?, if_neg hne, hback]
  rfl

/-- A release that succeeds tells peers, and that is all. -/
theorem State.release_of_eq_some {s : State} {a : Admission}
    (h : s.admission.release? = some a) : s.release = s.publish a := by
  unfold release
  rw [h]

/-- What is left of a dispatch that was refused because its id is taken. -/
structure Host.Refuses (host later : Host σ) : Prop where
  /-- The calls that wait are the same, as they were, and so are the statistics. -/
  registry : later.state.registry = host.state.registry
  admission : later.state.admission = host.state.admission
  gauge : later.state.metrics.inFlight = some host.state.admission.inFlight
  callsRegistered :
    later.state.metrics.callsRegistered = host.state.metrics.callsRegistered
  /-- Nobody has been called. -/
  callbacks : later.state.journal.callbacks = host.state.journal.callbacks
  memory : later.memory = host.memory
  /-- Nothing else differs but reports. -/
  same : host.SameButReports later

/-- A call that is counted in, refused and counted out leaves nothing but reports: that it was
beyond the limit, if it was, that its id was taken, and two counts that peers were told, the second
of which is the one from before. -/
theorem State.refuses_of_enroll {host : Host σ} {call : Call} {e : EngineError}
    (h : host.state.enroll call = (.error e, s))
    (hroom : host.state.admission.inFlight.toNat < UInt32.size - 1) :
    host.Refuses { host with state := s } := by
  obtain ⟨-, rfl⟩ := enroll_eq_error h
  have hback : (host.state.acquire.2.notify (.duplicateRegistration call.id)).release =
      (host.state.acquire.2.notify (.duplicateRegistration call.id)).publish
        host.state.admission := by
    refine release_of_eq_some ?_
    show host.state.acquire.2.admission.release? = _
    rw [acquire_admission, Admission.release?_acquire hroom]
  rw [hback]
  -- Counting in publishes a count and may report it; reporting the duplicate comes next; and the
  -- count from before is published last.
  have hreported : (host.state.publish host.state.admission.acquire).SameButReports
      (host.state.acquire.2.notify (.duplicateRegistration call.id)) :=
    (SameButReports.acquire_publish _).trans (.notified rfl _)
  have hsame := (SameButReports.published_back host.state host.state.admission.acquire).trans
    (hreported.publish host.state.admission)
  exact ⟨hsame.registry, hsame.admission, rfl, hsame.callsRegistered, hsame.callbacks, rfl,
    hsame, rfl⟩

/-! ## Rejections -/

/-- The call was not registered. -/
def EngineError.IsRejection : EngineError → Prop
  | .notRunning | .duplicateId _ => True
  | _ => False

namespace Environment

/-- What a dispatch does that is rejected by the engine as it is, at whatever level it is asked for
and however long it is waited for. -/
structure RejectsCleanly (env : Environment σ) (host : Host σ) : Prop where
  /-- An engine that takes no calls is left as it was. -/
  closed : ∀ {level : Nat} {msg : Message} {expiry : Expiry} {rel : Host σ → Host σ → Prop}
    {later : Host σ},
    (dispatch (env.callbacks level) msg expiry host).CanEnd rel (.ok (.error .notRunning)) later →
    later = host
  /-- A call whose id is taken leaves nothing but reports. -/
  refused : ∀ {level : Nat} {msg : Message} {expiry : Expiry} {rel : Host σ → Host σ → Prop}
    {id : CallId} {later : Host σ},
    (dispatch (env.callbacks level) msg expiry host).CanEnd rel (.ok (.error (.duplicateId id)))
      later →
    id = msg.callId ∧ host.state.registry.contains id = true ∧ host.Refuses later
  /-- It has ended at once, with whatever collaborators. -/
  uncalled : ∀ {level : Nat} {msg : Message} {expiry : Expiry} {rel : Host σ → Host σ → Prop}
    {e : EngineError} {later : Host σ}, e.IsRejection →
    (dispatch (env.callbacks level) msg expiry host).CanEnd rel (.ok (.error e)) later →
    ∀ callbacks : Callbacks σ, dispatch callbacks msg expiry host = .ended (.ok (.error e)) later
  /-- Whatever is asked for next is done as if the dispatch had not been attempted. -/
  goesOn : ∀ {level : Nat} {msg : Message} {expiry : Expiry} {rel : Host σ → Host σ → Prop}
    {e : EngineError} {later : Host σ}, e.IsRejection →
    (dispatch (env.callbacks level) msg expiry host).CanEnd rel (.ok (.error e)) later →
    ∀ {α : Type} (place : Nat) (p : Program σ α),
      (env.run place p host).Matches Host.SameButReports (env.run place p later)

/-- Two runs that are driven alike, but that in the second of them dispatches have been attempted
and rejected. -/
inductive Attempts (env : Environment σ) (depth : Nat) : Site (Host σ) → Site (Host σ) → Prop
  /-- A new engine. -/
  | fresh (config : Config) (clock : Clock) (nextId : Nat) (memory : σ) :
      Attempts env depth { state := ⟨.init config clock nextId, memory⟩ }
        { state := ⟨.init config clock nextId, memory⟩ }
  /-- The same program has been seen through. -/
  | completed {site attempted : Site (Host σ)} {α : Type} (p : Program σ α)
      (h : Attempts env depth site attempted) :
      Attempts env depth (env.complete depth p site).2 (env.complete depth p attempted).2
  /-- The workers have gone on as far as they could. -/
  | settled {site attempted : Site (Host σ)} (h : Attempts env depth site attempted) :
      Attempts env depth (env.settle depth site) (env.settle depth attempted)
  /-- A dispatch has been attempted in the second run, which has got there without anybody going
  past the engine, and it has been rejected. -/
  | rejected {site attempted : Site (Host σ)} {msg : Message} {expiry : Expiry} {e : EngineError}
      (h : Attempts env depth site attempted)
      (hreached : env.Reaches Operation.IsIndirect depth attempted)
      (hroom : attempted.state.state.registry.size < UInt32.size - 1) (he : e.IsRejection)
      (hresult : (env.complete depth (.perform (.dispatch msg expiry)) attempted).1 =
        .ok (.error e)) :
      Attempts env depth site (env.complete depth (.perform (.dispatch msg expiry)) attempted).2

/-- Nobody can tell whether dispatches have been attempted. -/
structure Untraced (env : Environment σ) (depth : Nat) (site attempted : Site (Host σ)) : Prop where
  /-- Whatever is asked for from here on has the same result. -/
  result : ∀ {α : Type} (p : Program σ α),
    (env.complete depth p attempted).1 = (env.complete depth p site).1
  /-- The same calls are pending, and the statistics are the same. -/
  registry : attempted.state.state.registry = site.state.state.registry
  admission : attempted.state.state.admission = site.state.state.admission
  /-- The collaborators have been called with the same messages, in the same order. -/
  callbacks : attempted.state.state.journal.callbacks = site.state.state.journal.callbacks
  memory : attempted.state.memory = site.state.memory
  /-- Nothing else differs but reports. -/
  state : site.state.state.SameButReports attempted.state.state

variable {env : Environment σ} {depth : Nat} {site attempted : Site (Host σ)}

/-- An engine that has rejected a dispatch differs in reports alone from what it was. A dispatch
that ends with a rejection has called nobody, so that is all there is between its beginning and its
end. -/
theorem sameButReports_of_rejected {callbacks : Callbacks σ} {host later : Host σ} {msg : Message}
    {expiry : Expiry} {rel : Host σ → Host σ → Prop} {e : EngineError}
    (hroom : host.state.admission.inFlight.toNat < UInt32.size - 1) (he : e.IsRejection)
    (h : (dispatch callbacks msg expiry host).CanEnd rel (.ok (.error e)) later) :
    host.SameButReports later := by
  cases dispatchEnds_of_canEnd h with
  | closed => exact ⟨.refl _, rfl⟩
  | refused _ _ _ henroll => exact (State.refuses_of_enroll henroll hroom).same
  | failed => exact he.elim

theorem rejectsCleanly {host : Host σ}
    (hroom : host.state.admission.inFlight.toNat < UInt32.size - 1) :
    env.RejectsCleanly host := by
  constructor
  case closed =>
    intro level msg expiry rel later h
    cases dispatchEnds_of_canEnd h with
    | closed => rfl
    | refused _ _ _ henroll => cases State.error_of_enroll henroll
  case refused =>
    intro level msg expiry rel id later h
    cases dispatchEnds_of_canEnd h with
    | refused _ _ hcall henroll =>
      obtain ⟨rfl⟩ := State.error_of_enroll henroll
      exact ⟨hcall ▸ rfl, (State.enroll_eq_error henroll).1,
        State.refuses_of_enroll henroll hroom⟩
  case uncalled =>
    intro level msg expiry rel e later he h callbacks
    cases dispatchEnds_of_canEnd h with
    | closed hclosed => exact dispatch_of_closed hclosed msg expiry
    | refused hopen hclock hcall henroll =>
      exact dispatch_of_duplicate hopen hclock hcall henroll
    | failed => exact he.elim
  case goesOn =>
    intro level msg expiry rel e later he h α place p
    exact run_overlooks_reports env place p _ _ (sameButReports_of_rejected hroom he h)

/-- An operation that has been seen through has ended in one of the ways in which it can end. -/
theorem canEnd_of_complete (env : Environment σ) (depth : Nat) (op : Operation)
    (site : Site (Host σ)) :
    ∃ later, (perform (env.callbacks depth) op (site.state.asked depth)).CanEnd (fun _ _ => True)
      (env.complete depth (.perform op) site).1 later := by
  rw [complete_perform_eq]
  exact ⟨_, Crew.complete_canEnd _ _ _ _⟩

/-- A dispatch that has been rejected leaves the site as it was, but for reports and the two notes
that somebody asked for it and was answered. -/
theorem rejected_matches {msg : Message} {expiry : Expiry} {e : EngineError}
    (h : site.Matches Host.SameButReports attempted)
    (hroom : attempted.state.state.admission.inFlight.toNat < UInt32.size - 1)
    (he : e.IsRejection)
    (hresult : (env.complete depth (.perform (.dispatch msg expiry)) attempted).1 =
      .ok (.error e)) :
    site.Matches Host.SameButReports
      (env.complete depth (.perform (.dispatch msg expiry)) attempted).2 := by
  obtain ⟨later, hend⟩ := canEnd_of_complete env depth (.dispatch msg expiry) attempted
  rw [hresult] at hend
  have hroom : (attempted.state.asked depth).state.admission.inFlight.toNat < UInt32.size - 1 :=
    hroom
  -- A rejection is settled before anybody is called, so the workers got no turn in between.
  have hended : perform (env.callbacks depth) (.dispatch msg expiry)
      (attempted.state.asked depth) = .ended (.ok (.error e)) later :=
    (env.rejectsCleanly hroom).uncalled he hend (env.callbacks depth)
  obtain ⟨hlater, hmemory⟩ := sameButReports_of_rejected hroom he hend
  have hasked : attempted.state.state.SameButReports (attempted.state.asked depth).state :=
    .noted rfl _
  have hanswered : later.state.SameButReports (later.answered depth).state := .noted rfl _
  rw [complete_perform_of_ended hended]
  exact h.setState ⟨h.state.1.trans (hasked.trans (hlater.trans hanswered)),
    hmemory.trans h.state.2⟩

theorem Attempts.matches (hcol : env.collaborators.AskOnly Operation.IsIndirect)
    (h : env.Attempts depth site attempted) : site.Matches Host.SameButReports attempted := by
  have hcrew := sweepers_overlook_reports env depth
  induction h with
  | fresh config clock nextId memory => exact ⟨⟨.refl _, rfl⟩, rfl, .nil, rfl, rfl⟩
  | completed p _ ih =>
    have hrun := run_overlooks_reports env depth p
    exact (hcrew.complete_matches env.rounds (hrun _ _ ih.state) ih).2
  | settled _ ih => exact hcrew.settle_matches env.rounds ih
  | rejected _ hreached hroom he hresult ih =>
    have hcovered := hreached.covered hcol (.inl rfl)
    exact rejected_matches ih (Nat.lt_of_le_of_lt hcovered hroom) he hresult

/-- A dispatch that is rejected leaves no trace.  Whoever asks for it, at any moment of a run at
which fewer calls are pending than the count can tell, finds the engine as it was, but for reports;
and a run in which dispatches have been attempted and rejected cannot be told from one in which they
have not. -/
theorem rejections_leave_no_trace (hcol : env.collaborators.AskOnly Operation.IsIndirect) :
    (∀ {site : Site (Host σ)}, env.Reaches Operation.IsIndirect depth site → ∀ host : Host σ,
      site.Shows host.state.moment → host.state.registry.size < UInt32.size - 1 →
      env.RejectsCleanly host) ∧
    ∀ {site attempted : Site (Host σ)}, env.Attempts depth site attempted →
      env.Untraced depth site attempted := by
  refine ⟨fun hreached host hshown hroom => ?_, fun hattempts => ?_⟩
  · exact rejectsCleanly (Nat.lt_of_le_of_lt (hreached.covered hcol hshown) hroom)
  · have hsites := hattempts.matches hcol
    obtain ⟨hstate, hmemory⟩ := hsites.state
    constructor
    case result =>
      intro α p
      have hrun := run_overlooks_reports env depth p
      exact ((sweepers_overlook_reports env depth).complete_matches env.rounds
        (hrun _ _ hsites.state) hsites).1
    case registry => exact hstate.registry
    case admission => exact hstate.admission
    case callbacks => exact hstate.callbacks
    case memory => exact hmemory
    case state => exact hstate

end Environment

/-! ## A run with rejections -/

/-- The call "b" waits, and somebody dispatches its message again. -/
def Site.refusal : Except Panic (Except EngineError Receipt) × Site (Host Bool) :=
  Environment.resending.complete 2 (.perform (.dispatch (.plain "b") {})) Site.afterResend

def Site.afterRefusal : Site (Host Bool) := Site.refusal.2

theorem refusal_eq : Site.refusal.1 = .ok (.error (.duplicateId ⟨"b"⟩)) := by decide +kernel

theorem afterRefusal_attempts :
    Environment.resending.Attempts 2 Site.afterResend Site.afterRefusal :=
  .rejected (e := .duplicateId ⟨"b"⟩) (.completed _ (.fresh {} {} 0 false)) afterResend_reaches
    (by decide +kernel) trivial refusal_eq

/-- The second dispatch of "b" has been counted and reported, and the response to the first one goes
where it would have gone. -/
theorem rejections_leave_no_trace_afterRefusal :
    Site.afterResend.state.state.notices ≠ Site.afterRefusal.state.state.notices ∧
      Environment.resending.RejectsCleanly Site.afterResend.state ∧
      Site.afterRefusal.state.state.registry = Site.afterResend.state.state.registry ∧
      Site.afterRefusal.state.state.admission = Site.afterResend.state.state.admission ∧
      (Environment.resending.complete 2 (.perform (.respond ⟨"b"⟩ { kind := .acknowledged }))
          Site.afterRefusal).1 =
        (Environment.resending.complete 2 (.perform (.respond ⟨"b"⟩ { kind := .acknowledged }))
          Site.afterResend).1 := by
  have hsame : Environment.resending.Untraced 2 Site.afterResend Site.afterRefusal :=
    (Environment.rejections_leave_no_trace resending_askOnly).2 afterRefusal_attempts
  have hclean : Environment.resending.RejectsCleanly Site.afterResend.state :=
    (Environment.rejections_leave_no_trace resending_askOnly).1 afterResend_reaches _ (.inl rfl)
      (by decide +kernel)
  exact ⟨by decide +kernel, hclean, hsame.registry, hsame.admission, hsame.result _⟩

end Correlator
