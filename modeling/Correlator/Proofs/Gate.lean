import Correlator.Proofs.Alike
import Correlator.Proofs.Discard

/-!
# The gate of an engine

Whether an engine takes calls depends on two things that are changed apart from each other: what its
life has come to, and whether its worker lives.  A worker that is told to stop goes on with its last
item, which may wait in a handler for long, and meanwhile the engine has forgotten it.  So there may
be a worker that is not the engine's own, and a worker may be gone that the engine believes it has.

If operations come one after another, a stop has returned before anything else is asked for.  Then
only the engine's own worker can live or wait (`Environment.IsOrdered`), and each operation keeps it
so.  Collaborators may do as they like, save that they leave the life of the engine alone: that is
for the outside (`Operation.SparesLife`).

Once a stop has returned nobody lives and nobody waits, and only a start can change that.  So
nothing happens at the site of itself (`Site.IsDeserted`), and the engine takes no calls
(`State.IsDormant`).

## Main definitions

* `Environment.Proceeds` : the sites between operations that come one after another.
* `Environment.Registers` : a dispatch comes to the registration of its call.
* `Environment.LiesStill` : what an engine is like from the return of a stop on.

## Main results

* `State.Deed.unregistering` : an engine that takes no calls registers none.
* `Environment.Proceeds.isOrdered` : throughout such runs there is one worker at most.
* `Environment.Proceeds.gated` : an engine whose stop has returned registers nothing, and sends out
  nothing, until it is started, and starts as it does the first time.
-/

namespace Correlator

variable {σ α : Type} {allowed : Operation → Prop}

/-! ## What is asked for meanwhile -/

/-- The operation goes through the engine, and neither starts it nor stops it without waiting. -/
def Operation.SparesStart : Operation → Prop
  | .start | .beginStop => False
  | op => op.IsIndirect

/-- The operation goes through the engine and leaves its life alone. -/
def Operation.SparesLife : Operation → Prop
  | .start | .stop | .beginStop => False
  | op => op.IsIndirect

theorem Operation.SparesLife.sparesStart {op : Operation} (h : op.SparesLife) :
    op.SparesStart := by
  cases op with
  | start | stop | beginStop => exact h.elim
  | _ => exact h

/-- Nobody goes past the engine, starts it or stops it without waiting. -/
structure Operation.AreTame (allowed : Operation → Prop) : Prop where
  indirect : ∀ op, allowed op → op.IsIndirect
  start : ¬ allowed .start
  stopAside : ¬ allowed .beginStop

theorem Operation.sparesStart_areTame : AreTame SparesStart where
  indirect op h := by
    cases op with
    | start | beginStop => exact h.elim
    | _ => exact h
  start h := h
  stopAside h := h

theorem Operation.sparesLife_areTame : AreTame SparesLife where
  indirect op h := sparesStart_areTame.indirect op h.sparesStart
  start h := h
  stopAside h := h

/-! ## One worker at a time -/

/-- Nobody lives but the worker `m`. -/
structure State.IsManned (m : Option Nat) (s : State) : Prop where
  single : s.workers.length ≤ 1
  numbers : ∀ w ∈ s.workers, m = some w.number

namespace State

variable {s s' : State} {m : Option Nat} {d d' : Undertakings}

namespace IsManned

theorem congr (h : s.IsManned m) (hworkers : s'.workers = s.workers) : s'.IsManned m := by
  constructor
  · rw [hworkers]
    exact h.single
  · rw [hworkers]
    exact h.numbers

/-- Changes that leave the numbers alone. -/
theorem map (h : s.IsManned m) {f : Worker Chore → Worker Chore}
    (hf : ∀ w ∈ s.workers, (f w).number = w.number) (hworkers : s'.workers = s.workers.map f) :
    s'.IsManned m := by
  constructor
  · rw [hworkers, List.length_map]
    exact h.single
  · rw [hworkers]
    intro w hmem
    obtain ⟨v, hv, rfl⟩ := List.mem_map.mp hmem
    rw [hf v hv]
    exact h.numbers v hv

theorem exchange (h : s.IsManned m) {w taken : Worker Chore}
    (hnumber : taken.number = w.number) : (s.exchange w.number taken).IsManned m := by
  refine h.map (fun v _ => ?_) rfl
  split
  · exact hnumber.trans (Eq.symm ‹_›)
  · rfl

theorem without (h : s.IsManned m) (number : Nat) : (s.without number).IsManned m :=
  ⟨(List.length_filter_le _ _).trans h.single,
    fun w hw => h.numbers w (List.mem_of_mem_filter hw)⟩

theorem beginStop (h : s.IsManned m) : s.beginStop.2.IsManned m := by
  unfold State.beginStop
  split
  · exact h.congr rfl
  · exact h.map (fun w _ => by split <;> rfl) rfl

theorem submit (h : s.IsManned m) (number : Nat) (t : Chore) :
    (s.submit number t).2.IsManned m := by
  have hsubmitted (w : Worker Chore) : (w.submit t).2.number = w.number := by
    unfold Worker.submit
    split <;> rfl
  unfold State.submit
  split
  · exact h
  · rename_i w hw
    have hnumber : w.number = number := by simpa using List.find?_some hw
    refine h.map (fun v _ => ?_) rfl
    split
    · rw [hsubmitted, hnumber]
      exact Eq.symm ‹_›
    · rfl

/-- A start makes a worker only if the engine has none, and then nobody lives. -/
theorem start (h : s.IsManned s.worker) : s.start.IsManned s.start.worker := by
  unfold State.start
  split
  · exact h
  · rename_i hnone
    have hworkers : s.workers = [] := by
      refine List.eq_nil_iff_forall_not_mem.mpr fun w hw => hnone ?_
      rw [h.numbers w hw]
      rfl
    rw [hworkers]
    exact ⟨le_rfl, fun w hw => by rw [List.mem_singleton.mp hw]; rfl⟩

/-- A state without workers. -/
theorem of_nobody (h : s.workers = []) : s.IsManned m := by
  constructor
  · rw [h]
    exact Nat.zero_le 1
  · rw [h]
    exact fun _ => nofun

/-- Where the worker `m` does not live either, nobody does. -/
theorem nobody (h : s.IsManned m) (hm : ∀ number, m = some number → s.hasWorker number = false) :
    s.workers = [] := by
  refine List.eq_nil_iff_forall_not_mem.mpr fun w hw => ?_
  have hnone := List.any_eq_false.mp (hm w.number (h.numbers w hw)) w hw
  exact hnone (by simp)

end IsManned

/-- Only a start makes a worker. -/
theorem Shift.manned (hstart : ¬ allowed .start) (h : s.Shift allowed s') (hs : s.IsManned m) :
    s'.IsManned m := by
  cases h with
  | stay h | swept _ h => exact hs.congr (congrArg Posture.workers h)
  | timed => exact hs.congr rfl
  | taken _ hduty => exact hs.exchange (Worker.same_of_take hduty).1
  | gone number => exact hs.without number
  | life h =>
    cases h with
    | start hasked => exact absurd hasked hstart
    | beginStop => exact hs.beginStop
    | submit number t => exact hs.submit number t
    | purge _ hduty => exact hs.exchange (Worker.same_of_take hduty).1
    | gone number => exact hs.without number
    | stopped | stopAside | pass => exact hs.congr rfl

/-- Only who starts or stops an engine changes which worker is its own. -/
theorem Shift.worker_eq (h : s.Shift Operation.SparesLife s') : s'.worker = s.worker := by
  cases h with
  | stay h | swept _ h => exact congrArg Posture.worker h
  | timed | taken | gone => rfl
  | life h =>
    cases h with
    | start hasked => exact hasked.elim
    | beginStop hasked | stopped hasked => exact hasked.elim False.elim False.elim
    | submit number t => unfold State.submit; split <;> rfl
    | stopAside | pass | purge | gone => rfl

theorem Deeds.worker_eq (h : Deeds Operation.SparesLife d s d' s') : s'.worker = s.worker :=
  h.keeps (P := fun _ later => later.worker = s.worker)
    (fun hdeed hs => hdeed.shift.worker_eq.trans hs) rfl

/-! ## Dormant engines -/

/-- The engine has been stopped, or is about to have been, and nobody lives. -/
structure IsDormant (s : State) : Prop where
  workers : s.workers = []
  worker : s.worker = none
  lifecycle : s.lifecycle = .stopping ∨ s.lifecycle = .stopped

theorem acceptsCalls_iff (s : State) :
    s.acceptsCalls = true ↔ s.status = .created ∨ s.status = .running := by
  simp [acceptsCalls]

/-- An engine that is running has its worker, and no other. -/
theorem IsManned.running (h : s.IsManned s.worker) (hrunning : s.status = .running) :
    ∃ w, s.workers = [w] ∧ s.worker = some w.number := by
  have hany : s.worker.any s.hasWorker = true := by
    unfold status at hrunning
    cases hlife : s.lifecycle <;> rw [hlife] at hrunning <;> simp at hrunning
    exact hrunning
  cases hworker : s.worker with
  | none =>
    rw [hworker] at hany
    cases hany
  | some number =>
    rw [hworker] at hany
    obtain ⟨w, hw, -⟩ := List.any_eq_true.mp hany
    have hone : s.workers.length = 1 := le_antisymm h.single (List.length_pos_of_mem hw)
    obtain ⟨v, hworkers⟩ := List.length_eq_one_iff.mp hone
    rw [← hworker]
    exact ⟨v, hworkers, h.numbers v (by rw [hworkers]; exact List.mem_singleton_self v)⟩

namespace IsDormant

theorem closed (h : s.IsDormant) : s.acceptsCalls = false := by
  have hstatus : s.status = .stopping ∨ s.status = .stopped := by
    rcases h.lifecycle with hlife | hlife
    · exact .inl (by rw [status, hlife])
    · exact .inr (by rw [status, hlife])
  rcases hstatus with hstatus | hstatus <;> simp [acceptsCalls, hstatus]

theorem congr (h : s.IsDormant) (hlife : s'.lifecycle = s.lifecycle)
    (hworker : s'.worker = s.worker) (hworkers : s'.workers = s.workers) : s'.IsDormant := by
  refine ⟨hworkers.trans h.workers, hworker.trans h.worker, ?_⟩
  rw [hlife]
  exact h.lifecycle

end IsDormant

/-- Only a start wakes the engine: every other shift of its life leads from such a state to such a
state, since there is no worker that it could be about. -/
theorem Shift.dormant (hstart : ¬ allowed .start) (h : s.Shift allowed s') (hs : s.IsDormant) :
    s'.IsDormant := by
  cases h with
  | stay h | swept _ h =>
    exact hs.congr (congrArg Posture.lifecycle h) (congrArg Posture.worker h)
      (congrArg Posture.workers h)
  | timed => exact hs.congr rfl rfl rfl
  | taken hw => exact absurd (hs.workers ▸ hw) List.not_mem_nil
  | gone number => exact hs.congr rfl rfl (by rw [State.without, hs.workers]; rfl)
  | life h =>
    cases h with
    | start hasked => exact absurd hasked hstart
    | beginStop =>
      have hnone : s.worker.filter s.hasWorker = none := by rw [hs.worker]; rfl
      unfold State.beginStop
      rw [hnone]
      exact ⟨hs.workers, rfl, .inl rfl⟩
    | stopped => exact ⟨hs.workers, hs.worker, .inr rfl⟩
    | stopAside | pass => exact hs.congr rfl rfl rfl
    | submit number t =>
      have hnone : s.workers.find? (·.number = number) = none := by rw [hs.workers]; rfl
      unfold State.submit
      rw [hnone]
      exact hs
    | purge hw => exact absurd (hs.workers ▸ hw) List.not_mem_nil
    | gone number => exact hs.congr rfl rfl (by rw [State.without, hs.workers]; rfl)

/-! ## Registrations -/

/-- No call has come to be pending, and none is on record as registered since. -/
structure RegistersNone (s s' : State) : Prop where
  calls : s'.registry.calls.Sublist s.registry.calls
  journal : ∃ newer, s'.journal = newer ++ s.journal ∧ ∀ call, .registered call ∉ newer

namespace RegistersNone

theorem refl (s : State) : s.RegistersNone s := ⟨.refl _, [], rfl, fun _ => List.not_mem_nil⟩

theorem trans {s'' : State} (h : s.RegistersNone s') (h' : s'.RegistersNone s'') :
    s.RegistersNone s'' := by
  obtain ⟨newer, hjournal, hnone⟩ := h.journal
  obtain ⟨latest, hjournal', hnone'⟩ := h'.journal
  refine ⟨h'.calls.trans h.calls, latest ++ newer, ?_, fun call hmem => ?_⟩
  · rw [hjournal', hjournal, List.append_assoc]
  · exact (List.mem_append.mp hmem).elim (hnone' call) (hnone call)

/-- What leaves the pending calls alone, and notes something else. -/
theorem of_calls (newer : Journal) (hcalls : s'.registry.calls = s.registry.calls)
    (hjournal : s'.journal = newer ++ s.journal) (hnone : ∀ call, .registered call ∉ newer) :
    s.RegistersNone s' :=
  ⟨hcalls ▸ .refl _, newer, hjournal, hnone⟩

theorem of_claim {claimer : Claimer} {id : CallId} {call : Call} {t : State}
    (h : s.claim claimer id = (some call, s')) (hcalls : t.registry.calls = s'.registry.calls)
    (hjournal : t.journal = s'.journal) : s.RegistersNone t.release := by
  obtain ⟨hclaim, -, -, -⟩ := claim_eq_some h
  obtain ⟨_, -, -, -, hleft⟩ := Registry.claim?_eq_some hclaim
  obtain ⟨newer, hgrown, -, hnewer⟩ := journal_of_claim h hjournal
  refine ⟨?_, newer, hgrown, fun other hmem => ?_⟩
  · rw [t.release_registry, hcalls, hleft]
    exact List.filter_sublist
  · rcases hnewer _ hmem with heq | hneutral
    · cases heq
    · cases hneutral

end RegistersNone

/-- Only an engine that takes calls registers one, which is pending then. All other deeds leave the
pending calls as they are or take one out, and note no registration. -/
theorem Deed.registers {need left : Undertakings} (h : Deed allowed need s left s') :
    s.RegistersNone s' ∨ ∃ call receipt, s.acceptsCalls = true ∧ call.completion = .pending ∧
      s.enroll call = (.ok receipt, s') := by
  have silent {t : State} (hcalls : t.registry.calls = s.registry.calls)
      (hjournal : t.journal = s.journal) : s.RegistersNone t :=
    .of_calls [] hcalls hjournal fun _ => List.not_mem_nil
  cases h with
  | enrolled hopen hpending h => exact .inr ⟨_, _, hopen, hpending, h⟩
  | neutral h =>
    cases h with
    | mk newer h => exact .inl (.of_calls newer rfl rfl fun _ hmem => Bool.noConfusion (h _ hmem))
  | life h =>
    refine .inl (silent ?_ h.journal)
    cases h with
    | start => exact s.apart_start.calls
    | beginStop => exact s.apart_beginStop.calls
    | submit number t => exact (s.apart_submit number t).calls
    | _ => rfl
  | abandoned h => exact .inl (.of_claim h rfl rfl)
  | unmatched h =>
    have haside := (collect_eq_none h).aside
    exact .inl (silent haside.calls haside.journal)
  | collected h =>
    obtain ⟨t, hclaim, hquiet⟩ := collect_eq_some h
    exact .inl (.of_claim hclaim hquiet.aside.calls hquiet.aside.journal)
  | @expired _ t _ _ _ _ _ h =>
    obtain ⟨_, hclaim, hquiet⟩ := claimExpired_eq_some h
    exact .inl (.of_claim
      (t := { t with metrics := { t.metrics with timeouts := t.metrics.timeouts + 1 } }) hclaim
      hquiet.aside.calls hquiet.aside.journal)
  | locked => exact .inl (.of_calls [.listed _ _] rfl rfl (by simp))
  | routing level => exact .inl (.of_calls [.routing level _ _] rfl rfl (by simp))
  | routed level msg => exact .inl (.of_calls [.routed level _ _ msg _] rfl rfl (by simp))
  | discarded level msg =>
    exact .inl (.of_calls [.routed level _ _ _ .discarded, .routing level _ _] rfl rfl (by simp))
  | called handler msg =>
    exact .inl (.of_calls [.entered _ (.compensate handler _ msg) _] rfl rfl (by simp))
  -- The others leave books and journal alone.
  | _ => exact .inl (silent rfl rfl)

/-- An engine that takes no calls registers none. -/
theorem Deed.unregistering {need left : Undertakings} (h : Deed allowed need s left s')
    (hclosed : s.acceptsCalls = false) : s.RegistersNone s' :=
  h.registers.resolve_right fun ⟨_, _, hopen, _⟩ => by simp [hclosed] at hopen

/-- No call in the registry has been claimed. -/
def AllPending (s : State) : Prop := ∀ call ∈ s.registry.calls, call.completion = .pending

theorem RegistersNone.allPending (h : s.RegistersNone s') (hs : s.AllPending) : s'.AllPending :=
  fun call hmem => hs call (h.calls.subset hmem)

theorem Deeds.allPending (h : Deeds allowed d s d' s') (hs : s.AllPending) : s'.AllPending := by
  refine h.keeps (P := fun _ s => s.AllPending) (fun hdeed hs => ?_) hs
  rcases hdeed.registers with hnone | ⟨call, receipt, -, hpending, henroll⟩
  · exact hnone.allPending hs
  · intro other hmem
    rw [(Registry.register?_eq_some (enroll_eq_ok henroll).1).2] at hmem
    rcases List.mem_append.mp hmem with hold | hnew
    · exact hs other hold
    · rw [List.mem_singleton.mp hnew]
      exact hpending

/-- Nobody lives but the worker `m`, nobody has asked for a stop without waiting, and no call that
has been claimed is in the registry. -/
structure IsOrdered (m : Option Nat) (s : State) : Prop extends s.IsManned m where
  unasked : s.stopsAside = 0
  pending : s.AllPending

theorem Deeds.ordered (htame : Operation.AreTame allowed) (h : Deeds allowed d s d' s')
    (hs : s.IsOrdered m) : s'.IsOrdered m where
  toIsManned :=
    h.keeps (P := fun _ s => s.IsManned m) (fun hdeed hs => hdeed.shift.manned htame.start hs)
      hs.toIsManned
  unasked := h.stopsAside htame.stopAside hs.unasked
  pending := h.allPending hs.pending

theorem IsOrdered.congr (h : s.IsOrdered m) (hworkers : s'.workers = s.workers)
    (hstopsAside : s'.stopsAside = s.stopsAside) (hregistry : s'.registry = s.registry) :
    s'.IsOrdered m := by
  refine ⟨h.toIsManned.congr hworkers, hstopsAside.trans h.unasked, ?_⟩
  unfold AllPending
  rw [hregistry]
  exact h.pending

theorem IsOrdered.beginStop (h : s.IsOrdered m) : s.beginStop.2.IsOrdered m := by
  refine ⟨h.toIsManned.beginStop, ?_, ?_⟩ <;> unfold State.beginStop <;> split
  · exact h.unasked
  · exact h.unasked
  · exact h.pending
  · exact h.pending

theorem IsOrdered.start (h : s.IsOrdered s.worker) : s.start.IsOrdered s.start.worker := by
  refine ⟨h.toIsManned.start, ?_, ?_⟩ <;> unfold State.start <;> split
  · exact h.unasked
  · exact h.unasked
  · exact h.pending
  · exact h.pending

/-- A dormant engine stays dormant and registers no call. -/
theorem Deeds.dormant (hstart : ¬ allowed .start) (h : Deeds allowed d s d' s')
    (hs : s.IsDormant) : s'.IsDormant ∧ s.RegistersNone s' :=
  h.keeps (P := fun _ later => later.IsDormant ∧ s.RegistersNone later)
    (fun hdeed hs =>
      ⟨hdeed.shift.dormant hstart hs.1, hs.2.trans (hdeed.unregistering hs.1.closed)⟩)
    ⟨hs, .refl s⟩

end State

/-- The engine is dormant, and nobody waits or is on an errand. -/
structure Site.IsDormant (site : Site (Host σ)) : Prop where
  dormant : site.state.state.IsDormant
  ordered : site.state.state.IsOrdered none
  errandless : site.IsErrandless
  nobody : site.suspended = []

/-! ## Operations one after another -/

namespace Environment

variable {env : Environment σ} {depth : Nat} {site site' : Site (Host σ)} {d : Undertakings}
  {host : Host σ} {m : Option Nat}

/-- What is in hand at a site has come from what was in hand before, and nobody else waits than the
worker `m`. It is kept by everything that leaves the life of the engine alone, whoever gets the
turns. -/
def Mans (env : Environment σ) (allowed : Operation → Prop) (depth : Nat) (m : Option Nat)
    (d : Undertakings) (host : Host σ) (own : Undertakings) (site : Site (Host σ)) : Prop :=
  site.Bears (sweepers (env.callbacks depth)) (Host.Does allowed) d host own ∧
    site.IsErrandless ∧ site.IsStaffed m

section

variable (htame : Operation.AreTame allowed) (hcol : env.collaborators.AskOnly allowed)
  (hhost : host.state.IsOrdered m)

include htame hcol hhost

theorem mans_preserves (own : Undertakings) :
    (sweepers (env.callbacks depth)).Preserves (env.Mans allowed depth m d host own) :=
  (sweepers_carry (callbacks_carry htame.indirect hcol depth)).preserves_staffed
    (fun hdeeds => (State.Deeds.ordered htame hdeeds hhost).unasked)
    (fun hdeeds => (State.Deeds.ordered htame hdeeds hhost).numbers) own

/-- What a program from outside that has something in hand makes of the site. -/
theorem mans_of_carries {own : Undertakings} {p : Progress (Host σ) α}
    {post : α → Undertakings → Host σ → Prop} (h : env.Mans allowed depth m d host own site)
    (hp : p.Carries (Host.Does allowed) post own site.state) :
    ∃ own', env.Mans allowed depth m d host own'
        ((sweepers (env.callbacks depth)).complete env.rounds p site).2 ∧
      post ((sweepers (env.callbacks depth)).complete env.rounds p site).1 own'
        ((sweepers (env.callbacks depth)).complete env.rounds p site).2.state := by
  obtain ⟨own', hbears, hothers, hpost⟩ := Crew.complete_bears (mans_preserves htame hcol hhost)
    (fun s hC => ⟨hC.1.setState s, hC.2⟩) env.rounds h.1 h.2 hp
  exact ⟨own', ⟨hbears, hothers⟩, hpost⟩

theorem complete_mans {p : Program σ α} (hp : p.AsksOnly allowed)
    (h : env.Mans allowed depth m d host 0 site) :
    env.Mans allowed depth m d host 0 (env.complete depth p site).2 := by
  obtain ⟨_, hmans, rfl, -⟩ := mans_of_carries htame hcol hhost h
    (run_concludes htame.indirect hcol depth hp site.state)
  exact hmans

theorem Leads.mans (hsite : env.Mans allowed depth m d host 0 site)
    (h : env.Leads allowed depth site site') : env.Mans allowed depth m d host 0 site' := by
  induction h with
  | refl => exact hsite
  | completed hp _ ih => exact complete_mans htame hcol hhost hp ih
  | settled _ ih => exact (mans_preserves htame hcol hhost 0).settle _ ih

end

/-- The stop of an engine at the site returns: whatever worker it has had is gone, with whatever
that was at. It need not return where a handler stops the engine from inside the worker's own item.
-/
def StopReturns (env : Environment σ) (depth : Nat) (site : Site (Host σ)) : Prop :=
  ∀ number, site.state.state.worker = some number →
    (env.complete depth (.perform .stop) site).2.state.state.hasWorker number = false ∧
      (env.complete depth (.perform .stop) site).2.isSuspended (.worker number) = false

/-- The sites between operations that come one after another, from a new engine on.  Whoever starts
the engine or stops it waits for that. -/
inductive Proceeds (env : Environment σ) (depth : Nat) : Site (Host σ) → Prop
  | fresh (config : Config) (clock : Clock) (nextId : Nat) (memory : σ) :
      Proceeds env depth { state := ⟨.init config clock nextId, memory⟩ }
  | asked {site : Site (Host σ)} {α : Type} {p : Program σ α}
      (hp : p.AsksOnly Operation.SparesLife) (h : Proceeds env depth site) :
      Proceeds env depth (env.complete depth p site).2
  | started {site : Site (Host σ)} (h : Proceeds env depth site) :
      Proceeds env depth (env.complete depth (.perform .start) site).2
  | stopped {site : Site (Host σ)} (h : Proceeds env depth site)
      (hreturns : env.StopReturns depth site) :
      Proceeds env depth (env.complete depth (.perform .stop) site).2
  | settled {site : Site (Host σ)} (h : Proceeds env depth site) :
      Proceeds env depth (env.settle depth site)
  /-- The workers have gone on by one step. -/
  | stepped {limit : Option Nat} {site site' : Site (Host σ)} (h : Proceeds env depth site)
      (hstep : (sweepers (env.callbacks depth)).step limit site = some site') :
      Proceeds env depth site'

/-- Nobody lives or waits but the engine's own worker. -/
structure IsOrdered (env : Environment σ) (depth : Nat) (site : Site (Host σ)) : Prop where
  ordered : site.state.state.IsOrdered site.state.state.worker
  mans : ∃ d, env.Mans Operation.SparesLife depth site.state.state.worker d site.state 0 site

/-- What waits at a site has been begun before the site was as it is. -/
theorem Mans.restart (h : env.Mans allowed depth m d host 0 site) (later : Host σ) {m' : Option Nat}
    (hstaffed : site.IsStaffed m') :
    ∃ d', env.Mans allowed depth m' d' later 0 { site with state := later } := by
  obtain ⟨⟨i, hbear, -⟩, herrandless, -⟩ := h
  refine ⟨i, ⟨i, hbear, ?_⟩, herrandless.setState later, hstaffed⟩
  rw [zero_add]
  exact State.Deeds.refl

namespace IsOrdered

/-- Everything that leaves the life of the engine alone. -/
theorem of_mans (h : env.IsOrdered depth site)
    (hmans : env.Mans Operation.SparesLife depth site.state.state.worker d site.state 0 site') :
    env.IsOrdered depth site' := by
  obtain ⟨⟨i, -, hdeeds⟩, -, hstaffed⟩ := id hmans
  have hworker : site'.state.state.worker = site.state.state.worker :=
    State.Deeds.worker_eq hdeeds
  have hordered := State.Deeds.ordered Operation.sparesLife_areTame hdeeds h.ordered
  rw [← hworker] at hstaffed hordered
  exact ⟨hordered, hmans.restart _ hstaffed⟩

theorem start (h : env.IsOrdered depth site) :
    env.IsOrdered depth (env.complete depth (.perform .start) site).2 := by
  have hended : env.complete depth (.perform .start) site = _ := complete_perform_of_ended rfl
  rw [hended]
  obtain ⟨d, hmans⟩ := h.mans
  have hasked : (site.state.asked depth).state.IsOrdered site.state.state.worker :=
    h.ordered.congr rfl rfl rfl
  refine ⟨hasked.start.congr rfl rfl rfl, hmans.restart _ (hmans.2.2.mono ?_)⟩
  intro number hnumber
  change (site.state.asked depth).state.start.worker = some number
  unfold State.start
  split
  · exact hnumber
  · rename_i hnone
    exact absurd (Option.isSome_of_eq_some hnumber) hnone

end IsOrdered

/-! ## Stopping -/

/-- A stop that finds no worker ends at once. -/
theorem stop_of_idle (hidle : host.state.beginStop.1 = none) :
    (stop : Run σ Unit) host =
      .ended () { host with state := { host.state.beginStop.2 with lifecycle := .stopped } } := by
  unfold stop
  rw [Run.apply_bind, hidle]
  rfl

/-- Any other one waits until the worker is gone. -/
theorem stop_of_busy {number : Nat} (hbusy : host.state.beginStop.1 = some number) :
    (stop : Run σ Unit) host =
      .waiting (.condition fun later => !later.state.hasWorker number)
        { host with state := host.state.beginStop.2 }
        fun later => .ended ()
          { later with state := { later.state with lifecycle := .stopped } } := by
  unfold stop
  rw [Run.apply_bind, hbusy]
  rfl

/-- The site at which a stop ends: the engine has given up its worker, and nobody else lives or
waits. Either there was no worker and the stop ends at once, or the crew has been attended to until
the worker was gone. -/
theorem IsOrdered.stop_leaves (h : env.IsOrdered depth site)
    (hcol : env.collaborators.AskOnly Operation.SparesLife) :
    ∃ attended : Site (Host σ),
      (env.complete depth (.perform .stop) site).2 =
        { attended with
          state := Host.answered depth
            { attended.state with
              state := { attended.state.state with lifecycle := .stopped } } } ∧
      attended.state.state.worker = none ∧
      attended.state.state.IsOrdered site.state.state.worker ∧ attended.IsErrandless ∧
      attended.IsStaffed site.state.state.worker := by
  let asked : State := (site.state.asked depth).state
  let begun : Host σ := { site.state with state := asked.beginStop.2 }
  have hworker : begun.state.worker = none := by
    change asked.beginStop.2.worker = none
    unfold State.beginStop
    split <;> rfl
  have hasked : asked.IsOrdered site.state.state.worker := h.ordered.congr rfl rfl rfl
  have hordered : begun.state.IsOrdered site.state.state.worker := hasked.beginStop
  obtain ⟨_, hmans⟩ := h.mans
  obtain ⟨i, hmans⟩ := hmans.restart begun hmans.2.2
  cases hbegun : asked.beginStop.1 with
  | none =>
    have hended : env.complete depth (.perform .stop) site = _ :=
      complete_perform_of_ended (stop_of_idle hbegun)
    rw [hended]
    exact ⟨{ site with state := begun }, rfl, hworker, hordered, hmans.2⟩
  | some number =>
    have hwaits : perform (env.callbacks depth) .stop (site.state.asked depth) =
        .waiting (.condition fun later => !later.state.hasWorker number) begun fun later =>
          .ended () { later with state := { later.state with lifecycle := .stopped } } :=
      stop_of_busy hbegun
    rw [complete_perform_of_waiting hwaits rfl]
    obtain ⟨⟨j, -, hdeeds⟩, hothers⟩ :=
      -- While the stop waits the crew goes on deed by deed, and none of these gives the engine a
      -- worker.
      (mans_preserves Operation.sparesLife_areTame hcol hordered 0).attend env.rounds _ hmans
    exact ⟨_, rfl, (State.Deeds.worker_eq hdeeds).trans hworker,
      State.Deeds.ordered Operation.sparesLife_areTame hdeeds hordered, hothers⟩

/-- Once a stop has returned nobody lives or waits. -/
theorem IsOrdered.stop_dormant (h : env.IsOrdered depth site)
    (hcol : env.collaborators.AskOnly Operation.SparesLife)
    (hreturns : env.StopReturns depth site) :
    (env.complete depth (.perform .stop) site).2.IsDormant := by
  obtain ⟨attended, hsite, hworker, hordered, herrandless, hstaffed⟩ := h.stop_leaves hcol
  unfold StopReturns at hreturns
  rw [hsite] at hreturns ⊢
  have hworkers : attended.state.state.workers = [] :=
    hordered.nobody fun number hnumber => (hreturns number hnumber).1
  exact
    { dormant := ⟨hworkers, hworker, .inr rfl⟩
      ordered := ⟨.of_nobody hworkers, hordered.unasked, hordered.pending⟩
      errandless := herrandless.setState _
      nobody := hstaffed.nobody fun number hnumber => (hreturns number hnumber).2 }

/-- Where nobody waits there is nothing in hand. -/
theorem mans_of_dormant (env : Environment σ) (allowed : Operation → Prop) (depth : Nat)
    (h : site.IsDormant) (m : Option Nat) : env.Mans allowed depth m 0 site.state 0 site := by
  refine ⟨⟨0, ?_, State.Deeds.refl⟩, h.errandless, .of_nobody h.nobody⟩
  rw [h.nobody]
  exact .nil

theorem isOrdered_of_dormant (h : site.IsDormant) : env.IsOrdered depth site where
  ordered := by
    rw [h.dormant.worker]
    exact h.ordered
  mans := ⟨0, env.mans_of_dormant _ depth h _⟩

/-- Throughout runs whose operations come one after another there is one worker at most, and only
the engine's own one lives or waits. -/
theorem Proceeds.isOrdered (hcol : env.collaborators.AskOnly Operation.SparesLife)
    (h : env.Proceeds depth site) : env.IsOrdered depth site := by
  have htame := Operation.sparesLife_areTame
  induction h with
  | fresh config clock nextId memory =>
    have hordered : (State.init config clock nextId).IsOrdered none :=
      ⟨.of_nobody rfl, rfl, fun _ => nofun⟩
    exact ⟨hordered, 0, ⟨0, .nil, State.Deeds.refl⟩, .fresh _, .of_nobody rfl⟩
  | asked hp _ ih =>
    obtain ⟨d, hmans⟩ := ih.mans
    exact ih.of_mans (complete_mans htame hcol ih.ordered hp hmans)
  | started _ ih => exact ih.start
  | stopped _ hreturns ih => exact isOrdered_of_dormant (ih.stop_dormant hcol hreturns)
  | settled _ ih =>
    obtain ⟨d, hmans⟩ := ih.mans
    exact ih.of_mans ((mans_preserves htame hcol ih.ordered 0).settle _ hmans)
  | stepped _ hstep ih =>
    obtain ⟨d, hmans⟩ := ih.mans
    exact ih.of_mans ((mans_preserves htame hcol ih.ordered 0).step _ hmans hstep)

end Environment

/-! ## Deserted sites -/

/-- Nobody lives at the site and nobody waits, so only the time can differ from that of `host`, up
to `limit`. It is the invariant of a crew that is left to itself there. -/
structure Site.IsDeserted (host : Host σ) (limit : Nat) (site : Site (Host σ)) : Prop where
  state : ∃ time, host.state.time ≤ time ∧ time ≤ limit ∧
    site.state = { host with state := { host.state with time } }
  errandless : site.IsErrandless
  nobody : site.suspended = []

theorem Site.setTime_state (callbacks : Callbacks σ) (time : Nat) (site : Site (Host σ)) :
    ((sweepers callbacks).setTime time site).state =
      { site.state with
        state := { site.state.state with time := max site.state.state.time time } } := rfl

namespace Site.IsDeserted

variable {callbacks : Callbacks σ} {host : Host σ} {limit : Nat} {site site' : Site (Host σ)}

theorem callAll (h : site.IsDeserted host limit) (hunasked : host.state.stopsAside = 0) :
    ((sweepers callbacks).callAll site).IsDeserted host limit := by
  refine ⟨h.state, h.errandless.callAll ?_, h.nobody⟩
  obtain ⟨time, -, -, hstate⟩ := h.state
  rw [hstate]
  exact hunasked

/-- Whoever is called finds nothing to do. -/
theorem act (h : site.IsDeserted host limit) (hworkers : host.state.workers = []) (number : Nat) :
    (sweepers callbacks).act (.worker number) site = site := by
  obtain ⟨time, -, -, hstate⟩ := h.state
  have hnone : (sweepers callbacks).worker? number site.state = none := by
    unfold Crew.worker?
    rw [hstate]
    change host.state.workers.find? _ = none
    rw [hworkers]
    rfl
  unfold Crew.act
  rw [h.nobody]
  change ((sweepers callbacks).worker? number site.state |>.map _).getD site = site
  rw [hnone]
  rfl

theorem setTime (h : site.IsDeserted host limit) {time : Nat} (htime : time ≤ limit)
    (hunasked : host.state.stopsAside = 0) :
    ((sweepers callbacks).setTime time site).IsDeserted host limit := by
  obtain ⟨now, hfrom, hto, hstate⟩ := h.state
  refine Site.IsDeserted.callAll ⟨⟨max now time, ?_, ?_, ?_⟩, ?_, h.nobody⟩ hunasked
  · exact hfrom.trans (le_max_left _ _)
  · exact max_le hto htime
  · rw [hstate]
    rfl
  · exact (h.errandless.setState _).ringAlarms time

/-- Time passes, and nothing else happens. -/
theorem step (hworkers : host.state.workers = []) (hunasked : host.state.stopsAside = 0)
    (h : site.IsDeserted host limit)
    (hstep : (sweepers callbacks).step (some limit) site = some site') :
    site'.IsDeserted host limit := by
  simp only [Crew.step, Option.orElse_eq_orElse, Option.orElse_eq_or,
    Option.or_eq_some_iff] at hstep
  rcases hstep with hturn | ⟨-, hrelease | ⟨-, hpass⟩⟩
  · unfold Crew.turn at hturn
    split at hturn
    · cases hturn
    · rename_i party line hline
      obtain rfl := Option.some.inj hturn
      have hrest : Site.IsDeserted host limit { site with line } :=
        ⟨h.state, ⟨fun p hp => h.errandless.line p (hline ▸ List.mem_cons_of_mem party hp),
          h.errandless.suspended, h.errandless.alarms, h.errandless.called⟩, h.nobody⟩
      cases party with
      | worker number => exact (hrest.act hworkers number).symm ▸ hrest.callAll hunasked
      | errand serial =>
        exact absurd rfl (h.errandless.line _ (hline ▸ List.mem_cons_self) serial)
  · unfold Site.release? at hrelease
    rw [h.nobody] at hrelease
    cases hrelease
  · obtain ⟨time, htime, rfl⟩ := Option.map_eq_some_iff.mp hpass
    have hlimit : time ≤ limit := by simpa using (Option.filter_eq_some_iff.mp htime).2
    exact h.setTime hlimit hunasked

/-- The crew may go on for as long as it likes. -/
theorem runUntil (hworkers : host.state.workers = []) (hunasked : host.state.stopsAside = 0)
    (spare : Nat) (h : site.IsDeserted host limit) :
    ((sweepers callbacks).runUntil spare limit site).IsDeserted host limit :=
  Crew.run_preserves (fun h hstep => h.step hworkers hunasked hstep) _ _ h

end Site.IsDeserted

namespace Site.IsDormant

variable {callbacks : Callbacks σ} {site : Site (Host σ)}

theorem deserted (h : site.IsDormant) {limit : Nat} (hlimit : site.state.state.time ≤ limit) :
    site.IsDeserted site.state limit := ⟨⟨_, le_rfl, hlimit, rfl⟩, h.errandless, h.nobody⟩

/-- What is on record does not matter. -/
theorem asked (h : site.IsDormant) (level : Nat) :
    Site.IsDormant { site with state := site.state.asked level } :=
  ⟨h.dormant.congr rfl rfl rfl, h.ordered.congr rfl rfl rfl, h.errandless.setState _, h.nobody⟩

/-- Left to itself nothing changes. -/
theorem settle_state (h : site.IsDormant) (spare : Nat) :
    ((sweepers callbacks).settle spare site).state = site.state := by
  have hcalled : ((sweepers callbacks).callAll site).IsDeserted site.state site.state.state.time :=
    (h.deserted le_rfl).callAll h.ordered.unasked
  obtain ⟨time, hfrom, hto, hstate⟩ :=
    (hcalled.runUntil h.dormant.workers h.ordered.unasked spare).state
  obtain rfl := le_antisymm hto hfrom
  exact hstate

/-- While somebody outside waits for a time, only the time changes. -/
theorem attend_state (h : site.IsDormant) (spare : Nat) {time : Nat}
    (htime : site.state.state.time < time) :
    ((sweepers callbacks).attend spare site (.time time)).state =
      { site.state with state := { site.state.state with time } } := by
  have hcalled : ((sweepers callbacks).callAll site).IsDeserted site.state (time - 1) :=
    (h.deserted (Nat.le_sub_one_of_lt htime)).callAll h.ordered.unasked
  obtain ⟨now, -, hto, hstate⟩ :=
    (hcalled.runUntil h.dormant.workers h.ordered.unasked spare).state
  have hearlier : ¬ time ≤ (sweepers callbacks).now site.state := Nat.not_le.mpr htime
  simp only [Crew.attend, if_neg hearlier]
  rw [Site.setTime_state, hstate]
  have hmax : max now time = time := max_eq_right (by omega)
  rw [hmax]

end Site.IsDormant

namespace Environment

variable {env : Environment σ} {depth : Nat} {site site' : Site (Host σ)} {d : Undertakings}

/-- Time that passes at a dormant site changes nothing else, and is on record. -/
theorem elapse_state_of_dormant (h : site.IsDormant) (duration : Nat) :
    (env.complete depth (.perform (.elapse duration)) site).2.state =
      Host.answered depth
        { site.state.asked depth with
          state :=
            { (site.state.asked depth).state with
              time := site.state.state.time + min duration longestPause } } := by
  by_cases hzero : duration = 0
  · subst hzero
    have hended : env.complete depth (.perform (.elapse 0)) site = _ :=
      complete_perform_of_ended rfl
    rw [hended, Nat.zero_min, Nat.add_zero]
    rfl
  · let time : Nat := site.state.state.time + min duration longestPause
    have hwaits : perform (env.callbacks depth) (.elapse duration) (site.state.asked depth) =
        .waiting (.time time) (site.state.asked depth) fun later => .ended () later := by
      change Work.pause _ duration _ = _
      unfold Work.pause
      rw [if_neg hzero]
      rfl
    have hpause : 0 < longestPause := by decide
    have htime : (site.state.asked depth).state.time < time :=
      Nat.lt_add_of_pos_right (by omega)
    rw [complete_perform_of_waiting hwaits rfl, (h.asked depth).attend_state env.rounds htime]

/-- Unless somebody starts the engine it stays dormant, whatever else is asked for, and registers no
call. -/
theorem Leads.dormant (hcol : env.collaborators.AskOnly Operation.SparesStart)
    (h : env.Leads Operation.SparesStart depth site site') (hsite : site.IsDormant) :
    site'.IsDormant ∧ site.state.state.RegistersNone site'.state.state := by
  have htame := Operation.sparesStart_areTame
  obtain ⟨⟨d, -, hdeeds⟩, herrandless, hstaffed⟩ :=
    h.mans htame hcol hsite.ordered (env.mans_of_dormant _ depth hsite none)
  obtain ⟨hdormant, hnone⟩ := State.Deeds.dormant htame.start hdeeds hsite.dormant
  exact ⟨⟨hdormant, State.Deeds.ordered htame hdeeds hsite.ordered, herrandless,
    hstaffed.nobody fun _ => nofun⟩, hnone⟩

/-! ## The gate -/

/-- A dispatch at the site, with the clock at `now`, comes to the registration of its call. -/
inductive Registers (env : Environment σ) (depth : Nat) (site : Site (Host σ)) (msg : Message)
    (expiry : Expiry) (now : Millis) : Prop
  /-- The call is registered before anybody else gets to see the engine. -/
  | registered (hfree : site.state.state.registry.contains msg.callId = false)
      (h : .registered (msg.toCall expiry now
            (expiry.deadline now site.state.state.config.defaultTimeout)) ::
          .published site.state.state.admission.acquire.state ::
          .asked depth site.state.state.moment :: site.state.state.journal <:+
        (env.complete depth (.perform (.dispatch msg expiry)) site).2.state.state.journal)
  /-- Its id is taken. -/
  | taken (htaken : site.state.state.registry.contains msg.callId = true)
      (h : (env.complete depth (.perform (.dispatch msg expiry)) site).1 =
        .ok (.error (.duplicateId msg.callId)))

/-- An engine that takes no calls notes that it has been asked, and that is all. -/
theorem complete_dispatch_of_closed (hclosed : site.state.state.acceptsCalls = false)
    (msg : Message) (expiry : Expiry) :
    env.complete depth (.perform (.dispatch msg expiry)) site =
      (.ok (.error .notRunning),
        { site with state := (site.state.asked depth).answered depth }) := by
  have hclosed : (site.state.asked depth).state.acceptsCalls = false := hclosed
  exact complete_perform_of_ended (dispatch_of_closed hclosed msg expiry)

/-- An operation that has brought the engine to `begun`, and goes on deed by deed from there, is
seen through whoever else is at work. So what it has noted by then is still in the journal at its
end. -/
theorem IsOrdered.complete_of_carries (h : env.IsOrdered depth site)
    (hcol : env.collaborators.AskOnly Operation.SparesLife) (op : Operation) (begun : Host σ)
    (hposture : begun.state.posture = site.state.state.posture) (hpending : begun.state.AllPending)
    {own : Undertakings} {post : op.Answer → Prop}
    (hop : (perform (env.callbacks depth) op (site.state.asked depth)).Carries
      (Host.Does Operation.SparesLife) (fun a i _ => i = 0 ∧ post a) own begun) :
    begun.state.journal <:+ (env.complete depth (.perform op) site).2.state.state.journal ∧
      post (env.complete depth (.perform op) site).1 := by
  obtain ⟨_, ⟨i, hbear, -⟩, herrandless, hstaffed⟩ := h.mans
  have hordered : begun.state.IsOrdered site.state.state.worker :=
    ⟨h.ordered.toIsManned.congr (congrArg Posture.workers hposture),
      (congrArg Posture.stopsAside hposture).trans h.ordered.unasked, hpending⟩
  have hmans : env.Mans Operation.SparesLife depth site.state.state.worker (own + i) begun own
      { site with state := begun } :=
    ⟨⟨i, hbear, State.Deeds.refl⟩, herrandless.setState begun, hstaffed⟩
  have hserved : (serve (env.callbacks depth) op site.state).Carries
      (Host.Does Operation.SparesLife) (fun a i _ => i = 0 ∧ post a) own begun := by
    unfold serve noted
    rw [Run.update_bind, callbacks_level]
    refine hop.bind ?_
    rintro answer _ later ⟨rfl, hpost⟩
    exact Run.carries_update_bind (.neutral (.note rfl)) (Progress.carries_ended ⟨rfl, hpost⟩)
  obtain ⟨_, ⟨⟨_, -, hdeeds⟩, -⟩, -, hpost⟩ :=
    mans_of_carries Operation.sparesLife_areTame hcol hordered hmans hserved
  rw [Crew.complete_setState] at hdeeds hpost
  unfold complete Crew.perform
  rw [run_perform]
  exact ⟨State.Deeds.journal_suffix hdeeds, hpost⟩

/-- An engine that takes calls comes to the registration, whatever the transport and everybody else
do after that: either the id is taken, or the call is in the journal before anybody else has a
turn. -/
theorem IsOrdered.registers (h : env.IsOrdered depth site)
    (hcol : env.collaborators.AskOnly Operation.SparesLife)
    (hopen : site.state.state.acceptsCalls = true) {now : Millis}
    (hclock : site.state.state.clock.read = .ok now) (msg : Message) (expiry : Expiry) :
    env.Registers depth site msg expiry now := by
  have hopen : (site.state.asked depth).state.acceptsCalls = true := hopen
  have hclock : (site.state.asked depth).state.clock.read = .ok now := hclock
  generalize hcall : msg.toCall expiry now
    (expiry.deadline now (site.state.asked depth).state.config.defaultTimeout) = call
  have hid : call.id = msg.callId := hcall ▸ rfl
  cases henroll : (site.state.asked depth).state.enroll call with
  | mk result s =>
    cases result with
    | error e =>
      have htaken : site.state.state.registry.contains call.id = true :=
        (State.enroll_eq_error henroll).1
      have hended : env.complete depth (.perform (.dispatch msg expiry)) site = _ :=
        complete_perform_of_ended (dispatch_of_duplicate hopen hclock hcall henroll)
      rw [State.error_of_enroll henroll, hid] at hended
      -- Refusing is the only way to fail at the registration, and it takes a call with the id.
      exact .taken (hid ▸ htaken) (by rw [hended])
    | ok receipt =>
      obtain ⟨hregister, -, hjournal, -⟩ := State.enroll_eq_ok henroll
      have hfree : site.state.state.registry.contains call.id = false :=
        (Registry.register?_eq_some hregister).1
      have hpending : call.completion = .pending := hcall ▸ rfl
      have hdeed : State.Deed Operation.SparesLife 0 (site.state.asked depth).state
          {.sending call.id} s := .enrolled hopen hpending henroll
      have hcarries := dispatch_carries_of_enrolled
        (callbacks_carry Operation.sparesLife_areTame.indirect hcol depth) hopen hclock hcall
        henroll
      have hposture : s.posture = (site.state.asked depth).state.posture :=
        State.posture_of_enroll henroll
      obtain ⟨hsuffix, -⟩ := h.complete_of_carries hcol (.dispatch msg expiry)
        { site.state with state := s } hposture
        ((State.Deeds.of_deed hdeed).allPending h.ordered.pending)
        (hcarries.mono fun _ _ _ hi => ⟨hi, trivial⟩)
      rw [hjournal, ← hcall] at hsuffix
      exact .registered (hid ▸ hfree) hsuffix

/-- A response to a call that waits claims it first of all, and comes to an end. -/
theorem IsOrdered.responds (h : env.IsOrdered depth site)
    (hcol : env.collaborators.AskOnly Operation.SparesLife) {id : CallId} {call : Call}
    (hfind : site.state.state.registry.find? id = some call) (response : Response) :
    .claimed .response call.marked :: .asked depth site.state.state.moment ::
        site.state.state.journal <:+
      (env.complete depth (.perform (.respond id response)) site).2.state.state.journal ∧
    (env.complete depth (.perform (.respond id response)) site).1 ≠ .unmatched := by
  have hpending := h.ordered.pending call (List.mem_of_find?_eq_some hfind)
  cases hcollect : (site.state.asked depth).state.collect .response id with
  | mk result s =>
    cases result with
    | none =>
      have hnone : (site.state.asked depth).state.registry.claim? id = none :=
        State.claim?_of_collect hcollect
      have hsome : ((site.state.asked depth).state.registry.claim? id).isSome = true :=
        Registry.claim?_of_pending hfind hpending
      rw [hnone] at hsome
      cases hsome
    | some claimed =>
      obtain ⟨t, hclaim, hquiet⟩ := State.collect_eq_some hcollect
      obtain ⟨hregistry, -, hjournal, -⟩ := State.claim_eq_some hclaim
      obtain ⟨waiting, hwaiting, -, rfl, -⟩ := Registry.claim?_eq_some hregistry
      -- What has been claimed is the call that waited, marked.
      obtain rfl := Option.some.inj (hfind.symm.trans hwaiting)
      have hdeed : State.Deed Operation.SparesLife 0 (site.state.asked depth).state
          {.claimed .response call.marked} s.release := .collected hcollect
      have hposture : s.release.posture = (site.state.asked depth).state.posture :=
        (State.posture_release s).trans (State.posture_of_collect hcollect)
      obtain ⟨hsuffix, houtcome⟩ := h.complete_of_carries hcol (.respond id response)
        { site.state with state := s.release } hposture
        ((State.Deeds.of_deed hdeed).allPending h.ordered.pending)
        (respond_carries_of_collected
          (callbacks_carry Operation.sparesLife_areTame.indirect hcol depth) hcollect response)
      refine ⟨List.IsSuffix.trans ?_ (s.release_journal_suffix.trans hsuffix), houtcome⟩
      rw [hquiet.aside.journal, hjournal]
      exact List.suffix_refl _

/-! ## What is kept to -/

/-- From the return of a stop at `base` on the engine takes no calls and registers none.  Left to
itself it does nothing, and while time passes it does nothing.  Responses still claim the calls that
wait, and are dealt with as at an engine that is alive, unless somebody else looks at its life. -/
structure LiesStill (env : Environment σ) (depth : Nat) (base site : Site (Host σ)) : Prop where
  closed : site.state.state.acceptsCalls = false
  registersNone : base.state.state.RegistersNone site.state.state
  settle : (env.settle depth site).state = site.state
  elapse : ∀ duration, (env.complete depth (.perform (.elapse duration)) site).2.state =
    Host.answered depth
      { site.state.asked depth with
        state :=
          { (site.state.asked depth).state with
            time := site.state.state.time + min duration longestPause } }
  claims : ∀ id response call, site.state.state.registry.find? id = some call →
    .claimed .response call.marked :: .asked depth site.state.state.moment ::
        site.state.state.journal <:+
      (env.complete depth (.perform (.respond id response)) site).2.state.state.journal ∧
    (env.complete depth (.perform (.respond id response)) site).1 ≠ .unmatched
  alike : env.collaborators.AskOnly Operation.OverlooksLife → ∀ id response alive,
    site.state.Alike alive →
      (env.run depth (.perform (.respond id response)) site.state).Matches Host.Alike
        (env.run depth (.perform (.respond id response)) alive)

/-- What is kept to at a site between operations. -/
structure IsGated (env : Environment σ) (depth : Nat) (site : Site (Host σ)) : Prop where
  single : site.state.state.workers.length ≤ 1
  running : site.state.state.status = .running →
    ∃ w, site.state.state.workers = [w] ∧ site.state.state.worker = some w.number
  registers_iff : ∀ msg expiry now, site.state.state.clock.read = .ok now →
    (env.Registers depth site msg expiry now ↔
      site.state.state.status = .created ∨ site.state.state.status = .running)
  refuses : ∀ msg expiry, site.state.state.status ≠ .created →
    site.state.state.status ≠ .running →
      env.complete depth (.perform (.dispatch msg expiry)) site =
        (.ok (.error .notRunning),
          { site with state := (site.state.asked depth).answered depth })
  stopped : env.StopReturns depth site → ∀ later,
    env.Leads Operation.SparesStart depth (env.complete depth (.perform .stop) site).2 later →
      env.LiesStill depth (env.complete depth (.perform .stop) site).2 later

theorem liesStill_of_dormant (hcol : env.collaborators.AskOnly Operation.SparesLife)
    (hsite : site.IsDormant) (h : env.Leads Operation.SparesStart depth site site') :
    env.LiesStill depth site site' := by
  obtain ⟨hdormant, hnone⟩ :=
    h.dormant (hcol.mono fun _ hop => Operation.SparesLife.sparesStart hop) hsite
  exact
    { closed := hdormant.dormant.closed
      registersNone := hnone
      settle := hdormant.settle_state env.rounds
      elapse := elapse_state_of_dormant hdormant
      claims := fun _ response _ hfind =>
        (isOrdered_of_dormant hdormant).responds hcol hfind response
      alike := fun hoverlook id response alive halive => by
        have hp : (Program.perform (.respond id response) : Program σ _).AsksOnly
            Operation.OverlooksLife := ⟨trivial, fun _ => trivial⟩
        exact run_overlooks hoverlook depth hp _ alive halive }

/-- If operations come one after another, at most one worker lives however often the engine is
started, a dispatch comes to the registration of its call if and only if the engine has not been
started yet or is running with its worker alive, and from the return of a stop on the engine lies
still until somebody starts it. -/
theorem Proceeds.gated (hcol : env.collaborators.AskOnly Operation.SparesLife)
    (h : env.Proceeds depth site) : env.IsGated depth site := by
  have hordered := h.isOrdered hcol
  refine ⟨hordered.ordered.single, fun hrunning => ?_, fun msg expiry now hclock => ⟨?_, ?_⟩,
    fun msg expiry hcreated hrunning => ?_, fun hreturns later hleads => ?_⟩
  · exact hordered.ordered.running hrunning
  · intro hregisters
    by_contra hclosed
    rw [← State.acceptsCalls_iff, Bool.not_eq_true] at hclosed
    cases hregisters with
    | registered _ h =>
      rw [complete_dispatch_of_closed hclosed] at h
      -- A closed engine notes two entries, and a registration would take more.
      have hlength := h.length_le
      simp only [Host.answered, Host.asked, State.note, List.length_cons] at hlength
      omega
    | taken _ h =>
      rw [complete_dispatch_of_closed hclosed] at h
      cases h
  · intro hstatus
    exact hordered.registers hcol ((State.acceptsCalls_iff _).mpr hstatus) hclock msg expiry
  · refine complete_dispatch_of_closed ?_ msg expiry
    rw [← Bool.not_eq_true, State.acceptsCalls_iff]
    exact not_or.mpr ⟨hcreated, hrunning⟩
  · exact liesStill_of_dormant hcol (hordered.stop_dormant hcol hreturns) hleads

end Environment

/-! ## A stop while a handler lingers -/

/-- Fault handlers let some time pass. -/
def Environment.lingering : Environment Unit where
  collaborators :=
    { Collaborators.idle with
      compensate := fun _ _ msg => .ask (.elapse 3) fun _ => .done (msg, .returned ()) }
  rounds := 64

/-- The call "a" is due when the sweeper ticks, and its handler lingers; "b" waits. -/
def Program.linger : Program Unit Unit :=
  .ask (.dispatch (.plain "a") { term := .perCall 5 }) fun _ =>
    .ask (.dispatch (.plain "b") {}) fun _ =>
    .ask (.advanceClock 10) fun _ =>
    .ask (.elapse 1001) fun _ => .done ()

/-- The engine has been started twice, and its worker is at a sweep. -/
def Site.lingering : Site (Host Unit) :=
  let started := (Environment.lingering.complete 1 (.perform .start)
    { state := ⟨State.init {} {} 0, ()⟩ }).2
  (Environment.lingering.complete 1 .linger
    (Environment.lingering.complete 1 (.perform .start) started).2).2

/-- It has been stopped. -/
def Site.closed : Site (Host Unit) :=
  (Environment.lingering.complete 1 (.perform .stop) Site.lingering).2

/-- It has been started again. -/
def Site.reopened : Site (Host Unit) :=
  (Environment.lingering.complete 1 (.perform .start) Site.closed).2

theorem lingering_askOnly : Environment.lingering.collaborators.AskOnly Operation.SparesLife :=
  { idle_askOnly Operation.SparesLife with
    compensate := fun _ _ _ => ⟨trivial, fun _ => trivial⟩ }

theorem lingering_proceeds : Environment.lingering.Proceeds 1 Site.lingering :=
  .asked ⟨trivial, fun _ => ⟨trivial, fun _ => ⟨trivial, fun _ => ⟨trivial, fun _ => trivial⟩⟩⟩⟩
    (.started (.started (.fresh {} {} 0 ())))

theorem lingering_stopReturns : Environment.lingering.StopReturns 1 Site.lingering := by
  have hworker : Site.lingering.state.state.worker = some 0 := by decide +kernel
  intro number hnumber
  obtain rfl := Option.some.inj (hworker.symm.trans hnumber)
  decide +kernel

/-- The stop waits for the handler.  Then the engine lies still, with "b" in its registry, and once
it has been started again it registers calls with one worker. -/
theorem gated_lingering :
    Site.lingering.suspended.length = 1 ∧
      Environment.lingering.LiesStill 1 Site.closed
        (Environment.lingering.complete 1 (.perform (.elapse 5000)) Site.closed).2 ∧
      Site.closed.state.state.registry.contains ⟨"b"⟩ = true ∧
      Site.reopened.state.state.workers.length = 1 ∧
      Environment.lingering.Registers 1 Site.reopened (.plain "c") {} 10 := by
  have hgated := Environment.Proceeds.gated lingering_askOnly lingering_proceeds
  have hreopened : Environment.lingering.IsGated 1 Site.reopened :=
    Environment.Proceeds.gated lingering_askOnly
      (.started (.stopped lingering_proceeds lingering_stopReturns))
  have hclock : Site.reopened.state.state.clock.read = .ok 10 := by decide +kernel
  have hstatus : Site.reopened.state.state.status = .running := by decide +kernel
  refine ⟨by decide +kernel, ?_, by decide +kernel, by decide +kernel, ?_⟩
  · exact hgated.stopped lingering_stopReturns _ (.completed ⟨trivial, fun _ => trivial⟩ .refl)
  · exact (hreopened.registers_iff (.plain "c") {} 10 hclock).mpr (.inr hstatus)

end Correlator
