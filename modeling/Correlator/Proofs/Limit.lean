import Correlator.Proofs.Sweeping
import Correlator.Proofs.Twins

/-!
# The limit of calls in flight is advisory

A call beyond the limit is reported and let through.  So the limit should make no difference but in
what is reported, and in what peers are told about the limit itself.  That is about two engines and
whole runs of them: if what a dispatch is told by `State.acquire` ever got into what it does, the
two runs would part.

The two engines are built with settings that differ in the limit alone, and are driven by the same
programs with the same collaborators.  Nobody looks at the limit, be it in the settings or in the
state of admission, and nobody counts a call in himself, since he would be told whether it fits.
Only between programs may the driver do so, as long as he goes on alike.

## Main definitions

* `State.SameButLimit` : what the limit may make a difference to.
* `Operation.OverlooksLimit` : the operation does not tell the limit.
* `Environment.Twins` : two runs that differ in the limit.

## Main results

* `State.SameButLimit.congruent` : the limit makes no difference to what an engine does.
* `Environment.Twins.limit_advisory` : at every point of two such runs every operation gives the
  same result.
-/

namespace Correlator

variable {σ α : Type} {s s' s'' : State}

/-! ## Forgetting the limit -/

theorem Admission.release?_setLimit (a : Admission) (limit : UInt32) :
    ({ a with limit } : Admission).release? = a.release?.map ({ · with limit }) := by
  unfold release?
  dsimp only
  split <;> rfl

/-- The state of admission with no word about the limit. -/
def Occupancy.unlimited (o : Occupancy) : Occupancy := { o with limit := 0 }

def Moment.unlimited (m : Moment) : Moment :=
  { m with admission := { m.admission with limit := 0 } }

/-- An entry with no word about the limit. -/
def Entry.unlimited : Entry → Entry
  | .listed now m => .listed now m.unlimited
  | .published state => .published state.unlimited
  | .asked level m => .asked level m.unlimited
  | .answered level m => .answered level m.unlimited
  | .entered level callback m => .entered level callback m.unlimited
  | .left level callback m => .left level callback m.unlimited
  | e => e

/-- The notice says that the limit has been passed. -/
def Notice.isOverflow : Notice → Bool
  | .admissionOverflow .. => true
  | _ => false

/-- The states differ at most in the limit where it is named, in how often it has been passed, and
in the warnings about that. In journals and notices the limit is named too, so these are compared
without it. -/
inductive State.SameButLimit (s : State) : State → Prop
  | mk {setting limit : UInt32} {overflow : UInt64} {notices : List Notice} {journal : Journal}
      (hnotices : notices.filter (!·.isOverflow) = s.notices.filter (!·.isOverflow))
      (hjournal : journal.map Entry.unlimited = s.journal.map Entry.unlimited) :
      SameButLimit s
        { s with
          config := { s.config with admissionLimit := setting }
          admission := { s.admission with limit }
          metrics := { s.metrics with admissionOverflow := overflow }
          notices, journal }

namespace State.SameButLimit

theorem refl (s : State) : s.SameButLimit s := .mk rfl rfl

theorem symm (h : s.SameButLimit s') : s'.SameButLimit s := by
  cases h with
  | mk hnotices hjournal => exact .mk hnotices.symm hjournal.symm

theorem trans (h : s.SameButLimit s') (h' : s'.SameButLimit s'') : s.SameButLimit s'' := by
  cases h with
  | mk hnotices hjournal =>
    cases h' with
    | mk hnotices' hjournal' =>
      exact .mk (hnotices'.trans hnotices) (hjournal'.trans hjournal)

/-! ### Steps of an engine -/

theorem note (h : s.SameButLimit s') {e e' : Entry} (he : e'.unlimited = e.unlimited) :
    (s.note e).SameButLimit (s'.note e') := by
  cases h with
  | mk hnotices hjournal =>
    refine .mk hnotices ?_
    rw [List.map_cons, hjournal, he]
    rfl

theorem notify (h : s.SameButLimit s') (n : Notice) :
    (s.notify n).SameButLimit (s'.notify n) := by
  cases h with
  | mk hnotices hjournal =>
    refine .mk ?_ hjournal
    change (n :: _).filter _ = (n :: s.notices).filter _
    rw [List.filter_cons, List.filter_cons, hnotices]

theorem publish (h : s.SameButLimit s') {admission admission' : Admission}
    (hadmission : admission' = { admission with limit := admission'.limit }) :
    (s.publish admission).SameButLimit (s'.publish admission') := by
  cases h with
  | mk hnotices hjournal =>
    rw [hadmission]
    refine .mk hnotices ?_
    rw [List.map_cons, hjournal]
    rfl

/-- A call that passes the limit is reported, and nothing else: up to that, counting in is
publishing the count. -/
theorem acquire_publish (s : State) :
    (s.publish s.admission.acquire).SameButLimit s.acquire.2 := by
  unfold State.acquire
  dsimp only
  split
  · exact .mk (List.filter_cons_of_neg (by simp [Notice.isOverflow])) rfl
  · exact .refl _

theorem acquire (h : s.SameButLimit s') : s.acquire.2.SameButLimit s'.acquire.2 := by
  have hpublished : (s.publish s.admission.acquire).SameButLimit
      (s'.publish s'.admission.acquire) := by
    refine h.publish ?_
    cases h
    rfl
  exact (acquire_publish s).symm.trans (hpublished.trans (acquire_publish s'))

theorem admission (h : s.SameButLimit s') :
    s'.admission = { s.admission with limit := s'.admission.limit } := by
  cases h
  rfl

theorem release (h : s.SameButLimit s') : s.release.SameButLimit s'.release := by
  have hreleased : s'.admission.release? =
      s.admission.release?.map ({ · with limit := s'.admission.limit }) :=
    (congrArg Admission.release? h.admission).trans (Admission.release?_setLimit _ _)
  have hkey : s'.admission.key = s.admission.key := congrArg (·.key) h.admission
  unfold State.release
  rw [hreleased, hkey]
  cases s.admission.release? with
  | none => exact h.notify _
  | some admission => exact h.publish rfl

theorem register (h : s.SameButLimit s') (call : Call) :
    (s.register call).1 = (s'.register call).1 ∧
      (s.register call).2.SameButLimit (s'.register call).2 := by
  have hregistry : s'.registry = s.registry := by
    cases h
    rfl
  unfold State.register
  rw [hregistry]
  cases s.registry.register? call with
  | none => exact ⟨rfl, h.notify _⟩
  | some registry =>
    cases h with
    | mk hnotices hjournal =>
      exact ⟨rfl, .mk hnotices (congrArg (Entry.unlimited (.registered call) :: ·) hjournal)⟩

/-- Whether a call fits under the limit is told to whoever counts it in, but not to whoever
dispatches it. This is where an enforced limit would show. -/
theorem enroll (h : s.SameButLimit s') (call : Call) :
    (s.enroll call).1 = (s'.enroll call).1 ∧
      (s.enroll call).2.SameButLimit (s'.enroll call).2 := by
  obtain ⟨hresult, hbooked⟩ := h.acquire.register call
  exact State.enroll_congruent hresult hbooked release
    fun | .mk hnotices hjournal => .mk hnotices hjournal

theorem claim (h : s.SameButLimit s') (claimer : Claimer) (id : CallId) :
    (s.claim claimer id).1 = (s'.claim claimer id).1 ∧
      (s.claim claimer id).2.SameButLimit (s'.claim claimer id).2 := by
  cases h with
  | mk hnotices hjournal =>
    unfold State.claim
    dsimp only
    cases s.registry.claim? id with
    | none => exact ⟨rfl, .mk hnotices hjournal⟩
    | some result =>
      refine ⟨rfl, .mk hnotices ?_⟩
      exact congrArg (Entry.unlimited (.claimed claimer result.1) :: ·) hjournal

theorem collect (h : s.SameButLimit s') (claimer : Claimer) (id : CallId) :
    (s.collect claimer id).1 = (s'.collect claimer id).1 ∧
      (s.collect claimer id).2.SameButLimit (s'.collect claimer id).2 := by
  cases h with
  | mk hnotices hjournal =>
    unfold State.collect
    dsimp only
    split
    · exact ⟨rfl, .mk hnotices hjournal⟩
    · rename_i call registry hcollect
      refine ⟨rfl, .mk hnotices ?_⟩
      exact congrArg (Entry.unlimited (.claimed claimer call) :: ·) hjournal

theorem claimExpired (h : s.SameButLimit s') (now : Millis) (place : Nat) (id : CallId) :
    (s.claimExpired now place id).1 = (s'.claimExpired now place id).1 ∧
      (s.claimExpired now place id).2.SameButLimit (s'.claimExpired now place id).2 := by
  obtain ⟨hresult, hclaimed⟩ := h.claim (.sweep now place) id
  exact State.claimExpired_congruent hresult hclaimed
    fun | .mk hnotices hjournal => .mk hnotices hjournal

theorem expireCall (h : s.SameButLimit s') : s.expireCall.SameButLimit s'.expireCall := by
  cases h with
  | mk hnotices hjournal => exact release (.mk hnotices hjournal)

theorem moment (h : s.SameButLimit s') : s'.moment.unlimited = s.moment.unlimited := by
  cases h
  rfl

/-- The journals say the same, so they are equally long, and the places that sweeps and clean-ups
remember are the same. -/
theorem place (h : s.SameButLimit s') : s'.place = s.place := by
  cases h with
  | mk _ hjournal =>
    have hlength := congrArg List.length hjournal
    rw [List.length_map, List.length_map] at hlength
    exact hlength

/-- The limit makes no difference to the steps of an engine. -/
theorem congruent {allowed : Operation → Prop} : State.Congruent allowed SameButLimit where
  stroke hf hs := by
    cases hf with
    | note e => exact ⟨rfl, hs.note rfl⟩
    | asked level => exact ⟨rfl, hs.note (congrArg (Entry.asked level) hs.moment)⟩
    | answered level => exact ⟨rfl, hs.note (congrArg (Entry.answered level) hs.moment)⟩
    | entered level callback =>
      exact ⟨rfl, hs.note (congrArg (Entry.entered level callback) hs.moment)⟩
    | left level callback =>
      exact ⟨rfl, hs.note (congrArg (Entry.left level callback) hs.moment)⟩
    | notify n => exact ⟨rfl, hs.notify n⟩
    | enroll call => exact hs.enroll call
    | release => exact ⟨rfl, hs.release⟩
    | collect id => exact hs.collect _ id
    -- It writes an entry and a notice, and neither of them names the limit.
    | refuseAnswer guard answer =>
      cases hs with
      | mk hnotices hjournal =>
        refine ⟨rfl, .mk ?_ (congrArg (Entry.unlimited (.answerRefused answer) :: ·) hjournal)⟩
        exact congrArg (Notice.duplicateResponse guard.requestId answer.id :: ·) hnotices
    | _ =>
      cases hs with
      | mk hnotices hjournal => exact ⟨rfl, .mk hnotices hjournal⟩
  lock {s s'} now hs := by
    have hbegun : SameButLimit { s with sweeping := true } { s' with sweeping := true } := by
      cases hs with
      | mk hnotices hjournal => exact .mk hnotices hjournal
    have hlisted : (Entry.listed now s'.moment).unlimited = (Entry.listed now s.moment).unlimited :=
      congrArg (Entry.listed now) hs.moment
    exact hbegun.note hlisted
  unlock hs := by
    cases hs with
    | mk hnotices hjournal => exact .mk hnotices hjournal
  registry := fun | .mk _ _ => rfl
  sweeping := fun | .mk _ _ => rfl
  clock := fun | .mk _ _ => rfl
  defaultTimeout := fun | .mk _ _ => rfl
  cleanUp hs ht id := by
    rw [hs.place]
    exact ht.claim _ id
  claimExpired hs ht now id := by
    rw [hs.place]
    exact ht.claimExpired now _ id
  expireCall := expireCall
  accepts _ := fun | .mk _ _ => rfl

end State.SameButLimit

/-- And so do the engines, whose collaborators remember the same. -/
def Host.SameButLimit (host host' : Host σ) : Prop :=
  host.state.SameButLimit host'.state ∧ host'.memory = host.memory

/-! ## Operations -/

/-- The operation tells what the limit is, or whether a call fits under it. -/
def Operation.TellsLimit : Operation → Prop
  | .config | .admission | .acquire => True
  | _ => False

/-- The operation goes the same way whatever the limit. -/
def Operation.OverlooksLimit (op : Operation) : Prop := ¬ op.TellsLimit

namespace State.SameButLimit

theorem start (h : s.SameButLimit s') : s.start.SameButLimit s'.start := by
  cases h with
  | mk hnotices hjournal =>
    unfold State.start
    dsimp only
    split <;> exact .mk hnotices hjournal

theorem beginStop (h : s.SameButLimit s') :
    s.beginStop.1 = s'.beginStop.1 ∧ s.beginStop.2.SameButLimit s'.beginStop.2 := by
  have hlives : s'.worker.filter s'.hasWorker = s.worker.filter s.hasWorker := by
    cases h
    rfl
  unfold State.beginStop
  rw [hlives]
  cases h with
  | mk hnotices hjournal => split <;> exact ⟨rfl, .mk hnotices hjournal⟩

/-- A worker takes a chore or refuses it whatever the limit. -/
theorem submit (h : s.SameButLimit s') (number : Nat) (t : Chore) :
    (s.submit number t).1 = (s'.submit number t).1 ∧
      (s.submit number t).2.SameButLimit (s'.submit number t).2 := by
  cases h with
  | mk hnotices hjournal =>
    unfold State.submit
    dsimp only
    split <;> exact ⟨rfl, .mk hnotices hjournal⟩

theorem compose (h : s.SameButLimit s') (envelope : Envelope) (inbound : Bool) :
    (s.compose envelope inbound).1 = (s'.compose envelope inbound).1 ∧
      (s.compose envelope inbound).2.SameButLimit (s'.compose envelope inbound).2 := by
  cases h with
  | mk hnotices hjournal => cases inbound <;> exact ⟨rfl, .mk hnotices hjournal⟩

/-- What calls nobody leads to states that differ in the limit alone. -/
theorem overlooked : Overlooked Operation.OverlooksLimit SameButLimit where
  stroke hop hf hs := by
    cases hf with
    | admission | config | acquire => exact absurd trivial hop
    | register call => exact hs.register call
    | collect id => exact hs.collect _ id
    | claim id => exact hs.claim _ id
    | release => exact ⟨rfl, hs.release⟩
    | submit number t => exact hs.submit number t
    | start => exact ⟨rfl, hs.start⟩
    | beginStop => exact hs.beginStop
    | compose envelope inbound => exact hs.compose envelope inbound
    -- The others are no affair of admission.
    | _ =>
      cases hs with
      | mk hnotices hjournal => exact ⟨rfl, .mk hnotices hjournal⟩
  clock := fun | .mk _ _ => rfl
  sessions := fun | .mk _ _ => rfl
  sessionLifetime := fun | .mk _ _ => rfl
  time := fun | .mk _ _ => rfl
  life _ _ := fun | .mk _ _ => ⟨rfl, rfl, rfl⟩

theorem attended : Attended SameButLimit where
  workers := fun | .mk _ _ => rfl
  time := fun | .mk _ _ => rfl
  stopsAside := fun | .mk _ _ => rfl
  setWorkers _ := fun | .mk hnotices hjournal => .mk hnotices hjournal
  setTime _ := fun | .mk hnotices hjournal => .mk hnotices hjournal

end State.SameButLimit

/-! ## Two runs -/

/-- The sites of two runs that differ in the limit and are driven alike.  Between programs the
driver may also ask for what tells the limit. -/
inductive Environment.Twins (env : Environment σ) (depth : Nat) :
    Site (Host σ) → Site (Host σ) → Prop
  /-- Two new engines. -/
  | fresh (config : Config) (limit : UInt32) (clock : Clock) (nextId : Nat) (memory : σ) :
      Twins env depth { state := ⟨.init config clock nextId, memory⟩ }
        { state := ⟨.init { config with admissionLimit := limit } clock nextId, memory⟩ }
  /-- The same program has been seen through. -/
  | completed {site site' : Site (Host σ)} {α : Type} {p : Program σ α}
      (hp : p.AsksOnly Operation.OverlooksLimit) (h : Twins env depth site site') :
      Twins env depth (env.complete depth p site).2 (env.complete depth p site').2
  /-- The driver has been told about the limit. -/
  | told {site site' : Site (Host σ)} {op : Operation} (hop : op.TellsLimit)
      (h : Twins env depth site site') :
      Twins env depth (env.complete depth (.perform op) site).2
        (env.complete depth (.perform op) site').2
  /-- The workers have gone on as far as they could. -/
  | settled {site site' : Site (Host σ)} (h : Twins env depth site site') :
      Twins env depth (env.settle depth site) (env.settle depth site')

namespace Journal

theorem callbacks_unlimited (j : Journal) :
    callbacks (j.map Entry.unlimited) = j.callbacks := by
  unfold callbacks
  rw [List.filterMap_map]
  refine congrArg (List.filterMap · j) (funext fun e => ?_)
  cases e <;> rfl

theorem inFlight_unlimited (j : Journal) :
    (publications (j.map Entry.unlimited)).map (·.inFlight) = j.publications.map (·.inFlight) := by
  unfold publications
  rw [List.filterMap_map, List.map_filterMap, List.map_filterMap]
  refine congrArg (List.filterMap · j) (funext fun e => ?_)
  cases e <;> rfl

end Journal

namespace State.SameButLimit

theorem registry (h : s.SameButLimit s') : s'.registry = s.registry := by
  cases h
  rfl

theorem inFlight (h : s.SameButLimit s') : s'.admission.inFlight = s.admission.inFlight := by
  rw [h.admission]

theorem journal (h : s.SameButLimit s') :
    s'.journal.map Entry.unlimited = s.journal.map Entry.unlimited := by
  cases h with
  | mk _ hjournal => exact hjournal

/-- The collaborators have been called alike. -/
theorem callbacks (h : s.SameButLimit s') : s'.journal.callbacks = s.journal.callbacks := by
  rw [← s'.journal.callbacks_unlimited, h.journal, Journal.callbacks_unlimited]

/-- Peers have been told of the same counts. -/
theorem replicated (h : s.SameButLimit s') :
    s'.journal.publications.map (·.inFlight) = s.journal.publications.map (·.inFlight) := by
  rw [← s'.journal.inFlight_unlimited, h.journal, Journal.inFlight_unlimited]

end State.SameButLimit

namespace Environment

variable {env : Environment σ} {depth : Nat} {site site' : Site (Host σ)}

theorem congruence_limit : Run.Congruence Operation.OverlooksLimit State.SameButLimit
    (Run.Match (Host.SameButLimit (σ := σ))) :=
  State.SameButLimit.congruent.congruence Iff.rfl
    (State.SameButLimit.overlooked.perform_overlooks Iff.rfl)

theorem keepsSweeps_limit : (Run.Match (Host.SameButLimit (σ := σ))).KeepsSweeps :=
  State.SameButLimit.congruent.keepsSweeps Iff.rfl congruence_limit

theorem sweepers_overlook_limit (hcol : env.collaborators.AskOnly Operation.OverlooksLimit)
    (depth : Nat) : (sweepers (env.callbacks depth)).Overlooks Host.SameButLimit :=
  State.SameButLimit.attended.sweepers_overlook State.SameButLimit.overlooked Iff.rfl
    congruence_limit keepsSweeps_limit id hcol depth

/-- Being told about the limit is no difference to the engine either; only the answer may differ,
and it goes to the driver. -/
theorem told_matches {op : Operation} (hop : op.TellsLimit)
    (h : site.Matches Host.SameButLimit site') :
    (env.complete depth (.perform op) site).2.Matches Host.SameButLimit
      (env.complete depth (.perform op) site').2 := by
  have hasked : (site.state.asked depth).state.SameButLimit (site'.state.asked depth).state :=
    h.state.1.note (congrArg (Entry.asked depth) h.state.1.moment)
  have hanswered {later later' : Host σ} (hlater : later.SameButLimit later') :
      (later.answered depth).SameButLimit (later'.answered depth) :=
    ⟨hlater.1.note (congrArg (Entry.answered depth) hlater.1.moment), hlater.2⟩
  cases op with
  | config | admission =>
    rw [complete_perform_of_ended rfl, complete_perform_of_ended rfl]
    exact h.setState (hanswered ⟨hasked, h.state.2⟩)
  | acquire =>
    rw [complete_perform_of_ended rfl, complete_perform_of_ended rfl]
    exact h.setState (hanswered ⟨hasked.acquire, h.state.2⟩)
  | _ => exact hop.elim

theorem Twins.matches (hcol : env.collaborators.AskOnly Operation.OverlooksLimit)
    (h : env.Twins depth site site') : site.Matches Host.SameButLimit site' := by
  have hcrew := sweepers_overlook_limit hcol depth
  induction h with
  | fresh config limit clock nextId memory =>
    exact ⟨⟨.mk rfl rfl, rfl⟩, rfl, .nil, rfl, rfl⟩
  | completed hp _ ih =>
    have hrun := congruence_limit.run_congruent keepsSweeps_limit hcol depth hp
    exact (hcrew.complete_matches env.rounds (hrun _ _ ih.state) ih).2
  | told hop _ ih => exact told_matches hop ih
  | settled _ ih => exact hcrew.settle_matches env.rounds ih

/-- What it means that the limit is advisory, for two runs that differ in it and have arrived
somewhere. -/
structure LimitAdvisory (env : Environment σ) (depth : Nat) (site site' : Site (Host σ)) :
    Prop where
  /-- Whatever is asked for from here on has the same result. -/
  result : ∀ {α : Type} {p : Program σ α}, p.AsksOnly Operation.OverlooksLimit →
    (env.complete depth p site').1 = (env.complete depth p site).1
  /-- The same calls are pending, and the statistics are the same. -/
  registry : site'.state.state.registry = site.state.state.registry
  inFlight : site'.state.state.admission.inFlight = site.state.state.admission.inFlight
  /-- Peers have been told of the same counts, in the same order. -/
  replicated : site'.state.state.journal.publications.map (·.inFlight) =
    site.state.state.journal.publications.map (·.inFlight)
  /-- The collaborators have been called with the same messages, in the same order. -/
  callbacks : site'.state.state.journal.callbacks = site.state.state.journal.callbacks
  memory : site'.state.memory = site.state.memory
  /-- Nothing else differs but the limit, the count of overflows and the warnings about them. -/
  state : site.state.state.SameButLimit site'.state.state

/-- At every point of two runs that differ in the limit and are driven alike, the limit makes no
difference. -/
theorem Twins.limit_advisory (hcol : env.collaborators.AskOnly Operation.OverlooksLimit)
    (h : env.Twins depth site site') : env.LimitAdvisory depth site site' := by
  have hsites := h.matches hcol
  obtain ⟨hstate, hmemory⟩ := hsites.state
  constructor
  case result =>
    intro α p hp
    have hrun := congruence_limit.run_congruent keepsSweeps_limit hcol depth hp
    exact ((sweepers_overlook_limit hcol depth).complete_matches env.rounds (hrun _ _ hsites.state)
      hsites).1
  case registry => exact hstate.registry
  case inFlight => exact hstate.inFlight
  case replicated => exact hstate.replicated
  case callbacks => exact hstate.callbacks
  case memory => exact hmemory
  case state => exact hstate

end Environment

/-! ## A run beyond the limit -/

/-- Three calls are dispatched, one of them while the transport has the first one. -/
def Program.sendThree : Program Bool Unit :=
  .ask (.dispatch (.plain "a") {}) fun _ => .ask (.dispatch (.plain "b") {}) fun _ =>
    .ask (.dispatch (.plain "c") {}) fun _ => .done ()

/-- The limit is a thousand calls. -/
def Site.withinLimit : Site (Host Bool) :=
  (Environment.resending.complete 2 .sendThree { state := ⟨State.init {} {} 0, false⟩ }).2

/-- The limit is one call. -/
def Site.beyondLimit : Site (Host Bool) :=
  (Environment.resending.complete 2 .sendThree
    { state := ⟨State.init { admissionLimit := 1 } {} 0, false⟩ }).2

theorem resending_overlooksLimit :
    Environment.resending.collaborators.AskOnly Operation.OverlooksLimit where
  transmit wire failed := by
    cases failed with
    | true => exact trivial
    | false => exact ⟨id, fun _ => ⟨id, fun _ => trivial⟩⟩
  writeBack _ := trivial
  startFlow _ := trivial
  continueFlow _ _ := trivial
  compensate _ _ _ := ⟨id, fun _ => ⟨id, fun _ => trivial⟩⟩

theorem sendThree_twins :
    Environment.resending.Twins 2 Site.withinLimit Site.beyondLimit :=
  .completed ⟨id, fun _ => ⟨id, fun _ => ⟨id, fun _ => trivial⟩⟩⟩ (.fresh {} 1 {} 0 false)

/-- One of the two engines has been beyond its limit, and reported it; for the rest they are the
same. -/
theorem limit_advisory_sendThree :
    Site.withinLimit.state.state.metrics.admissionOverflow = 0 ∧
      Site.beyondLimit.state.state.metrics.admissionOverflow ≠ 0 ∧
      Site.beyondLimit.state.state.registry = Site.withinLimit.state.state.registry ∧
      Site.beyondLimit.state.state.journal.callbacks =
        Site.withinLimit.state.state.journal.callbacks ∧
      (Environment.resending.complete 2 (.perform .sweep) Site.beyondLimit).1 =
        (Environment.resending.complete 2 (.perform .sweep) Site.withinLimit).1 := by
  have hadvisory := Environment.Twins.limit_advisory resending_overlooksLimit sendThree_twins
  refine ⟨by decide +kernel, by decide +kernel, hadvisory.registry, hadvisory.callbacks, ?_⟩
  exact hadvisory.result ⟨id, fun _ => trivial⟩

end Correlator
