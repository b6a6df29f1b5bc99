import Correlator.Proofs.Reach
import Mathlib.Data.List.Nodup

/-!
# Each call is completed once

Responses, sweeps and clean-ups after failed sends reach the same registry on different ways, and
any of them may come in while another one waits for a collaborator.  What keeps them apart is that
the registry agrees with the journal (`Registry.Agrees`): under each id waits the call that the
story of the id has left, and nothing else.  Every step keeps that, whoever takes it, so it does not
matter how operations are nested.

## Main results

* `Registry.Agrees.completesOnce` : what the agreement says about registrations and claims.
* `Environment.Reaches.completes_once` : all runs complete each call once, at every moment that
  anybody gets to see.
-/

namespace Correlator

variable {r r' : Registry} {j : Journal}

/-- Under each id waits the call that has been registered last, if nobody has claimed it. The
journal decides what is in the registry, so what the registry does can be read off the stories of
the ids. -/
structure Registry.Agrees (r : Registry) (j : Journal) : Prop where
  unique : (r.calls.map (·.id)).Nodup
  inTurn : ∀ id, InTurn (j.story id) (r.find? id)

/-- What completing each call once means for a registry, in view of what has happened: of each id
there are registrations and claims in turn, a claim is of the call registered just before, and
whatever waits has been registered and not been claimed since. -/
structure Registry.CompletesOnce (r : Registry) (j : Journal) : Prop where
  /-- The ids in the registry are those whose latest registration nobody has claimed, and what waits
  is what was registered. -/
  waiting : ∀ id call, r.find? id = some call ↔ ∃ older, j.story id = .registered call :: older
  unique : (r.calls.map (·.id)).Nodup
  /-- Whoever claims a call gets what was registered last, up to the mark, and is a response, a
  sweep or a clean-up. -/
  claimed : ∀ id newer claimer call older, j.story id = newer ++ .claimed claimer call :: older →
    claimer ≠ .direct ∧ ∃ own rest, older = .registered own :: rest ∧ call = own.marked
  /-- After a registration its call is claimed at most once, and exactly once before the id is
  registered anew. -/
  registered : ∀ id newer call older, j.story id = newer ++ .registered call :: older →
    newer = [] ∨ ∃ claimer, claimer ≠ .direct ∧
      (newer = [.claimed claimer call.marked] ∨ ∃ next rest,
        newer = rest ++ [.registered next, .claimed claimer call.marked])
  pending : ∀ call ∈ r.calls, call.completion = .pending
  /-- A claim succeeds if and only if the id is there. -/
  claimable : ∀ id, (r.claim? id).isSome = r.contains id

namespace Registry

/-! ## What the agreement says -/

theorem find?_of_mem (hunique : (r.calls.map (·.id)).Nodup) {call : Call} (h : call ∈ r.calls) :
    r.find? call.id = some call := by
  cases hfind : r.find? call.id with
  | none =>
    have := List.find?_eq_none.mp hfind call h
    simp at this
  | some other =>
    have hmem : other ∈ r.calls := List.mem_of_find?_eq_some hfind
    rw [List.inj_on_of_nodup_map hunique hmem h (id_of_find? hfind)]

/-- The registry refuses the ids that it has. -/
theorem unique_of_register (hunique : (r.calls.map (·.id)).Nodup) {call : Call}
    (h : r.register? call = some r') : (r'.calls.map (·.id)).Nodup := by
  obtain ⟨hnew, hcalls⟩ := register?_eq_some h
  rw [hcalls, List.map_append, List.nodup_append]
  refine ⟨hunique, List.nodup_singleton _, ?_⟩
  rintro id hold other hother rfl
  obtain ⟨waiting, hmem, hid⟩ := List.mem_map.mp hold
  have hcontains : r.contains call.id = true := by
    refine List.any_eq_true.mpr ⟨waiting, hmem, decide_eq_true ?_⟩
    exact hid.trans (List.mem_singleton.mp hother)
  rw [hnew] at hcontains
  cases hcontains

theorem exists_due_of_mem_overdue (hunique : (r.calls.map (·.id)).Nodup) {now : Millis}
    {id : CallId} (h : id ∈ r.overdue now) :
    ∃ due, r.find? id = some due ∧ due.isDue now = true := by
  obtain ⟨due, hmem, rfl⟩ := List.mem_map.mp h
  obtain ⟨hmem, hdue⟩ := List.mem_filter.mp hmem
  exact ⟨due, find?_of_mem hunique hmem, hdue⟩

namespace Agrees

theorem find?_eq_some_iff (h : r.Agrees j) {id : CallId} {call : Call} :
    r.find? id = some call ↔ ∃ older, j.story id = .registered call :: older := by
  have hturn := h.inTurn id
  constructor
  · intro hfind
    rw [hfind] at hturn
    exact hturn.eq_registered_cons.2
  · rintro ⟨older, hstory⟩
    rw [hstory] at hturn
    exact hturn.eq_some

theorem pending (h : r.Agrees j) {id : CallId} {call : Call} (hfind : r.find? id = some call) :
    call.completion = .pending := by
  have hturn := h.inTurn id
  rw [hfind] at hturn
  exact hturn.eq_registered_cons.1

theorem claim?_isSome (h : r.Agrees j) (id : CallId) : (r.claim? id).isSome = r.contains id := by
  rw [contains_eq_isSome_find?]
  cases hfind : r.find? id with
  | none => rw [claim?, hfind]; rfl
  | some call => rw [claim?_of_pending hfind (h.pending hfind)]; rfl

theorem completesOnce (h : r.Agrees j) : r.CompletesOnce j where
  waiting _ _ := h.find?_eq_some_iff
  unique := h.unique
  claimed id newer claimer call older hstory := by
    have hturn := h.inTurn id
    rw [hstory] at hturn
    exact hturn.claimed_own
  registered id newer call older hstory := by
    have hturn := h.inTurn id
    rw [hstory] at hturn
    exact hturn.ends
  pending _ hmem := h.pending (find?_of_mem h.unique hmem)
  claimable := h.claim?_isSome

/-! ## What keeps the agreement -/

theorem init : Agrees {} [] := ⟨List.nodup_nil, fun _ => .nothing⟩

/-- Only the calls and their stories matter. -/
theorem of_story {j' : Journal} (h : r.Agrees j) (hcalls : r'.calls = r.calls)
    (hstory : ∀ id, j'.story id = j.story id) : r'.Agrees j' := by
  constructor
  · rw [hcalls]
    exact h.unique
  · intro id
    rw [hstory, find?, hcalls]
    exact h.inTurn id

theorem register (h : r.Agrees j) {call : Call} (hpending : call.completion = .pending)
    (hr : r.register? call = some r') : r'.Agrees (.registered call :: j) := by
  obtain ⟨hnew, hcalls⟩ := register?_eq_some hr
  constructor
  · exact unique_of_register h.unique hr
  · intro id
    rw [find?_register hr, Journal.story_registered]
    by_cases hid : call.id = id
    · subst hid
      rw [if_pos rfl, if_pos rfl]
      have hturn := h.inTurn call.id
      rw [contains_eq_isSome_find?, Option.isSome_eq_false_iff, Option.isNone_iff_eq_none] at hnew
      rw [hnew] at hturn
      exact .registered hpending hturn
    · rw [if_neg (Ne.symm hid), if_neg hid]
      exact h.inTurn id

theorem claim (h : r.Agrees j) {claimer : Claimer} (hengine : claimer ≠ .direct) {id : CallId}
    {call : Call} (hr : r.claim? id = some (call, r')) :
    r'.Agrees (.claimed claimer call :: j) := by
  obtain ⟨waiting, hfind, -, rfl, hcalls⟩ := claim?_eq_some hr
  constructor
  · rw [hcalls]
    exact h.unique.sublist (List.filter_sublist.map _)
  · intro other
    have hid : waiting.id = id := id_of_find? hfind
    change waiting.marked.id = id at hid
    rw [find?_claim hr, Journal.story_claimed, hid]
    by_cases hother : id = other
    · subst hother
      rw [if_pos rfl, if_pos rfl]
      have hturn := h.inTurn id
      rw [hfind] at hturn
      exact .claimed hengine hturn
    · rw [if_neg (Ne.symm hother), if_neg hother]
      exact h.inTurn other

theorem release {s : State} (h : s.registry.Agrees s.journal) :
    s.release.registry.Agrees s.release.journal := by
  refine h.of_story (congrArg calls s.release_registry) fun id => ?_
  rcases s.release_journal with hsame | ⟨state, hpublished⟩
  · rw [hsame]
  · rw [hpublished]
    exact Journal.story_cons (fun _ => rfl) _ id

end Agrees

end Registry

theorem Claimer.IsJustified.ne_direct {past : Journal} {id : CallId} {claimer : Claimer}
    (h : claimer.IsJustified past id) : claimer ≠ .direct := by
  cases h <;> nofun

theorem Entry.about?_of_not_booking {e : Entry} (h : e.isBooking = false) (id : CallId) :
    e.about? id = none := by
  cases e with
  | registered | claimed | published => cases h
  | _ => rfl

namespace State

variable {s s' : State}

theorem agrees_of_claim (h : s.registry.Agrees s.journal) {claimer : Claimer} {id : CallId}
    {call : Call} (hwhy : claimer.IsJustified s.journal id)
    (hclaim : s.claim claimer id = (some call, s')) :
    s'.release.registry.Agrees s'.release.journal := by
  obtain ⟨hr, -, hjournal, -⟩ := claim_eq_some hclaim
  have hagrees := h.claim hwhy.ne_direct hr
  rw [← hjournal] at hagrees
  exact hagrees.release

/-- Every step keeps the registry in agreement with the journal. The cases are those of
`State.Step`; only two of them move a call, and these write the entry that says so. -/
theorem Step.agrees (h : Step s s') (hs : s.registry.Agrees s.journal) :
    s'.registry.Agrees s'.journal := by
  cases h with
  | aside h => exact hs.of_story h.calls fun id => by rw [h.journal]
  | noted hbook _ =>
    refine hs.of_story rfl fun id => ?_
    exact Journal.story_cons (Entry.about?_of_not_booking hbook) _ id
  | registered hpending h =>
    obtain ⟨hr, -, hjournal, -⟩ := enroll_eq_ok h
    rw [hjournal]
    refine Registry.Agrees.register ?_ hpending hr
    exact hs.of_story rfl fun id => Journal.story_cons (fun _ => rfl) _ id
  | @refused _ call e h =>
    rw [(enroll_eq_error h).2]
    refine Registry.Agrees.release ?_
    show s.acquire.2.registry.Agrees s.acquire.2.journal
    -- Nothing but the publication of the count is left of a refused call.
    rw [acquire_registry, acquire_journal]
    exact hs.of_story rfl fun id => Journal.story_cons (fun _ => rfl) _ id
  | claimed _ hwhy h => exact agrees_of_claim hs hwhy h
  | abandoned hwhy h =>
    refine (agrees_of_claim hs hwhy h).of_story rfl fun id => ?_
    exact Journal.story_cons (fun _ => rfl) _ id

end State

namespace Environment

variable {σ : Type} {env : Environment σ} {depth : Nat} {site : Site (Host σ)}

/-- The agreement holds throughout every run, and so it has held at every moment in the journal:
each entry that records a moment was made in a state that agreed. -/
theorem Reaches.agrees (hcol : env.collaborators.AskOnly Operation.IsIndirect)
    (h : env.Reaches Operation.IsIndirect depth site) :
    site.state.state.registry.Agrees site.state.state.journal ∧
      site.state.state.journal.Each (Entry.Follows fun m past => m.registry.Agrees past) :=
  h.always (Q := fun m past => m.registry.Agrees past) (fun _ _ _ => .init)
    (fun hs hstep => hstep.agrees hs) hcol

/-- In every run of an engine each call is completed once, however its collaborators call back into
it: at the end, and at every moment at which an operation was asked for or answered, a collaborator
was called or came back, or a sweep listed the calls that were due.  Every claim was made by a
response, by a sweep that had listed the id as overdue, or by the clean-up of a dispatch that had
registered the id. -/
theorem Reaches.completes_once (hcol : env.collaborators.AskOnly Operation.IsIndirect)
    (h : env.Reaches Operation.IsIndirect depth site) :
    site.state.state.registry.CompletesOnce site.state.state.journal ∧
      ∀ e past, e :: past <:+ site.state.state.journal →
        (∀ m, e.moment? = some m → m.registry.CompletesOnce past) ∧
        ∀ claimer call, e = .claimed claimer call → claimer.IsJustified past call.id := by
  obtain ⟨hnow, heach⟩ := h.agrees hcol
  refine ⟨hnow.completesOnce, fun e past hsuffix => ?_⟩
  have hentry := heach.of_suffix hsuffix
  exact ⟨fun m hm => (hentry.moment m hm).completesOnce, hentry.claim⟩

/-- In this run the call "a" is registered and claimed twice, one dispatch within the other. -/
theorem completes_once_afterResend :
    Site.afterResend.state.state.registry.CompletesOnce Site.afterResend.state.state.journal ∧
      (Site.afterResend.state.state.journal.story ⟨"a"⟩).length = 4 := by
  refine ⟨(Reaches.completes_once resending_askOnly afterResend_reaches).1, ?_⟩
  decide +kernel

end Environment

end Correlator
