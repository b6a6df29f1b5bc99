import Correlator.Engine.Dispatch
import Correlator.Engine.Sweep
import Correlator.Proofs.Along
import Correlator.Proofs.History
import Mathlib.Logic.Relation

/-!
# What an engine can do to its books

The books of an engine are its registry, its count of calls in flight and its journal.
`State.Step` lists everything that an operation of the engine ever does to them, in units that
nobody can get between: a call is counted in and registered, or refused and counted out again; a
call is claimed and counted out; something is noted.  Everything else leaves the books alone
(`State.Aside`).  That every operation, callback and turn of a worker is made of such steps is the
subject of `Correlator.Proofs.Operations`; a property of all runs is then an induction over steps.

A claim needs a reason (`Claimer.IsJustified`).  A response needs none.  A sweep claims by an id
that was overdue when it listed the calls, and the clean-up after a failed send claims by the id
of the call that its dispatch had registered.  Both remember the place in the journal.  Neither
reason says that the call that is claimed is the one that was listed or registered: that is looked
up by id.

## Main definitions

* `State.Step` : one step.
* `Host.Later` : any number of steps; the memory of the collaborators may change in between.

## Main results

* `Registry.claim?_eq_some` : a claim takes out the call that waits under the id.
* `State.Step.journal_suffix` : the journal only grows.
* `State.Step.journal_each` : what every new entry has to do with the state that it was made in.
-/

namespace Correlator

open Relation

/-! ## Steps -/

/-- Why a call may be claimed by the id, after what has happened so far.  Nobody who asks the
registry itself is a part of the engine. -/
inductive Claimer.IsJustified (past : Journal) (id : CallId) : Claimer → Prop
  | response : IsJustified past id .response
  | sweep {now : Millis} {place : Nat} {listing : Moment} {prior : Journal}
      (hlisted : past.upTo place = .listed now listing :: prior)
      (hid : id ∈ listing.registry.overdue now) : IsJustified past id (.sweep now place)
  | failedSend {place : Nat} {own : Call} {prior : Journal}
      (hown : past.upTo place = .registered own :: prior) (hid : own.id = id) :
      IsJustified past id (.failedSend place)

/-- The moment that an entry records. Entries about a booking record none: they are made in the
middle of a step, where the books may be out of balance. -/
def Entry.moment? : Entry → Option Moment
  | .listed _ moment | .asked _ moment | .answered _ moment | .entered _ _ moment
  | .left _ _ moment => some moment
  | .registered _ | .claimed .. | .published _ | .routing .. | .routed .. | .answerRefused _ => none

/-- The entry is in order after what has happened: the moment that it records, if any, has the
property `Q` in view of the past, and if it is a claim, there was a reason. -/
structure Entry.Follows (Q : Moment → Journal → Prop) (past : Journal) (e : Entry) : Prop where
  moment : ∀ m, e.moment? = some m → Q m past
  claim : ∀ claimer call, e = .claimed claimer call → claimer.IsJustified past call.id

/-- Whether an entry goes with a change of the registry or of the count in flight. -/
def Entry.isBooking : Entry → Bool
  | .registered _ | .claimed .. | .published _ => true
  | .listed .. | .asked .. | .answered .. | .entered .. | .left .. | .routing .. | .routed ..
  | .answerRefused _ => false

namespace State

/-- A change that leaves the books alone and reports no unmatched release. Sessions, workers, the
clock and the metrics may change as they like. -/
structure Aside (s s' : State) : Prop where
  calls : s'.registry.calls = s.registry.calls
  admission : s'.admission = s.admission
  journal : s'.journal = s.journal
  notices : ∀ key, .unmatchedRelease key ∈ s'.notices → .unmatchedRelease key ∈ s.notices

/-- What an engine can do to its books without anybody getting in between. What belongs together is
one constructor: a claim with its release, a registration with its counting in. So an invariant
need not hold halfway. -/
inductive Step : State → State → Prop
  /-- Something else. -/
  | aside {s s' : State} (h : s.Aside s') : Step s s'
  /-- Something is noted that changes nothing, with the present moment if with any. -/
  | noted {s : State} {e : Entry} (hbook : e.isBooking = false)
      (hmoment : ∀ m, e.moment? = some m → m = s.moment) : Step s (s.note e)
  /-- A call is counted in and registered. -/
  | registered {s s' : State} {call : Call} {receipt : Receipt}
      (hpending : call.completion = .pending) (h : s.enroll call = (.ok receipt, s')) : Step s s'
  /-- A call is counted in, refused and counted out again. -/
  | refused {s s' : State} {call : Call} {e : EngineError} (h : s.enroll call = (.error e, s')) :
      Step s s'
  /-- A response or a sweep claims a call and counts it out. -/
  | claimed {s s' : State} {claimer : Claimer} {id : CallId} {call : Call}
      (hother : ∀ place, claimer ≠ .failedSend place) (hwhy : claimer.IsJustified s.journal id)
      (h : s.claim claimer id = (some call, s')) : Step s s'.release
  /-- The clean-up after a failed send claims a call, counts it out and turns to its fault. -/
  | abandoned {s s' : State} {place level : Nat} {id : CallId} {call : Call} {e : ErrorChain}
      (hwhy : (Claimer.failedSend place).IsJustified s.journal id)
      (h : s.claim (.failedSend place) id = (some call, s')) :
      Step s (s'.release.note (.routing level call (Fault.failedSend e)))

/-- Any number of steps. -/
abbrev Steps : State → State → Prop := ReflTransGen Step

/-! ## What the transitions do -/

theorem Aside.refl (s : State) : s.Aside s := ⟨rfl, rfl, rfl, fun _ h => h⟩

theorem Aside.notify {s t : State} (h : s.Aside t) {n : Notice}
    (hn : ∀ key, n ≠ .unmatchedRelease key := by simp) : s.Aside (t.notify n) := by
  refine ⟨h.calls, h.admission, h.journal, fun key hkey => ?_⟩
  rcases List.mem_cons.mp hkey with heq | hold
  · exact absurd heq.symm (hn key)
  · exact h.notices key hold

theorem acquire_registry (s : State) : s.acquire.2.registry = s.registry := by
  unfold acquire
  dsimp only
  split <;> rfl

theorem acquire_journal (s : State) :
    s.acquire.2.journal = .published s.admission.acquire.state :: s.journal := by
  unfold acquire
  dsimp only
  split <;> rfl

theorem acquire_admission (s : State) : s.acquire.2.admission = s.admission.acquire := by
  unfold acquire
  dsimp only
  split <;> rfl

theorem unmatchedRelease_mem_acquire {s : State} {key : String}
    (h : .unmatchedRelease key ∈ s.acquire.2.notices) : .unmatchedRelease key ∈ s.notices := by
  unfold acquire at h
  dsimp only at h
  split at h
  · rcases List.mem_cons.mp h with heq | hold
    · exact Notice.noConfusion heq
    · exact hold
  · exact h

theorem release_registry (s : State) : s.release.registry = s.registry := by
  unfold release
  split <;> rfl

theorem release_nextId (s : State) : s.release.nextId = s.nextId := by
  unfold release
  split <;> rfl

/-- The next id depends on the numbering only. -/
theorem freshMessageId_of_nextId {s t : State} (h : s.nextId = t.nextId) :
    s.freshMessageId.1 = t.freshMessageId.1 := by
  unfold freshMessageId freshUuid
  rw [h]

theorem release_admission (s : State) :
    s.release.admission = s.admission.release?.getD s.admission := by
  unfold release
  split <;> simp_all [publish, notify]

/-- A release tells peers, unless there was nothing to count out. -/
theorem release_journal (s : State) :
    s.release.journal = s.journal ∨
      ∃ state, s.release.journal = .published state :: s.journal := by
  unfold release
  split
  · exact Or.inr ⟨_, rfl⟩
  · exact Or.inl rfl

end State

namespace Registry

variable {r r' : Registry} {id : CallId} {call : Call}

theorem id_of_find? (h : r.find? id = some call) : call.id = id := by
  simpa using List.find?_some h

theorem register?_eq_some (h : r.register? call = some r') :
    r.contains call.id = false ∧ r'.calls = r.calls ++ [call] := by
  unfold register? at h
  split at h
  · cases h
  · rename_i hnew
    obtain rfl := Option.some.inj h
    exact ⟨eq_false_of_ne_true hnew, rfl⟩

/-- A claim takes out the call that waits under the id, and only if it is still pending; what is
handed out is that call, marked. -/
theorem claim?_eq_some (h : r.claim? id = some (call, r')) :
    ∃ waiting, r.find? id = some waiting ∧ waiting.completion = .pending ∧
      call = waiting.marked ∧ r'.calls = r.calls.filter (·.id ≠ id) := by
  unfold claim? at h
  split at h
  · cases h
  · rename_i waiting hfind
    cases hc : waiting.completion with
    | marked => simp [Call.mark, hc] at h
    | pending =>
      simp only [Call.mark, hc, Option.some.injEq, Prod.mk.injEq] at h
      obtain ⟨rfl, rfl⟩ := h
      exact ⟨waiting, hfind, hc, rfl, rfl⟩

/-- Whatever is pending can be claimed. -/
theorem claim?_of_pending (hfind : r.find? id = some call) (hpending : call.completion = .pending) :
    (r.claim? id).isSome = true := by
  simp only [claim?, hfind, Call.mark, hpending, Option.isSome_some]

end Registry

namespace State

/-- A claim changes the registry and the journal, and no more of the books. -/
theorem claim_eq_some {s s' : State} {claimer : Claimer} {id : CallId} {call : Call}
    (h : s.claim claimer id = (some call, s')) :
    s.registry.claim? id = some (call, s'.registry) ∧ s'.admission = s.admission ∧
      s'.journal = .claimed claimer call :: s.journal ∧ s'.notices = s.notices := by
  unfold claim at h
  split at h
  · cases h
  · rename_i found registry hclaim
    simp only [Prod.mk.injEq, Option.some.injEq] at h
    obtain ⟨rfl, rfl⟩ := h
    exact ⟨hclaim, rfl, rfl, rfl⟩

theorem claim_eq_none {s s' : State} {claimer : Claimer} {id : CallId}
    (h : s.claim claimer id = (none, s')) : s' = s := by
  unfold claim at h
  split at h
  · simp only [Prod.mk.injEq, true_and] at h
    exact h.symm
  · simp at h

/-- Whoever registers a call has it in the journal, right after the publication of the count that
includes it. -/
theorem enroll_eq_ok {s s' : State} {call : Call} {receipt : Receipt}
    (h : s.enroll call = (.ok receipt, s')) :
    s.registry.register? call = some s'.registry ∧ s'.admission = s.admission.acquire ∧
      s'.journal = .registered call :: .published s.admission.acquire.state :: s.journal ∧
      s'.notices = s.acquire.2.notices := by
  unfold enroll at h
  dsimp only at h
  split at h
  · cases h
  · rename_i receipt' registered hregister
    simp only [Prod.mk.injEq] at h
    obtain ⟨-, rfl⟩ := h
    unfold register at hregister
    rw [acquire_registry] at hregister
    split at hregister
    · cases hregister
    · rename_i registry hnew
      simp only [Prod.mk.injEq] at hregister
      obtain ⟨-, rfl⟩ := hregister
      exact ⟨hnew, acquire_admission s, congrArg _ (acquire_journal s), rfl⟩

theorem receipt_id_of_enroll {s s' : State} {call : Call} {receipt : Receipt}
    (h : s.enroll call = (.ok receipt, s')) : receipt.id = call.id := by
  unfold enroll register at h
  dsimp only at h
  cases hregister : s.acquire.2.registry.register? call with
  | none =>
    rw [hregister] at h
    cases h
  | some registry =>
    rw [hregister] at h
    cases h
    rfl

/-- A refused call is counted in and out again. -/
theorem enroll_eq_error {s s' : State} {call : Call} {e : EngineError}
    (h : s.enroll call = (.error e, s')) :
    s.registry.contains call.id = true ∧
      s' = (s.acquire.2.notify (.duplicateRegistration call.id)).release := by
  unfold enroll at h
  dsimp only at h
  split at h
  · rename_i e' registered hregister
    simp only [Prod.mk.injEq] at h
    obtain ⟨-, rfl⟩ := h
    -- Registering fails for one reason only: a call with the id waits already.
    unfold register Registry.register? at hregister
    rw [acquire_registry] at hregister
    cases hnew : s.registry.contains call.id with
    | true =>
      simp only [hnew, if_true, Prod.mk.injEq] at hregister
      obtain ⟨-, rfl⟩ := hregister
      exact ⟨rfl, rfl⟩
    | false => simp [hnew] at hregister
  · simp at h

/-- The only reason is that its id is taken. -/
theorem error_of_enroll {s s' : State} {call : Call} {e : EngineError}
    (h : s.enroll call = (.error e, s')) : e = .duplicateId call.id := by
  unfold enroll at h
  dsimp only at h
  split at h
  · rename_i e' registered hregister
    unfold register at hregister
    split at hregister <;> cases hregister
    cases h
    rfl
  · cases h

theorem release_journal_suffix (s : State) : s.journal <:+ s.release.journal := by
  rcases s.release_journal with hsame | ⟨state, hpublished⟩
  · exact hsame ▸ List.suffix_refl _
  · exact hpublished ▸ List.suffix_cons _ _

theorem journal_suffix_of_claim {s s' : State} {claimer : Claimer} {id : CallId} {call : Call}
    (h : s.claim claimer id = (some call, s')) : s.journal <:+ s'.release.journal := by
  refine List.IsSuffix.trans ?_ s'.release_journal_suffix
  rw [(claim_eq_some h).2.2.1]
  exact List.suffix_cons _ _

/-- The journal only grows. What was noted at the beginning of some work can therefore be relied on
at its end, whatever has happened in between. -/
theorem Step.journal_suffix {s s' : State} (h : Step s s') : s.journal <:+ s'.journal := by
  cases h with
  | aside h => exact h.journal ▸ List.suffix_refl _
  | noted => exact List.suffix_cons _ _
  | registered _ h =>
    rw [(enroll_eq_ok h).2.2.1]
    exact (List.suffix_cons _ _).trans (List.suffix_cons _ _)
  | refused h =>
    rw [(enroll_eq_error h).2]
    refine List.IsSuffix.trans ?_ (release_journal_suffix _)
    exact acquire_journal s ▸ List.suffix_cons _ _
  | claimed _ _ h => exact journal_suffix_of_claim h
  | abandoned _ h => exact (journal_suffix_of_claim h).trans (List.suffix_cons _ _)

theorem each_release {Q : Moment → Journal → Prop} {s : State}
    (h : s.journal.Each (Entry.Follows Q)) : s.release.journal.Each (Entry.Follows Q) := by
  rcases s.release_journal with hsame | ⟨state, hpublished⟩
  · rw [hsame]
    exact h
  · rw [hpublished]
    exact ⟨⟨fun _ => nofun, fun _ _ => nofun⟩, h⟩

theorem each_of_claim {Q : Moment → Journal → Prop} {s s' : State} {claimer : Claimer}
    {id : CallId} {call : Call} (hwhy : claimer.IsJustified s.journal id)
    (h : s.claim claimer id = (some call, s')) (hj : s.journal.Each (Entry.Follows Q)) :
    s'.release.journal.Each (Entry.Follows Q) := by
  refine each_release ?_
  obtain ⟨hclaim, -, hjournal, -⟩ := claim_eq_some h
  obtain ⟨waiting, hfind, -, rfl, -⟩ := Registry.claim?_eq_some hclaim
  have hid : waiting.id = id := Registry.id_of_find? hfind
  rw [hjournal]
  refine ⟨⟨fun _ => nofun, fun other taken heq => ?_⟩, hj⟩
  obtain ⟨rfl, rfl⟩ := Entry.claimed.inj heq
  exact hid.symm ▸ hwhy

/-- What is noted in a step is in order, if the state before has the property `Q`.  Only entries
that change nothing record a moment. -/
theorem Step.journal_each {Q : Moment → Journal → Prop} {s s' : State} (h : Step s s')
    (hs : Q s.moment s.journal) (hj : s.journal.Each (Entry.Follows Q)) :
    s'.journal.Each (Entry.Follows Q) := by
  cases h with
  | aside h => exact h.journal ▸ hj
  | noted hbook hmoment =>
    -- Here, and only here, the property of the present state goes into the journal.
    refine ⟨⟨fun m hm => hmoment m hm ▸ hs, fun claimer call heq => ?_⟩, hj⟩
    subst heq
    cases hbook
  | registered _ h =>
    rw [(enroll_eq_ok h).2.2.1]
    exact ⟨⟨fun _ => nofun, fun _ _ => nofun⟩, ⟨fun _ => nofun, fun _ _ => nofun⟩, hj⟩
  | @refused _ call e h =>
    rw [(enroll_eq_error h).2]
    refine each_release ?_
    show s.acquire.2.journal.Each (Entry.Follows Q)
    rw [acquire_journal]
    exact ⟨⟨fun _ => nofun, fun _ _ => nofun⟩, hj⟩
  | claimed _ hwhy h => exact each_of_claim hwhy h hj
  | abandoned hwhy h =>
    exact ⟨⟨fun _ => nofun, fun _ _ => nofun⟩, each_of_claim hwhy h hj⟩

theorem Steps.journal_suffix {s s' : State} (h : Steps s s') : s.journal <:+ s'.journal := by
  induction h with
  | refl => exact List.suffix_refl _
  | tail _ hstep ih => exact ih.trans hstep.journal_suffix

end State

/-! ## Runs of an engine -/

/-- The state of the engine is later by any number of steps. -/
def Host.Later {σ : Type} (h h' : Host σ) : Prop := State.Steps h.state h'.state

instance {σ : Type} : IsPreorder (Host σ) Host.Later where
  refl _ := ReflTransGen.refl
  trans _ _ _ := ReflTransGen.trans

namespace Run

variable {σ α β : Type} {patient : Prop} {rel : Host σ → Host σ → Prop} {Q : β → Host σ → Prop}

/-! What changes the state without waiting is gone through by computation. -/

theorem read_bind (f : State → Run σ β) (host : Host σ) :
    (read >>= f) host = f host.state host := rfl

theorem update_bind (change : State → State) (f : Unit → Run σ β) (host : Host σ) :
    (update change >>= f) host = f () { host with state := change host.state } := rfl

theorem apply_bind (change : State → α × State) (f : α → Run σ β) (host : Host σ) :
    (apply change >>= f) host =
      f (change host.state).1 { host with state := (change host.state).2 } := rfl

variable [IsPreorder (Host σ) rel]

theorem meets_update_bind {change : State → State} {f : Unit → Run σ β} {host : Host σ}
    (h : rel host { host with state := change host.state })
    (hf : (f () { host with state := change host.state }).Meets patient rel Q
      { host with state := change host.state }) :
    ((update change >>= f) host).Meets patient rel Q host :=
  hf.of_earlier h

theorem meets_apply_bind {change : State → α × State} {f : α → Run σ β} {host : Host σ}
    (h : rel host { host with state := (change host.state).2 })
    (hf : (f (change host.state).1 { host with state := (change host.state).2 }).Meets patient rel Q
      { host with state := (change host.state).2 }) :
    ((apply change >>= f) host).Meets patient rel Q host :=
  hf.of_earlier h

end Run

end Correlator
