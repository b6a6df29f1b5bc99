import Correlator.Proofs.Reach

/-!
# What anybody can do to the calls in a registry

`State.Step` says what an engine does to its books if everybody goes through it.  Those who go past
it, to its registry or to its count, do less orderly things: they claim calls without a reason and
count in nobody.  Still the registry only ever gets a call by a registration, only ever loses one by
a claim, and both are noted.  `State.Transfer` is what is left of a step if no more than this is
asked, and it is all that happens to the calls whoever asks for whatever.

So a relation on states that takes in the transfers is kept by everything that goes on
(`Environment.allows_of_transfer`), and `Host.Transfers`, any number of them, is the least such
relation.

## Main definitions

* `State.Transfer` : what can happen to the calls in the registry.

## Main results

* `Environment.allows_of_transfer` : whatever takes in transfers, everything goes along.
* `Environment.allows_transfers`, `Environment.callbacks_transfer` : so everything is made of them.
-/

namespace Correlator

open Relation

namespace State

/-- What can happen to the calls in the registry without anybody getting in between. Why a call is
registered or claimed, and whether it is counted along with that, is left open. -/
inductive Transfer : State → State → Prop
  /-- Something else. -/
  | aside {s s' : State} (hcalls : s'.registry.calls = s.registry.calls)
      (hjournal : s'.journal = s.journal) : Transfer s s'
  /-- Something else is noted, with the present moment if with any. -/
  | noted {s : State} {e : Entry} (hother : ∀ id, e.about? id = none)
      (hmoment : ∀ m, e.moment? = some m → m = s.moment) : Transfer s (s.note e)
  | registered {s s' : State} {call : Call} (h : s.registry.register? call = some s'.registry)
      (hjournal : s'.journal = .registered call :: s.journal) : Transfer s s'
  | claimed {s s' : State} {claimer : Claimer} {id : CallId} {call : Call}
      (h : s.registry.claim? id = some (call, s'.registry))
      (hjournal : s'.journal = .claimed claimer call :: s.journal) : Transfer s s'

/-- Any number of transfers. -/
abbrev Transfers : State → State → Prop := ReflTransGen Transfer

variable {s s' : State}

theorem Transfer.journal_suffix (h : Transfer s s') : s.journal <:+ s'.journal := by
  cases h with
  | aside _ hjournal => exact hjournal ▸ List.suffix_refl _
  | noted => exact List.suffix_cons _ _
  | registered _ hjournal => exact hjournal ▸ List.suffix_cons _ _
  | claimed _ hjournal => exact hjournal ▸ List.suffix_cons _ _

theorem Transfers.journal_suffix (h : Transfers s s') : s.journal <:+ s'.journal := by
  induction h with
  | refl => exact List.suffix_refl _
  | tail _ hlast ih => exact ih.trans hlast.journal_suffix

/-! ## The transitions are made of transfers -/

theorem transfers_aside (hcalls : s'.registry.calls = s.registry.calls)
    (hjournal : s'.journal = s.journal) : Transfers s s' := .single (.aside hcalls hjournal)

/-- Something is noted, and what is no affair of the registry may change as well. -/
theorem transfers_noted {e : Entry} (hother : ∀ id, e.about? id = none) (hmoment : e.moment? = none)
    (hcalls : s'.registry.calls = s.registry.calls) (hjournal : s'.journal = e :: s.journal) :
    Transfers s s' := by
  have hnoted : Transfer s (s.note e) := .noted hother fun m hm => by rw [hmoment] at hm; cases hm
  exact .tail (.single hnoted) (.aside hcalls hjournal)

/-- Somebody looks, and that is noted. -/
theorem transfers_looked {e : Entry} (hmoment : e.moment? = some s.moment) :
    Transfers s (s.note e) := by
  refine .single (.noted (fun id => ?_) fun m hm => ?_)
  · cases e with
    | registered | claimed => cases hmoment
    | _ => rfl
  · exact (Option.some.inj (hmoment.symm.trans hm)).symm

theorem transfers_quiet (h : s.Quiet s') : Transfers s s' :=
  transfers_aside h.aside.calls h.aside.journal

theorem transfers_acquire (s : State) : Transfers s s.acquire.2 :=
  transfers_noted (fun _ => rfl) rfl (congrArg _ s.acquire_registry) s.acquire_journal

theorem transfers_release (s : State) : Transfers s s.release := by
  have hcalls : s.release.registry.calls = s.registry.calls := congrArg _ s.release_registry
  rcases s.release_journal with hsame | ⟨state, hpublished⟩
  · exact transfers_aside hcalls hsame
  · exact transfers_noted (fun _ => rfl) rfl hcalls hpublished

theorem transfers_claimed {claimer : Claimer} {id : CallId} {call : Call}
    (h : s.claim claimer id = (some call, s')) : Transfers s s' := by
  obtain ⟨hclaim, -, hjournal, -⟩ := claim_eq_some h
  exact .single (.claimed hclaim hjournal)

theorem transfers_claim (s : State) (claimer : Claimer) (id : CallId) :
    Transfers s (s.claim claimer id).2 := by
  cases hclaim : s.claim claimer id with
  | mk result t =>
    cases result with
    | none => exact claim_eq_none hclaim ▸ .refl
    | some call => exact transfers_claimed hclaim

theorem transfers_collect (s : State) (claimer : Claimer) (id : CallId) :
    Transfers s (s.collect claimer id).2 := by
  cases hcollect : s.collect claimer id with
  | mk result t =>
    cases result with
    | none => exact transfers_quiet (collect_eq_none hcollect)
    | some call =>
      obtain ⟨u, hclaim, hquiet⟩ := collect_eq_some hcollect
      exact (transfers_claimed hclaim).trans (transfers_quiet hquiet)

theorem transfers_register (s : State) (call : Call) : Transfers s (s.register call).2 := by
  unfold State.register
  cases hr : s.registry.register? call with
  | none => exact transfers_quiet (.notify (.refl s))
  | some registry => exact .single (.registered hr rfl)

theorem transfers_enroll (s : State) (call : Call) : Transfers s (s.enroll call).2 := by
  cases henroll : s.enroll call with
  | mk result t =>
    cases result with
    | error e =>
      rw [(enroll_eq_error henroll).2]
      refine (transfers_acquire s).trans (.trans ?_ (transfers_release _))
      exact transfers_quiet (.notify (.refl _))
    | ok receipt =>
      obtain ⟨hregister, -, hjournal, -⟩ := enroll_eq_ok henroll
      rw [← acquire_registry] at hregister
      rw [← acquire_journal] at hjournal
      exact (transfers_acquire s).trans (.single (.registered hregister hjournal))

theorem transfers_lock (s : State) (now : Millis) : Transfers s (s.lock now) := by
  have hlocked : Transfers s { s with sweeping := true } := transfers_aside rfl rfl
  exact hlocked.trans (transfers_looked rfl)

theorem transfers_of_move {σ : Type} {c : Collaborators σ} (h : Move c s s') : Transfers s s' := by
  cases h with
  | quiet hquiet => exact transfers_quiet hquiet
  | @registered _ call receipt _ henroll | @refused _ call e henroll =>
    have henrolled := transfers_enroll s call
    rw [henroll] at henrolled
    exact henrolled
  | claimed _ _ hclaim hquiet =>
    exact ((transfers_claimed hclaim).trans (transfers_release _)).trans (transfers_quiet hquiet)
  | abandoned _ hclaim =>
    refine ((transfers_claimed hclaim).trans (transfers_release _)).trans ?_
    exact transfers_noted (fun _ => rfl) rfl rfl rfl
  | routing | routed => exact transfers_noted (fun _ => rfl) rfl rfl rfl
  | asked | answered | entered | left | written => exact transfers_looked rfl
  | @marked _ _ _ guard _ hmark =>
    have haside := s.aside_markGuard guard
    rw [hmark] at haside
    exact (transfers_aside haside.calls haside.journal).trans (transfers_looked rfl)
  | answerRefused => exact transfers_noted (fun _ => rfl) rfl rfl rfl

end State

/-! ## All runs -/

variable {σ : Type} {env : Environment σ} {rel : Host σ → Host σ → Prop}

theorem perform_along_of_direct
    (htransfers : ∀ {h : Host σ} {s' : State}, State.Transfers h.state s' →
      rel h { h with state := s' })
    (callbacks : Callbacks σ) {op : Operation} (hdirect : op.IsDirect) :
    (perform callbacks op).Along True rel := by
  intro host
  cases op with
  | register call => exact ⟨htransfers (State.transfers_register _ call), trivial⟩
  | collect id => exact ⟨htransfers (State.transfers_collect _ _ id), trivial⟩
  | claim id => exact ⟨htransfers (State.transfers_claim _ _ id), trivial⟩
  | acquire => exact ⟨htransfers (State.transfers_acquire _), trivial⟩
  | release => exact ⟨htransfers (State.transfers_release _), trivial⟩
  | markGuard guard => exact ⟨htransfers (State.transfers_aside rfl rfl), trivial⟩
  | _ => exact hdirect.elim

/-- Whatever anybody asks for goes along a relation that takes in transfers. Nothing is forbidden
here, so what is proved in this way also holds while somebody goes past the engine to its registry.
-/
theorem Environment.allows_of_transfer [IsPreorder (Host σ) rel] (env : Environment σ)
    (hsuffix : ∀ {h h' : Host σ}, rel h h' → h.state.journal <:+ h'.state.journal)
    (hmemory : ∀ (h : Host σ) (memory : σ), rel h { h with memory })
    (htransfer : ∀ {h : Host σ} {s' : State}, State.Transfer h.state s' →
      rel h { h with state := s' }) : env.Allows True (fun _ => True) rel := by
  have htransfers {h : Host σ} {s' : State} (hs' : State.Transfers h.state s') :
      rel h { h with state := s' } := by
    induction hs' with
    | refl => exact refl_of rel h
    | tail _ hlast ih => exact trans_of rel ih (htransfer hlast)
  constructor
  case suffix => exact hsuffix
  case memory => exact hmemory
  case move => exact fun hmove => htransfers (State.transfers_of_move hmove)
  case lock => exact fun _ h now => htransfers (h.state.transfers_lock now)
  case unlock => exact fun _ h => htransfers (State.transfers_aside rfl rfl)
  case sweep => exact fun h => absurd trivial h
  case inside =>
    intro op _ hcalls callbacks
    by_cases hdirect : op.IsDirect
    · exact perform_along_of_direct htransfers callbacks hdirect
    · refine perform_along_of_apart trivial (fun h s' hapart => ?_) hcalls hdirect
      exact htransfers (State.transfers_aside hapart.calls hapart.journal)

/-- The engine is later by any number of transfers. -/
def Host.Transfers (h h' : Host σ) : Prop := State.Transfers h.state h'.state

instance : IsPreorder (Host σ) Host.Transfers where
  refl _ := ReflTransGen.refl
  trans _ _ _ := ReflTransGen.trans

theorem Environment.allows_transfers (env : Environment σ) :
    env.Allows True (fun _ => True) Host.Transfers :=
  env.allows_of_transfer State.Transfers.journal_suffix (fun _ _ => .refl) .single

theorem Environment.callbacks_transfer (env : Environment σ) (level : Nat) :
    (env.callbacks level).Along env.collaborators True Host.Transfers :=
  callbacks_along env.allows_transfers env.collaborators.askOnly_true level

end Correlator
