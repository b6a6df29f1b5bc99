import Correlator.Proofs.Transfer

/-!
# A call waits until it is claimed

Once a call is in the registry it stays there as it is until somebody claims its id, and every claim
is noted in the journal.  Whoever has registered a call and finds no new claim of the id in the
journal knows that the call still waits (`State.Holds`).  This is so for everything that can be
asked of an engine, also for those who go past it to its registry, since all of it is made of
transfers.

The same goes for whoever looked meanwhile, and whoever knows that nobody has registered the id
again knows that it has been claimed once at most.

## Main results

* `State.Transfers.holds` : the registry holds its calls.
* `State.Transfers.holds_moment` : everybody who looked has found them there.
* `State.Transfers.claims_once` : a call is claimed once at most.
-/

namespace Correlator

/-- The entry says that a call with the id was claimed. -/
def Entry.isClaimOf (id : CallId) : Entry → Bool
  | .claimed _ call => call.id = id
  | _ => false

/-- How many calls with the id have been claimed. -/
def Journal.claimCount (j : Journal) (id : CallId) : Nat := j.countP (·.isClaimOf id)

theorem Journal.claimCount_le_of_suffix {past j : Journal} (h : past <:+ j) (id : CallId) :
    past.claimCount id ≤ j.claimCount id := h.sublist.countP_le

theorem Journal.claimCount_claimed (j : Journal) (claimer : Claimer) (call : Call) :
    claimCount (.claimed claimer call :: j) call.id = j.claimCount call.id + 1 :=
  List.countP_cons_of_pos (decide_eq_true rfl)

/-- The entry says that a call with the id was registered. -/
def Entry.isRegistrationOf (id : CallId) : Entry → Bool
  | .registered call => call.id = id
  | _ => false

/-- How many calls with the id have been registered. -/
def Journal.registerCount (j : Journal) (id : CallId) : Nat := j.countP (·.isRegistrationOf id)

theorem Journal.registerCount_le_of_suffix {past j : Journal} (h : past <:+ j) (id : CallId) :
    past.registerCount id ≤ j.registerCount id := h.sublist.countP_le

/-- What is no affair of the registry counts as neither. -/
theorem Journal.counts_cons {e : Entry} (he : ∀ id, e.about? id = none) (j : Journal)
    (id : CallId) :
    claimCount (e :: j) id = j.claimCount id ∧ registerCount (e :: j) id = j.registerCount id := by
  cases e with
  | registered call | claimed claimer call => simpa [Entry.about?] using he call.id
  | _ => exact ⟨rfl, rfl⟩

namespace State

/-- The journal has only grown, and every call that was in the registry still is there, unless its
id has been claimed since. So the absence of a claim in the journal is enough to know that a call
waits. -/
structure Holds (s s' : State) : Prop where
  suffix : s.journal <:+ s'.journal
  waits : ∀ id call, s.registry.find? id = some call →
    s'.journal.claimCount id = s.journal.claimCount id → s'.registry.find? id = some call

namespace Holds

variable {s s' s'' : State}

theorem of_calls (hsuffix : s.journal <:+ s'.journal)
    (hcalls : s'.registry.calls = s.registry.calls) : s.Holds s' := by
  refine ⟨hsuffix, fun id call hfind _ => ?_⟩
  rw [Registry.find?, hcalls]
  exact hfind

theorem refl (s : State) : s.Holds s := of_calls (List.suffix_refl _) rfl

theorem trans (h : s.Holds s') (h' : s'.Holds s'') : s.Holds s'' := by
  refine ⟨h.suffix.trans h'.suffix, fun id call hfind hcount => ?_⟩
  -- Claims are only added, so there were none on either stretch.
  have hfirst := Journal.claimCount_le_of_suffix h.suffix id
  have hsecond := Journal.claimCount_le_of_suffix h'.suffix id
  refine h'.waits id call (h.waits id call hfind ?_) ?_ <;> omega

theorem note (s : State) (e : Entry) : s.Holds (s.note e) := of_calls (List.suffix_cons _ _) rfl

theorem release (s : State) : s.Holds s.release :=
  of_calls s.release_journal_suffix (congrArg _ s.release_registry)

theorem claimed {claimer : Claimer} {id : CallId} {call : Call}
    (h : s.registry.claim? id = some (call, s'.registry))
    (hjournal : s'.journal = .claimed claimer call :: s.journal) : s.Holds s' := by
  obtain ⟨waiting, hfind, -, rfl, -⟩ := Registry.claim?_eq_some h
  rw [← Registry.id_of_find? hfind] at h
  refine ⟨hjournal ▸ List.suffix_cons _ _, fun other call hother hcount => ?_⟩
  rw [Registry.find?_claim h]
  by_cases hid : other = waiting.id
  · subst hid
    rw [hjournal] at hcount
    have hmore := s.journal.claimCount_claimed claimer waiting.marked
    exact absurd (hmore.symm.trans hcount) (Nat.succ_ne_self _)
  · rw [if_neg hid]
    exact hother

/-- Nobody registers an id under which a call waits, so a registration cannot replace one. -/
theorem registered {call : Call} (h : s.registry.register? call = some s'.registry)
    (hsuffix : s.journal <:+ s'.journal) : s.Holds s' := by
  refine ⟨hsuffix, fun id waiting hfind _ => ?_⟩
  rw [Registry.find?_register h]
  by_cases hid : id = call.id
  · subst hid
    have hnew := (Registry.register?_eq_some h).1
    rw [Registry.contains_eq_isSome_find?, hfind] at hnew
    cases hnew
  · rw [if_neg hid]
    exact hfind

theorem of_transfer (h : s.Transfer s') : s.Holds s' := by
  cases h with
  | aside hcalls hjournal => exact of_calls (hjournal ▸ List.suffix_refl _) hcalls
  | noted => exact note s _
  | registered hregister hjournal =>
    exact registered hregister (hjournal ▸ List.suffix_cons _ _)
  | claimed hclaim hjournal => exact claimed hclaim hjournal

end Holds

/-! ## Any number of transfers -/

namespace Transfers

variable {s s' : State} {id : CallId}

theorem holds (h : Transfers s s') : s.Holds s' := by
  induction h with
  | refl => exact .refl s
  | tail _ hlast ih => exact ih.trans (.of_transfer hlast)

/-- Everybody who has looked found the call that waited, as long as the id had not been claimed.
The induction is on the transfers: the last one either made the entry, and then the registry is the
one it was made in, or it did not. -/
theorem holds_moment (h : Transfers s s') {call : Call} (hfind : s.registry.find? id = some call)
    {e : Entry} {past : Journal} {m : Moment} (hsuffix : e :: past <:+ s'.journal)
    (hsince : s.journal <:+ past) (hm : e.moment? = some m)
    (hcount : past.claimCount id = s.journal.claimCount id) :
    m.registry.find? id = some call := by
  induction h with
  | refl =>
    have hle := (hsuffix.trans hsince).length_le
    exact absurd hle (Nat.not_succ_le_self _)
  | @tail t s' hbefore hlast ih =>
    cases hlast with
    | aside _ hjournal => exact ih (hjournal ▸ hsuffix)
    | @noted latest _ hmoment =>
      rcases List.suffix_cons_iff.mp hsuffix with heq | hold
      -- The entry is the one just made, so what it recorded is the registry at hand.
      · obtain ⟨rfl, rfl⟩ := List.cons.inj heq
        rw [hmoment m hm]
        exact (Transfers.holds hbefore).waits id call hfind hcount
      · exact ih hold
    | registered _ hjournal | claimed _ hjournal =>
      rw [hjournal] at hsuffix
      rcases List.suffix_cons_iff.mp hsuffix with heq | hold
      · rw [(List.cons.inj heq).1] at hm
        cases hm
      · exact ih hold

end Transfers

/-- What waits under the id is as it was and has not been claimed, or it has been claimed once and
nothing waits. There is no third case as long as nobody registers the id. -/
def ClaimsOnce (id : CallId) (s s' : State) : Prop :=
  (s'.registry.find? id = s.registry.find? id ∧
      s'.journal.claimCount id = s.journal.claimCount id) ∨
    (∃ call, s.registry.find? id = some call) ∧ s'.registry.find? id = none ∧
      s'.journal.claimCount id = s.journal.claimCount id + 1

variable {s s' : State} {id : CallId}

theorem Transfer.claimsOnce (h : Transfer s s')
    (hnone : s'.journal.registerCount id = s.journal.registerCount id) : ClaimsOnce id s s' := by
  cases h with
  | aside hcalls hjournal =>
    refine .inl ⟨?_, by rw [hjournal]⟩
    rw [Registry.find?, hcalls]
    rfl
  | noted hother => exact .inl ⟨rfl, (Journal.counts_cons hother _ _).1⟩
  | @registered _ call hregister hjournal =>
    rw [hjournal] at hnone
    by_cases hid : id = call.id
    · have hmore : Journal.registerCount (.registered call :: s.journal) id =
          s.journal.registerCount id + 1 := List.countP_cons_of_pos (decide_eq_true hid.symm)
      -- A registration of the id itself would count one more than there were.
      exact absurd (hmore.symm.trans hnone) (Nat.succ_ne_self _)
    · rw [ClaimsOnce, Registry.find?_register hregister, if_neg hid, hjournal]
      exact .inl ⟨rfl, rfl⟩
  | @claimed _ claimer other call hclaim hjournal =>
    obtain ⟨waiting, hfind, -, rfl, -⟩ := Registry.claim?_eq_some hclaim
    have hother : waiting.id = other := Registry.id_of_find? hfind
    rw [ClaimsOnce, Registry.find?_claim hclaim, hjournal]
    by_cases hid : id = other
    · subst hid
      refine .inr ⟨⟨waiting, hfind⟩, if_pos rfl, ?_⟩
      exact List.countP_cons_of_pos (decide_eq_true hother)
    · refine .inl ⟨if_neg hid, List.countP_cons_of_neg fun hmatch => hid ?_⟩
      exact (of_decide_eq_true hmatch).symm.trans hother

/-- Unless the id is registered again, it is claimed once at most. -/
theorem Transfers.claims_once (h : Transfers s s')
    (hnone : s'.journal.registerCount id = s.journal.registerCount id) : ClaimsOnce id s s' := by
  induction h with
  | refl => exact .inl ⟨rfl, rfl⟩
  | @tail t s' hbefore hlast ih =>
    have hfirst := Journal.registerCount_le_of_suffix (Transfers.journal_suffix hbefore) id
    have hsecond := Journal.registerCount_le_of_suffix hlast.journal_suffix id
    have hlatest : ClaimsOnce id t s' := hlast.claimsOnce (by omega)
    rcases ih (by omega) with ⟨hsame, hcount⟩ | ⟨hwaited, hgone, hcount⟩
    · rw [ClaimsOnce, hsame, hcount] at hlatest
      exact hlatest
    · rcases hlatest with ⟨hstays, hmore⟩ | ⟨⟨call, hcall⟩, -⟩
      · exact .inr ⟨hwaited, hstays.trans hgone, hmore.trans hcount⟩
      · rw [hgone] at hcall
        cases hcall

end State

/-! ## All runs -/

/-- The registry of the engine has held its calls. -/
def Host.Holds {σ : Type} (h h' : Host σ) : Prop := h.state.Holds h'.state

instance {σ : Type} : IsPreorder (Host σ) Host.Holds where
  refl h := State.Holds.refl h.state
  trans _ _ _ := State.Holds.trans

variable {σ : Type}

/-- Whatever anybody asks for, the registry holds its calls. -/
theorem Environment.allows_holds (env : Environment σ) :
    env.Allows True (fun _ => True) Host.Holds :=
  env.allows_of_transfer (·.suffix) (fun h _ => State.Holds.refl h.state) .of_transfer

theorem Environment.callbacks_hold (env : Environment σ) (level : Nat) :
    (env.callbacks level).Along env.collaborators True Host.Holds :=
  callbacks_along env.allows_holds env.collaborators.askOnly_true level

end Correlator
