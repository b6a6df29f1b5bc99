import Correlator.Proofs.Balance

/-!
# Ids that are used again

A sweep comes back to the ids that it has listed, and a dispatch whose send failed comes back to the
id that it has registered.  In between collaborators were called, so the call that waits under the
id may be another one by then: a response has claimed the first one and somebody has registered the
id anew (`Journal.Reuses`).  Both claim whatever waits.

So a sweep may expire a call that is not due, and a dispatch may clean up a call of another one.
That the id has been used again is the only way in which either happens.

## Main results

* `Environment.Reaches.expired_early_iff` : when a sweep expires a call that is not due.
* `Environment.Reaches.cleans_up_own_or_newer` : whose call a failed dispatch cleans up.
-/

namespace Correlator

/-- Since the place the call `first` has been claimed and its id has been registered anew; now
`newer` waits under it. In between the id may have been used any number of times. -/
def Journal.Reuses (j : Journal) (place : Nat) (first newer : Call) : Prop :=
  ∃ claimer between, (j.since place).story first.id =
    .registered newer :: between ++ [.claimed claimer first.marked]

/-- Every clean-up has gone on to the fault of the call that it claimed, and nothing but the
release came between. So if the clean-up has claimed the call of another dispatch, it is the
handlers of that other call that run. -/
def Journal.RoutesCleanUps (j : Journal) : Prop :=
  ∀ newer place call past, j = newer ++ .claimed (.failedSend place) call :: past →
    ∃ rest level e told, newer = rest ++ .routing level call (Fault.failedSend e) :: told ∧
      ∀ t ∈ told, ∃ state, t = .published state

namespace Journal

variable {j past : Journal}

theorem story_since (j : Journal) (place : Nat) (id : CallId) :
    (j.since place).story id ++ (j.upTo place).story id = j.story id := by
  rw [← story_append, since_append_upTo]

/-- An id is used again by one call at a time. -/
theorem Reuses.unique {place : Nat} {first newer other : Call} (h : j.Reuses place first newer)
    (h' : j.Reuses place first other) : newer = other := by
  obtain ⟨claimer, between, hnewer⟩ := h
  obtain ⟨claimer', between', hother⟩ := h'
  rw [hnewer] at hother
  cases (List.cons.inj hother).1
  rfl

theorem Reuses.story_ne_nil {place : Nat} {first newer : Call} (h : j.Reuses place first newer) :
    (j.since place).story first.id ≠ [] := by
  obtain ⟨claimer, between, hstory⟩ := h
  rw [hstory]
  exact List.cons_ne_nil _ _

/-- What waited under the id of a claim at an earlier place is what the claim gets, or the id has
been used again. There is no third case: an orderly story that does not begin with a claim of
`first` has nothing in it at all. -/
theorem claimed_first_or_newer {r : Registry} (hagrees : r.Agrees j) {claimer : Claimer}
    {call first : Call} (hclaim : .claimed claimer call :: past <:+ j) {place : Nat}
    (hid : first.id = call.id) (hfirst : InTurn ((past.upTo place).story first.id) (some first)) :
    ((past.since place).story first.id = [] ∧ call = first.marked) ∨
      ∃ newer, past.Reuses place first newer ∧ call = newer.marked := by
  obtain ⟨later, rfl⟩ := hclaim
  have hturn := hagrees.inTurn call.id
  rw [story_append, story_claimed, if_pos rfl] at hturn
  obtain ⟨left, hleft⟩ := hturn.earlier
  -- The claim is the last event of an orderly story, so before it the call waited.
  generalize hstory : past.story call.id = story at hleft
  cases hleft with
  | @claimed _ waiting _ _ hwaiting =>
    change first.id = waiting.id at hid
    change past.story waiting.id = story at hstory
    rw [← hstory, ← hid, ← story_since past place] at hwaiting
    rcases hfirst.reused hwaiting with ⟨hnone, rfl⟩ | ⟨between, claims, hreused⟩
    · exact .inl ⟨hnone, rfl⟩
    · exact .inr ⟨waiting, ⟨between, claims, hreused⟩, rfl⟩

/-! ## Clean-ups go on to the fault -/

theorem RoutesCleanUps.cons (h : j.RoutesCleanUps) {e : Entry}
    (he : ∀ place call, e ≠ .claimed (.failedSend place) call) :
    RoutesCleanUps (e :: j) := by
  intro newer place call past heq
  cases newer with
  | nil => exact absurd (List.cons.inj heq).1 (he place call)
  | cons latest newer =>
    obtain ⟨rfl, hj⟩ := List.cons.inj heq
    obtain ⟨rest, level, cause, told, rfl, htold⟩ := h newer place call past hj
    exact ⟨_ :: rest, level, cause, told, rfl, htold⟩

theorem RoutesCleanUps.cleanUp (h : j.RoutesCleanUps) {told : Journal}
    (htold : ∀ t ∈ told, ∃ state, t = .published state) (place level : Nat) (call : Call)
    (e : ErrorChain) :
    RoutesCleanUps (.routing level call (Fault.failedSend e) ::
      (told ++ .claimed (.failedSend place) call :: j)) := by
  intro newer place' call' past heq
  cases newer with
  | nil => cases (List.cons.inj heq).1
  | cons latest newer =>
    obtain ⟨rfl, hrest⟩ := List.cons.inj heq
    -- The claim in question is the new one, or it is older, or it is among what peers were told;
    -- the last is impossible.
    rcases List.append_eq_append_iff.mp hrest with ⟨more, rfl, hmore⟩ | ⟨more, rfl, hmore⟩
    · cases more with
      | nil =>
        obtain ⟨hentry, rfl⟩ := List.cons.inj hmore
        cases hentry
        exact ⟨[], level, e, told ++ [], rfl, by rwa [List.append_nil]⟩
      | cons first more =>
        obtain ⟨rfl, hj⟩ := List.cons.inj hmore
        obtain ⟨rest, level', cause, told', rfl, htold'⟩ := h more place' call' past hj
        refine ⟨.routing level call (Fault.failedSend e) ::
          (told ++ .claimed (.failedSend place) call :: rest), level', cause, told', ?_, htold'⟩
        rw [List.cons_append, List.append_assoc]
        rfl
    · cases more with
      | nil =>
        obtain ⟨hentry, rfl⟩ := List.cons.inj hmore
        cases hentry
        exact ⟨[], level, e, newer, rfl, fun t ht => htold t (List.mem_append_left _ ht)⟩
      | cons first more =>
        obtain ⟨rfl, -⟩ := List.cons.inj hmore
        obtain ⟨state, hstate⟩ := htold _ (List.mem_append_right _ List.mem_cons_self)
        cases hstate

end Journal

namespace State

variable {s s' : State}

theorem routesCleanUps_release (h : s.journal.RoutesCleanUps) :
    s.release.journal.RoutesCleanUps := by
  rcases s.release_journal with hsame | ⟨state, hpublished⟩
  · rw [hsame]
    exact h
  · rw [hpublished]
    exact h.cons fun _ _ => nofun

theorem Step.routesCleanUps (h : Step s s') (hs : s.journal.RoutesCleanUps) :
    s'.journal.RoutesCleanUps := by
  cases h with
  | aside h => exact h.journal ▸ hs
  | noted hbook _ =>
    refine hs.cons fun place call heq => ?_
    subst heq
    cases hbook
  | registered _ h =>
    rw [(enroll_eq_ok h).2.2.1]
    refine Journal.RoutesCleanUps.cons ?_ fun _ _ => nofun
    exact hs.cons fun _ _ => nofun
  | @refused _ call e h =>
    rw [(enroll_eq_error h).2]
    refine routesCleanUps_release ?_
    show s.acquire.2.journal.RoutesCleanUps
    rw [acquire_journal]
    exact hs.cons fun _ _ => nofun
  | claimed hother _ h =>
    refine routesCleanUps_release ?_
    rw [(claim_eq_some h).2.2.1]
    refine hs.cons fun place taken heq => ?_
    exact hother place (Entry.claimed.inj heq).1
  | @abandoned t place level id call e _ h =>
    have hclaimed := (claim_eq_some h).2.2.1
    show Journal.RoutesCleanUps (.routing level call (Fault.failedSend e) :: t.release.journal)
    rcases t.release_journal with hsame | ⟨state, hpublished⟩
    · rw [hsame, hclaimed]
      have hnone : ∀ u ∈ ([] : Journal), ∃ state, u = .published state := fun _ => nofun
      exact hs.cleanUp hnone place level call e
    · rw [hpublished, hclaimed]
      have hone : ∀ u ∈ ([.published state] : Journal), ∃ state, u = .published state :=
        fun u hu => ⟨state, List.mem_singleton.mp hu⟩
      exact hs.cleanUp hone place level call e

end State

namespace Environment

variable {σ : Type} {env : Environment σ} {depth : Nat} {site : Site (Host σ)}

/-! ## Sweeps -/

/-- A sweep claims what it has listed as due, unless the id has been used again since.  So it
expires a call that is not due exactly if the call it listed has been claimed and the id has been
registered anew, with a later deadline, before the sweep got there. -/
theorem Reaches.expired_early_iff (hcol : env.collaborators.AskOnly Operation.IsIndirect)
    (h : env.Reaches Operation.IsIndirect depth site) {now : Millis} {place : Nat} {call : Call}
    {past : Journal}
    (hclaim : .claimed (.sweep now place) call :: past <:+ site.state.state.journal) :
    ∃ listing prior due, past.upTo place = .listed now listing :: prior ∧
      listing.registry.find? call.id = some due ∧ due.isDue now = true ∧
      (((past.since place).story call.id = [] ∧ call = due.marked) ∨
        ∃ newer, past.Reuses place due newer ∧ call = newer.marked) ∧
      (call.isDue now = false ↔
        ∃ newer, past.Reuses place due newer ∧ newer.isDue now = false) := by
  obtain ⟨hnow, heach⟩ := h.agrees hcol
  have hwhy := (heach.of_suffix hclaim).claim _ _ rfl
  cases hwhy with
  | @sweep _ _ listing prior hlisted hmem =>
    have hsuffix : .listed now listing :: prior <:+ site.state.state.journal := by
      rw [← hlisted]
      exact (past.upTo_suffix place).trans ((List.suffix_cons _ _).trans hclaim)
    -- The registry agreed with the journal when the sweep made its list, too.
    have hlisting := (heach.of_suffix hsuffix).moment listing rfl
    obtain ⟨due, hfind, hisDue⟩ := Registry.exists_due_of_mem_overdue hlisting.unique hmem
    have hid : due.id = call.id := Registry.id_of_find? hfind
    have hfirst : InTurn ((past.upTo place).story due.id) (some due) := by
      rw [hlisted, Journal.story_cons (fun _ => rfl), hid, ← hfind]
      exact hlisting.inTurn call.id
    have hcases := Journal.claimed_first_or_newer hnow hclaim hid hfirst
    refine ⟨listing, prior, due, hlisted, hfind, hisDue, hid ▸ hcases, ?_, ?_⟩
    · intro hearly
      rcases hcases with ⟨-, rfl⟩ | ⟨newer, hreuses, rfl⟩
      · change due.isDue now = false at hearly
        rw [hisDue] at hearly
        cases hearly
      · exact ⟨newer, hreuses, hearly⟩
    · rintro ⟨newer, hreuses, hlater⟩
      rcases hcases with ⟨hnone, -⟩ | ⟨other, hother, rfl⟩
      · exact absurd hnone hreuses.story_ne_nil
      · rw [← hreuses.unique hother]
        exact hlater

/-- A new engine has dispatched two calls and swept once they were due.  The fault handler of "a"
closes "b" and sends its message again. -/
def Site.afterSweep : Site (Host Bool) :=
  let p : Program Bool SweepSummary :=
    .ask (.dispatch (.plain "a") { term := .perCall 5 }) fun _ =>
      .ask (.dispatch (.plain "b") { term := .perCall 5 }) fun _ => .perform (.sweepAsOf 10)
  (Environment.resending.complete 2 p { state := ⟨State.init {} {} 0, true⟩ }).2

theorem afterSweep_reaches :
    Environment.resending.Reaches Operation.IsIndirect 2 Site.afterSweep :=
  .completed ⟨trivial, fun _ => ⟨trivial, fun _ => ⟨trivial, fun _ => trivial⟩⟩⟩
    (.fresh {} {} 0 true)

/-- The sweep at 10 expires the new call "b", which is due at 120000. -/
theorem expired_early_afterSweep :
    ∃ (place : Nat) (call due newer : Call) (past : Journal),
      .claimed (.sweep 10 place) call :: past <:+ Site.afterSweep.state.state.journal ∧
        call.isDue 10 = false ∧ past.Reuses place due newer ∧ newer.isDue 10 = false := by
  have hrun : ∃ c ∈ Site.afterSweep.state.state.journal.claims,
      c.1 = .sweep 10 14 ∧ c.2.1.isDue 10 = false := by decide +kernel
  obtain ⟨⟨claimer, call, past⟩, hmem, hclaimer, hearly⟩ := hrun
  obtain rfl : claimer = .sweep 10 14 := hclaimer
  have hsuffix := Journal.suffix_of_mem_claims hmem
  obtain ⟨listing, prior, due, -, -, -, -, hiff⟩ :=
    Reaches.expired_early_iff resending_askOnly afterSweep_reaches hsuffix
  obtain ⟨newer, hreuses, hlater⟩ := hiff.mp hearly
  exact ⟨14, call, due, newer, past, hsuffix, hearly, hreuses, hlater⟩

/-! ## Clean-ups -/

/-- A dispatch whose send failed claims the call that it has registered, unless the id has been
used again since; then it claims that other call.  The fault of the call that it claims is what it
turns to next. -/
theorem Reaches.cleans_up_own_or_newer (hcol : env.collaborators.AskOnly Operation.IsIndirect)
    (h : env.Reaches Operation.IsIndirect depth site) {place : Nat} {call : Call} {past : Journal}
    {later : Journal}
    (hclaim : site.state.state.journal = later ++ .claimed (.failedSend place) call :: past) :
    (∃ own prior, past.upTo place = .registered own :: prior ∧ own.id = call.id ∧
      (((past.since place).story own.id = [] ∧ call = own.marked) ∨
        ∃ newer, past.Reuses place own newer ∧ call = newer.marked)) ∧
    ∃ rest level e told, later = rest ++ .routing level call (Fault.failedSend e) :: told ∧
      ∀ t ∈ told, ∃ state, t = .published state := by
  obtain ⟨hnow, heach⟩ := h.agrees hcol
  have hsuffix : .claimed (.failedSend place) call :: past <:+ site.state.state.journal :=
    ⟨later, hclaim.symm⟩
  constructor
  · have hwhy := (heach.of_suffix hsuffix).claim _ _ rfl
    cases hwhy with
    | @failedSend _ own prior hown hid =>
      refine ⟨own, prior, hown, hid, ?_⟩
      refine Journal.claimed_first_or_newer hnow hsuffix hid ?_
      -- When the call had just been registered, it was what its id had left.
      have hturn := hnow.inTurn own.id
      have hplace : past.upTo place <:+ site.state.state.journal :=
        (past.upTo_suffix place).trans ((List.suffix_cons _ _).trans hsuffix)
      obtain ⟨newer, hnewer⟩ := hplace
      rw [← hnewer, Journal.story_append] at hturn
      obtain ⟨left, hleft⟩ := hturn.earlier
      rw [hown, Journal.story_registered, if_pos rfl] at hleft ⊢
      rwa [hleft.eq_some] at hleft
  · have hroutes : site.state.state.journal.RoutesCleanUps :=
      h.invariant (fun _ _ _ newer _ _ _ heq => by simp [State.init] at heq)
        (fun hs hstep => hstep.routesCleanUps hs) hcol
    exact hroutes later place call past hclaim

/-- The outer dispatch of "a" cleans up the call that the inner one has registered. -/
theorem cleans_up_newer_afterResend :
    ∃ (place : Nat) (call own newer : Call) (past : Journal),
      .claimed (.failedSend place) call :: past <:+ Site.afterResend.state.state.journal ∧
        past.Reuses place own newer ∧ call = newer.marked := by
  have hrun : ∃ c ∈ Site.afterResend.state.state.journal.claims,
      c.1 = .failedSend 3 ∧ ((c.2.2.since 3).story c.2.1.id).length ≠ 0 := by decide +kernel
  obtain ⟨⟨claimer, call, past⟩, hmem, hclaimer, hused⟩ := hrun
  obtain rfl : claimer = .failedSend 3 := hclaimer
  obtain ⟨later, hlater⟩ := Journal.suffix_of_mem_claims hmem
  obtain ⟨⟨own, prior, -, hid, hcases⟩, -⟩ :=
    Reaches.cleans_up_own_or_newer resending_askOnly afterResend_reaches hlater.symm
  rcases hcases with ⟨hnone, -⟩ | ⟨newer, hreuses, hcall⟩
  · rw [hid] at hnone
    exact absurd (congrArg List.length hnone) hused
  · exact ⟨3, call, own, newer, past, ⟨later, hlater⟩, hreuses, hcall⟩

end Environment

end Correlator
