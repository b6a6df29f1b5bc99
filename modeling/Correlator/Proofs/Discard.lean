import Correlator.Proofs.Answers
import Correlator.Proofs.Dealings

/-!
# Discarded timeouts

A call may ask that its timeouts be discarded: then its fault handlers are cleared and none is run.
Faults are dealt with in four places, on two ways into the router, and whether a fault is a timeout
depends on its kind and on its code; but before a handler is called nobody gets in between, so the
reason for the call is what the journal says last.

What is noted of a fault is one of few things (`Journal.Grows`), and so is what a deed notes
(`State.Deed.grows`).  That is all that the rule depends on (`Journal.Discarding.of_grows`).

## Main results

* `Environment.Reaches.expiries_settled` : where nobody waits, every call that a sweep has claimed
  has been dealt with.
* `Environment.Reaches.respects_discard` : all runs respect the action of every call.
-/

namespace Correlator

variable {σ : Type} {allowed : Operation → Prop}

/-! ## What is noted -/

/-- The entry does not say how faults are dealt with. -/
def Entry.isPlain : Entry → Bool
  | .entered _ (.compensate ..) _ | .routing .. | .routed .. => false
  | _ => true

theorem Entry.isPlain_of_isNeutral {e : Entry} (h : e.isNeutral = true) : e.isPlain = true := by
  cases e with
  | registered | claimed | listed | routing | routed => cases h
  | entered level callback moment =>
    cases callback with
    | compensate => cases h
    | _ => rfl
  | _ => rfl

/-- How a deed that needs `need` and leaves `left` makes the journal grow. What is said of faults
comes one entry at a time, but for a discard, whose two entries nobody can separate. -/
inductive Journal.Grows (allowed : Operation → Prop) (j : Journal) :
    Undertakings → Undertakings → Journal → Prop
  /-- Nothing is said about faults.  Whatever call comes to hand has been claimed, a call that a
  sweep has claimed comes to hand, and it is let go when it has been dealt with. -/
  | plain {need left : Undertakings} (newer : Journal) (hplain : ∀ e ∈ newer, e.isPlain = true)
      (hclaimed : ∀ purpose call, .claimed purpose call ∈ left →
        .claimed purpose call ∈ need ∨ ∃ claimer, .claimed claimer call ∈ newer)
      (hexpired : ∀ now place call, .claimed (.sweep now place) call ∈ newer →
        .claimed .expiry call ∈ left)
      (hsettled : ∀ call, .claimed .expiry call ∈ need → .claimed .expiry call ∈ left ∨
        call.expiry.action = .drop ∨ j.EndsWith call (.timeout call.deadline)) :
      Grows allowed j need left (newer ++ j)
  | routing {purpose : Purpose} {call : Call} {cause : Fault} (level : Nat)
      (h : ¬ call.Discards cause) :
      Grows allowed j {.claimed purpose call} {.claimed purpose call}
        (.routing level call cause :: j)
  | routed {purpose : Purpose} {call : Call} {cause : Fault} {outcome : Disposition} (level : Nat)
      (msg : Message) (h : ¬ call.Discards cause) (houtcome : outcome ≠ .discarded) :
      Grows allowed j {.claimed purpose call} {.claimed purpose call}
        (.routed level call cause msg outcome :: j)
  | discarded {purpose : Purpose} {call : Call} {cause : Fault} (level : Nat) (msg : Message)
      (h : call.Discards cause) :
      Grows allowed j {.claimed purpose call} {.claimed purpose call}
        (.routed level call cause { msg with handlers := .empty, fault := some cause } .discarded ::
          .routing level call cause :: j)
  | called {level : Nat} {cause : Fault} (handler : Handler) (msg : Message) (m : Moment)
      (h : j.Compels allowed level cause) :
      Grows allowed j 0 {.handler} (.entered level (.compensate handler cause msg) m :: j)

theorem Journal.Grows.suffix {j j' : Journal} {need left : Undertakings}
    (h : j.Grows allowed need left j') : j <:+ j' := by
  cases h with
  | plain newer => exact List.suffix_append _ _
  | discarded => exact (List.suffix_cons _ _).trans (List.suffix_cons _ _)
  | routing | routed | called => exact List.suffix_cons _ _

namespace State

variable {s s' : State} {need left : Undertakings}

/-- A claim is noted, and then perhaps that peers have been told. -/
theorem journal_of_claim {claimer : Claimer} {id : CallId} {call : Call}
    (h : s.claim claimer id = (some call, s')) {t : State} (ht : t.journal = s'.journal) :
    ∃ newer, t.release.journal = newer ++ s.journal ∧ .claimed claimer call ∈ newer ∧
      ∀ e ∈ newer, e = .claimed claimer call ∨ e.isNeutral = true := by
  have hjournal := (claim_eq_some h).2.2.1
  rcases t.release_journal with hsame | ⟨state, hpublished⟩
  · refine ⟨[.claimed claimer call], ?_, List.mem_cons_self, by simp⟩
    rw [hsame, ht, hjournal]
    rfl
  · refine ⟨[.published state, .claimed claimer call], ?_, by simp, by simp [Entry.isNeutral]⟩
    rw [hpublished, ht, hjournal]
    rfl

theorem Life.journal (h : Life allowed s s') : s'.journal = s.journal := by
  cases h with
  | start => exact s.apart_start.journal
  | beginStop => exact s.apart_beginStop.journal
  | submit number t => exact (s.apart_submit number t).journal
  | _ => rfl

/-- A deed that claims a call leaves it in hand for what it has been claimed for. -/
theorem grows_of_claim (purpose : Purpose) {claimer : Claimer} {id : CallId} {call : Call}
    (hclaim : s.claim claimer id = (some call, s')) {t : State} (ht : t.journal = s'.journal)
    (hneed : ∀ c, .claimed .expiry c ∉ need)
    (hleft : ∀ p c, .claimed p c ∈ left ↔ p = purpose ∧ c = call)
    (hpurpose : ∀ now place, claimer = .sweep now place → purpose = .expiry) :
    s.journal.Grows allowed need left t.release.journal := by
  obtain ⟨newer, hjournal, hmem, hnewer⟩ := journal_of_claim hclaim ht
  rw [hjournal]
  refine .plain _ (fun e he => ?_) (fun p c hc => ?_) (fun now place c hc => ?_) fun c hc => ?_
  · rcases hnewer e he with rfl | hneutral
    · rfl
    · exact Entry.isPlain_of_isNeutral hneutral
  · obtain ⟨-, rfl⟩ := (hleft p c).mp hc
    exact .inr ⟨claimer, hmem⟩
  · rcases hnewer _ hc with heq | hneutral
    · obtain ⟨hclaimer, rfl⟩ := Entry.claimed.inj heq
      exact (hleft _ _).mpr ⟨(hpurpose now place hclaimer.symm).symm, rfl⟩
    · cases hneutral
  · exact absurd hc (hneed c)

theorem Deed.grows (h : Deed allowed need s left s') :
    s.journal.Grows allowed need left s'.journal := by
  have same {need left : Undertakings} (hneed : ∀ call, .claimed .expiry call ∉ need)
      (hleft : ∀ purpose call, .claimed purpose call ∉ left) :
      s.journal.Grows allowed need left s.journal :=
    .plain [] (fun _ => nofun) (fun p c hc => absurd hc (hleft p c)) (fun _ _ _ => nofun)
      fun c hc => absurd hc (hneed c)
  cases h with
  | neutral h =>
    cases h with
    | mk newer h =>
      refine .plain newer (fun e he => Entry.isPlain_of_isNeutral (h e he)) (by simp) ?_ (by simp)
      exact fun _ _ _ hmem => Bool.noConfusion (h _ hmem)
  | life h => exact h.journal ▸ same (by simp) (by simp)
  | timed => exact same (by simp) (by simp)
  | begun => exact same (by simp) (by simp)
  | died => exact same (by simp) (by simp)
  | @enrolled _ _ call _ _ _ h =>
    rw [(enroll_eq_ok h).2.2.1]
    exact .plain [.registered call, .published _] (by simp [Entry.isPlain]) (by simp)
      (by simp) (by simp)
  | sent => exact same (by simp) (by simp)
  | abandoned h => exact grows_of_claim .cleanUp h rfl (by simp) (by simp) nofun
  | unmatched h => exact (collect_eq_none h).aside.journal ▸ same (by simp) (by simp)
  | collected h =>
    obtain ⟨t, hclaim, hquiet⟩ := collect_eq_some h
    exact grows_of_claim .response hclaim hquiet.aside.journal (by simp) (by simp)
      nofun
  | responded => exact same (by simp) (by simp)
  | locked =>
    exact .plain [.listed _ _] (by simp [Entry.isPlain]) (by simp) (by simp) (by simp)
  | relieved => exact same (by simp) (by simp)
  | overtaken => exact same (by simp) (by simp)
  | @expired _ t _ _ _ _ _ h =>
    obtain ⟨_, hclaim, hquiet⟩ := claimExpired_eq_some h
    exact grows_of_claim .expiry hclaim
      (t := { t with metrics := { t.metrics with timeouts := t.metrics.timeouts + 1 } })
      hquiet.aside.journal (by simp) (by simp) (by simp)
  | unlocked => exact same (by simp) (by simp)
  | routing level h => exact .routing level h
  | routed level msg h houtcome => exact .routed level msg h houtcome
  | discarded level msg h => exact .discarded level msg h
  | settled hresponse hexpiry =>
    refine .plain [] (fun _ => nofun) (by simp) (by simp) fun c hc => ?_
    obtain ⟨rfl, rfl⟩ := Undertaking.claimed.inj (Multiset.mem_singleton.mp hc)
    exact .inr (hexpiry rfl)
  | called handler msg h => exact .called handler msg _ h
  | ran => exact same (by simp) (by simp)
  | notRun => exact same (by simp) (by simp)

theorem Deed.journal_suffix (h : Deed allowed need s left s') : s.journal <:+ s'.journal :=
  h.grows.suffix

theorem Deeds.journal_suffix {d d' : Undertakings} (h : Deeds allowed d s d' s') :
    s.journal <:+ s'.journal :=
  h.keeps (P := fun _ later => s.journal <:+ later.journal)
    (fun hdeed hs => hs.trans hdeed.journal_suffix) (List.suffix_refl _)

end State

/-! ## What the journal keeps to -/

/-- The entry stands where it may stand, after what has happened. -/
structure Entry.IsFitting (allowed : Operation → Prop) (past : Journal) (e : Entry) : Prop where
  called : ∀ level handler cause msg m, e = .entered level (.compensate handler cause msg) m →
    past.Compels allowed level cause
  routing : ∀ level call cause, e = .routing level call cause →
    ∃ claimer, .claimed claimer call ∈ past
  routed : ∀ level call cause msg outcome, e = .routed level call cause msg outcome →
    (outcome = .discarded ↔ call.Discards cause)
  next : ∀ level call cause older, past = .routing level call cause :: older →
    call.Discards cause → ∃ msg : Message,
      e = .routed level call cause { msg with handlers := .empty, fault := some cause } .discarded

/-- After a call has been claimed its expiry has been dealt with, if there was anything to do. -/
def Journal.SettlesSince (j past : Journal) (call : Call) : Prop :=
  call.expiry.action = .drop ∨ ∃ level msg outcome older,
    .routed level call (.timeout call.deadline) msg outcome :: older <:+ j ∧ past <:+ older

/-- Every entry stands where it may stand, in view of what is in hand. -/
structure Journal.Discarding (allowed : Operation → Prop) (d : Undertakings) (j : Journal) :
    Prop where
  fitting : j.Each (Entry.IsFitting allowed)
  /-- A timeout that is discarded is not left at that. -/
  closed : ∀ level call cause older, j = .routing level call cause :: older →
    ¬ call.Discards cause
  held : ∀ purpose call, .claimed purpose call ∈ d → ∃ claimer, .claimed claimer call ∈ j
  /-- A call that a sweep has claimed has been dealt with, or is in hand. -/
  expired : ∀ now place call past, .claimed (.sweep now place) call :: past <:+ j →
    .claimed .expiry call ∈ d ∨ j.SettlesSince (.claimed (.sweep now place) call :: past) call

namespace Journal

variable {d others need left : Undertakings} {j j' newer past : Journal} {e : Entry}

/-- What stands in the journal stands in the newer part or is old. -/
theorem mem_or_suffix (h : e :: past <:+ newer ++ j) : e ∈ newer ∨ e :: past <:+ j := by
  induction newer with
  | nil => exact .inr h
  | cons latest newer ih =>
    rcases List.suffix_cons_iff.mp h with heq | holder
    · exact .inl ((List.cons.inj heq).1 ▸ List.mem_cons_self)
    · exact (ih holder).imp_left (List.mem_cons_of_mem latest)

theorem SettlesSince.append {call : Call} (h : j.SettlesSince past call) (newer : Journal) :
    (newer ++ j).SettlesSince past call := by
  refine h.imp_right fun ⟨level, msg, outcome, older, hrouted, hpast⟩ => ?_
  exact ⟨level, msg, outcome, older, hrouted.trans (List.suffix_append _ _), hpast⟩

theorem fitting_of_isPlain (hplain : e.isPlain = true)
    (hclosed : ∀ level call cause older, past = .routing level call cause :: older →
      ¬ call.Discards cause) : e.IsFitting allowed past := by
  constructor
  · rintro level handler cause msg m rfl
    cases hplain
  · rintro level call cause rfl
    cases hplain
  · rintro level call cause msg outcome rfl
    cases hplain
  · exact fun level call cause older heq hcause =>
      absurd hcause (hclosed level call cause older heq)

namespace Discarding

theorem init : Discarding allowed 0 [] :=
  ⟨trivial, fun _ _ _ _ => nofun, fun _ _ h => absurd h (Multiset.notMem_zero _),
    fun _ _ _ _ h => absurd (List.suffix_nil.mp h) (List.cons_ne_nil _ _)⟩

/-- Only the calls in hand matter. -/
theorem congr {d' : Undertakings} (h : Discarding allowed d j)
    (hd : ∀ purpose call, .claimed purpose call ∈ d' ↔ .claimed purpose call ∈ d) :
    Discarding allowed d' j := by
  refine ⟨h.fitting, h.closed, fun p c hc => h.held p c ((hd p c).mp hc), ?_⟩
  exact fun now place c past hsuffix =>
    (h.expired now place c past hsuffix).imp_left (hd .expiry c).mpr

/-- Entries that fit and do not claim anything. -/
theorem extend (newer : Journal) (h : Discarding allowed d j)
    (hclaim : ∀ claimer c, .claimed claimer c ∉ newer)
    (hfitting : (newer ++ j).Each (Entry.IsFitting allowed))
    (hclosed : ∀ level call cause older, newer ++ j = .routing level call cause :: older →
      ¬ call.Discards cause) : Discarding allowed d (newer ++ j) := by
  refine ⟨hfitting, hclosed, fun p c hc => ?_, fun now place c past hsuffix => ?_⟩
  · obtain ⟨claimer, hmem⟩ := h.held p c hc
    exact ⟨claimer, List.mem_append_right _ hmem⟩
  · rcases mem_or_suffix hsuffix with hnew | hold
    · exact absurd hnew (hclaim _ _)
    · exact (h.expired now place c past hold).imp_right fun hsettled => hsettled.append newer

/-- What follows need not be a discard. -/
theorem next (h : Discarding allowed d j) (e : Entry) (level : Nat) (call : Call) (cause : Fault)
    (older : Journal) (heq : j = .routing level call cause :: older)
    (hcause : call.Discards cause) :
    ∃ msg : Message, e = .routed level call cause
      { msg with handlers := .empty, fault := some cause } .discarded :=
  absurd hcause (h.closed level call cause older heq)

/-- Entries that say nothing about faults. -/
theorem plain (h : Discarding allowed (others + need) j)
    (hplain : ∀ e ∈ newer, e.isPlain = true)
    (hclaimed : ∀ purpose call, .claimed purpose call ∈ left →
      .claimed purpose call ∈ need ∨ ∃ claimer, .claimed claimer call ∈ newer)
    (hexpired : ∀ now place call, .claimed (.sweep now place) call ∈ newer →
      .claimed .expiry call ∈ left)
    (hsettled : ∀ call, .claimed .expiry call ∈ need → .claimed .expiry call ∈ left ∨
      call.expiry.action = .drop ∨ j.EndsWith call (.timeout call.deadline)) :
    Discarding allowed (others + left) (newer ++ j) := by
  have hentries : (newer ++ j).Each (Entry.IsFitting allowed) ∧ ∀ level call cause older,
      newer ++ j = .routing level call cause :: older → ¬ call.Discards cause := by
    clear hclaimed hexpired
    induction newer with
    | nil => exact ⟨h.fitting, h.closed⟩
    | cons latest newer ih =>
      obtain ⟨hfitting, hclosed⟩ := ih fun e he => hplain e (List.mem_cons_of_mem _ he)
      have hlatest := hplain latest List.mem_cons_self
      refine ⟨⟨fitting_of_isPlain hlatest hclosed, hfitting⟩, fun level call cause older heq => ?_⟩
      rw [(List.cons.inj heq).1] at hlatest
      cases hlatest
  refine ⟨hentries.1, hentries.2, fun p c hc => ?_, fun now place c past hsuffix => ?_⟩
  · have old (hold : .claimed p c ∈ others + need) :
        ∃ claimer, Entry.claimed claimer c ∈ newer ++ j := by
      obtain ⟨claimer, hmem⟩ := h.held p c hold
      exact ⟨claimer, List.mem_append_right _ hmem⟩
    rcases Multiset.mem_add.mp hc with hothers | hleft
    · exact old (Multiset.mem_add.mpr (.inl hothers))
    · rcases hclaimed p c hleft with hneed | ⟨claimer, hmem⟩
      · exact old (Multiset.mem_add.mpr (.inr hneed))
      · exact ⟨claimer, List.mem_append_left _ hmem⟩
  · rcases mem_or_suffix hsuffix with hnew | hold
    · exact .inl (Multiset.mem_add.mpr (.inr (hexpired now place c hnew)))
    · rcases h.expired now place c past hold with hhand | hdone
      · rcases Multiset.mem_add.mp hhand with hothers | hneed
        · exact .inl (Multiset.mem_add.mpr (.inl hothers))
        · rcases hsettled c hneed with hleft | hdrop | ⟨level, msg, outcome, older, rfl⟩
          · exact .inl (Multiset.mem_add.mpr (.inr hleft))
          · exact .inr (.inl hdrop)
          · -- What is dealt with last has been claimed before.
            have hbefore : .claimed (.sweep now place) c :: past <:+ older := by
              rcases List.suffix_cons_iff.mp hold with heq | holder
              · cases (List.cons.inj heq).1
              · exact holder
            exact .inr (.inr ⟨level, msg, outcome, older, List.suffix_append _ _, hbefore⟩)
      · exact .inr (hdone.append newer)

theorem of_grows (hj : Discarding allowed (others + need) j) (h : j.Grows allowed need left j') :
    Discarding allowed (others + left) j' := by
  have routing (purpose : Purpose) (call : Call) (level : Nat) (cause : Fault)
      (hheld : .claimed purpose call ∈ others + need) :
      Entry.IsFitting allowed j (.routing level call cause) := by
    constructor
    · exact fun _ _ _ _ _ => nofun
    · rintro _ _ _ ⟨⟩
      exact hj.held purpose call hheld
    · exact fun _ _ _ _ _ => nofun
    · exact hj.next _
  cases h with
  | plain newer hplain hclaimed hexpired hsettled =>
    exact hj.plain hplain hclaimed hexpired hsettled
  | @routing purpose call cause level h =>
    have hfits := routing purpose call level cause (by simp)
    refine hj.extend [.routing level call cause] (by simp) ⟨hfits, hj.fitting⟩ ?_
    rintro _ _ _ _ ⟨⟩
    exact h
  | @routed purpose call cause outcome level msg h houtcome =>
    have hfits : Entry.IsFitting allowed j (.routed level call cause msg outcome) := by
      constructor
      · exact fun _ _ _ _ _ => nofun
      · exact fun _ _ _ => nofun
      · rintro _ _ _ _ _ ⟨⟩
        exact iff_of_false houtcome h
      · exact hj.next _
    refine hj.extend [.routed level call cause msg outcome] (by simp)
      ⟨hfits, hj.fitting⟩ fun _ _ _ _ => nofun
  | @discarded purpose call cause level msg h =>
    have hrouting := routing purpose call level cause (by simp)
    have hrouted : Entry.IsFitting allowed (.routing level call cause :: j)
        (.routed level call cause { msg with handlers := .empty, fault := some cause }
          .discarded) := by
      constructor
      · exact fun _ _ _ _ _ => nofun
      · exact fun _ _ _ => nofun
      · rintro _ _ _ _ _ ⟨⟩
        exact iff_of_true rfl h
      · rintro _ _ _ _ ⟨⟩ -
        exact ⟨msg, rfl⟩
    exact hj.extend [.routed level call cause _ .discarded, .routing level call cause]
      (by simp) ⟨hrouted, hrouting, hj.fitting⟩ fun _ _ _ _ => nofun
  | @called level cause handler msg m h =>
    have hfits : Entry.IsFitting allowed j (.entered level (.compensate handler cause msg) m) := by
      constructor
      · rintro _ _ _ _ _ ⟨⟩
        exact h
      · exact fun _ _ _ => nofun
      · exact fun _ _ _ _ _ => nofun
      · exact hj.next _
    rw [add_zero] at hj
    have hextended := hj.extend [.entered level (.compensate handler cause msg) m]
      (by simp) ⟨hfits, hj.fitting⟩ fun _ _ _ _ => nofun
    exact hextended.congr (by simp)

end Discarding

end Journal

/-! ## Reports of the transport -/

/-- A response that reports a timeout to a call that discards those calls nobody: it is claimed,
counted out and routed in one stretch. -/
theorem respond_of_discards {callbacks : Callbacks σ} {host : Host σ} {id : CallId} {call : Call}
    {cause : Fault} {response : Response} (hfind : host.state.registry.find? id = some call)
    (hpending : call.completion = .pending) (hkind : response.kind = .sendFailed cause)
    (hcause : call.Discards cause) :
    ∃ msg later past,
      respond callbacks id response host = .ended (.sendFailed .discarded) later ∧
        later.state.journal =
          .routed callbacks.level call.marked cause msg .discarded :: past ∧
        msg.handlers = .empty ∧ msg.fault = some cause := by
  have hcollect : (host.state.collect .response id).1 = some call.marked := by
    simp only [State.collect, Registry.collect, Registry.claim?, hfind, Call.mark, hpending]
    rfl
  have hmarked : call.marked.Discards cause := hcause
  unfold respond deliver settleFault
  rw [Run.apply_bind, hcollect]
  dsimp only
  rw [hkind, Run.update_bind]
  dsimp only
  rw [Work.bind_apply, Run.update_bind, Work.bind_apply, Run.update_bind, Work.bind_apply,
    routeFault_of_discard (Fault.isDiscarded_iff.mp hmarked)]
  exact ⟨_, _, _, rfl, rfl, rfl, rfl⟩

namespace Environment

variable {env : Environment σ} {depth : Nat} {site : Site (Host σ)}

/-- Whatever is in hand, faults are dealt with as their calls ask. -/
theorem Reaches.discarding (hindirect : ∀ op, allowed op → op.IsIndirect)
    (hcol : env.collaborators.AskOnly allowed) (h : env.Reaches allowed depth site) :
    ∃ d, (site.suspended = [] → d = 0) ∧
      Journal.Discarding allowed d site.state.state.journal :=
  h.borne hindirect hcol (P := fun d s => Journal.Discarding allowed d s.journal)
    (fun _ _ _ => .init) fun hdeed hs => hs.of_grows hdeed.grows

/-- Where nobody waits, every call that a sweep has claimed has been dealt with. A claimed call is
in hand until it is settled, and where nobody waits nothing is in hand. -/
theorem Reaches.expiries_settled (hindirect : ∀ op, allowed op → op.IsIndirect)
    (hcol : env.collaborators.AskOnly allowed) (h : env.Reaches allowed depth site)
    (hnobody : site.suspended = []) {now : Millis} {place : Nat} {call : Call} {past : Journal}
    (hclaim : .claimed (.sweep now place) call :: past <:+ site.state.state.journal) :
    site.state.state.journal.SettlesSince (.claimed (.sweep now place) call :: past) call := by
  obtain ⟨d, hd, hdiscarding⟩ := h.discarding hindirect hcol
  rcases hdiscarding.expired now place call past hclaim with hhand | hsettled
  · rw [hd hnobody] at hhand
    exact absurd hhand (Multiset.notMem_zero _)
  · exact hsettled

/-- What it means that discarded timeouts are respected on every way, for a run that has arrived
somewhere. -/
structure RespectsDiscard (env : Environment σ) (allowed : Operation → Prop)
    (site : Site (Host σ)) : Prop where
  /-- A fault handler is called because a fault of a call is to be dealt with that is no timeout
  which the call discards, or because somebody asks for the handler and not for a call. -/
  called : ∀ level handler cause msg m past,
    .entered level (.compensate handler cause msg) m :: past <:+ site.state.state.journal →
    (∃ call older, past = .routing level call cause :: older ∧ ¬ call.Discards cause) ∨
      (∃ op, allowed op ∧ op.Consults cause) ∧ ∃ m older, past = .asked level m :: older
  /-- A timeout that the call discards is discarded at once, which clears the handlers of the
  message and records the cause on it. -/
  discarded : ∀ level call cause past,
    .routing level call cause :: past <:+ site.state.state.journal → call.Discards cause →
    ∃ msg : Message, msg.handlers = .empty ∧ msg.fault = some cause ∧
      .routed level call cause msg .discarded :: .routing level call cause :: past <:+
        site.state.state.journal
  /-- Nothing else is discarded. -/
  outcome : ∀ level call cause msg outcome past,
    .routed level call cause msg outcome :: past <:+ site.state.state.journal →
    (outcome = .discarded ↔ call.Discards cause)
  /-- Faults are those of calls as they were registered. -/
  own : ∀ level call cause past,
    .routing level call cause :: past <:+ site.state.state.journal →
    ∃ own, .registered own ∈ past ∧ call = own.marked
  /-- A call that discards timeouts and was claimed by a sweep has been discarded since, where
  nobody waits. -/
  expired : site.suspended = [] → ∀ now place call past,
    .claimed (.sweep now place) call :: past <:+ site.state.state.journal →
    call.expiry.action = .discard → ∃ level msg older,
      .routed level call (.timeout call.deadline) msg .discarded :: older <:+
        site.state.state.journal ∧ .claimed (.sweep now place) call :: past <:+ older
  /-- A timeout that the transport reports is discarded, at every level of nesting. -/
  reported : ∀ level (host : Host σ) id call response cause,
    host.state.registry.find? id = some call → call.completion = .pending →
    response.kind = .sendFailed cause → call.Discards cause → ∃ msg later past,
      respond (env.callbacks level) id response host = .ended (.sendFailed .discarded) later ∧
        later.state.journal =
          .routed (env.callbacks level).level call.marked cause msg .discarded :: past ∧
        msg.handlers = .empty ∧ msg.fault = some cause

/-- In every run of an engine a timeout is discarded if and only if its call asks for that, whoever
finds the timeout, and then no fault handler is called. All of it is read off what fits in the
journal (`Entry.IsFitting`). -/
theorem Reaches.respects_discard (hindirect : ∀ op, allowed op → op.IsIndirect)
    (hcol : env.collaborators.AskOnly allowed) (h : env.Reaches allowed depth site) :
    env.RespectsDiscard allowed site := by
  obtain ⟨d, -, hdiscarding⟩ := h.discarding hindirect hcol
  have hfits (e : Entry) (past : Journal) (hsuffix : e :: past <:+ site.state.state.journal) :
      e.IsFitting allowed past := hdiscarding.fitting.of_suffix hsuffix
  constructor
  case called =>
    intro level handler cause msg m past hsuffix
    -- A handler was called, so the entry before gives the reason; there are two kinds of it.
    have hcompels := (hfits _ _ hsuffix).called level handler cause msg m rfl
    unfold Journal.Compels at hcompels
    split at hcompels
    · obtain ⟨rfl, rfl, hcause⟩ := hcompels
      exact .inl ⟨_, _, rfl, hcause⟩
    · obtain ⟨rfl, hasked⟩ := hcompels
      exact .inr ⟨hasked, _, _, rfl⟩
    · exact hcompels.elim
  case discarded =>
    intro level call cause past hsuffix hcause
    obtain ⟨newer, hjournal⟩ := hsuffix
    -- The journal does not end with it, and what was noted next is the discard.
    rcases List.eq_nil_or_concat newer with rfl | ⟨rest, next, rfl⟩
    · exact absurd hcause (hdiscarding.closed level call cause past hjournal.symm)
    · rw [List.concat_eq_append, List.append_assoc] at hjournal
      have hnext : next :: .routing level call cause :: past <:+ site.state.state.journal :=
        ⟨rest, hjournal⟩
      obtain ⟨msg, rfl⟩ := (hfits _ _ hnext).next level call cause past rfl hcause
      exact ⟨_, rfl, rfl, hnext⟩
  case outcome =>
    intro level call cause msg outcome past hsuffix
    exact (hfits _ _ hsuffix).routed level call cause msg outcome rfl
  case own =>
    intro level call cause past hsuffix
    obtain ⟨claimer, hmem⟩ := (hfits _ _ hsuffix).routing level call cause rfl
    obtain ⟨newer, older, rfl⟩ := List.append_of_mem hmem
    have hclaim : .claimed claimer call :: older <:+ site.state.state.journal :=
      ((List.suffix_append newer _).trans (List.suffix_cons _ _)).trans hsuffix
    -- What is claimed has been registered, by the order that every run keeps.
    obtain ⟨own, hown, hcall⟩ := (h.orderly hcol).derived.of_suffix hclaim
    exact ⟨own, List.mem_append_right _ (List.mem_cons_of_mem _ hown), hcall⟩
  case expired =>
    intro hnobody now place call past hclaim haction
    rcases h.expiries_settled hindirect hcol hnobody hclaim with hdrop | hsettled
    · rw [haction] at hdrop
      cases hdrop
    · obtain ⟨level, msg, outcome, older, hrouted, hpast⟩ := hsettled
      have hdiscards : call.Discards (.timeout call.deadline) := ⟨.inl rfl, haction⟩
      obtain rfl := ((hfits _ _ hrouted).routed _ _ _ _ _ rfl).mpr hdiscards
      exact ⟨level, msg, older, hrouted, hpast⟩
  case reported =>
    intro level host id call response cause hfind hpending hkind hcause
    exact respond_of_discards hfind hpending hkind hcause

end Environment

/-! ## A run in which timeouts are discarded -/

/-- The operation goes through the engine and asks for no fault handler by itself. -/
def Operation.SparesHandlers : Operation → Prop
  | .register _ | .collect _ | .claim _ | .acquire | .release
  | .runHandler .. | .routeFault .. => False
  | _ => True

/-- Fault handlers dispatch a call that discards its timeouts. -/
def Environment.discarding : Environment Unit where
  collaborators :=
    { Collaborators.idle with
      compensate := fun _ _ msg =>
        .ask (.dispatch (.plain "c") { action := .discard, term := .perCall 5 }) fun _ =>
          .done (msg, .returned ()) }
  rounds := 4

/-- The transport reports that the call "a" came too late; "b" expires and runs a fault handler; "c"
expires after that. -/
def Program.discardTwice : Program Unit Unit :=
  .ask (.dispatch (.plain "a") { action := .discard }) fun _ =>
    .ask (.respond ⟨"a"⟩
      { kind := .sendFailed (.sending FaultCode.callbackTimeout "too late") }) fun _ =>
    .ask (.dispatch (.plain "b") { term := .perCall 5 }) fun _ =>
    .ask (.sweepAsOf 5) fun _ => .ask (.sweepAsOf 10) fun _ => .done ()

def Site.afterDiscards : Site (Host Unit) :=
  (Environment.discarding.complete 2 .discardTwice { state := ⟨State.init {} {} 0, ()⟩ }).2

theorem discarding_askOnly :
    Environment.discarding.collaborators.AskOnly Operation.SparesHandlers :=
  { idle_askOnly Operation.SparesHandlers with
    compensate := fun _ _ _ => ⟨trivial, fun _ => trivial⟩ }

theorem afterDiscards_reaches :
    Environment.discarding.Reaches Operation.SparesHandlers 2 Site.afterDiscards :=
  .completed ⟨trivial, fun _ => ⟨trivial, fun _ => ⟨trivial, fun _ => ⟨trivial, fun _ =>
    ⟨trivial, fun _ => trivial⟩⟩⟩⟩⟩ (.fresh {} {} 0 ())

/-- Two timeouts have been discarded, one that was reported and one that a sweep found, and the one
handler that was called was called for the third. -/
theorem respects_discard_afterDiscards :
    (∀ level handler cause msg m past,
      .entered level (.compensate handler cause msg) m :: past <:+
        Site.afterDiscards.state.state.journal →
      ∃ call older, past = .routing level call cause :: older ∧ ¬ call.Discards cause) ∧
    Site.afterDiscards.state.state.metrics.faultCounts = { handled := 1, discarded := 2 } := by
  have hindirect (op : Operation) (hop : op.SparesHandlers) : op.IsIndirect := by
    cases op with
    | register | collect | claim | acquire | release => exact hop.elim
    | _ => exact trivial
  have hrespects :=
    Environment.Reaches.respects_discard hindirect discarding_askOnly afterDiscards_reaches
  refine ⟨fun level handler cause msg m past hsuffix => ?_, by decide +kernel⟩
  rcases hrespects.called level handler cause msg m past hsuffix with hcall | ⟨⟨op, hop, hasks⟩, -⟩
  · exact hcall
  · cases op with
    | runHandler | routeFault => exact hop.elim
    | _ => exact hasks.elim

end Correlator
