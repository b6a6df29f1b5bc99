import Correlator.Proofs.Turns
import Mathlib.Algebra.Group.Basic

/-!
# Work with something in hand

While a piece of work waits, something of what it does may be half done: it has claimed a call and
not yet counted the response.  A property of the shared state that speaks of finished work is broken
for so long.  It can be restored if the property also knows what is in hand.

What is in hand is an element of a commutative monoid, so that several pieces of work have their sum
in hand.  `step i s i' s'` says that a stretch of work leads from the state `s`, with `i` in hand,
to the state `s'`, with `i'` in hand.  Whatever the others have in hand does not matter to it
(`Ledger.frame`).  `Progress.Carries` says of work that each of its stretches is such a step.
Unlike `Progress.Meets` it relies on nobody: the state may be any other when the work goes on.

At a site somebody waits for each part of what is in hand (`Site.Bears`).  So where nobody waits
nothing is in hand, and the property holds as it was meant.

## Main results

* `Progress.Carries.bind`, `Progress.Carries.frame` : one piece of work after another, and within
  another.
* `Crew.Carries.preserves`, `Crew.complete_bears` : a crew that goes step by step, and work from
  outside that does, leave a site at which only those who wait have something in hand.
-/

namespace Correlator

/-- Steps with something in hand compose, and do not depend on what others have in hand. The last
is what lets each piece of work be looked at alone. -/
class Ledger {I S : Type} [AddCommMonoid I] (step : I → S → I → S → Prop) : Prop where
  refl : ∀ i s, step i s i s
  trans : ∀ {i s i' s' i'' s''}, step i s i' s' → step i' s' i'' s'' → step i s i'' s''
  frame : ∀ (others : I) {i s i' s'}, step i s i' s' → step (others + i) s (others + i') s'

variable {I S τ α β : Type} {step : I → S → I → S → Prop}

/-- The steps of work that is done within other work, which has `own` in hand meanwhile. The steps
of the part are those of the whole with more in hand. -/
def Beside [AddCommMonoid I] (own : I) (step : I → S → I → S → Prop) (i : I) (s : S) (i' : I)
    (s' : S) : Prop :=
  step (own + i) s (own + i') s'

instance [AddCommMonoid I] [Ledger step] (own : I) : Ledger (Beside own step) where
  refl i s := Ledger.refl (own + i) s
  trans h h' := by
    unfold Beside at h h' ⊢
    exact Ledger.trans h h'
  frame others i s i' s' h := by
    unfold Beside at h ⊢
    have hframed := Ledger.frame others h
    rwa [add_left_comm others own i, add_left_comm others own i'] at hframed

/-! ## Progress -/

namespace Progress

variable {post : α → I → S → Prop} {post' : β → I → S → Prop}

/-- With `i` in hand from the state `s` on, each stretch of the work is a step, whatever state it
finds after its waits, and its end meets `post`. What is in hand stays in hand over a wait; it is
the state that may be any other by then. -/
def Carries (step : I → S → I → S → Prop) (post : α → I → S → Prop) :
    I → S → Progress S α → Prop
  | i, s, .ended a s' => ∃ i', step i s i' s' ∧ post a i' s'
  | i, s, .waiting _ s' next =>
    ∃ i', step i s i' s' ∧ ∀ s'', (next s'').Carries step post i' s''

theorem Carries.mono {post' : α → I → S → Prop} {i : I} {s : S} {p : Progress S α}
    (h : p.Carries step post i s) (hpost : ∀ a i' s', post a i' s' → post' a i' s') :
    p.Carries step post' i s := by
  induction p generalizing i s with
  | ended a t =>
    obtain ⟨i', ht, ha⟩ := h
    exact ⟨i', ht, hpost a i' t ha⟩
  | waiting wait t next ih =>
    obtain ⟨i', ht, hnext⟩ := h
    exact ⟨i', ht, fun t' => ih t' (hnext t')⟩

/-- Work that goes by some steps goes by all that take these in. -/
theorem Carries.mono_step {step' : I → S → I → S → Prop}
    (hstep : ∀ {i s i' s'}, step i s i' s' → step' i s i' s') {i : I} {s : S} {p : Progress S α}
    (h : p.Carries step post i s) : p.Carries step' post i s := by
  induction p generalizing i s with
  | ended a t =>
    obtain ⟨i', ht, ha⟩ := h
    exact ⟨i', hstep ht, ha⟩
  | waiting wait t next ih =>
    obtain ⟨i', ht, hnext⟩ := h
    exact ⟨i', hstep ht, fun t' => ih t' (hnext t')⟩

variable [AddCommMonoid I]

/-- What is done within other work is done with more in hand. -/
theorem Carries.of_beside {own i : I} {s : S} {p : Progress S α}
    (h : p.Carries (Beside own step) post i s) :
    p.Carries step (fun a i' s' => ∃ j, i' = own + j ∧ post a j s') (own + i) s := by
  induction p generalizing i s with
  | ended a t =>
    obtain ⟨j, ht, ha⟩ := h
    exact ⟨own + j, ht, j, rfl, ha⟩
  | waiting wait t next ih =>
    obtain ⟨j, ht, hnext⟩ := h
    exact ⟨own + j, ht, fun t' => ih t' (hnext t')⟩

/-- The work has nothing in hand when it begins and nothing when it has ended. In between, at its
waits, it may have something in hand. -/
abbrev Concludes (step : I → S → I → S → Prop) (post : α → S → Prop) (s : S)
    (p : Progress S α) : Prop :=
  p.Carries step (fun a i s' => i = 0 ∧ post a s') 0 s

variable [Ledger step]

theorem carries_ended {a : α} {i : I} {s : S} (h : post a i s) :
    (ended a s).Carries step post i s := ⟨i, Ledger.refl i s, h⟩

theorem Carries.of_earlier {i i' : I} {s s' : S} {p : Progress S α} (h : step i s i' s')
    (hp : p.Carries step post i' s') : p.Carries step post i s := by
  cases p with
  | ended a t =>
    obtain ⟨i'', ht, ha⟩ := hp
    exact ⟨i'', Ledger.trans h ht, ha⟩
  | waiting wait t next =>
    obtain ⟨i'', ht, hnext⟩ := hp
    exact ⟨i'', Ledger.trans h ht, hnext⟩

theorem Carries.bind {i : I} {s : S} {p : Progress S α} {f : α → Work S β}
    (hp : p.Carries step post i s)
    (hf : ∀ a i' s', post a i' s' → (f a s').Carries step post' i' s') :
    (p.bind f).Carries step post' i s := by
  induction p generalizing i s with
  | ended a t =>
    obtain ⟨i', ht, ha⟩ := hp
    exact (hf a i' t ha).of_earlier ht
  | waiting wait t next ih =>
    obtain ⟨i', ht, hnext⟩ := hp
    exact ⟨i', ht, fun t' => ih t' (hnext t')⟩

/-- Work that is done within other work leaves alone what that has in hand. -/
theorem Carries.frame (others : I) {i : I} {s : S} {p : Progress S α}
    (h : p.Carries step post i s) :
    p.Carries step (fun a i' s' => ∃ j, i' = others + j ∧ post a j s') (others + i) s := by
  have hbeside : p.Carries (Beside others step) post i s := h.mono_step (Ledger.frame others)
  exact hbeside.of_beside

/-- Work that takes nothing in hand can be done whatever is in hand. -/
theorem Concludes.bind {post : α → S → Prop} {i : I} {s : S} {p : Progress S α} {f : α → Work S β}
    (hp : p.Concludes step post s)
    (hf : ∀ a s', post a s' → (f a s').Carries step post' i s') :
    (p.bind f).Carries step post' i s := by
  have hframed := hp.frame i
  rw [add_zero] at hframed
  refine hframed.bind ?_
  rintro a i' s' ⟨j, rfl, rfl, ha⟩
  rw [add_zero]
  exact hf a s' ha

/-- What work takes in hand comes to what is in hand already. -/
theorem Carries.bind_framed {i j : I} {s : S} {p : Progress S α} {f : α → Work S β}
    (hp : p.Carries step post j s)
    (hf : ∀ a j' s', post a j' s' → (f a s').Carries step post' (i + j') s') :
    (p.bind f).Carries step post' (i + j) s := by
  refine (hp.frame i).bind ?_
  rintro a _ s' ⟨j', rfl, ha⟩
  exact hf a j' s' ha

end Progress

variable [AddCommMonoid I]

namespace Work

/-- Work that takes nothing in hand for longer than it lasts, from whatever state it begins at. -/
def Concludes (step : I → S → I → S → Prop) (work : Work S α) : Prop :=
  ∀ s, (work s).Concludes step (fun _ _ => True) s

variable [Ledger step]

theorem concludes_pure (a : α) : (pure a : Work S α).Concludes step := fun _ =>
  Progress.carries_ended ⟨rfl, trivial⟩

theorem concludes_await (wait : Wait S) : (await wait).Concludes step := fun s =>
  ⟨0, Ledger.refl 0 s, fun _ => Progress.carries_ended ⟨rfl, trivial⟩⟩

theorem concludes_bind {work : Work S α} {f : α → Work S β} (hw : work.Concludes step)
    (hf : ∀ a, (f a).Concludes step) : (work >>= f).Concludes step := fun s =>
  (hw s).bind fun a s' _ => hf a s'

/-- Work that may have to wait before it begins. -/
theorem concludes_await_if (c : Prop) [Decidable c] (wait : Wait S) {work : Work S α}
    {post : α → S → Prop} (hw : ∀ s, (work s).Concludes step post s) (s : S) :
    ((if c then await wait >>= fun _ => work else work : Work S α) s).Concludes step post s := by
  split
  · exact (concludes_await wait s).bind fun _ later _ => hw later
  · exact hw s

theorem concludes_pause (now duration : Nat) :
    (pause now duration : Work S Unit).Concludes step := by
  unfold pause
  split
  · exact concludes_pure ()
  · exact concludes_await _

end Work

/-! ## Sites -/

namespace Crew

/-- What a party's item has to end with: nothing is in hand any more, once a worker that does not
survive is gone. -/
def Rests (crew : Crew S τ) (step : I → S → I → S → Prop) : Party → Bool → I → S → Prop
  | .worker number, false, i, s => step i s 0 (crew.dismiss false number s)
  | _, _, i, s => step i s 0 s

/-- The items of a crew, and what the crew does to its workers, go step by step. -/
structure Carries (crew : Crew S τ) (step : I → S → I → S → Prop) : Prop where
  setNow : ∀ time s, step 0 s 0 (crew.setNow (max (crew.now s) time) s)
  left : ∀ s, ∀ w ∈ crew.workers s, w.duty? (crew.now s) = some .leave →
    step 0 s 0 (crew.dismiss true w.number s)
  died : ∀ s, ∀ w ∈ crew.workers s, w.duty? (crew.now s) = some .die →
    step 0 s 0 (crew.dismiss false w.number s)
  work : ∀ s, ∀ w ∈ crew.workers s, ∀ item taken,
    w.duty? (crew.now s) = some (.take item taken) →
    (crew.work item (crew.modifyWorker w.number (fun _ => taken) s)).Carries step
      (crew.Rests step (.worker w.number)) 0 s

/-- The errands of a crew go step by step. -/
def ErrandsCarry (crew : Crew S τ) (step : I → S → I → S → Prop) : Prop :=
  ∀ s serial, (crew.errand s).Carries step (crew.Rests step (.errand serial)) 0 s

/-- Those who wait have `i` in hand: the sum of what each of them has, in the order in which they
wait. -/
inductive Bear (crew : Crew S τ) (step : I → S → I → S → Prop) : List (Suspended S) → I → Prop
  | nil : Bear crew step [] 0
  | cons {item : Suspended S} {items : List (Suspended S)} {i j : I}
      (hitem : ∀ s, (item.next s).Carries step (crew.Rests step item.party) i s)
      (h : Bear crew step items j) : Bear crew step (item :: items) (i + j)

namespace Bear

variable {crew : Crew S τ} {items : List (Suspended S)} {item : Suspended S} {i j : I}

/-- Those who wait have the same in hand by all steps that take these in. -/
theorem mono_step {step' : I → S → I → S → Prop}
    (hstep : ∀ {i s i' s'}, step i s i' s' → step' i s i' s') (h : crew.Bear step items i) :
    crew.Bear step' items i := by
  induction h with
  | nil => exact .nil
  | @cons item items i j hitem _ ih =>
    refine .cons (fun s => ?_) ih
    refine ((hitem s).mono_step hstep).mono fun survives i' s' hrests => ?_
    generalize item.party = party at hrests ⊢
    cases party with
    | errand serial => exact hstep hrests
    | worker number =>
      cases survives with
      | true => exact hstep hrests
      | false => exact hstep hrests

theorem append (h : crew.Bear step items i)
    (hitem : ∀ s, (item.next s).Carries step (crew.Rests step item.party) j s) :
    crew.Bear step (items ++ [item]) (i + j) := by
  induction h with
  | nil =>
    rw [zero_add, ← add_zero j]
    exact .cons hitem .nil
  | cons hfirst _ ih =>
    rw [add_assoc]
    exact .cons hfirst ih

/-- Whoever goes on has a part of it in hand, and those who still wait have the rest. Sums commute,
so it does not matter from where in the line the item is taken. -/
theorem erase {p : Suspended S → Bool} (h : crew.Bear step items i)
    (hfind : items.find? p = some item) :
    ∃ j rest, (∀ s, (item.next s).Carries step (crew.Rests step item.party) j s) ∧
      crew.Bear step (items.eraseP p) rest ∧ i = j + rest := by
  induction h with
  | nil => cases hfind
  | @cons first items j₁ j₂ hfirst hrest ih =>
    cases hp : p first with
    | true =>
      rw [List.find?_cons_of_pos hp] at hfind
      obtain rfl := Option.some.inj hfind
      rw [List.eraseP_cons_of_pos hp]
      exact ⟨j₁, j₂, hfirst, hrest, rfl⟩
    | false =>
      have hskip : ¬ p first = true := by simp [hp]
      rw [List.find?_cons_of_neg hskip] at hfind
      obtain ⟨j, rest, hitem, hleft, rfl⟩ := ih hfind
      rw [List.eraseP_cons_of_neg hskip]
      exact ⟨j, j₁ + rest, hitem, .cons hfirst hleft, add_left_comm _ _ _⟩

end Bear

end Crew

/-- A step leads from `i₀` in hand at `s₀` to this site, at which somebody from outside has `own`
in hand, and those who wait have the rest. It is the invariant of a run with work in hand. -/
def Site.Bears (crew : Crew S τ) (step : I → S → I → S → Prop) (i₀ : I) (s₀ : S) (own : I)
    (site : Site S) : Prop :=
  ∃ i, crew.Bear step site.suspended i ∧ step i₀ s₀ (own + i) site.state

namespace Site.Bears

variable {crew : Crew S τ} {i₀ own own' : I} {s₀ : S} {site site' : Site S}

/-- Lines and alarms do not matter. -/
theorem congr (h : site.Bears crew step i₀ s₀ own) (hstate : site'.state = site.state)
    (hsuspended : site'.suspended = site.suspended) : site'.Bears crew step i₀ s₀ own := by
  unfold Site.Bears
  rw [hstate, hsuspended]
  exact h

theorem setState [Ledger step] (h : site.Bears crew step i₀ s₀ own) {s : S}
    (hs : step own site.state own' s) :
    Site.Bears crew step i₀ s₀ own' { site with state := s } := by
  obtain ⟨i, hbear, hstep⟩ := h
  have hframed := Ledger.frame i hs
  rw [add_comm i own, add_comm i own'] at hframed
  exact ⟨i, hbear, Ledger.trans hstep hframed⟩

/-- Where nobody waits nothing is in hand but what somebody from outside has, so there the property
holds as it was meant. -/
theorem of_nobody (h : site.Bears crew step i₀ s₀ own) (hnobody : site.suspended = []) :
    step i₀ s₀ own site.state := by
  obtain ⟨i, hbear, hstep⟩ := h
  rw [hnobody] at hbear
  cases hbear
  rwa [add_zero] at hstep

end Site.Bears

namespace Crew

variable {crew : Crew S τ} {i₀ own : I} {s₀ : S} {site : Site S} [Ledger step]

/-- Whoever goes on, with `i` in hand, ends with nothing in hand or waits again. -/
theorem put_bears (party : Party) {i : I} (h : site.Bears crew step i₀ s₀ (own + i))
    {p : Progress S Bool} (hp : p.Carries step (crew.Rests step party) i site.state) :
    (crew.put party site p).Bears crew step i₀ s₀ own := by
  have rested {t : S} (ht : step i site.state 0 t) :
      Site.Bears crew step i₀ s₀ own { site with state := t } := by
    have hframed := Ledger.frame own ht
    rw [add_zero] at hframed
    exact h.setState hframed
  cases p with
  | waiting wait t next =>
    obtain ⟨i', ht, hnext⟩ := hp
    obtain ⟨j, hbear, hstep⟩ := h.setState (Ledger.frame own ht)
    refine ⟨j + i', hbear.append hnext, ?_⟩
    -- It waits again, now last in line, with what it has in hand by now.
    rwa [add_assoc, add_comm i' j] at hstep
  | ended survives t =>
    obtain ⟨i', ht, hrests⟩ := hp
    cases party with
    | errand serial => exact rested (Ledger.trans ht hrests)
    | worker number =>
      cases survives with
      | true => exact (rested (Ledger.trans ht hrests)).congr rfl rfl
      | false => exact (rested (Ledger.trans ht hrests)).congr rfl rfl

theorem turnTo_bears (hc : crew.Carries step) (h : site.Bears crew step i₀ s₀ own) {w : Worker τ}
    (hw : w ∈ crew.workers site.state) :
    (crew.turnTo site w).Bears crew step i₀ s₀ own := by
  have gone {left : Bool} (hgone : step 0 site.state 0 (crew.dismiss left w.number site.state)) :
      (crew.remove left w.number site).Bears crew step i₀ s₀ own := by
    have hframed := Ledger.frame own hgone
    rw [add_zero] at hframed
    exact (h.setState hframed).congr rfl rfl
  unfold turnTo
  dsimp only
  split
  · split
    · exact h
    · exact h.congr rfl rfl
  · rename_i hduty
    exact gone (hc.died site.state w hw hduty)
  · rename_i hduty
    exact gone (hc.left site.state w hw hduty)
  · rename_i item taken hduty
    refine put_bears _ ?_ (hc.work site.state w hw item taken hduty)
    rwa [add_zero]

theorem act_bears (hc : crew.Carries step) {party : Party}
    (herrand : ∀ serial, party = .errand serial → crew.ErrandsCarry step)
    (h : site.Bears crew step i₀ s₀ own) :
    (crew.act party site).Bears crew step i₀ s₀ own := by
  unfold act
  split
  · rename_i item hitem
    split
    · obtain ⟨i, hbear, hstep⟩ := h
      obtain ⟨j, rest, hnext, hleft, rfl⟩ := hbear.erase hitem
      have hparty : item.party = party := by simpa using List.find?_some hitem
      rw [hparty] at hnext
      -- Its part goes from those who wait to whoever goes on; the sum is the same.
      refine put_bears party ⟨rest, hleft, ?_⟩ (hnext site.state)
      rwa [← add_assoc] at hstep
    · exact h
  · cases party with
    | errand serial =>
      refine put_bears _ ?_ (herrand serial rfl site.state serial)
      rwa [add_zero]
    | worker number =>
      cases hw : crew.worker? number site.state with
      | none =>
        simp only [hw, Option.map_none, Option.getD_none]
        exact h
      | some w =>
        simp only [hw, Option.map_some, Option.getD_some]
        exact turnTo_bears hc h (List.mem_of_find?_eq_some hw)

theorem setTime_bears (hc : crew.Carries step) (time : Nat)
    (h : site.Bears crew step i₀ s₀ own) :
    (crew.setTime time site).Bears crew step i₀ s₀ own := by
  have hframed := Ledger.frame own (hc.setNow time site.state)
  rw [add_zero] at hframed
  exact (h.setState hframed).congr rfl rfl

omit [Ledger step] in
theorem released_bears (h : site.Bears crew step i₀ s₀ own) :
    site.released.Bears crew step i₀ s₀ own := by
  unfold Site.released Site.release?
  split
  · exact h
  · exact h.congr rfl rfl

/-- A crew that goes step by step, errands included, leaves what somebody from outside has in
hand. -/
theorem Carries.preserves (hc : crew.Carries step) (herrand : crew.ErrandsCarry step) (i₀ : I)
    (s₀ : S) (own : I) : crew.Preserves (Site.Bears crew step i₀ s₀ own) where
  callAll h := h.congr rfl rfl
  released h := released_bears h
  act h _ := act_bears hc (fun _ _ => herrand) (h.congr rfl rfl)
  setTime time h := setTime_bears hc time h

/-- If nobody asks for errands, only the items of the workers matter. -/
theorem Carries.preserves_errandless (hc : crew.Carries step) {i₀ : I} {s₀ : S}
    (hunasked : ∀ {i s}, step i₀ s₀ i s → crew.errands s = 0) (own : I) :
    crew.Preserves fun site => site.Bears crew step i₀ s₀ own ∧ site.IsErrandless where
  callAll h := by
    obtain ⟨i, -, hstep⟩ := h.1
    exact ⟨h.1.congr rfl rfl, h.2.callAll (hunasked hstep)⟩
  released h := ⟨released_bears h.1, h.2.released⟩
  act {site party line} h hline := by
    have hparty := h.2.line party (hline ▸ List.mem_cons_self)
    have herrandless : Site.IsErrandless { site with line } :=
      ⟨fun p hmem => h.2.line p (hline ▸ List.mem_cons_of_mem party hmem), h.2.suspended,
        h.2.alarms, h.2.called⟩
    refine ⟨act_bears hc (fun serial heq => absurd heq (hparty serial)) (h.1.congr rfl rfl), ?_⟩
    cases party with
    | worker number => exact herrandless.act number
    | errand serial => exact absurd rfl (hparty serial)
  setTime {site} time h := by
    have hbears := setTime_bears hc time h.1
    have ⟨i, _, hstep⟩ := hbears
    exact ⟨hbears, ((h.2.setState _).ringAlarms time).callAll (hunasked hstep)⟩

/-- If moreover only the worker `m` lives whatever comes, nobody else waits. This is how a run with
a single worker is known to have nobody else's work half done. -/
theorem Carries.preserves_staffed (hc : crew.Carries step) {i₀ : I} {s₀ : S} {m : Option Nat}
    (hunasked : ∀ {i s}, step i₀ s₀ i s → crew.errands s = 0)
    (hnumbers : ∀ {i s}, step i₀ s₀ i s → ∀ w ∈ crew.workers s, m = some w.number) (own : I) :
    crew.Preserves fun site =>
      site.Bears crew step i₀ s₀ own ∧ site.IsErrandless ∧ site.IsStaffed m := by
  have hcrew := hc.preserves_errandless hunasked own
  exact
    { callAll := fun h => ⟨(hcrew.callAll ⟨h.1, h.2.1⟩).1, (hcrew.callAll ⟨h.1, h.2.1⟩).2, h.2.2⟩
      released := fun h =>
        ⟨(hcrew.released ⟨h.1, h.2.1⟩).1, (hcrew.released ⟨h.1, h.2.1⟩).2, h.2.2.released⟩
      act := fun {site party line} h hline => by
        obtain ⟨hbears, herrandless⟩ := hcrew.act ⟨h.1, h.2.1⟩ hline
        refine ⟨hbears, herrandless, ?_⟩
        obtain ⟨i, -, hstep⟩ := h.1
        have hstaffed : Site.IsStaffed m { site with line } := h.2.2
        cases party with
        | worker number => exact hstaffed.act (hnumbers hstep) number
        | errand serial => exact absurd rfl (h.2.1.line _ (hline ▸ List.mem_cons_self) serial)
      setTime := fun time h =>
        ⟨(hcrew.setTime time ⟨h.1, h.2.1⟩).1, (hcrew.setTime time ⟨h.1, h.2.1⟩).2, h.2.2⟩ }

omit [AddCommMonoid I] [Ledger step] in
/-- Work that has begun knows the state already. -/
theorem complete_setState (spare : Nat) (p : Progress S α) (site : Site S) (s : S) :
    crew.complete spare p { site with state := s } = crew.complete spare p site := by
  cases p <;> rfl

/-- Work from outside that goes step by step is seen through at a site that keeps something else
too, which is no matter of the state.  The induction is on the work, which finds any state after
its waits. -/
theorem complete_bears {C : Site S → Prop}
    (hcrew : ∀ own, crew.Preserves fun site => site.Bears crew step i₀ s₀ own ∧ C site)
    (hC : ∀ {site : Site S} s, C site → C { site with state := s }) (spare : Nat)
    {post : α → I → S → Prop} {p : Progress S α} (h : site.Bears crew step i₀ s₀ own)
    (hsite : C site) (hp : p.Carries step post own site.state) :
    ∃ own', (crew.complete spare p site).2.Bears crew step i₀ s₀ own' ∧
      C (crew.complete spare p site).2 ∧
      post (crew.complete spare p site).1 own' (crew.complete spare p site).2.state := by
  induction p generalizing site own with
  | ended a t =>
    obtain ⟨own', ht, ha⟩ := hp
    exact ⟨own', h.setState ht, hC t hsite, ha⟩
  | waiting wait t next ih =>
    obtain ⟨own', ht, hnext⟩ := hp
    obtain ⟨hbears, hlater⟩ := (hcrew own').attend spare wait ⟨h.setState ht, hC t hsite⟩
    exact ih _ hbears hlater (hnext _)

end Crew

end Correlator
