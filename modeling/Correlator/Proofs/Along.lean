import Correlator.Proofs.Turns
import Mathlib.Order.Defs.Unbundled

/-!
# Work along a relation

Work that shares a state with others is seen at few places: where it begins, where it waits and
where it ends.  Between two of these nobody else can look at the state.  `Progress.Meets` says of
work that each such stretch leads from its state to a later one in the sense of a relation `rel`,
provided that the others, who go on while it waits, also only move along `rel`, and that what it
ends with meets a condition.  So `rel` is what the work guarantees and what it relies on at the same
time; a relation that is reflexive and transitive composes along a whole run.  Work that is not
patient never waits: it is a plain function on the state.

* `Progress.Meets.bind` : one piece of work and then another.  The second one may use that it
  begins later than the first, and what the first one has ended with.
* `Crew.Along.preserves`, `Crew.complete_isAlong` : a crew whose items go along `rel` moves its site
  along `rel`, however the turns fall, and so does work from outside that the crew attends.

The premise on a crew, `Crew.Along`, speaks of one item at a time; nothing is assumed about the
order of turns or about how much fuel a run has.
-/

namespace Correlator

/-! ## Progress and work -/

namespace Progress

variable {S α β : Type} {patient : Prop} {rel : S → S → Prop} {Q : α → S → Prop} {R : β → S → Prop}

/-- From the state `s` on, each stretch of the work leads along `rel`, whatever later states it
finds after its waits, and its end meets `post`. It waits only if it is patient. The relation is
used on both sides of a wait: the work guarantees it up to there, and relies on the others for the
rest. -/
def Meets (patient : Prop) (rel : S → S → Prop) (post : α → S → Prop) : S → Progress S α → Prop
  | s, .ended a s' => rel s s' ∧ post a s'
  | s, .waiting _ s' next =>
    patient ∧ rel s s' ∧ ∀ s'', rel s' s'' → (next s'').Meets patient rel post s''

/-- The same without a condition on the end. -/
abbrev Along (patient : Prop) (rel : S → S → Prop) (s : S) (p : Progress S α) : Prop :=
  p.Meets patient rel (fun _ _ => True) s

theorem Meets.mono {Q' : α → S → Prop} {s : S} {p : Progress S α} (h : p.Meets patient rel Q s)
    (hpost : ∀ a s', Q a s' → Q' a s') : p.Meets patient rel Q' s := by
  induction p generalizing s with
  | ended a t => exact ⟨h.1, hpost a t h.2⟩
  | waiting wait t next ih =>
    obtain ⟨hpatient, ht, hnext⟩ := h
    exact ⟨hpatient, ht, fun t' ht' => ih t' (hnext t' ht')⟩

theorem Meets.along {s : S} {p : Progress S α} (h : p.Meets patient rel Q s) :
    p.Along patient rel s := h.mono fun _ _ _ => trivial

/-- What ends has ended all the way. -/
theorem bind_eq_ended {p : Progress S α} {f : α → Work S β} {b : β} {s' : S}
    (h : p.bind f = .ended b s') : ∃ a s, p = .ended a s ∧ f a s = .ended b s' := by
  cases p with
  | ended a s => exact ⟨a, s, rfl, h⟩
  | waiting wait s next => cases h

/-- Work that is not patient ends at once. This is how statements about runs come down to plain
computation where nothing waits. -/
theorem Meets.ended_of_not_patient {s : S} {p : Progress S α} (h : p.Meets patient rel Q s)
    (hpatient : ¬ patient) : ∃ a s', p = .ended a s' ∧ rel s s' ∧ Q a s' := by
  cases p with
  | ended a t => exact ⟨a, t, rfl, h⟩
  | waiting wait t next => exact absurd h.1 hpatient

/-- Work that does not wait goes along every relation that its one stretch lies in. -/
theorem Meets.of_not_patient {patient' : Prop} {rel' : S → S → Prop} {s : S} {p : Progress S α}
    (h : p.Meets patient rel Q s) (hpatient : ¬ patient) (hrel : ∀ s', rel s s' → rel' s s') :
    p.Meets patient' rel' Q s := by
  obtain ⟨a, t, rfl, ht, hQ⟩ := h.ended_of_not_patient hpatient
  exact ⟨hrel t ht, hQ⟩

/-- The work can end with the result `a` in the state `s`, if the others go on along `rel` while it
waits. Unlike `Meets` this speaks of one end and not of all of them, so it can be taken apart at a
bind. -/
def CanEnd (rel : S → S → Prop) : Progress S α → α → S → Prop
  | .ended a' s', a, s => a' = a ∧ s' = s
  | .waiting _ s' next, a, s => ∃ s'', rel s' s'' ∧ (next s'').CanEnd rel a s

theorem CanEnd.of_ended {p : Progress S α} {a : α} {s : S} (h : p = .ended a s) :
    p.CanEnd rel a s := by
  rw [h]
  exact ⟨rfl, rfl⟩

theorem canEnd_bind {p : Progress S α} {f : α → Work S β} {b : β} {s' : S} :
    (p.bind f).CanEnd rel b s' ↔ ∃ a s, p.CanEnd rel a s ∧ (f a s).CanEnd rel b s' := by
  induction p with
  | ended a s => exact ⟨fun h => ⟨a, s, ⟨rfl, rfl⟩, h⟩, fun ⟨_, _, ⟨ha, hs⟩, h⟩ => ha ▸ hs ▸ h⟩
  | waiting wait t next ih =>
    constructor
    · rintro ⟨t', ht', hend⟩
      obtain ⟨a, s, ha, hs⟩ := (ih t').mp hend
      exact ⟨a, s, ⟨t', ht', ha⟩, hs⟩
    · rintro ⟨a, s, ⟨t', ht', ha⟩, hs⟩
      exact ⟨t', ht', (ih t').mpr ⟨a, s, ha, hs⟩⟩

variable [IsPreorder S rel]

/-- What all ends of work meet, each end meets. -/
theorem Meets.of_canEnd {s s' : S} {p : Progress S α} {a : α} (h : p.Meets patient rel Q s)
    (hend : p.CanEnd rel a s') : rel s s' ∧ Q a s' := by
  induction p generalizing s with
  | ended b t =>
    obtain ⟨rfl, rfl⟩ := hend
    exact h
  | waiting wait t next ih =>
    obtain ⟨-, ht, hnext⟩ := h
    obtain ⟨t', ht', hend⟩ := hend
    have hrest := ih t' (hnext t' ht') hend
    exact ⟨trans_of rel (trans_of rel ht ht') hrest.1, hrest.2⟩

/-- What goes along `rel` from a state also does so from every earlier one; transitivity is needed
here and only here. -/
theorem Meets.of_earlier {s s' : S} {p : Progress S α} (h : rel s s')
    (hp : p.Meets patient rel Q s') : p.Meets patient rel Q s := by
  cases p with
  | ended a t => exact ⟨trans_of rel h hp.1, hp.2⟩
  | waiting wait t next => exact ⟨hp.1, trans_of rel h hp.2.1, hp.2.2⟩

theorem Meets.bind {s : S} {p : Progress S α} {f : α → Work S β} (hp : p.Meets patient rel Q s)
    (hf : ∀ a s', rel s s' → Q a s' → (f a s').Meets patient rel R s') :
    (p.bind f).Meets patient rel R s := by
  induction p generalizing s with
  | ended a t => exact (hf a t hp.1 hp.2).of_earlier hp.1
  | waiting wait t next ih =>
    obtain ⟨hpatient, ht, hnext⟩ := hp
    refine ⟨hpatient, ht, fun t' ht' => ih t' (hnext t' ht') fun a s' hs' => hf a s' ?_⟩
    exact trans_of rel (trans_of rel ht ht') hs'

theorem Along.bind {s : S} {p : Progress S α} {f : α → Work S β} (hp : p.Along patient rel s)
    (hf : ∀ a s', rel s s' → (f a s').Meets patient rel R s') :
    (p.bind f).Meets patient rel R s :=
  Meets.bind hp fun a s' hs' _ => hf a s' hs'

end Progress

namespace Work

variable {S α β : Type} {patient : Prop} {rel : S → S → Prop}

/-- Work that goes along `rel` from whatever state it begins at. -/
def Along (patient : Prop) (rel : S → S → Prop) (work : Work S α) : Prop :=
  ∀ s, (work s).Along patient rel s

variable [IsPreorder S rel]

theorem along_pure (a : α) : (pure a : Work S α).Along patient rel := fun s =>
  ⟨refl_of rel s, trivial⟩

theorem along_await (hpatient : patient) (wait : Wait S) : (await wait).Along patient rel :=
  fun s => ⟨hpatient, refl_of rel s, fun s' _ => ⟨refl_of rel s', trivial⟩⟩

theorem along_bind {work : Work S α} {f : α → Work S β} (hw : work.Along patient rel)
    (hf : ∀ a, (f a).Along patient rel) : (work >>= f).Along patient rel := fun s =>
  (hw s).bind fun a s' _ => hf a s'

/-- Work that may have to wait before it begins, as whoever submits a task to a full queue has to.
-/
theorem along_await_if (hpatient : patient) (c : Prop) [Decidable c] (wait : Wait S)
    {work : Work S α} (hw : work.Along patient rel) :
    (if c then await wait >>= fun _ => work else work).Along patient rel := by
  split
  · exact along_bind (along_await hpatient wait) fun _ => hw
  · exact hw

theorem along_pause (hpatient : patient) (now duration : Nat) :
    (pause now duration : Work S Unit).Along patient rel := by
  unfold pause
  split
  · exact along_pure ()
  · exact along_await hpatient _

end Work

/-! ## Crews and their sites -/

namespace Crew

variable {S τ : Type}

/-- Work that has been seen through has come to one of its ends. Nothing is asked of the others, so
this holds of every crew, however it spends its turns. -/
theorem complete_canEnd {α : Type} (crew : Crew S τ) (spare : Nat) (p : Progress S α)
    (site : Site S) :
    p.CanEnd (fun _ _ => True) (crew.complete spare p site).1
      (crew.complete spare p site).2.state := by
  induction p generalizing site with
  | ended a s => exact ⟨rfl, rfl⟩
  | waiting wait s next ih => exact ⟨_, trivial, ih _ _⟩

/-- Work that ends with one step more is seen through to where it would have ended, and then takes
that step. -/
theorem complete_map {α β : Type} (crew : Crew S τ) (spare : Nat) (p : Progress S α) (f : α → β)
    (g : S → S) (site : Site S) :
    crew.complete spare (p.bind fun a s => .ended (f a) (g s)) site =
      let done := crew.complete spare p site
      (f done.1, { done.2 with state := g done.2.state }) := by
  induction p generalizing site with
  | ended a s => rfl
  | waiting wait s next ih => exact ih _ _

/-- What a party's item has to end with: a worker that does not survive its item is dismissed along
`rel`. -/
def Departs (crew : Crew S τ) (rel : S → S → Prop) : Party → Bool → S → Prop
  | .worker number, false, s => rel s (crew.dismiss false number s)
  | _, _, _ => True

/-- What the items of a crew do, and what the crew does to its workers, lies along `rel`. Each
field speaks of one action, in whatever state it begins; the order of turns does not enter. -/
structure Along (crew : Crew S τ) (rel : S → S → Prop) : Prop where
  setNow : ∀ time s, rel s (crew.setNow time s)
  left : ∀ s, ∀ w ∈ crew.workers s, w.duty? (crew.now s) = some .leave →
    rel s (crew.dismiss true w.number s)
  died : ∀ s, ∀ w ∈ crew.workers s, w.duty? (crew.now s) = some .die →
    rel s (crew.dismiss false w.number s)
  work : ∀ s, ∀ w ∈ crew.workers s, ∀ item taken,
    w.duty? (crew.now s) = some (.take item taken) →
    (crew.work item (crew.modifyWorker w.number (fun _ => taken) s)).Meets True rel
      (crew.Departs rel (.worker w.number)) s
  errand : ∀ s, (crew.errand s).Along True rel s

/-- A crew that may do anything to its workers. -/
theorem Along.of_setWorkers {crew : Crew S τ} {rel : S → S → Prop} [IsPreorder S rel]
    (hsetWorkers : ∀ workers s, rel s (crew.setWorkers workers s))
    (hsetNow : ∀ time s, rel s (crew.setNow time s))
    (hgone : ∀ left w s, rel s (crew.gone left w s))
    (hwork : ∀ item, (crew.work item).Along True rel) (herrand : crew.errand.Along True rel) :
    crew.Along rel := by
  have hdismiss (left : Bool) (number : Nat) (s : S) : rel s (crew.dismiss left number s) := by
    unfold dismiss
    split
    · exact refl_of rel s
    · exact trans_of rel (hsetWorkers _ _) (hgone _ _ _)
  constructor
  · exact hsetNow
  · exact fun s w _ _ => hdismiss true w.number s
  · exact fun s w _ _ => hdismiss false w.number s
  · intro s w _ item taken _
    -- The item begins once its worker has been noted as busy, which is one more step along `rel`.
    refine ((hwork item _).of_earlier (hsetWorkers _ _)).mono fun survives s' _ => ?_
    cases survives with
    | true => exact trivial
    | false => exact hdismiss false w.number s'
  · exact herrand

end Crew

/-- The site is later than the state `s`, and whoever waits there goes on along `rel`. It is the
second half that makes this an invariant: what has been put aside is resumed much later, in a state
of which no more is known than that it is later. -/
structure Site.IsAlong {S τ : Type} (crew : Crew S τ) (rel : S → S → Prop) (s : S)
    (site : Site S) : Prop where
  state : rel s site.state
  suspended : ∀ item ∈ site.suspended, ∀ s', rel site.state s' →
    (item.next s').Meets True rel (crew.Departs rel item.party) s'

namespace Site

variable {S τ : Type} {crew : Crew S τ} {rel : S → S → Prop} {s : S} {site site' : Site S}

/-- Lines and alarms do not matter. -/
theorem IsAlong.congr (h : site.IsAlong crew rel s) (hstate : site'.state = site.state)
    (hsub : site'.suspended ⊆ site.suspended) : site'.IsAlong crew rel s := by
  constructor
  · rw [hstate]; exact h.state
  · rw [hstate]; exact fun item hitem => h.suspended item (hsub hitem)

theorem IsAlong.suspend (h : site.IsAlong crew rel s) {item : Suspended S}
    (hitem : ∀ s', rel site.state s' →
      (item.next s').Meets True rel (crew.Departs rel item.party) s') :
    (site.suspend item).IsAlong crew rel s := by
  refine ⟨h.state, fun other hother => ?_⟩
  rcases List.mem_append.mp hother with hold | hnew
  · exact h.suspended other hold
  · rw [List.mem_singleton.mp hnew]
    exact hitem

theorem IsAlong.released (h : site.IsAlong crew rel s) : site.released.IsAlong crew rel s := by
  unfold Site.released Site.release?
  split
  · exact h
  · exact h.congr rfl (List.Subset.refl _)

variable [IsPreorder S rel]

theorem IsAlong.of_earlier {s₀ : S} (h : rel s₀ s) (hsite : site.IsAlong crew rel s) :
    site.IsAlong crew rel s₀ :=
  ⟨trans_of rel h hsite.state, hsite.suspended⟩

theorem IsAlong.setState (h : site.IsAlong crew rel s) {s' : S} (hs' : rel site.state s') :
    IsAlong crew rel s { site with state := s' } :=
  ⟨trans_of rel h.state hs', fun item hitem t ht =>
    h.suspended item hitem t (trans_of rel hs' ht)⟩

end Site

namespace Crew

variable {S τ : Type} {crew : Crew S τ} {rel : S → S → Prop} {s : S} {site : Site S}
  [IsPreorder S rel]

theorem remove_isAlong (left : Bool) (number : Nat) (h : site.IsAlong crew rel s)
    (hgone : rel site.state (crew.dismiss left number site.state)) :
    (crew.remove left number site).IsAlong crew rel s :=
  (h.setState hgone).congr rfl (List.Subset.refl _)

/-- Whoever goes along `rel` leaves the site along `rel`, whether it ends or waits. -/
theorem put_isAlong (party : Party) (h : site.IsAlong crew rel s) {p : Progress S Bool}
    (hp : p.Meets True rel (crew.Departs rel party) site.state) :
    (crew.put party site p).IsAlong crew rel s := by
  cases p with
  | waiting wait t next => exact (h.setState hp.2.1).suspend hp.2.2
  | ended survives t =>
    have ht := h.setState hp.1
    cases party with
    | errand serial => exact ht
    | worker number =>
      cases survives with
      | true => exact ht.congr rfl (List.Subset.refl _)
      | false => exact remove_isAlong false number ht hp.2

theorem turnTo_isAlong (hc : crew.Along rel) (h : site.IsAlong crew rel s) {w : Worker τ}
    (hw : w ∈ crew.workers site.state) : (crew.turnTo site w).IsAlong crew rel s := by
  unfold turnTo
  dsimp only
  split
  · split
    · exact h
    · exact h.congr rfl (List.Subset.refl _)
  · rename_i hduty
    exact remove_isAlong false w.number h (hc.died site.state w hw hduty)
  · rename_i hduty
    exact remove_isAlong true w.number h (hc.left site.state w hw hduty)
  · rename_i item taken hduty
    exact put_isAlong _ h (hc.work site.state w hw item taken hduty)

theorem act_isAlong (hc : crew.Along rel) (party : Party) (h : site.IsAlong crew rel s) :
    (crew.act party site).IsAlong crew rel s := by
  unfold act
  split
  · rename_i item hitem
    split
    · have herased : Site.IsAlong crew rel s
          { site with suspended := site.suspended.eraseP (·.party = party) } :=
        h.congr rfl List.eraseP_subset
      have hparty : item.party = party := by simpa using List.find?_some hitem
      have hnext := h.suspended item (List.mem_of_find?_eq_some hitem) _ (refl_of rel _)
      -- It has waited since some earlier state, and goes on along `rel` from any later one.
      exact put_isAlong party herased (hparty ▸ hnext)
    · exact h
  · cases party with
    | errand serial =>
      refine put_isAlong _ h ?_
      exact (hc.errand site.state).mono fun survives _ _ => by cases survives <;> exact trivial
    | worker number =>
      cases hw : crew.worker? number site.state with
      | none =>
        simp only [hw, Option.map_none, Option.getD_none]
        exact h
      | some w =>
        simp only [hw, Option.map_some, Option.getD_some]
        exact turnTo_isAlong hc h (List.mem_of_find?_eq_some hw)

/-- By itself a crew keeps to the relation that it lies along. -/
theorem Along.preserves (hc : crew.Along rel) (s : S) :
    crew.Preserves (Site.IsAlong crew rel s) where
  callAll h := h.congr rfl (List.Subset.refl _)
  released h := h.released
  act h _ := act_isAlong hc _ (h.congr rfl (List.Subset.refl _))
  setTime _ h := (h.setState (hc.setNow _ _)).congr rfl (List.Subset.refl _)

/-- The induction is on the work from outside: at each of its waits the crew moves the site along
`rel`, so that the work finds a later state. -/
theorem complete_isAlong {α : Type} {Q : α → S → Prop} (hc : crew.Along rel) (spare : Nat)
    {p : Progress S α} (h : site.IsAlong crew rel s) (hp : p.Meets True rel Q site.state) :
    (crew.complete spare p site).2.IsAlong crew rel s ∧
      Q (crew.complete spare p site).1 (crew.complete spare p site).2.state := by
  induction p generalizing site with
  | ended a t => exact ⟨h.setState hp.1, hp.2⟩
  | waiting wait t next ih =>
    have hwait : Site.IsAlong crew rel t { site with state := t } :=
      ⟨refl_of rel t, (h.setState hp.2.1).suspended⟩
    have hlater := (hc.preserves t).attend spare wait hwait
    refine ih _ (hlater.of_earlier (trans_of rel h.state hp.2.1)) ?_
    exact hp.2.2 _ hlater.state

end Crew

end Correlator
