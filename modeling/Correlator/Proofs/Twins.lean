import Correlator.Proofs.Alike
import Correlator.Proofs.Turns
import Mathlib.Data.List.Forall2

/-!
# Two crews side by side

Two runs are followed turn by turn.  Their states are never quite the same, but they stay alike, and
the turns fall alike as long as nobody who decides about turns can tell the difference: the same
parties stand in line, the same alarms are set, and what waits goes on alike.

So it is enough to look at the crew by itself.  It overlooks a likeness of states if it finds the
same workers and errands at either side, if what it does to its workers leads to states that are
alike, and if its items and errands do not tell the difference (`Crew.Overlooks`).  Then whatever is
seen through at two sites that match has the same result, and leaves sites that match.

## Main definitions

* `Site.Matches` : the sites differ in their states alone, and these are alike.
* `Crew.Overlooks` : the crew does not tell the states apart.
* `State.Attended` : neither does whoever decides about the turns of an engine's workers.

## Main results

* `Crew.Overlooks.settle_matches` : a crew left to itself.
* `Crew.Overlooks.complete_matches` : work from outside.
* `State.Attended.sweepers_overlook` : the workers of an engine are such a crew.
-/

namespace Correlator

variable {S τ α : Type} {rel : S → S → Prop}

/-- Two parties' work waits for the same and goes on alike. It is not compared what the work is,
only what it comes to from states that are alike. -/
structure Suspended.Matches (rel : S → S → Prop) (item item' : Suspended S) : Prop where
  party : item'.party = item.party
  wait : item.wait.Matches rel item'.wait
  next : ∀ s s', rel s s' → (item.next s).Matches rel (item'.next s')

/-- The states are alike, and the same parties wait and stand in line. -/
structure Site.Matches (rel : S → S → Prop) (site site' : Site S) : Prop where
  state : rel site.state site'.state
  line : site'.line = site.line
  suspended : List.Forall₂ (Suspended.Matches rel) site.suspended site'.suspended
  alarms : site'.alarms = site.alarms
  errands : site'.errands = site.errands

namespace Wait.Matches

variable {wait wait' : Wait S} {s s' : S}

theorem cases (h : wait.Matches rel wait') :
    (wait = .rest ∧ wait' = .rest) ∨ (∃ t, wait = .time t ∧ wait' = .time t) ∨
      ∃ holds holds', wait = .condition holds ∧ wait' = .condition holds' ∧
        ∀ s s', rel s s' → holds s = holds' s' := by
  cases wait with
  | rest =>
    cases wait' with
    | rest => exact .inl ⟨rfl, rfl⟩
    | time | condition => exact h.elim
  | time t =>
    cases wait' with
    | time t' => exact .inr (.inl ⟨t, rfl, congrArg Wait.time (Eq.symm h)⟩)
    | rest | condition => exact h.elim
  | condition holds =>
    cases wait' with
    | condition holds' => exact .inr (.inr ⟨holds, holds', rfl, rfl, h⟩)
    | rest | time => exact h.elim

theorem isRest (h : wait.Matches rel wait') : wait'.isRest = wait.isRest := by
  rcases h.cases with ⟨rfl, rfl⟩ | ⟨t, rfl, rfl⟩ | ⟨holds, holds', rfl, rfl, -⟩ <;> rfl

theorem time? (h : wait.Matches rel wait') : wait'.time? = wait.time? := by
  rcases h.cases with ⟨rfl, rfl⟩ | ⟨t, rfl, rfl⟩ | ⟨holds, holds', rfl, rfl, -⟩ <;> rfl

theorem isMet (h : wait.Matches rel wait') (hs : rel s s') : wait'.isMet s' = wait.isMet s := by
  rcases h.cases with ⟨rfl, rfl⟩ | ⟨t, rfl, rfl⟩ | ⟨holds, holds', rfl, rfl, hsame⟩
  · rfl
  · rfl
  · exact (hsame s s' hs).symm

theorem isOver (h : wait.Matches rel wait') (hs : rel s s') (now : Nat) :
    wait'.isOver now s' = wait.isOver now s := by
  rcases h.cases with ⟨rfl, rfl⟩ | ⟨t, rfl, rfl⟩ | ⟨holds, holds', rfl, rfl, hsame⟩
  · rfl
  · rfl
  · exact (hsame s s' hs).symm

end Wait.Matches

namespace Site.Matches

variable {site site' : Site S} {s s' : S}

theorem setState (h : site.Matches rel site') (hs : rel s s') :
    Matches rel { site with state := s } { site' with state := s' } :=
  { h with state := hs }

theorem setLine (h : site.Matches rel site') (line : List Party) :
    Matches rel { site with line } { site' with line } :=
  { h with line := rfl }

theorem call (h : site.Matches rel site') (parties : List Party) :
    (site.call parties).Matches rel (site'.call parties) :=
  { h with line := congrArg (parties.foldl Party.joined ·) h.line }

/-- Whoever is picked out by what does not differ is the same at both sites. -/
theorem parties_of_filter {p p' : Suspended S → Bool} {items items' : List (Suspended S)}
    (h : List.Forall₂ (Suspended.Matches rel) items items')
    (hp : ∀ {item item'}, Suspended.Matches rel item item' → p' item' = p item) :
    (items'.filter p').map (·.party) = (items.filter p).map (·.party) := by
  induction h with
  | nil => rfl
  | @cons item item' items items' hitem _ ih =>
    rw [List.filter_cons, List.filter_cons, hp hitem]
    split
    · rw [List.map_cons, List.map_cons, ih, hitem.party]
    · exact ih

theorem isSuspended (h : site.Matches rel site') (party : Party) :
    site'.isSuspended party = site.isSuspended party := by
  have hany : ∀ {items items' : List (Suspended S)},
      List.Forall₂ (Suspended.Matches rel) items items' →
      items'.any (·.party = party) = items.any (·.party = party) := by
    intro items items' hitems
    induction hitems with
    | nil => rfl
    | cons hitem _ ih => rw [List.any_cons, List.any_cons, ih, hitem.party]
  exact hany h.suspended

theorem released (h : site.Matches rel site') : site.released.Matches rel site'.released := by
  have hparties : (site'.suspended.filter (·.wait.isRest)).map (·.party) =
      (site.suspended.filter (·.wait.isRest)).map (·.party) :=
    parties_of_filter h.suspended fun hitem => hitem.wait.isRest
  unfold Site.released Site.release?
  rw [hparties]
  split
  · exact h
  · exact h.call _

theorem ringAlarms (h : site.Matches rel site') (time : Nat) :
    (site.ringAlarms time).Matches rel (site'.ringAlarms time) := by
  unfold Site.ringAlarms
  rw [h.alarms]
  have hleft : Matches rel { site with alarms := site.alarms.filter (time < ·.time) }
      { site' with alarms := site.alarms.filter (time < ·.time) } := { h with alarms := rfl }
  exact hleft.call _

theorem suspend (h : site.Matches rel site') {item item' : Suspended S}
    (hitem : item.Matches rel item') :
    (site.suspend item).Matches rel (site'.suspend item') where
  state := h.state
  line := h.line
  suspended := List.rel_append h.suspended (.cons hitem .nil)
  alarms := by
    unfold Site.suspend
    rw [h.alarms, hitem.wait.time?, hitem.party]
  errands := h.errands

/-- Whoever waits at the one site waits at the other. -/
theorem find_suspended (h : site.Matches rel site') (party : Party) :
    (site.suspended.find? (·.party = party) = none ∧
        site'.suspended.find? (·.party = party) = none) ∨
      ∃ item item', site.suspended.find? (·.party = party) = some item ∧
        site'.suspended.find? (·.party = party) = some item' ∧ item.Matches rel item' ∧
        List.Forall₂ (Suspended.Matches rel) (site.suspended.eraseP (·.party = party))
          (site'.suspended.eraseP (·.party = party)) := by
  have hfound : ∀ {items items' : List (Suspended S)},
      List.Forall₂ (Suspended.Matches rel) items items' →
      (items.find? (·.party = party) = none ∧ items'.find? (·.party = party) = none) ∨
        ∃ item item', items.find? (·.party = party) = some item ∧
          items'.find? (·.party = party) = some item' ∧ item.Matches rel item' ∧
          List.Forall₂ (Suspended.Matches rel) (items.eraseP (·.party = party))
            (items'.eraseP (·.party = party)) := by
    intro items items' hitems
    induction hitems with
    | nil => exact .inl ⟨rfl, rfl⟩
    | @cons item item' items items' hitem hitems ih =>
      by_cases hparty : item.party = party
      · have hparty' : item'.party = party := hitem.party.trans hparty
        refine .inr ⟨item, item', ?_, ?_, hitem, ?_⟩
        · rw [List.find?_cons_of_pos (by simpa using hparty)]
        · rw [List.find?_cons_of_pos (by simpa using hparty')]
        · rw [List.eraseP_cons_of_pos (by simpa using hparty),
            List.eraseP_cons_of_pos (by simpa using hparty')]
          exact hitems
      · have hparty' : ¬ item'.party = party := hitem.party ▸ hparty
        rw [List.find?_cons_of_neg (by simpa using hparty),
          List.find?_cons_of_neg (by simpa using hparty'),
          List.eraseP_cons_of_neg (by simpa using hparty),
          List.eraseP_cons_of_neg (by simpa using hparty')]
        rcases ih with hnone | ⟨other, other', hfind, hfind', hother, hrest⟩
        · exact .inl hnone
        · exact .inr ⟨other, other', hfind, hfind', hother, .cons hitem hrest⟩
  exact hfound h.suspended

end Site.Matches

/-! ## Turns -/

namespace Crew

/-- The crew does not tell states apart that are alike, and keeps them so. The first three are what
it goes by when it decides whose turn it is, and they have to be the same; the others need only
lead to what is alike again. -/
structure Overlooks (crew : Crew S τ) (rel : S → S → Prop) : Prop where
  workers : ∀ {s s' : S}, rel s s' → crew.workers s' = crew.workers s
  now : ∀ {s s' : S}, rel s s' → crew.now s' = crew.now s
  errands : ∀ {s s' : S}, rel s s' → crew.errands s' = crew.errands s
  setWorkers : ∀ {s s' : S} (workers : List (Worker τ)), rel s s' →
    rel (crew.setWorkers workers s) (crew.setWorkers workers s')
  setNow : ∀ {s s' : S} (time : Nat), rel s s' → rel (crew.setNow time s) (crew.setNow time s')
  gone : ∀ {s s' : S} (left : Bool) (w : Worker τ), rel s s' →
    rel (crew.gone left w s) (crew.gone left w s')
  work : ∀ item, (crew.work item).Overlooks rel
  errand : crew.errand.Overlooks rel

namespace Overlooks

variable {crew : Crew S τ} {site site' : Site S} {s s' : S}

theorem worker?_eq (hc : crew.Overlooks rel) (hs : rel s s') (number : Nat) :
    crew.worker? number s' = crew.worker? number s := by
  unfold worker?
  rw [hc.workers hs]

theorem dismiss (hc : crew.Overlooks rel) (hs : rel s s') (left : Bool) (number : Nat) :
    rel (crew.dismiss left number s) (crew.dismiss left number s') := by
  unfold Crew.dismiss
  rw [hc.worker?_eq hs, hc.workers hs]
  split
  · exact hs
  · exact hc.gone left _ (hc.setWorkers _ hs)

theorem remove (hc : crew.Overlooks rel) (h : site.Matches rel site') (left : Bool)
    (number : Nat) :
    (crew.remove left number site).Matches rel (crew.remove left number site') where
  state := hc.dismiss h.state left number
  line := h.line
  suspended := h.suspended
  alarms := congrArg (List.filter _) h.alarms
  errands := h.errands

theorem callAll (hc : crew.Overlooks rel) (h : site.Matches rel site') :
    (crew.callAll site).Matches rel (crew.callAll site') := by
  have hmet : (site'.suspended.filter (·.wait.isMet site'.state)).map (·.party) =
      (site.suspended.filter (·.wait.isMet site.state)).map (·.party) :=
    Site.Matches.parties_of_filter h.suspended fun hitem => hitem.wait.isMet h.state
  have hcalls : crew.calls site' = crew.calls site := by
    funext w
    unfold Crew.calls Site.hasAlarm
    rw [h.isSuspended, h.alarms, hc.now h.state]
  unfold Crew.callAll
  dsimp only
  rw [hmet, hc.workers h.state, hcalls, hc.errands h.state, h.errands]
  have hcounted : Site.Matches rel
      { site with errands := max site.errands (crew.errands site.state) }
      { site' with errands := max site.errands (crew.errands site.state) } :=
    { h with errands := rfl }
  exact hcounted.call _

theorem put (hc : crew.Overlooks rel) (h : site.Matches rel site') (party : Party)
    {p p' : Progress S Bool} (hp : p.Matches rel p') :
    (crew.put party site p).Matches rel (crew.put party site' p') := by
  cases p with
  | ended survives s =>
    cases p' with
    | waiting => exact hp.elim
    | ended survives' s' =>
      obtain ⟨rfl, hs⟩ := hp
      have hsite := h.setState hs
      cases party with
      | errand serial => exact hsite
      | worker number =>
        cases survives with
        | true => exact { hsite with line := congrArg (_ :: ·) h.line }
        | false => exact hc.remove hsite false number
  | waiting wait s next =>
    cases p' with
    | ended => exact hp.elim
    | waiting wait' s' next' =>
      obtain ⟨hwait, hs, hnext⟩ := hp
      exact (h.setState hs).suspend ⟨rfl, hwait, hnext⟩

theorem turnTo (hc : crew.Overlooks rel) (h : site.Matches rel site') (w : Worker τ) :
    (crew.turnTo site w).Matches rel (crew.turnTo site' w) := by
  unfold Crew.turnTo Site.hasAlarm
  dsimp only
  rw [hc.now h.state, h.alarms]
  split
  · split
    · exact h
    · exact { h with alarms := congrArg (· ++ _) h.alarms }
  · exact hc.remove h false _
  · exact hc.remove h true _
  · refine hc.put h _ (hc.work _ _ _ ?_)
    unfold Crew.modifyWorker
    rw [hc.workers h.state]
    exact hc.setWorkers _ h.state

theorem act (hc : crew.Overlooks rel) (h : site.Matches rel site') (party : Party) :
    (crew.act party site).Matches rel (crew.act party site') := by
  unfold Crew.act
  rcases h.find_suspended party with ⟨hnone, hnone'⟩ | ⟨item, item', hfind, hfind', hitem, hrest⟩
  · rw [hnone, hnone']
    cases party with
    | errand serial => exact hc.put h _ (hc.errand _ _ h.state)
    | worker number =>
      dsimp only
      rw [hc.worker?_eq h.state]
      cases crew.worker? number site.state with
      | none => exact h
      | some w => exact hc.turnTo h w
  · rw [hfind, hfind']
    dsimp only
    rw [hc.now h.state, hitem.wait.isOver h.state]
    split
    · have herased : Site.Matches rel
          { site with suspended := site.suspended.eraseP (·.party = party) }
          { site' with suspended := site'.suspended.eraseP (·.party = party) } :=
        ⟨h.state, h.line, hrest, h.alarms, h.errands⟩
      exact hc.put herased party (hitem.next _ _ h.state)
    · exact h

theorem setTime (hc : crew.Overlooks rel) (h : site.Matches rel site') (time : Nat) :
    (crew.setTime time site).Matches rel (crew.setTime time site') := by
  unfold Crew.setTime
  rw [hc.now h.state]
  exact hc.callAll ((h.setState (hc.setNow _ h.state)).ringAlarms time)

/-! ### Steps -/

/-- Either side goes on, to sites that match, or neither does. If one of them could go on alone,
the runs would be out of step from there. -/
def Both (rel : S → S → Prop) (next next' : Option (Site S)) : Prop :=
  (next = none ∧ next' = none) ∨
    ∃ site site', next = some site ∧ next' = some site' ∧ site.Matches rel site'

theorem turn (hc : crew.Overlooks rel) (h : site.Matches rel site') :
    Both rel (crew.turn site) (crew.turn site') := by
  unfold Crew.turn
  rw [h.line]
  cases site.line with
  | nil => exact .inl ⟨rfl, rfl⟩
  | cons party line => exact .inr ⟨_, _, rfl, rfl, hc.callAll (hc.act (h.setLine line) party)⟩

theorem step (hc : crew.Overlooks rel) (limit : Option Nat) (h : site.Matches rel site') :
    Both rel (crew.step limit site) (crew.step limit site') := by
  have hparties : (site'.suspended.filter (·.wait.isRest)).map (·.party) =
      (site.suspended.filter (·.wait.isRest)).map (·.party) :=
    Site.Matches.parties_of_filter h.suspended fun hitem => hitem.wait.isRest
  unfold Crew.step
  rcases hc.turn h with ⟨hnone, hnone'⟩ | ⟨_, _, hnext, hnext', hsites⟩
  · rw [hnone, hnone']
    unfold Site.release? Crew.passTime Site.nextAlarm?
    rw [hparties, h.alarms]
    cases (site.suspended.filter (·.wait.isRest)).map (·.party) with
    | cons party parties => exact .inr ⟨_, _, rfl, rfl, h.call _⟩
    | nil =>
      cases (site.alarms.map (·.time)).min?.filter fun time => limit.all (time ≤ ·) with
      | none => exact .inl ⟨rfl, rfl⟩
      | some time => exact .inr ⟨_, _, rfl, rfl, hc.setTime h time⟩
  · rw [hnext, hnext']
    exact .inr ⟨_, _, rfl, rfl, hsites⟩

/-- What goes on alike step by step does so for any number of steps. -/
theorem run {next : Site S → Option (Site S)} {enough enough' : Site S → Bool}
    (hnext : ∀ {site site' : Site S}, site.Matches rel site' → Both rel (next site) (next site'))
    (henough : ∀ {site site' : Site S}, site.Matches rel site' → enough' site' = enough site)
    (fuel : Nat) (h : site.Matches rel site') :
    (Crew.run next enough fuel site).Matches rel (Crew.run next enough' fuel site') := by
  induction fuel generalizing site site' with
  | zero => exact h
  | succ fuel ih =>
    unfold Crew.run
    rw [henough h]
    split
    · exact h
    · rcases hnext h with ⟨hnone, hnone'⟩ | ⟨_, _, hsome, hsome', hsites⟩
      · rw [hnone, hnone']
        exact h
      · rw [hsome, hsome']
        exact ih hsites

theorem stepBound_eq (hc : crew.Overlooks rel) (limit : Nat) (h : site.Matches rel site') :
    crew.stepBound limit site' = crew.stepBound limit site := by
  unfold Crew.stepBound
  rw [h.line, h.alarms, hc.workers h.state, h.suspended.length_eq]

theorem runUntil (hc : crew.Overlooks rel) (spare limit : Nat) (h : site.Matches rel site') :
    (crew.runUntil spare limit site).Matches rel (crew.runUntil spare limit site') := by
  unfold Crew.runUntil
  rw [hc.stepBound_eq limit h]
  exact run (hc.step _) (fun _ => rfl) _ h

theorem settle_matches (hc : crew.Overlooks rel) (spare : Nat) (h : site.Matches rel site') :
    (crew.settle spare site).Matches rel (crew.settle spare site') := by
  unfold Crew.settle
  rw [hc.now h.state]
  exact hc.runUntil spare _ (hc.callAll h)

theorem attend (hc : crew.Overlooks rel) (spare : Nat) {wait wait' : Wait S}
    (hwait : wait.Matches rel wait') (h : site.Matches rel site') :
    (crew.attend spare site wait).Matches rel (crew.attend spare site' wait') := by
  have hcalled := hc.callAll h
  unfold Crew.attend
  dsimp only
  rw [hc.now h.state, hc.stepBound_eq _ hcalled]
  rcases hwait.cases with ⟨rfl, rfl⟩ | ⟨t, rfl, rfl⟩ | ⟨holds, holds', rfl, rfl, hsame⟩
  · exact (run hc.turn (fun _ => rfl) _ hcalled).released
  · dsimp only
    split
    · exact h
    · exact hc.setTime (hc.runUntil spare _ hcalled) t
  · dsimp only
    rw [← hsame _ _ h.state]
    split
    · exact h
    · refine (run (hc.step none) (fun hsites => ?_) _ hcalled).released
      rw [hsites.line, ← hsame _ _ hsites.state]

/-- Work from outside that goes on alike is seen through to the same end. The induction is on the
work: what it is given at a wait is the state of a site that the crew has attended to, and the two
sites match by then. -/
theorem complete_matches (hc : crew.Overlooks rel) (spare : Nat) {p p' : Progress S α}
    (hp : p.Matches rel p') (h : site.Matches rel site') :
    (crew.complete spare p' site').1 = (crew.complete spare p site).1 ∧
      (crew.complete spare p site).2.Matches rel (crew.complete spare p' site').2 := by
  induction p generalizing p' site site' with
  | ended a s =>
    cases p' with
    | waiting => exact hp.elim
    | ended a' s' =>
      obtain ⟨rfl, hs⟩ := hp
      exact ⟨rfl, h.setState hs⟩
  | waiting wait s next ih =>
    cases p' with
    | ended => exact hp.elim
    | waiting wait' s' next' =>
      obtain ⟨hwait, hs, hnext⟩ := hp
      have hattended := hc.attend spare hwait (h.setState hs)
      have hrest := ih _ (hnext _ _ hattended.state) hattended
      exact hrest

end Overlooks

end Crew

/-! ## The workers of an engine -/

variable {σ : Type} {allowed : Operation → Prop} {r : State → State → Prop}
  {rel : Host σ → Host σ → Prop} {env : Environment σ}

/-- Whoever decides about turns does not tell states apart that are alike. Turns go by workers,
time and the stops that were asked for aside, so a likeness that leaves these alone is one of
crews. -/
structure State.Attended (r : State → State → Prop) : Prop where
  workers : ∀ {s s' : State}, r s s' → s'.workers = s.workers
  time : ∀ {s s' : State}, r s s' → s'.time = s.time
  stopsAside : ∀ {s s' : State}, r s s' → s'.stopsAside = s.stopsAside
  setWorkers : ∀ {s s' : State} (workers : List (Worker Chore)), r s s' →
    r { s with workers } { s' with workers }
  setTime : ∀ {s s' : State} (time : Nat), r s s' → r { s with time } { s' with time }

/-- Engines that do the same have workers that do the same. -/
theorem State.Attended.sweepers_overlook (hr : State.Attended r)
    (hinside : State.Overlooked allowed r)
    (hrel : ∀ {host host' : Host σ},
      rel host host' ↔ r host.state host'.state ∧ host'.memory = host.memory)
    (hP : Run.Congruence allowed r (Run.Match rel)) (hsweeps : (Run.Match rel).KeepsSweeps)
    (hstop : allowed .stop) (hcol : env.collaborators.AskOnly allowed) (depth : Nat) :
    (sweepers (env.callbacks depth)).Overlooks rel where
  workers hs := hr.workers (hrel.mp hs).1
  now hs := hr.time (hrel.mp hs).1
  errands hs := hr.stopsAside (hrel.mp hs).1
  setWorkers workers hs := hrel.mpr ⟨hr.setWorkers workers (hrel.mp hs).1, (hrel.mp hs).2⟩
  setNow time hs := hrel.mpr ⟨hr.setTime time (hrel.mp hs).1, (hrel.mp hs).2⟩
  gone _ _ hs := hs
  work item := hP.sweeperItem_congruent (hP.callbacks_correspond hsweeps hcol depth) hsweeps item
  errand := Work.overlooks_bind (hinside.stop_overlooks hrel hstop) fun _ => Work.overlooks_pure _

end Correlator
