import Correlator.Crew

/-!
# What every turn keeps

A crew changes its site in few ways: somebody is called, the first one in line takes a turn, those
who only wait for the others are called, and time passes.  `Crew.Preserves` says of a property of
sites that each of these keeps it.  Then the crew keeps it however far it goes on by itself, be it
for its own sake (`Crew.settle`) or while work from outside waits (`Crew.attend`), and whether the
fuel suffices or not.

What work from outside does between its waits is not covered; that depends on the work.
-/

namespace Correlator.Crew

variable {S τ : Type}

/-- Whatever a crew does by itself keeps the property of its site. These four are all that it does;
steps, settling and attending are made of them. -/
structure Preserves (crew : Crew S τ) (P : Site S → Prop) : Prop where
  callAll : ∀ {site}, P site → P (crew.callAll site)
  released : ∀ {site : Site S}, P site → P site.released
  act : ∀ {site : Site S} {party line}, P site → site.line = party :: line →
    P (crew.act party { site with line })
  setTime : ∀ {site} (time), P site → P (crew.setTime time site)

/-- What one step keeps, any number of steps keeps, whether they end because it is enough, because
there is nothing to do, or because the fuel is spent. -/
theorem run_preserves {P : Site S → Prop} {next : Site S → Option (Site S)}
    (hnext : ∀ {site site'}, P site → next site = some site' → P site') (enough : Site S → Bool)
    (fuel : Nat) {site : Site S} (h : P site) : P (run next enough fuel site) := by
  induction fuel generalizing site with
  | zero => exact h
  | succ fuel ih =>
    unfold run
    split
    · exact h
    · split
      · exact h
      · rename_i hstep
        exact ih (hnext h hstep)

namespace Preserves

variable {crew : Crew S τ} {P : Site S → Prop} {site site' : Site S}

theorem turn (hc : crew.Preserves P) (h : P site) (hsite : crew.turn site = some site') :
    P site' := by
  unfold Crew.turn at hsite
  split at hsite
  · cases hsite
  · rename_i party line hline
    obtain rfl := Option.some.inj hsite
    exact hc.callAll (hc.act h hline)

theorem release (hc : crew.Preserves P) (h : P site) (hsite : site.release? = some site') :
    P site' := by
  have hreleased := hc.released h
  rwa [Site.released, hsite] at hreleased

theorem step (hc : crew.Preserves P) (limit : Option Nat) (h : P site)
    (hsite : crew.step limit site = some site') : P site' := by
  simp only [Crew.step, Option.orElse_eq_orElse, Option.orElse_eq_or,
    Option.or_eq_some_iff] at hsite
  rcases hsite with hturn | ⟨-, hrelease | ⟨-, hpass⟩⟩
  · exact hc.turn h hturn
  · exact hc.release h hrelease
  · obtain ⟨time, -, rfl⟩ := Option.map_eq_some_iff.mp hpass
    exact hc.setTime time h

theorem runUntil (hc : crew.Preserves P) (spare limit : Nat) (h : P site) :
    P (crew.runUntil spare limit site) :=
  run_preserves (hc.step _) _ _ h

theorem settle (hc : crew.Preserves P) (spare : Nat) (h : P site) : P (crew.settle spare site) :=
  hc.runUntil _ _ (hc.callAll h)

theorem attend (hc : crew.Preserves P) (spare : Nat) (wait : Wait S) (h : P site) :
    P (crew.attend spare site wait) := by
  have hcalled := hc.callAll h
  cases wait with
  | rest => exact hc.released (run_preserves hc.turn _ _ hcalled)
  | time time =>
    simp only [Crew.attend]
    split
    · exact h
    · exact hc.setTime time (hc.runUntil _ _ hcalled)
  | condition holds =>
    simp only [Crew.attend]
    split
    · exact h
    · exact hc.released (run_preserves (hc.step none) _ _ hcalled)

end Preserves

end Correlator.Crew

namespace Correlator

/-! ## Nobody on an errand -/

variable {S τ : Type}

/-- Nobody has been sent on an errand, and so nobody is called to one. Errands are the only parties
that are not workers, so where this holds everybody is a worker. -/
structure Site.IsErrandless (site : Site S) : Prop where
  line : ∀ party ∈ site.line, ∀ serial, party ≠ .errand serial
  suspended : ∀ item ∈ site.suspended, ∀ serial, item.party ≠ .errand serial
  alarms : ∀ alarm ∈ site.alarms, ∀ serial, alarm.party ≠ .errand serial
  called : site.errands = 0

namespace Site.IsErrandless

variable {crew : Crew S τ} {site : Site S}

theorem fresh (s : S) : Site.IsErrandless { state := s } :=
  ⟨fun _ => nofun, fun _ => nofun, fun _ => nofun, rfl⟩

theorem setState (h : site.IsErrandless) (s : S) : Site.IsErrandless { site with state := s } :=
  ⟨h.line, h.suspended, h.alarms, h.called⟩

/-- Those who are called are no errands. -/
theorem call (h : site.IsErrandless) {parties : List Party}
    (hparties : ∀ party ∈ parties, ∀ serial, party ≠ .errand serial) :
    (site.call parties).IsErrandless := by
  refine ⟨?_, h.suspended, h.alarms, h.called⟩
  change ∀ party ∈ parties.foldl Party.joined site.line, ∀ serial, party ≠ .errand serial
  have hline := h.line
  generalize site.line = line at hline
  induction parties generalizing line with
  | nil => exact hline
  | cons first parties ih =>
    refine ih (fun party hmem => hparties party (List.mem_cons_of_mem first hmem)) _ ?_
    intro party hmem
    unfold Party.joined at hmem
    split at hmem
    · exact hline party hmem
    · rcases List.mem_append.mp hmem with hold | hnew
      · exact hline party hold
      · rw [List.mem_singleton.mp hnew]
        exact hparties first List.mem_cons_self

theorem released (h : site.IsErrandless) : site.released.IsErrandless := by
  unfold Site.released Site.release?
  split
  · exact h
  · refine h.call fun party hmem serial => ?_
    obtain ⟨item, hitem, rfl⟩ := List.mem_map.mp hmem
    exact h.suspended item (List.mem_filter.mp hitem).1 serial

theorem callAll (h : site.IsErrandless)
    (hunasked : crew.errands site.state = 0) : (crew.callAll site).IsErrandless := by
  unfold Crew.callAll
  dsimp only
  rw [hunasked, h.called]
  have hcalled : Site.IsErrandless { site with errands := 0 } :=
    ⟨h.line, h.suspended, h.alarms, rfl⟩
  refine hcalled.call fun party hmem serial => ?_
  rcases List.mem_append.mp hmem with hmem | herrand
  · rcases List.mem_append.mp hmem with hmet | hworker
    · obtain ⟨item, hitem, rfl⟩ := List.mem_map.mp hmet
      exact h.suspended item (List.mem_filter.mp hitem).1 serial
    · obtain ⟨w, -, rfl⟩ := List.mem_map.mp hworker
      exact Party.noConfusion
  · simp at herrand

theorem ringAlarms (h : site.IsErrandless) (time : Nat) : (site.ringAlarms time).IsErrandless := by
  have hwaiting : Site.IsErrandless { site with alarms := site.alarms.filter (time < ·.time) } :=
    ⟨h.line, h.suspended, fun alarm hmem => h.alarms alarm (List.mem_filter.mp hmem).1, h.called⟩
  refine hwaiting.call fun party hmem => ?_
  obtain ⟨alarm, halarm, rfl⟩ := List.mem_map.mp hmem
  exact h.alarms alarm (List.mem_filter.mp halarm).1

theorem remove (h : site.IsErrandless) (left : Bool) (number : Nat) :
    (crew.remove left number site).IsErrandless :=
  ⟨h.line, h.suspended, fun alarm hmem => h.alarms alarm (List.mem_filter.mp hmem).1, h.called⟩

theorem put (h : site.IsErrandless) (number : Nat) (p : Progress S Bool) :
    (crew.put (.worker number) site p).IsErrandless := by
  cases p with
  | waiting wait s next =>
    refine ⟨h.line, fun item hmem => ?_, fun alarm hmem => ?_, h.called⟩
    · rcases List.mem_append.mp hmem with hold | hnew
      · exact h.suspended item hold
      · rw [List.mem_singleton.mp hnew]
        nofun
    · rcases List.mem_append.mp hmem with hold | hnew
      · exact h.alarms alarm hold
      · obtain ⟨time, -, rfl⟩ := Option.map_eq_some_iff.mp (Option.mem_toList.mp hnew)
        nofun
  | ended survives s =>
    cases survives with
    | true =>
      refine ⟨fun party hmem => ?_, h.suspended, h.alarms, h.called⟩
      rcases List.mem_cons.mp hmem with rfl | hold
      · nofun
      · exact h.line party hold
    | false => exact (h.setState s).remove false number

theorem act (h : site.IsErrandless) (number : Nat) :
    (crew.act (.worker number) site).IsErrandless := by
  unfold Crew.act
  split
  · split
    · have herased : Site.IsErrandless
          { site with suspended := site.suspended.eraseP (·.party = .worker number) } :=
        ⟨h.line, fun item hmem => h.suspended item (List.mem_of_mem_eraseP hmem), h.alarms,
          h.called⟩
      exact herased.put number _
    · exact h
  · dsimp only
    cases crew.worker? number site.state with
    | none => exact h
    | some w =>
      change (crew.turnTo site w).IsErrandless
      unfold Crew.turnTo
      dsimp only
      split
      · split
        · exact h
        · refine ⟨h.line, h.suspended, fun alarm hmem => ?_, h.called⟩
          rcases List.mem_append.mp hmem with hold | hnew
          · exact h.alarms alarm hold
          · rw [List.mem_singleton.mp hnew]
            nofun
      · exact h.remove false w.number
      · exact h.remove true w.number
      · exact h.put w.number _

end Site.IsErrandless

/-! ## Nobody waits but one worker -/

/-- If anybody has work that waits, it is the worker `m`. So two pieces of work are never under way
at once, and none is if there is no such worker. -/
def Site.IsStaffed (m : Option Nat) (site : Site S) : Prop :=
  ∀ item ∈ site.suspended, ∃ number, m = some number ∧ item.party = .worker number

namespace Site.IsStaffed

variable {crew : Crew S τ} {site : Site S} {m : Option Nat}

theorem of_nobody (h : site.suspended = []) : site.IsStaffed m := by
  intro item hmem
  rw [h] at hmem
  cases hmem

theorem mono (h : site.IsStaffed m) {m' : Option Nat}
    (hm : ∀ number, m = some number → m' = some number) : site.IsStaffed m' := fun item hmem =>
  have ⟨number, hnumber, hparty⟩ := h item hmem
  ⟨number, hm number hnumber, hparty⟩

/-- Where no worker may have work that waits, nobody has. -/
theorem nobody (h : site.IsStaffed m) (hm : ∀ number, m = some number →
    site.isSuspended (.worker number) = false) : site.suspended = [] := by
  refine List.eq_nil_iff_forall_not_mem.mpr fun item hmem => ?_
  obtain ⟨number, hnumber, hparty⟩ := h item hmem
  have hnone := List.any_eq_false.mp (hm number hnumber) item hmem
  exact hnone (by simpa using hparty)

theorem released (h : site.IsStaffed m) : site.released.IsStaffed m := by
  unfold Site.released Site.release?
  split <;> exact h

theorem put (h : site.IsStaffed m) {number : Nat} (hnumber : m = some number)
    (p : Progress S Bool) : (crew.put (.worker number) site p).IsStaffed m := by
  cases p with
  | waiting wait s next =>
    intro item hmem
    rcases List.mem_append.mp hmem with hold | hnew
    · exact h item hold
    · rw [List.mem_singleton.mp hnew]
      exact ⟨number, hnumber, rfl⟩
  | ended survives s => cases survives <;> exact h

/-- Whoever takes its turn is the worker `m`, as it lives or has work that waits. -/
theorem act (h : site.IsStaffed m) (hnumbers : ∀ w ∈ crew.workers site.state, m = some w.number)
    (number : Nat) : (crew.act (.worker number) site).IsStaffed m := by
  unfold Crew.act
  split
  · rename_i item hitem
    split
    · have herased : Site.IsStaffed m
          { site with suspended := site.suspended.eraseP (·.party = .worker number) } :=
        fun other hmem => h other (List.mem_of_mem_eraseP hmem)
      obtain ⟨number', hnumber', hparty⟩ := h item (List.mem_of_find?_eq_some hitem)
      have hsame : item.party = .worker number := by simpa using List.find?_some hitem
      obtain rfl := Party.worker.inj (hparty.symm.trans hsame)
      exact herased.put hnumber' _
    · exact h
  · dsimp only
    cases hw : crew.worker? number site.state with
    | none => exact h
    | some w =>
      have hnumber := hnumbers w (List.mem_of_find?_eq_some hw)
      change (crew.turnTo site w).IsStaffed m
      unfold Crew.turnTo
      dsimp only
      split
      · split <;> exact h
      · exact h
      · exact h
      · exact h.put hnumber _

end Site.IsStaffed

end Correlator
