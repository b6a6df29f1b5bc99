import Correlator.Proofs.Balance
import Mathlib.Data.List.Induction

/-!
# Peers can count along

Whoever counts a call in or out tells peers the new count, and nobody else tells them anything.  So
a peer that has nothing but what it was told knows how many calls are in flight.  Two things stand
in the way of saying so: the count has a floor, where a release changes nothing, and it saturates.
Above the floor and below the largest word each passage moves the count by one, and `State.heeded`
picks the passages that did; what peers were told is the trace of these.

A passage is an entry or an exit, and this is about any sequence of them (`State.passed`), whether
or not entries and exits match as they do in an engine.  The induction is on the sequence from its
end, since what a passage does depends on all that came before.

## Main definitions

* `State.Tells` : what is known after some passages.
* `State.Replicates` : this, and what each of the passages has told.

## Main results

* `State.IsUncounted.replicates` : every sequence of passages that keeps below the largest word is
  replicated.
-/

namespace Correlator

/-- Somebody counts a call in or out. -/
inductive Passage where
  | entry
  | exit
  deriving DecidableEq

/-- The latest count that peers have been told; before they are told anything it is zero. It is
read off the publications alone, as a peer would, and not off the engine. -/
def Journal.told (j : Journal) : ℕ := (j.publications.head?.map (·.inFlight.toNat)).getD 0

namespace State

/-- The state after one passage. -/
def pass (s : State) : Passage → State
  | .entry => s.acquire.2
  | .exit => s.release

/-- The state after some passages. -/
def passed (s : State) (passages : List Passage) : State := passages.foldl pass s

/-- What the entries are answered: whether the call fits. -/
def answers (s : State) : List Passage → List Bool
  | [] => []
  | .entry :: rest => s.acquire.1 :: s.acquire.2.answers rest
  | .exit :: rest => s.release.answers rest

/-- The passages that change the count. An exit at the floor is not heeded, and neither would be an
entry at the largest word. -/
def heeded (s : State) : List Passage → List Passage
  | [] => []
  | p :: rest =>
    if (s.pass p).admission = s.admission then (s.pass p).heeded rest
    else p :: (s.pass p).heeded rest

/-- The count never comes to the largest word, at the end or anywhere on the way. At the largest
word an entry would be published without changing the count, and peers who count along would be one
ahead. -/
def KeepsBelow (s : State) (passages : List Passage) : Prop :=
  ∀ prior, prior <+: passages → (s.passed prior).admission.inFlight.toNat < UInt32.size - 1

/-- Nobody has been counted yet, and peers have been told nothing. -/
structure IsUncounted (s : State) : Prop where
  inFlight : s.admission.inFlight = 0
  publications : s.journal.publications = []
  overflow : s.metrics.admissionOverflow = 0

/-- What is known after some passages. -/
structure Tells (s : State) (passages : List Passage) : Prop where
  limit : (s.passed passages).admission.limit = s.admission.limit
  /-- Peers have been told once for each change. -/
  changes : (s.passed passages).journal.publications.length = (s.heeded passages).length
  /-- The count that peers were told last is the count. -/
  latest : (s.passed passages).journal.told = (s.passed passages).admission.inFlight.toNat
  /-- The count is the entries less the exits that were heeded. -/
  count : (s.passed passages).admission.inFlight.toNat + (s.heeded passages).count .exit =
    passages.count .entry
  /-- Each entry that did not fit has been reported. -/
  overflow : (s.passed passages).metrics.admissionOverflow =
    .ofNat ((s.answers passages).count false)

/-- What peers have been told by some passages: passage by passage, and when all are done. -/
structure Replicates (s : State) (passages : List Passage) : Prop extends s.Tells passages where
  /-- An entry tells peers the new count, which is one more than they knew, and its answer is
  whether that is within the limit. -/
  entry : ∀ prior, prior ++ [.entry] <+: passages →
    (s.passed prior).acquire.2.journal.publications =
        ⟨s.admission.limit, (s.passed prior).acquire.2.admission.inFlight⟩ ::
          (s.passed prior).journal.publications ∧
      (s.passed prior).acquire.2.journal.told = (s.passed prior).journal.told + 1 ∧
      ((s.passed prior).acquire.1 = true ↔
        (s.passed prior).acquire.2.admission.inFlight ≤ s.admission.limit)
  /-- An exit tells peers the new count, which is one less than they knew. -/
  exit : ∀ prior, prior ++ [.exit] <+: passages → (s.passed prior).admission.inFlight ≠ 0 →
    (s.passed prior).release.journal.publications =
        ⟨s.admission.limit, (s.passed prior).release.admission.inFlight⟩ ::
          (s.passed prior).journal.publications ∧
      (s.passed prior).journal.told = (s.passed prior).release.journal.told + 1
  /-- An exit at zero tells nobody anything and leaves the count as it is. -/
  ignored : ∀ prior, prior ++ [.exit] <+: passages → (s.passed prior).admission.inFlight = 0 →
    (s.passed prior).release.journal = (s.passed prior).journal ∧
      (s.passed prior).release.admission = (s.passed prior).admission
  /-- If there have never been more exits than entries, every passage is heeded, and the count is
  the entries less the exits. -/
  matched : (∀ prior, prior <+: passages → prior.count .exit ≤ prior.count .entry) →
    s.heeded passages = passages ∧
      (s.passed passages).admission.inFlight.toNat + passages.count .exit = passages.count .entry

theorem IsUncounted.init (config : Config) (clock : Clock) (nextId : Nat) :
    (State.init config clock nextId).IsUncounted := ⟨rfl, rfl, rfl⟩

/-! ## One passage -/

variable {s : State} {passages prior : List Passage} {p : Passage}

/-- An entry is answered by whether the count it comes to is within the limit. -/
theorem acquire_fits (s : State) :
    s.acquire.1 = true ↔ s.acquire.2.admission.inFlight ≤ s.admission.limit := by
  rw [acquire_admission]
  show _ ↔ s.admission.acquire.inFlight ≤ s.admission.acquire.limit
  unfold acquire
  dsimp only
  split
  case isTrue hover =>
    have hlt : s.admission.acquire.limit < s.admission.acquire.inFlight := of_decide_eq_true hover
    exact ⟨nofun, fun hle => absurd hlt (UInt32.not_lt.mpr hle)⟩
  case isFalse hfits =>
    exact ⟨fun _ => UInt32.not_lt.mp fun hlt => hfits (decide_eq_true hlt), fun _ => rfl⟩

/-- An entry that does not fit is reported. -/
theorem acquire_overflow (s : State) :
    s.acquire.2.metrics.admissionOverflow =
      s.metrics.admissionOverflow + .ofNat ([s.acquire.1].count false) := by
  unfold acquire
  dsimp only
  split
  · rfl
  · exact (UInt64.add_zero _).symm

theorem release_overflow (s : State) :
    s.release.metrics.admissionOverflow = s.metrics.admissionOverflow := by
  unfold release
  split <;> rfl

/-- What an entry does while the count keeps below the largest word. -/
theorem acquire_counts (h : s.acquire.2.admission.inFlight.toNat < UInt32.size - 1) :
    s.acquire.2.admission.inFlight.toNat = s.admission.inFlight.toNat + 1 ∧
      s.acquire.2.journal.told = s.acquire.2.admission.inFlight.toNat := by
  rw [acquire_admission] at h ⊢
  refine ⟨?_, ?_⟩
  · rw [Admission.acquire_inFlight] at h ⊢
    omega
  · rw [Journal.told, acquire_journal]
    rfl

/-- What an exit does above the floor. -/
theorem release_counts (h : s.admission.inFlight ≠ 0) :
    s.admission.inFlight.toNat = s.release.admission.inFlight.toNat + 1 ∧
      s.release.journal = .published s.release.admission.state :: s.journal ∧
      s.release.admission.limit = s.admission.limit := by
  rw [release_of_ne_zero h]
  refine ⟨?_, rfl, rfl⟩
  have hone : (1 : UInt32) ≤ s.admission.inFlight := by
    rw [UInt32.le_iff_toNat_le]
    exact Nat.one_le_iff_ne_zero.mpr fun hzero => h (UInt32.toNat_inj.mp hzero)
  show _ = (s.admission.inFlight - 1).toNat + 1
  rw [UInt32.toNat_sub_of_le _ _ hone]
  exact (Nat.sub_add_cancel (UInt32.le_iff_toNat_le.mp hone)).symm

/-- What an exit does at the floor. -/
theorem release_at_zero (h : s.admission.inFlight = 0) :
    s.release.journal = s.journal ∧ s.release.admission = s.admission := by
  unfold release
  rw [s.admission.release?_eq_none_iff.mpr h]
  exact ⟨rfl, rfl⟩

/-! ## Some passages -/

theorem passed_append (s : State) (prior later : List Passage) :
    s.passed (prior ++ later) = (s.passed prior).passed later := List.foldl_append

theorem answers_append (s : State) (prior later : List Passage) :
    s.answers (prior ++ later) = s.answers prior ++ (s.passed prior).answers later := by
  induction prior generalizing s with
  | nil => rfl
  | cons p prior ih =>
    cases p with
    | entry => exact congrArg (s.acquire.1 :: ·) (ih s.acquire.2)
    | exit => exact ih s.release

theorem heeded_append (s : State) (prior later : List Passage) :
    s.heeded (prior ++ later) = s.heeded prior ++ (s.passed prior).heeded later := by
  induction prior generalizing s with
  | nil => rfl
  | cons p prior ih =>
    have hrest := ih (s.pass p)
    by_cases hsame : (s.pass p).admission = s.admission
    · simpa [heeded, hsame, passed] using hrest
    · simpa [heeded, hsame, passed] using hrest

theorem heeded_entry (h : s.acquire.2.admission.inFlight.toNat < UInt32.size - 1) :
    s.heeded [.entry] = [.entry] := by
  refine if_neg fun hsame => ?_
  have hcount := (acquire_counts h).1
  rw [show s.acquire.2.admission = s.admission from hsame] at hcount
  omega

theorem heeded_exit (h : s.admission.inFlight ≠ 0) : s.heeded [.exit] = [.exit] := by
  refine if_neg fun hsame => ?_
  have hcount := (release_counts h).1
  rw [show s.release.admission = s.admission from hsame] at hcount
  omega

theorem heeded_exit_at_zero (h : s.admission.inFlight = 0) : s.heeded [.exit] = [] :=
  if_pos (release_at_zero h).2

theorem KeepsBelow.of_prefix (h : s.KeepsBelow passages) (hinitial : prior <+: passages) :
    s.KeepsBelow prior := fun earlier hearlier => h earlier (hearlier.trans hinitial)

theorem inFlight_pass_le (s : State) (p : Passage) :
    (s.pass p).admission.inFlight.toNat ≤ s.admission.inFlight.toNat + [p].count .entry := by
  cases p with
  | entry =>
    show s.acquire.2.admission.inFlight.toNat ≤ s.admission.inFlight.toNat + 1
    rw [acquire_admission, Admission.acquire_inFlight]
    exact Nat.min_le_left _ _
  | exit =>
    show s.release.admission.inFlight.toNat ≤ s.admission.inFlight.toNat
    by_cases hzero : s.admission.inFlight = 0
    · exact Nat.le_of_eq (congrArg (·.inFlight.toNat) (release_at_zero hzero).2)
    · exact Nat.le_of_lt (Nat.lt_of_succ_le (Nat.le_of_eq (release_counts hzero).1.symm))

/-- Few entries do not bring the count to the largest word, whatever the exits are. -/
theorem IsUncounted.keepsBelow (hs : s.IsUncounted)
    (hfew : passages.count .entry < UInt32.size - 1) : s.KeepsBelow passages := by
  have hle : ∀ prior, (s.passed prior).admission.inFlight.toNat ≤ prior.count .entry := by
    intro prior
    induction prior using List.reverseRecOn with
    | nil =>
      show s.admission.inFlight.toNat ≤ 0
      rw [hs.inFlight]
      exact Nat.le_refl 0
    | append_singleton prior p ih =>
      rw [passed_append, List.count_append]
      exact Nat.le_trans (inFlight_pass_le _ p) (Nat.add_le_add_right ih _)
  intro prior hinitial
  exact Nat.lt_of_le_of_lt (Nat.le_trans (hle prior) (hinitial.sublist.count_le _)) hfew

theorem KeepsBelow.acquire (h : s.KeepsBelow (prior ++ [.entry])) :
    (s.passed prior).acquire.2.admission.inFlight.toNat < UInt32.size - 1 := by
  have hlt := h _ (List.prefix_refl _)
  rwa [passed_append] at hlt

/-- One more entry keeps what is known. -/
theorem Tells.enter (h : s.Tells prior) (hbelow : s.KeepsBelow (prior ++ [.entry])) :
    s.Tells (prior ++ [.entry]) := by
  have hlt := hbelow.acquire
  obtain ⟨hmore, htold⟩ := acquire_counts hlt
  have hpassed : s.passed (prior ++ [.entry]) = (s.passed prior).acquire.2 :=
    s.passed_append prior [.entry]
  have hheeded : s.heeded (prior ++ [.entry]) = s.heeded prior ++ [.entry] := by
    rw [heeded_append, heeded_entry hlt]
  constructor
  case limit =>
    rw [hpassed, acquire_admission]
    exact h.limit
  case changes =>
    rw [hpassed, hheeded, acquire_journal, List.length_append]
    exact congrArg (· + 1) h.changes
  case latest =>
    rw [hpassed]
    exact htold
  case count =>
    rw [hpassed, hheeded, hmore, List.count_append, List.count_append, List.count_singleton_self]
    exact (Nat.add_right_comm ..).trans (congrArg (· + 1) h.count)
  case overflow =>
    rw [hpassed, answers_append, List.count_append, UInt64.ofNat_add, ← h.overflow]
    exact acquire_overflow (s.passed prior)

/-- An exit is not answered, so it leaves the reports as they are. Both kinds of exit need this,
the one above the floor and the one at it. -/
theorem Tells.overflow_exit (h : s.Tells prior) :
    (s.passed (prior ++ [.exit])).metrics.admissionOverflow =
      .ofNat ((s.answers (prior ++ [.exit])).count false) := by
  have hanswers : s.answers (prior ++ [.exit]) = s.answers prior :=
    (s.answers_append prior [.exit]).trans (List.append_nil _)
  rw [passed_append, hanswers, ← h.overflow]
  exact release_overflow (s.passed prior)

/-- One more exit above the floor keeps what is known. -/
theorem Tells.leave (h : s.Tells prior) (hne : (s.passed prior).admission.inFlight ≠ 0) :
    s.Tells (prior ++ [.exit]) := by
  obtain ⟨hless, hjournal, hlimit⟩ := release_counts hne
  have hpassed : s.passed (prior ++ [.exit]) = (s.passed prior).release :=
    s.passed_append prior [.exit]
  have hheeded : s.heeded (prior ++ [.exit]) = s.heeded prior ++ [.exit] := by
    rw [heeded_append, heeded_exit hne]
  refine { limit := ?_, changes := ?_, latest := ?_, count := ?_, overflow := h.overflow_exit }
  · rw [hpassed, hlimit]
    exact h.limit
  · rw [hpassed, hheeded, hjournal, List.length_append]
    exact congrArg (· + 1) h.changes
  · rw [hpassed, hjournal]
    rfl
  · have hcount := h.count
    rw [hless, Nat.add_right_comm] at hcount
    rw [hpassed, hheeded, List.count_append, List.count_append, List.count_singleton_self]
    exact hcount

/-- One more exit at the floor keeps what is known. -/
theorem Tells.stay (h : s.Tells prior) (hzero : (s.passed prior).admission.inFlight = 0) :
    s.Tells (prior ++ [.exit]) := by
  obtain ⟨hjournal, hadmission⟩ := release_at_zero hzero
  have hpassed : s.passed (prior ++ [.exit]) = (s.passed prior).release :=
    s.passed_append prior [.exit]
  have hheeded : s.heeded (prior ++ [.exit]) = s.heeded prior := by
    rw [heeded_append, heeded_exit_at_zero hzero, List.append_nil]
  refine { limit := ?_, changes := ?_, latest := ?_, count := ?_, overflow := h.overflow_exit }
  · rw [hpassed, hadmission]
    exact h.limit
  · rw [hpassed, hheeded, hjournal]
    exact h.changes
  · rw [hpassed, hjournal, hadmission]
    exact h.latest
  · rw [hpassed, hheeded, hadmission, List.count_append]
    exact h.count

/-- So much is known after every sequence of passages. -/
theorem IsUncounted.tells (hs : s.IsUncounted) (hbelow : s.KeepsBelow passages) :
    s.Tells passages := by
  induction passages using List.reverseRecOn with
  | nil =>
    refine ⟨rfl, congrArg List.length hs.publications, ?_, ?_, hs.overflow⟩
    · show s.journal.told = s.admission.inFlight.toNat
      rw [Journal.told, hs.publications, hs.inFlight]
      rfl
    · show s.admission.inFlight.toNat + 0 = 0
      rw [hs.inFlight]
      rfl
  | append_singleton prior p ih =>
    have hprior : s.Tells prior := ih (hbelow.of_prefix (List.prefix_append _ _))
    cases p with
    | entry => exact hprior.enter hbelow
    | exit =>
      by_cases hzero : (s.passed prior).admission.inFlight = 0
      · exact hprior.stay hzero
      · exact hprior.leave hzero

/-- While there are no more exits than entries, no exit comes to the floor: at an exit the count
would be the entries less the exits before it, of which there is one less than there may be. -/
theorem IsUncounted.heeded_eq (hs : s.IsUncounted) (hbelow : s.KeepsBelow passages)
    (hmatched : ∀ prior, prior <+: passages → prior.count .exit ≤ prior.count .entry) :
    s.heeded passages = passages := by
  induction passages using List.reverseRecOn with
  | nil => rfl
  | append_singleton prior p ih =>
    have hinitial : prior <+: prior ++ [p] := List.prefix_append _ _
    have hprior : s.heeded prior = prior :=
      ih (hbelow.of_prefix hinitial) fun earlier h => hmatched earlier (h.trans hinitial)
    rw [heeded_append, hprior]
    cases p with
    | entry => rw [heeded_entry hbelow.acquire]
    | exit =>
      rw [heeded_exit]
      -- At zero, as many exits have been heeded as there were entries, and this one is one too
      -- many.
      intro hzero
      have hcount := (hs.tells (hbelow.of_prefix hinitial)).count
      rw [hprior, hzero] at hcount
      have hle := hmatched _ (List.prefix_refl _)
      rw [List.count_append, List.count_append, List.count_singleton_self] at hle
      simp at hcount hle
      omega

/-- In every sequence of passages from a fresh count that keeps below the largest word, peers are
told each change once and in order, so what they know is the count. -/
theorem IsUncounted.replicates (hs : s.IsUncounted) (hbelow : s.KeepsBelow passages) :
    s.Replicates passages := by
  have htells : ∀ prior p, prior ++ [p] <+: passages → s.Tells prior := fun prior p hinitial =>
    hs.tells (hbelow.of_prefix ((List.prefix_append _ _).trans hinitial))
  refine { hs.tells hbelow with entry := ?_, exit := ?_, ignored := ?_, matched := ?_ }
  · intro prior hinitial
    obtain ⟨hlimit, -, hlatest, -, -⟩ := htells prior _ hinitial
    obtain ⟨hmore, htold⟩ := acquire_counts (hbelow.of_prefix hinitial).acquire
    refine ⟨?_, by rw [htold, hmore, hlatest], ?_⟩
    · rw [acquire_journal, acquire_admission, ← hlimit]
      rfl
    · rw [← hlimit]
      exact acquire_fits _
  · intro prior hinitial hne
    obtain ⟨hlimit, -, hlatest, -, -⟩ := htells prior _ hinitial
    obtain ⟨hless, hjournal, hkept⟩ := release_counts hne
    refine ⟨?_, ?_⟩
    · rw [hjournal, ← hlimit, ← hkept]
      rfl
    · rw [hjournal, hlatest, hless]
      rfl
  · exact fun prior _ hzero => release_at_zero hzero
  · intro hmatched
    have hall := hs.heeded_eq hbelow hmatched
    have hcount := (hs.tells hbelow).count
    rw [hall] at hcount
    exact ⟨hall, hcount⟩

/-- Two exits too many, one before any entry and one after the count has come back to zero; the
second of three entries is beyond a limit of one. -/
def uneven : List Passage := [.exit, .entry, .entry, .exit, .exit, .exit, .entry]

theorem IsUncounted.replicates_uneven :
    (State.init { admissionLimit := 1 } {}).Replicates uneven ∧
      ((State.init { admissionLimit := 1 } {}).passed uneven).journal.publications =
        [⟨1, 1⟩, ⟨1, 0⟩, ⟨1, 1⟩, ⟨1, 2⟩, ⟨1, 1⟩] ∧
      (State.init { admissionLimit := 1 } {}).answers uneven = [true, false, true] := by
  have hs : (State.init { admissionLimit := 1 } {}).IsUncounted := .init _ _ _
  exact ⟨hs.replicates (hs.keepsBelow (by decide)), by decide +kernel, by decide +kernel⟩

end State
end Correlator
