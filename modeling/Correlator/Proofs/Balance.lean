import Correlator.Proofs.Completion

/-!
# Admission is balanced

A call is counted in before it is registered and counted out after it has been claimed or refused.
Nobody gets in between, so whenever anybody looks as many calls are in flight as are pending
(`Moment.IsBalanced`), and peers have been told the same number.

The count is a 32-bit word that saturates, so this needs that there are never too many pending calls
(`Journal.HasRoom`).  Then no release is without a call to count out: each one comes after a call
has left the registry, or after one that has been counted in was refused.

## Main results

* `State.Step.balanced`, `State.Step.isQuiet` : every step keeps the balance, and no step releases
  what is not held.
* `Environment.Reaches.admission_balanced` : admission is balanced throughout all runs.
-/

namespace Correlator

/-- How many calls have been registered and not been claimed. -/
def Journal.pending : Journal → Nat
  | [] => 0
  | .registered _ :: past => pending past + 1
  | .claimed .. :: past => pending past - 1
  | _ :: past => pending past

/-- There have always been fewer pending calls than the count can tell. -/
def Journal.HasRoom (j : Journal) : Prop :=
  ∀ past : Journal, past <:+ j → past.pending < UInt32.size - 1

/-- As many calls are in flight as are pending, and peers know that if they have been told
anything. Before the first publication nobody has been told, and then the count is that of a new
engine. -/
structure Moment.IsBalanced (m : Moment) (j : Journal) : Prop where
  inFlight : m.admission.inFlight.toNat = m.registry.size
  published : ∀ state, j.publications.head? = some state → state.inFlight = m.admission.inFlight

/-- No release has been without a call to count out. -/
def State.IsQuiet (s : State) : Prop := ∀ key, .unmatchedRelease key ∉ s.notices

/-- What steps keep. The registry agrees with the journal in any case; the count in flight does as
long as the journal has room, since a saturated count has forgotten a call for good. -/
structure Moment.IsCounted (m : Moment) (j : Journal) : Prop where
  agrees : m.registry.Agrees j
  size : m.registry.size = j.pending
  balanced : j.HasRoom → m.IsBalanced j

/-! ## Counting the journal -/

namespace Journal

variable {j : Journal}

theorem HasRoom.of_suffix {past : Journal} (h : j.HasRoom) (hsuffix : past <:+ j) :
    past.HasRoom := fun older holder => h older (holder.trans hsuffix)

theorem pending_le_length (j : Journal) : j.pending ≤ j.length := by
  induction j with
  | nil => exact Nat.le_refl 0
  | cons e past ih =>
    cases e with
    | registered call => exact Nat.succ_le_succ ih
    | claimed claimer call => exact Nat.le_trans (Nat.sub_le _ 1) (Nat.le_succ_of_le ih)
    | _ => exact Nat.le_succ_of_le ih

/-- A short journal does not know of many calls. -/
theorem HasRoom.of_length (h : j.length < UInt32.size - 1) : j.HasRoom := by
  intro past hsuffix
  exact Nat.lt_of_le_of_lt (Nat.le_trans past.pending_le_length hsuffix.length_le) h

theorem pending_of_not_booking {e : Entry} (h : e.isBooking = false) :
    pending (e :: j) = j.pending := by
  cases e with
  | registered | claimed | published => cases h
  | _ => rfl

theorem publications_of_not_booking {e : Entry} (h : e.isBooking = false) :
    publications (e :: j) = j.publications := by
  cases e with
  | registered | claimed | published => cases h
  | _ => rfl

end Journal

/-- Only the number of calls, the count in flight and what the journal says about them matter, so
every step that is no booking keeps the count for this one reason. -/
theorem Moment.IsCounted.congr {m m' : Moment} {j j' : Journal} (h : m.IsCounted j)
    (hagrees : m'.registry.Agrees j') (hsuffix : j <:+ j')
    (hsize : m'.registry.size = m.registry.size) (hadmission : m'.admission = m.admission)
    (hpending : j'.pending = j.pending) (hpublications : j'.publications = j.publications) :
    m'.IsCounted j' := by
  refine ⟨hagrees, ?_, fun hroom => ?_⟩
  · rw [hsize, hpending]
    exact h.size
  · obtain ⟨hinFlight, hpublished⟩ := h.balanced (hroom.of_suffix hsuffix)
    constructor
    · rw [hadmission, hsize]
      exact hinFlight
    · rw [hadmission, hpublications]
      exact hpublished

/-! ## Counting the registry -/

theorem Registry.size_of_claim? {r r' : Registry} (hunique : (r.calls.map (·.id)).Nodup)
    {id : CallId} {call : Call} (h : r.claim? id = some (call, r')) : r'.size + 1 = r.size := by
  obtain ⟨waiting, hfind, -, -, hcalls⟩ := claim?_eq_some h
  have hid : waiting.id = id := id_of_find? hfind
  have hmem : waiting.id ∈ r.calls.map (·.id) :=
    List.mem_map_of_mem (List.mem_of_find?_eq_some hfind)
  have hone : r.calls.countP (·.id = id) = 1 := by
    have hcount := List.count_eq_one_of_mem hunique hmem
    rw [List.count, List.countP_map, hid] at hcount
    exact hcount
  have hsplit := List.length_eq_countP_add_countP (·.id = id) (l := r.calls)
  rw [size, size, hcalls, ← List.countP_eq_length_filter, hsplit, hone, Nat.add_comm]
  simp

namespace State

variable {s s' : State}

/-! ## Counting in and out -/

theorem acquire_toNat (h : s.admission.inFlight.toNat < UInt32.size - 1) :
    s.admission.acquire.inFlight.toNat = s.admission.inFlight.toNat + 1 := by
  rw [Admission.acquire_inFlight]
  omega

/-- With a call to count out, a release is silent and tells peers. -/
theorem release_of_ne_zero (h : s.admission.inFlight ≠ 0) :
    s.release =
      s.publish { s.admission with inFlight := s.admission.inFlight - 1 } := by
  unfold release
  rw [Admission.release?, if_neg h]

/-- A release with one call in flight more than are pending restores the balance. Both claims and
refusals come down to it: either a call has just left the registry, or one that was counted in
never got there. -/
theorem balanced_release (h : s.admission.inFlight.toNat = s.registry.size + 1) :
    s.release.moment.IsBalanced s.release.journal ∧ s.release.notices = s.notices := by
  have hne : s.admission.inFlight ≠ 0 := by
    intro hzero
    rw [hzero] at h
    exact absurd h (by simp)
  have hone : (1 : UInt32) ≤ s.admission.inFlight := by
    rw [UInt32.le_iff_toNat_le, h]
    simp
  rw [release_of_ne_zero hne]
  refine ⟨⟨?_, ?_⟩, rfl⟩
  · show (s.admission.inFlight - 1).toNat = s.registry.size
    rw [UInt32.toNat_sub_of_le _ _ hone, h]
    rfl
  · intro state hstate
    cases hstate
    rfl

theorem pending_release : s.release.journal.pending = s.journal.pending := by
  rcases s.release_journal with hsame | ⟨state, hpublished⟩
  · rw [hsame]
  · rw [hpublished]
    rfl

/-- After a claim there is one call in flight more than are pending. -/
theorem inFlight_of_claim (hs : s.moment.IsCounted s.journal) (hroom : s.journal.HasRoom)
    {claimer : Claimer} {id : CallId} {call : Call} (h : s.claim claimer id = (some call, s')) :
    s'.admission.inFlight.toNat = s'.registry.size + 1 := by
  obtain ⟨hclaim, hadmission, -, -⟩ := claim_eq_some h
  have hsize : s'.registry.size + 1 = s.registry.size :=
    Registry.size_of_claim? hs.agrees.unique hclaim
  rw [hadmission, hsize]
  exact (hs.balanced hroom).inFlight

/-- After counting in there is one call in flight more than are pending. -/
theorem inFlight_of_acquire (hs : s.moment.IsCounted s.journal) (hroom : s.journal.HasRoom) :
    s.acquire.2.admission.inFlight.toNat = s.acquire.2.registry.size + 1 := by
  have hcount : s.admission.inFlight.toNat = s.registry.size := (hs.balanced hroom).inFlight
  have hsize : s.registry.size = s.journal.pending := hs.size
  have hlt : s.journal.pending < UInt32.size - 1 := hroom _ (List.suffix_refl _)
  rw [acquire_admission, acquire_registry, acquire_toNat (by omega), hcount]

theorem counted_of_claim (hs : s.moment.IsCounted s.journal) {claimer : Claimer} {id : CallId}
    {call : Call} (hwhy : claimer.IsJustified s.journal id)
    (h : s.claim claimer id = (some call, s')) :
    s'.release.moment.IsCounted s'.release.journal := by
  refine ⟨agrees_of_claim hs.agrees hwhy h, ?_, fun hroom => ?_⟩
  -- One call less is there, so there was one, and counting it off the journal is exact.
  · obtain ⟨hclaim, -, hjournal, -⟩ := claim_eq_some h
    have hsize : s'.registry.size + 1 = s.registry.size :=
      Registry.size_of_claim? hs.agrees.unique hclaim
    have hpending : s.registry.size = s.journal.pending := hs.size
    show s'.release.registry.size = s'.release.journal.pending
    rw [release_registry, pending_release, hjournal, Journal.pending]
    omega
  · refine (balanced_release (inFlight_of_claim hs ?_ h)).1
    exact hroom.of_suffix (journal_suffix_of_claim h)

theorem counted_of_enroll (hs : s.moment.IsCounted s.journal) {call : Call} {receipt : Receipt}
    (hpending : call.completion = .pending) (h : s.enroll call = (.ok receipt, s')) :
    s'.moment.IsCounted s'.journal := by
  have hstep : Step s s' := .registered hpending h
  obtain ⟨hr, hadmission, hjournal, -⟩ := enroll_eq_ok h
  have hsize : s'.registry.size = s.registry.size + 1 := by
    rw [Registry.size, (Registry.register?_eq_some hr).2, List.length_append]
    rfl
  refine ⟨hstep.agrees hs.agrees, ?_, fun hroom => ⟨?_, ?_⟩⟩
  · show s'.registry.size = s'.journal.pending
    rw [hsize, hjournal]
    exact congrArg (· + 1) hs.size
  -- Counted in before it was registered: one too many then, and just right now.
  · have hcount := inFlight_of_acquire hs (hroom.of_suffix hstep.journal_suffix)
    rw [acquire_admission, acquire_registry] at hcount
    show s'.admission.inFlight.toNat = s'.registry.size
    rw [hadmission, hcount, hsize]
  · show ∀ state, s'.journal.publications.head? = some state → _ = s'.admission.inFlight
    rw [hadmission, hjournal]
    intro state hstate
    cases hstate
    rfl

theorem counted_of_refusal (hs : s.moment.IsCounted s.journal) {call : Call} {e : EngineError}
    (h : s.enroll call = (.error e, s')) : s'.moment.IsCounted s'.journal := by
  have hstep : Step s s' := .refused h
  obtain ⟨-, rfl⟩ := enroll_eq_error h
  refine ⟨hstep.agrees hs.agrees, ?_, fun hroom => ?_⟩
  · show (release _).registry.size = (release _).journal.pending
    rw [release_registry, pending_release]
    show s.acquire.2.registry.size = s.acquire.2.journal.pending
    rw [acquire_registry, acquire_journal]
    exact hs.size
  · refine (balanced_release ?_).1
    exact inFlight_of_acquire hs (hroom.of_suffix hstep.journal_suffix)

/-- Every step keeps the count. The steps that change it are those in which a call enters or
leaves, and each of these changes the registry by the same one. -/
theorem Step.counted (h : Step s s') (hs : s.moment.IsCounted s.journal) :
    s'.moment.IsCounted s'.journal := by
  have hagrees := h.agrees hs.agrees
  have hsuffix := h.journal_suffix
  cases h with
  | aside h =>
    have hsize : s'.registry.size = s.registry.size := congrArg List.length h.calls
    exact hs.congr hagrees hsuffix hsize h.admission (congrArg Journal.pending h.journal)
      (congrArg Journal.publications h.journal)
  | noted hbook _ =>
    exact hs.congr hagrees hsuffix rfl rfl (Journal.pending_of_not_booking hbook)
      (Journal.publications_of_not_booking hbook)
  | registered hpending h => exact counted_of_enroll hs hpending h
  | refused h => exact counted_of_refusal hs h
  | claimed _ hwhy h => exact counted_of_claim hs hwhy h
  | abandoned hwhy h =>
    -- The note on the fault comes on top of what any claim does.
    exact (counted_of_claim hs hwhy h).congr hagrees (List.suffix_cons _ _) rfl rfl rfl rfl

/-- No step releases what is not held: at each release the step itself has made one call too many
in flight. -/
theorem Step.isQuiet (h : Step s s') (hs : s.moment.IsCounted s.journal)
    (hroom : s.journal.HasRoom) (hquiet : s.IsQuiet) : s'.IsQuiet := by
  intro key hkey
  cases h with
  | aside h => exact hquiet key (h.notices key hkey)
  | noted => exact hquiet key hkey
  | registered _ h =>
    rw [(enroll_eq_ok h).2.2.2] at hkey
    exact hquiet key (unmatchedRelease_mem_acquire hkey)
  | @refused _ call e h =>
    obtain ⟨-, rfl⟩ := enroll_eq_error h
    have hcount : (s.acquire.2.notify (.duplicateRegistration call.id)).admission.inFlight.toNat =
        s.acquire.2.registry.size + 1 := inFlight_of_acquire hs hroom
    -- The refused call has been counted in, so there is something to count out.
    rw [(balanced_release hcount).2] at hkey
    rcases List.mem_cons.mp hkey with heq | hold
    · cases heq
    · exact hquiet key (unmatchedRelease_mem_acquire hold)
  | claimed _ _ h =>
    rw [(balanced_release (inFlight_of_claim hs hroom h)).2, (claim_eq_some h).2.2.2] at hkey
    exact hquiet key hkey
  | @abandoned t place level id call e _ h =>
    change .unmatchedRelease key ∈ t.release.notices at hkey
    rw [(balanced_release (inFlight_of_claim hs hroom h)).2, (claim_eq_some h).2.2.2] at hkey
    exact hquiet key hkey

end State

namespace Environment

variable {σ : Type} {env : Environment σ} {depth : Nat} {site : Site (Host σ)}

theorem Reaches.counted (hcol : env.collaborators.AskOnly Operation.IsIndirect)
    (h : env.Reaches Operation.IsIndirect depth site) :
    site.state.state.moment.IsCounted site.state.state.journal ∧
      site.state.state.journal.Each (Entry.Follows Moment.IsCounted) := by
  refine h.always (fun _ _ _ => ⟨.init, rfl, fun _ => ⟨rfl, fun _ => nofun⟩⟩) ?_ hcol
  exact fun hs hstep => hstep.counted hs

theorem Reaches.isQuiet (hcol : env.collaborators.AskOnly Operation.IsIndirect)
    (h : env.Reaches Operation.IsIndirect depth site)
    (hroom : site.state.state.journal.HasRoom) : site.state.state.IsQuiet := by
  refine (h.invariant
    (P := fun s => s.moment.IsCounted s.journal ∧ (s.journal.HasRoom → s.IsQuiet))
    (fun _ _ _ => ?_) (fun hs hstep => ?_) hcol).2 hroom
  · exact ⟨⟨.init, rfl, fun _ => ⟨rfl, fun _ => nofun⟩⟩, fun _ _ => nofun⟩
  · refine ⟨hstep.counted hs.1, fun hroom' => ?_⟩
    have hbefore := hroom'.of_suffix hstep.journal_suffix
    exact hstep.isQuiet hs.1 hbefore (hs.2 hbefore)

/-- In every run of an engine that never has too many calls pending, as many calls are in flight as
are pending and peers know it: at the end, and at every moment at which an operation was asked for
or answered, a collaborator was called or came back, or a sweep listed the calls that were due.
No release was ever without a call to count out. -/
theorem Reaches.admission_balanced (hcol : env.collaborators.AskOnly Operation.IsIndirect)
    (h : env.Reaches Operation.IsIndirect depth site)
    (hroom : site.state.state.journal.HasRoom) :
    site.state.state.moment.IsBalanced site.state.state.journal ∧
      (∀ e past m, e :: past <:+ site.state.state.journal → e.moment? = some m →
        m.IsBalanced past) ∧
      ∀ key, .unmatchedRelease key ∉ site.state.state.notices := by
  obtain ⟨hnow, heach⟩ := h.counted hcol
  refine ⟨hnow.balanced hroom, fun e past m hsuffix hm => ?_, h.isQuiet hcol hroom⟩
  have hcounted := (heach.of_suffix hsuffix).moment m hm
  exact hcounted.balanced (hroom.of_suffix ((List.suffix_cons e past).trans hsuffix))

theorem admission_balanced_afterResend :
    Site.afterResend.state.state.moment.IsBalanced Site.afterResend.state.state.journal ∧
      Site.afterResend.state.state.admission.inFlight = 1 := by
  have hroom : Site.afterResend.state.state.journal.HasRoom := .of_length (by decide +kernel)
  refine ⟨(Reaches.admission_balanced resending_askOnly afterResend_reaches hroom).1, ?_⟩
  decide +kernel

end Environment

end Correlator
