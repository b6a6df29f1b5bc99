import Correlator.Proofs.Endings
import Correlator.Proofs.Sparing
import Correlator.Proofs.Sweeping

/-!
# The accounts of a sweep

The report of a sweep is counted up call by call, while fault handlers respond to calls that the
sweep has listed and not come to, register others under the same ids, ask for sweeps and panic.  So
what becomes of an id depends on all that happened before it.  But each id that was listed is either
claimed by the sweep or not, and each call that was claimed meets one fate; so the report adds up
call by call, and nothing need be known about anybody else (`SweepSummary.AccountsFor`).

The counts that the engine keeps are shared, and this is where the lock comes in: as long as the
others heed a lock that is held (`Host.Heeds`), the counts are moved by the sweep alone.  Whatever
an engine does heeds it, as work that spares the sweeps of others (`Host.Spares`).

Which calls to fault handlers are the sweep's own, and not those of operations that its fault
handlers have asked for, is told by taking the sweep apart at its calls.  In between it claims calls
and counts them out, so this is more than reports, but it calls nobody (`Callbacks.Compensates`).
Fault handlers that count themselves find as many (`Callbacks.Compensates.counted`).

## Main definitions

* `Callbacks.Compensates` : one host leads to another by so many calls to fault handlers.
* `SweepSummary.AccountsFor` : the report says what the sweep has done with so many calls.
* `Host.Heeds` : a lock that is held is left alone, and the counts of expired calls with it.

## Main results

* `sweepAsOf_accounts` : the report of a sweep adds up, whatever anybody does meanwhile.
* `sweepAsOf_counts` : the engine's counts grow by what the sweep reports.
* `Environment.Reaches.sweeps_accounted` : in every run the reports of sweeps account for what they
  did.
-/

namespace Correlator

variable {σ α β : Type} {callbacks : Callbacks σ} {rel : Host σ → Host σ → Prop}
  {host mid later : Host σ} {now : Millis} {n m : ℕ}

/-! ## Calls to fault handlers -/

/-- Nobody has been called: no call is on record, and the collaborators remember the same. The
books may have changed, which `Host.Reports` would not allow. -/
structure Host.CallsNobody (host later : Host σ) : Prop where
  callbacks : later.state.journal.callbacks = host.state.journal.callbacks
  memory : later.memory = host.memory

/-- The first host leads to the second by `n` calls to fault handlers.  Between them the engine
calls nobody. -/
inductive Callbacks.Compensates (callbacks : Callbacks σ) (rel : Host σ → Host σ → Prop) :
    ℕ → Host σ → Host σ → Prop
  | none {host later : Host σ} (h : host.CallsNobody later) :
      Compensates callbacks rel 0 host later
  | call {n : ℕ} {host begun ended later : Host σ} {handler : Handler} {cause : Fault}
      {msg : Message} {result : Message × Outcome Unit} (h : host.CallsNobody begun)
      (hcall : (callbacks.compensate handler cause msg begun).CanEnd rel result ended)
      (hrest : Compensates callbacks rel n ended later) :
      Compensates callbacks rel (n + 1) host later

/-- A call to a fault handler counts one in the memory, with all that goes on until it has ended.
Whatever else the handler asks for must leave the count alone, also the handlers that are run for
that. -/
def Callbacks.CountedBy (callbacks : Callbacks σ) (rel : Host σ → Host σ → Prop)
    (count : σ → ℕ) : Prop :=
  ∀ {handler : Handler} {cause : Fault} {msg : Message} {host later : Host σ}
    {result : Message × Outcome Unit},
    (callbacks.compensate handler cause msg host).CanEnd rel result later →
      count later.memory = count host.memory + 1

namespace Host.CallsNobody

theorem refl (host : Host σ) : host.CallsNobody host := ⟨rfl, rfl⟩

theorem trans (h : host.CallsNobody mid) (h' : mid.CallsNobody later) : host.CallsNobody later :=
  ⟨h'.callbacks.trans h.callbacks, h'.memory.trans h.memory⟩

end Host.CallsNobody

namespace Callbacks.Compensates

theorem of_earlier (h : host.CallsNobody mid) (h' : callbacks.Compensates rel n mid later) :
    callbacks.Compensates rel n host later := by
  cases h' with
  | none hlater => exact .none (h.trans hlater)
  | call hbegun hcall hrest => exact .call (h.trans hbegun) hcall hrest

theorem trans (h : callbacks.Compensates rel n host mid)
    (h' : callbacks.Compensates rel m mid later) :
    callbacks.Compensates rel (n + m) host later := by
  induction h with
  | none hmid =>
    rw [Nat.zero_add]
    exact h'.of_earlier hmid
  | call hbegun hcall _ ih =>
    rw [Nat.add_right_comm]
    exact .call hbegun hcall (ih h')

theorem to_later (h : callbacks.Compensates rel n host mid) (h' : mid.CallsNobody later) :
    callbacks.Compensates rel n host later := h.trans (.none h')

/-- Whoever counts the calls to fault handlers has counted just these. The induction is on the
calls: what lies between two of them calls nobody, so the memory stands still there. -/
theorem counted {count : σ → ℕ} (h : callbacks.Compensates rel n host later)
    (hcount : callbacks.CountedBy rel count) :
    count later.memory = count host.memory + n := by
  induction h with
  | none h => exact congrArg count h.memory
  | call hbegun hcall _ ih =>
    rw [ih, hcount hcall, hbegun.memory, Nat.add_right_comm]
    rfl

end Callbacks.Compensates

/-- How many fault handlers have been run to this end. -/
def Disposition.consulted : Disposition → ℕ
  | .handled _ | .handlerFailed .. => 1
  | .discarded | .undeliverable => 0

section Routing

variable {msg back : Message} {cause : Fault} {outcome : Disposition}

theorem runHandler_compensates
    (h : (runHandler callbacks msg cause host).CanEnd rel (back, outcome) later) :
    callbacks.Compensates rel outcome.consulted host later := by
  cases runHandlerEnds_of_canEnd h with
  | undeliverable => exact .none ⟨rfl, rfl⟩
  | handled _ hcall => exact .call (.refl host) hcall (.none ⟨rfl, rfl⟩)
  | handlerFailed _ hcall => exact .call (.refl host) hcall (.none ⟨rfl, rfl⟩)

theorem routeFault_compensates {action : ExpiryAction}
    (h : (routeFault callbacks msg cause action host).CanEnd rel (back, outcome) later) :
    callbacks.Compensates rel outcome.consulted host later := by
  unfold routeFault at h
  split at h
  · obtain ⟨heq, rfl⟩ := h
    cases heq
    exact .none ⟨rfl, rfl⟩
  · exact runHandler_compensates h

/-- A fault that is dealt with calls a handler just if it ends that way, and nobody else. Reading
the number of calls off the disposition is what lets the report be compared with them. -/
theorem settleFault_compensates {call : Call} {action : ExpiryAction}
    (h : (settleFault callbacks call cause (routeFault callbacks msg cause action) host).CanEnd rel
      outcome later) : callbacks.Compensates rel outcome.consulted host later := by
  obtain ⟨back, ended, hroute, rfl⟩ := canEnd_of_settleFault h
  have hnoted : host.CallsNobody
      { host with state := host.state.note (.routing callbacks.level call cause) } := ⟨rfl, rfl⟩
  exact ((routeFault_compensates hroute).of_earlier hnoted).to_later ⟨rfl, rfl⟩

end Routing

/-! ## What a report says -/

/-- The report says what has become of `n` calls on the way from the one host to the other: each
was claimed or overtaken, each that was claimed met one fate, and as many handlers have been called
as it counts as handled or failed. -/
structure SweepSummary.AccountsFor (callbacks : Callbacks σ) (rel : Host σ → Host σ → Prop)
    (host : Host σ) (n : ℕ) (r : SweepSummary) (later : Host σ) : Prop where
  /-- Each call that was claimed has met one fate. -/
  fates : r.expired = r.handled + r.discarded + r.dropped + r.handlersFailed + r.undeliverable
  /-- Each call was claimed, or somebody else had been there first. -/
  listed : r.expired + r.overtaken = n
  /-- The fault handlers that are reported are those that were run. -/
  consulted : callbacks.Compensates rel (r.handled + r.handlersFailed) host later

theorem State.claimExpired_callsNobody {s : State} {place : Nat} {id : CallId} {call : Call}
    (h : host.state.claimExpired now place id = (some call, s)) :
    host.CallsNobody { host with state := s.expireCall } := by
  obtain ⟨t, hclaim, hquiet⟩ := claimExpired_eq_some h
  obtain ⟨-, -, hjournal, -⟩ := claim_eq_some hclaim
  have hs : s.journal = t.journal := by
    cases hquiet
    rfl
  refine ⟨?_, rfl⟩
  calc s.expireCall.journal.callbacks
      _ = s.journal.callbacks := congrArg (·.callbacks) (accounts_release _)
      _ = host.state.journal.callbacks := by rw [hs, hjournal]; rfl

namespace SweepSummary.AccountsFor

variable {place : Nat} {id : CallId} {r r' : SweepSummary}

/-- A fault that has been dealt with is one fate more, and one call more if a handler was run. -/
theorem count (h : r.AccountsFor callbacks rel host n mid) {outcome : Disposition}
    (hcalls : callbacks.Compensates rel outcome.consulted mid later) :
    ({ r with expired := r.expired + 1 }.count outcome).AccountsFor callbacks rel host (n + 1)
      later := by
  have hfates := h.fates
  have hlisted : r.expired + 1 + r.overtaken = n + 1 := by
    have := h.listed
    omega
  have hboth := h.consulted.trans hcalls
  cases outcome with
  | handled handler =>
    refine ⟨?_, hlisted, ?_⟩
    · show r.expired + 1 =
        (r.handled + 1) + r.discarded + r.dropped + r.handlersFailed + r.undeliverable
      omega
    -- One more call has been made, and it is counted among the handled ones.
    · rw [Nat.add_right_comm] at hboth
      exact hboth
  | handlerFailed handler e =>
    refine ⟨?_, hlisted, hboth⟩
    show r.expired + 1 =
      r.handled + r.discarded + r.dropped + (r.handlersFailed + 1) + r.undeliverable
    omega
  | discarded =>
    refine ⟨?_, hlisted, hboth⟩
    show r.expired + 1 =
      r.handled + (r.discarded + 1) + r.dropped + r.handlersFailed + r.undeliverable
    omega
  | undeliverable =>
    refine ⟨?_, hlisted, hboth⟩
    show r.expired + 1 =
      r.handled + r.discarded + r.dropped + r.handlersFailed + (r.undeliverable + 1)
    omega

/-- A report that accounts for the calls so far accounts for the next one too. -/
theorem one (h : r.AccountsFor callbacks rel host n mid)
    (hone : SweepOneEnds callbacks rel now place r id mid r' later) :
    r'.AccountsFor callbacks rel host (n + 1) later := by
  cases hone with
  | overtaken =>
    have hlisted := h.listed
    refine ⟨h.fates, ?_, h.consulted⟩
    show r.expired + (r.overtaken + 1) = n + 1
    omega
  | dropped hclaim =>
    have hfates := h.fates
    have hlisted := h.listed
    constructor
    case fates =>
      show r.expired + 1 =
        r.handled + r.discarded + (r.dropped + 1) + r.handlersFailed + r.undeliverable
      omega
    case listed =>
      show r.expired + 1 + r.overtaken = n + 1
      omega
    case consulted => exact h.consulted.to_later (State.claimExpired_callsNobody hclaim)
  | @settled call s outcome later hclaim _ hsettle =>
    have hclaimed : mid.CallsNobody
        { mid with
          state := s.expireCall.notify
            (.timedOut call.id call.expiry.action call.deadline) } :=
      (State.claimExpired_callsNobody hclaim).trans ⟨rfl, rfl⟩
    exact h.count ((settleFault_compensates hsettle).of_earlier hclaimed)

end SweepSummary.AccountsFor

/-- What holds when a sweep begins, and is kept by what any id comes to, holds when it has gone
through the calls that were due. Reports and counts are both shown by this one induction; the
number of ids is fixed by the listing, since an arrangement only reorders it. -/
theorem sweepAsOf_keeps {P : ℕ → SweepSummary → Host σ → Prop} {report : SweepSummary}
    (hbegin : host.state.sweeping = false → P 0 {} { host with state := host.state.lock now })
    (hone : ∀ {n : ℕ} {r r' : SweepSummary} {id : CallId} {mid later : Host σ}, P n r mid →
      SweepOneEnds callbacks rel now (host.state.journal.length + 1) r id mid r' later →
      P (n + 1) r' later)
    (hend : (sweepAsOf callbacks now host).CanEnd rel report later)
    (hskipped : report.skipped = false) :
    ∃ (r : SweepSummary) (swept : Host σ),
      P (host.state.registry.calls.countP (·.isDue now)) r swept ∧
      report = { r with bindingsDropped := (swept.state.purgeBindings now).1 } ∧
      later = { swept with state := (swept.state.purgeBindings now).2.unlock } := by
  cases hsweeping : host.state.sweeping with
  | true =>
    rw [sweepAsOf_of_locked hsweeping] at hend
    obtain ⟨rfl, -⟩ := hend
    cases hskipped
  | false =>
    rw [sweepAsOf_of_free hsweeping] at hend
    obtain ⟨r, swept, hswept, rfl, rfl⟩ := Progress.canEnd_bind.mp hend
    have hall := sweepAll_keeps hone (hbegin hsweeping) hswept
    -- As many ids were gone through as were listed, in whatever order.
    rw [Nat.zero_add, (callbacks.arrangement.perm _ _).length_eq, Registry.overdue,
      List.length_map, ← List.countP_eq_length_filter] at hall
    exact ⟨r, swept, hall, rfl, rfl⟩

/-- The report of a sweep that was carried through adds up, whatever the fault handlers do and
whatever the others do while these wait. -/
theorem sweepAsOf_accounts {report : SweepSummary}
    (hend : (sweepAsOf callbacks now host).CanEnd rel report later)
    (hskipped : report.skipped = false) :
    report.AccountsFor callbacks rel host (host.state.registry.calls.countP (·.isDue now))
      later := by
  have hbegin : ({} : SweepSummary).AccountsFor callbacks rel host 0
      { host with state := host.state.lock now } := ⟨rfl, rfl, .none ⟨rfl, rfl⟩⟩
  obtain ⟨r, swept, haccounts, rfl, rfl⟩ := sweepAsOf_keeps (fun _ => hbegin)
    (fun h hone => h.one hone) hend hskipped
  exact ⟨haccounts.fates, haccounts.listed, haccounts.consulted.to_later ⟨rfl, rfl⟩⟩

/-! ## Heeding the lock -/

/-- A lock that is held is left alone, and the counts of expired calls with it. Nothing is said of
a lock that is free: whoever finds it free may sweep. -/
def Host.Heeds (host later : Host σ) : Prop :=
  host.state.sweeping = true → host.state.Unswept later.state

instance : IsPreorder (Host σ) Host.Heeds where
  refl host _ := .refl host.state
  trans _ _ _ h h' hlocked := (h hlocked).trans (h' ((h hlocked).sweeping.trans hlocked))

/-- If somebody has a sweep in hand, whoever spares it has none and heeds the lock. -/
theorem Host.Spares.heeds {i : ℕ} (h : Host.Spares 0 host i later)
    (hlocked : host.state.sweeping = true) :
    i = 0 ∧ later.state.sweeping = true ∧ host.state.Unswept later.state := by
  obtain ⟨hnumber, hunswept⟩ := h 1 (by rw [hlocked]; rfl)
  have hlater : later.state.sweeping = true := (hunswept rfl).sweeping.trans hlocked
  rw [hlater] at hnumber
  exact ⟨Nat.add_eq_left.mp hnumber, hlater, hunswept rfl⟩

/-- Work that spares the sweeps of others heeds a lock that it finds held, and relies on nothing
else. -/
theorem Progress.Carries.heeds {post : α → ℕ → Host σ → Prop} {p : Progress (Host σ) α}
    (hp : p.Carries Host.Spares post 0 host) (hlocked : host.state.sweeping = true) :
    p.Along True Host.Heeds host := by
  induction p generalizing host with
  | ended a t =>
    obtain ⟨i, ht, -⟩ := hp
    exact ⟨fun _ => (ht.heeds hlocked).2.2, trivial⟩
  | waiting wait t next ih =>
    obtain ⟨i, ht, hnext⟩ := hp
    obtain ⟨rfl, hheld, hunswept⟩ := ht.heeds hlocked
    refine ⟨trivial, fun _ => hunswept, fun t' ht' => ih t' (hnext t') ?_⟩
    exact (ht' hheld).sweeping.trans hheld

/-! ## What an engine counts -/

/-- The engine has counted `n` more calls as expired, in the registry and in the metrics; both are
words and wrap alike. -/
structure Host.Counts (n : ℕ) (host later : Host σ) : Prop where
  expired : later.state.registry.stats.expired = host.state.registry.stats.expired + .ofNat n
  timeouts : later.state.metrics.timeouts = host.state.metrics.timeouts + .ofNat n

namespace Host.Counts

theorem to_later (h : host.Counts n mid) (h' : mid.state.Unswept later.state) :
    host.Counts n later :=
  ⟨h'.expired.trans h.expired, h'.timeouts.trans h.timeouts⟩

theorem succ (h : host.Counts n mid)
    (hexpired : later.state.registry.stats.expired = mid.state.registry.stats.expired + 1)
    (htimeouts : later.state.metrics.timeouts = mid.state.metrics.timeouts + 1) :
    host.Counts (n + 1) later := by
  have hadd (c : UInt64) : c + .ofNat n + 1 = c + .ofNat (n + 1) := by
    rw [UInt64.ofNat_add, UInt64.add_assoc]
    rfl
  constructor
  · rw [hexpired, h.expired, hadd]
  · rw [htimeouts, h.timeouts, hadd]

end Host.Counts

/-- A call that expires is counted once by the registry and once by the metrics. -/
theorem State.claimExpired_counts {s s' : State} {place : Nat} {id : CallId} {call : Call}
    (h : s.claimExpired now place id = (some call, s')) :
    s'.expireCall.sweeping = s.sweeping ∧
      s'.expireCall.registry.stats.expired = s.registry.stats.expired + 1 ∧
      s'.expireCall.metrics.timeouts = s.metrics.timeouts + 1 := by
  have hclaimed := s.unswept_claim (.sweep now place) id
  have hreleased := State.unswept_release
    { s' with metrics := { s'.metrics with timeouts := s'.metrics.timeouts + 1 } }
  unfold claimExpired at h
  split at h
  · cases h
  · rename_i found t hclaim
    rw [hclaim] at hclaimed
    cases h
    refine ⟨hreleased.sweeping.trans hclaimed.sweeping, ?_, ?_⟩
    · rw [← hclaimed.expired]
      exact hreleased.expired
    · rw [← hclaimed.timeouts]
      exact hreleased.timeouts

section Counting

variable (hc : callbacks.Correspond (Run.Concluding Host.Spares) callbacks)

include hc

theorem settleFault_heeds {call : Call} {cause : Fault} {msg : Message} {action : ExpiryAction}
    (hlocked : host.state.sweeping = true) :
    (settleFault callbacks call cause (routeFault callbacks msg cause action) host).Along True
      Host.Heeds host := by
  have hP : Run.Congruence (fun _ => True) Eq (Run.Concluding (σ := σ) Host.Spares) :=
    congruence_concluding Host.Spares.free
  exact (hP.settleFault_congruent hc call cause (hP.routeFault_congruent hc msg cause action)
    host).heeds hlocked

/-- The engine's counts keep up with the report, call by call. The fault of a call is dealt with
while the lock is held, so nobody else moves the counts in the meantime. -/
theorem sweepOne_counts {place : Nat} {id : CallId} {r r' : SweepSummary}
    (h : mid.state.sweeping = true ∧ host.Counts r.expired mid)
    (hone : SweepOneEnds callbacks Host.Heeds now place r id mid r' later) :
    later.state.sweeping = true ∧ host.Counts r'.expired later := by
  obtain ⟨hlocked, hcounts⟩ := h
  cases hone with
  | overtaken => exact ⟨hlocked, hcounts⟩
  | dropped hclaim =>
    obtain ⟨hsweeping, hexpired, htimeouts⟩ := State.claimExpired_counts hclaim
    exact ⟨hsweeping.trans hlocked, hcounts.succ hexpired htimeouts⟩
  | @settled call s outcome later hclaim _ hsettle =>
    obtain ⟨hsweeping, hexpired, htimeouts⟩ := State.claimExpired_counts hclaim
    have hheld : (s.expireCall.notify
        (.timedOut call.id call.expiry.action call.deadline)).sweeping = true :=
      hsweeping.trans hlocked
    -- Only here does anybody else get a turn, and the lock is held.
    have hheeds := ((settleFault_heeds hc hheld).of_canEnd hsettle).1 hheld
    have hclaimed : host.Counts (r.expired + 1)
        { mid with
          state := s.expireCall.notify (.timedOut call.id call.expiry.action call.deadline) } :=
      hcounts.succ hexpired htimeouts
    have hcount : ({ r with expired := r.expired + 1 }.count outcome).expired = r.expired + 1 := by
      cases outcome <;> rfl
    rw [hcount]
    exact ⟨hheeds.sweeping.trans hheld, hclaimed.to_later hheeds⟩

/-- The engine's counts grow by what the sweep reports, if the others heed the lock while its fault
handlers wait. -/
theorem sweepAsOf_counts {report : SweepSummary}
    (hend : (sweepAsOf callbacks now host).CanEnd Host.Heeds report later)
    (hskipped : report.skipped = false) : host.Counts report.expired later := by
  have hbegin : host.Counts 0 { host with state := host.state.lock now } :=
    ⟨(UInt64.add_zero _).symm, (UInt64.add_zero _).symm⟩
  obtain ⟨r, swept, ⟨-, hcounts⟩, rfl, rfl⟩ := sweepAsOf_keeps
    (P := fun _ r mid => mid.state.sweeping = true ∧ host.Counts r.expired mid)
    (fun _ => ⟨rfl, hbegin⟩) (fun h hone => sweepOne_counts hc h hone) hend hskipped
  exact ⟨hcounts.expired, hcounts.timeouts⟩

end Counting

/-! ## Runs -/

/-- Whoever has a sweep in hand besides this work keeps the lock, since two sweeps cannot be in
hand at the same time. -/
theorem Host.Spares.held_of_beside {i : ℕ} (h : Beside 1 Host.Spares 0 host i later)
    (hlocked : host.state.sweeping = true) : i = 0 ∧ later.state.sweeping = true := by
  have hnumber := (h 0 (by rw [hlocked]; rfl)).1
  have hle := Host.inHand_le hnumber
  have hzero : i = 0 := by omega
  subst hzero
  refine ⟨rfl, ?_⟩
  cases hlater : later.state.sweeping with
  | true => rfl
  | false =>
    rw [hlater] at hnumber
    cases hnumber

namespace Environment

variable {allowed : Operation → Prop} {env : Environment σ} {depth : Nat} {site : Site (Host σ)}

/-- While work beside a sweep in hand is seen through, the others heed the lock.  The induction is
on the work: at each of its waits nobody else has a sweep in hand, and nobody gets one. -/
theorem complete_bind_heeds {q : Progress (Host σ) α} {f : α → Run σ β} {spare : Nat}
    {post : α → ℕ → Host σ → Prop}
    (hbear : (sweepers (env.callbacks depth)).Bear Host.Spares site.suspended 0)
    (hq : q.Carries (Beside 1 Host.Spares) post 0 host) (hlocked : host.state.sweeping = true)
    (hf : ∀ a later, ∃ b s, f a later = .ended b s) :
    (q.bind f).CanEnd Host.Heeds
      ((sweepers (env.callbacks depth)).complete spare (q.bind f) site).1
      ((sweepers (env.callbacks depth)).complete spare (q.bind f) site).2.state := by
  induction q generalizing host site with
  | ended a t =>
    obtain ⟨b, s, hend⟩ := hf a t
    rw [Progress.bind, hend]
    exact ⟨rfl, rfl⟩
  | waiting wait t next ih =>
    obtain ⟨i, ht, hnext⟩ := hq
    obtain ⟨rfl, hheld⟩ := Host.Spares.held_of_beside ht hlocked
    have hwait : Site.Bears (sweepers (env.callbacks depth)) Host.Spares 0 t 0
        { site with state := t } := ⟨0, hbear, Ledger.refl 0 t⟩
    obtain ⟨j, hlater, hspares⟩ := ((env.sweepers_spare depth).preserves
      (env.errands_spare depth) 0 t 0).attend spare wait hwait
    rw [zero_add] at hspares
    -- The crew has moved on while the work waits, without a sweep in hand either.
    obtain ⟨rfl, hstill, hunswept⟩ := hspares.heeds hheld
    exact ⟨_, fun _ => hunswept, ih _ hlater (hnext _) hstill⟩

/-- A sweep that somebody from outside asks for is seen through while the others heed the lock. -/
theorem complete_sweepAsOf_heeds
    (hbear : (sweepers (env.callbacks depth)).Bear Host.Spares site.suspended
      host.state.sweeping.toNat) (now : Millis) (spare : Nat) :
    (sweepAsOf (env.callbacks depth) now host).CanEnd Host.Heeds
      ((sweepers (env.callbacks depth)).complete spare
        (sweepAsOf (env.callbacks depth) now host) site).1
      ((sweepers (env.callbacks depth)).complete spare
        (sweepAsOf (env.callbacks depth) now host) site).2.state := by
  cases hsweeping : host.state.sweeping with
  | true =>
    rw [sweepAsOf_of_locked hsweeping]
    exact ⟨rfl, rfl⟩
  | false =>
    rw [hsweeping] at hbear
    rw [sweepAsOf_of_free hsweeping]
    exact complete_bind_heeds hbear (sweepAll_leaves (env.callbacks_spare depth) now _ _ _ _) rfl
      fun _ _ => ⟨_, _, rfl⟩

/-- What it means that the reports of sweeps account for what they did, for a run that has arrived
somewhere. -/
structure SweepsAccounted (env : Environment σ) (depth : Nat) (site : Site (Host σ)) : Prop where
  /-- The report of a sweep that is not skipped adds up, at whatever level of nesting it is asked
  for, and whatever the others do while its fault handlers wait. -/
  accounts : ∀ (level : Nat) (rel : Host σ → Host σ → Prop) (now : Millis) (host later : Host σ)
    (report : SweepSummary),
    (sweepAsOf (env.callbacks level) now host).CanEnd rel report later → report.skipped = false →
      report.AccountsFor (env.callbacks level) rel host
        (host.state.registry.calls.countP (·.isDue now)) later
  /-- If the fault handlers that a sweep calls itself are counted, and no others, as many have been
  counted as it reports. -/
  counted : ∀ {τ : Type} (callbacks : Callbacks τ) (rel : Host τ → Host τ → Prop) (count : τ → ℕ),
    callbacks.CountedBy rel count → ∀ (now : Millis) (host later : Host τ) (report : SweepSummary),
      (sweepAsOf callbacks now host).CanEnd rel report later → report.skipped = false →
        count later.memory = count host.memory + (report.handled + report.handlersFailed)
  /-- The engine's counts grow by what it reports if the others heed the lock. -/
  counts : ∀ (level : Nat) (now : Millis) (host later : Host σ) (report : SweepSummary),
    (sweepAsOf (env.callbacks level) now host).CanEnd Host.Heeds report later →
      report.skipped = false → host.Counts report.expired later
  /-- That is what they do: programs from outside, -/
  programs : ∀ {α : Type} (p : Program σ α) (host : Host σ), host.state.sweeping = true →
    (env.run depth p host).Along True Host.Heeds host
  /-- workers with whatever they turn to, -/
  workers : ∀ (item : Item Chore) (host : Host σ), host.state.sweeping = true →
    (sweeperItem (env.callbacks depth) item host).Along True Host.Heeds host
  /-- and those who wait here, but for the one with the sweep in hand. -/
  waiting : (sweepers (env.callbacks depth)).Bear Host.Spares site.suspended
    site.state.state.sweeping.toNat
  /-- So a sweep that is asked for here accounts for all of this. -/
  here : ∀ (now : Millis) (report : SweepSummary) (swept : Site (Host σ)),
    env.complete depth (.perform (.sweepAsOf now)) site = (report, swept) →
      report.skipped = false →
        report.AccountsFor (env.callbacks depth) Host.Heeds site.state
          (site.state.state.registry.calls.countP (·.isDue now)) swept.state ∧
        site.state.Counts report.expired swept.state
  /-- And so does a sweep at the clock's time. -/
  atClock : ∀ now : Millis, site.state.state.clock.read = .ok now →
    env.complete depth (.perform .sweep) site =
      ((env.complete depth (.perform (.sweepAsOf now)) site).map .ok id)

/-- In every run the reports of sweeps account for what they did, whatever collaborators and
programs from outside do. -/
theorem Reaches.sweeps_accounted (h : env.Reaches allowed depth site) :
    env.SweepsAccounted depth site where
  accounts _ _ _ _ _ _ hend hskipped := sweepAsOf_accounts hend hskipped
  counted _ _ _ hcount _ _ _ _ hend hskipped :=
    (sweepAsOf_accounts hend hskipped).consulted.counted hcount
  counts level _ _ _ _ hend hskipped :=
    sweepAsOf_counts (env.callbacks_spare level) hend hskipped
  programs p host hlocked := (env.run_spares depth p host).heeds hlocked
  workers item host hlocked :=
    ((congruence_concluding Host.Spares.free).sweeperItem_congruent (env.callbacks_spare depth)
      keepsSweeps_sparing item host).heeds hlocked
  waiting := h.sweeps_spared
  here now report swept hcomplete hskipped := by
    have hbear : (sweepers (env.callbacks depth)).Bear Host.Spares site.suspended
        (site.state.asked depth).state.sweeping.toNat := h.sweeps_spared
    have hend := complete_sweepAsOf_heeds hbear now env.rounds
    rw [complete_perform_eq] at hcomplete
    obtain ⟨rfl, rfl⟩ := Prod.mk.inj hcomplete
    have hasked : site.state.CallsNobody (site.state.asked depth) := ⟨rfl, rfl⟩
    have haccounts := sweepAsOf_accounts hend hskipped
    have hcounts := sweepAsOf_counts (env.callbacks_spare depth) hend hskipped
    constructor
    · exact ⟨haccounts.fates, haccounts.listed,
        (haccounts.consulted.of_earlier hasked).to_later ⟨rfl, rfl⟩⟩
    · exact ⟨hcounts.expired, hcounts.timeouts⟩
  atClock now hclock := by
    have hasked : (site.state.asked depth).state.clock.read = .ok now := hclock
    have hsweep : perform (env.callbacks depth) .sweep (site.state.asked depth) =
        (sweepAsOf (env.callbacks depth) now (site.state.asked depth)).bind fun report later =>
          .ended (.ok report) later := by
      show sweep (env.callbacks depth) (site.state.asked depth) = _
      unfold sweep
      rw [Run.read_bind, hasked]
      rfl
    have hcomplete := Crew.complete_map (sweepers (env.callbacks depth)) env.rounds
      (sweepAsOf (env.callbacks depth) now (site.state.asked depth))
      (Except.ok : SweepSummary → Except Panic SweepSummary) id site
    rw [complete_perform_eq, complete_perform_eq, hsweep]
    exact congrArg (fun done : Except Panic SweepSummary × Site (Host σ) =>
      (done.1, { done.2 with state := done.2.state.answered depth })) hcomplete

end Environment

/-! ## A sweep that is overtaken by its own fault handler -/

/-- Fault handlers count themselves, respond to "b", ask for a sweep, doze and panic. -/
def Environment.meddling : Environment ℕ where
  collaborators :=
    { Collaborators.idle with
      compensate := fun _ _ msg =>
        .recall fun count => .remember (count + 1) <|
          .ask (.respond ⟨"b"⟩ { kind := .acknowledged }) fun _ =>
            .ask .sweep fun _ => .ask (.elapse 2000) fun _ => .done (msg, .panicked .other) }
  rounds := 64

/-- Fault handlers count themselves and panic. -/
def Environment.tallying : Environment ℕ where
  collaborators :=
    { Collaborators.idle with
      compensate := fun _ _ msg =>
        .recall fun count => .remember (count + 1) (.done (msg, .panicked .other)) }
  rounds := 64

theorem tallying_countedBy (level : Nat) :
    (Environment.tallying.callbacks (level + 1)).CountedBy Eq id := by
  rintro handler cause msg host later result ⟨-, rfl⟩
  rfl

/-- The engine is started, and three calls are due by the clock before its worker knows. -/
def Program.letThreeLapse : Program ℕ Unit :=
  .ask .start fun _ =>
    .ask (.dispatch (.plain "a") { term := .perCall 5 }) fun _ =>
      .ask (.dispatch (.plain "b") { term := .perCall 5 }) fun _ =>
        .ask (.dispatch (.plain "c") { term := .perCall 5, action := .drop }) fun _ =>
          .ask (.advanceClock 10) fun _ => .done ()

def Site.withThreeDue : Site (Host ℕ) :=
  (Environment.meddling.complete 2 .letThreeLapse { state := ⟨State.init {} {} 0, 0⟩ }).2

/-- A sweep is asked for and seen through. -/
def Site.sweepThree : SweepSummary × Site (Host ℕ) :=
  Environment.meddling.complete 2 (.perform (.sweepAsOf 10)) Site.withThreeDue

theorem withThreeDue_reaches :
    Environment.meddling.Reaches (fun _ => True) 2 Site.withThreeDue :=
  .completed (Program.asksOnly_true _) (.fresh {} {} 0 0)

/-- While the first call's handler dozes the worker's sweeps are skipped, as the handler's was.  The
second call is overtaken, since that handler responded to it, and the third is dropped.  Where fault
handlers do nothing else they have counted themselves rightly. -/
theorem sweeps_accounted_withThreeDue :
    Site.sweepThree.1 = { expired := 2, handlersFailed := 1, dropped := 1, overtaken := 1 } ∧
      Site.sweepThree.1.AccountsFor (Environment.meddling.callbacks 2) Host.Heeds
        Site.withThreeDue.state 3 Site.sweepThree.2.state ∧
      Site.withThreeDue.state.Counts 2 Site.sweepThree.2.state ∧
      Site.sweepThree.2.state.memory = 1 ∧
      ∀ (host later : Host ℕ) (report : SweepSummary),
        (sweepAsOf (Environment.tallying.callbacks 1) 10 host).CanEnd Eq report later →
          report.skipped = false →
            later.memory = host.memory + (report.handled + report.handlersFailed) := by
  have hreport : Site.sweepThree.1 =
      { expired := 2, handlersFailed := 1, dropped := 1, overtaken := 1 } := by decide +kernel
  have hdue : Site.withThreeDue.state.state.registry.calls.countP (·.isDue 10) = 3 := by
    decide +kernel
  have hskipped : Site.sweepThree.1.skipped = false := by rw [hreport]
  have haccounted := Environment.Reaches.sweeps_accounted withThreeDue_reaches
  obtain ⟨haccounts, hcounts⟩ := haccounted.here 10 _ _ (Prod.eta Site.sweepThree).symm
    hskipped
  rw [hdue] at haccounts
  have hexpired : Site.sweepThree.1.expired = 2 := by rw [hreport]
  rw [hexpired] at hcounts
  exact ⟨hreport, haccounts, hcounts, by decide +kernel,
    haccounted.counted _ Eq id (tallying_countedBy 0) 10⟩

end Correlator
