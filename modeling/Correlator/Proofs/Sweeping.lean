import Correlator.Proofs.Completion
import Correlator.Proofs.Routing
import Mathlib.Data.List.Perm.Basic

/-!
# What a sweep does

A sweep goes through the calls that are due in an order that nobody knows.  Fault handlers that keep
to their message cannot get in its way, so nothing depends on the order but the order in which
things happen: exactly the calls that are due are claimed and counted out, and each consults the
handler that its action and its stack ask for.

To say so is to follow a few accounts of the state through the sweep (`Accounts`).  One expired call
changes them in a way that depends on nothing but the call (`sweepOne_expires`), so a sweep changes
them by going through the calls one after another (`sweepAll_expires`), and what that comes to is
counted without any engine (`Accounts.foldl_expire`).

## Main definitions

* `Collaborators.Compensate` : fault handlers that keep to their message.
* `Call.consults`, `Call.fate` : the handler that an expired call runs, and what comes of it.
* `Registry.IsSound` : the ids in a registry are different and its calls are pending.

## Main results

* `sweepAsOf_expires` : what a sweep does.
-/

namespace Correlator

variable {σ α : Type}

/-! ## Fault handlers that keep to their message -/

/-- The program ends with the result, whatever it remembers, and asks for nothing. -/
def Program.Yields (result : α) : Program σ α → Prop
  | .done a => a = result
  | .recall next => ∀ memory, (next memory).Yields result
  | .remember _ next => next.Yields result
  | .ask .. => False

theorem Program.Yields.run_eq {p : Program σ α} {result : α} (h : p.Yields result)
    (perform : (op : Operation) → Run σ op.Answer) (host : Host σ) :
    ∃ memory, p.run perform host = .ended result { host with memory } := by
  induction p generalizing host with
  | done a => exact ⟨host.memory, congrArg (Progress.ended · host) h⟩
  | «recall» next ih => exact ih host.memory (h host.memory) host
  | remember memory next ih => exact ih h { host with memory }
  | ask op next => exact h.elim

/-- What fault handlers make of a message. -/
abbrev Compensation := Handler → Fault → Message → Message × Outcome Unit

/-- Fault handlers keep to their message, and what they make of it depends on nothing else but the
handler and the cause. They may remember things and panic, but ask the engine for nothing. -/
def Collaborators.Compensate (c : Collaborators σ) (make : Compensation) : Prop :=
  ∀ handler cause msg, (c.compensate handler cause msg).Yields (make handler cause msg)

/-! ## What a call that expires asks for -/

namespace Call

/-- The handler that the call runs when it expires, with the message that the handler sees: the
first of those that its failure consults, if the action asks for one at all. Nothing here is taken
from the engine; the rules about handlers are those of `Message.consulted`. -/
def consults (c : Call) : Option (Handler × Message) :=
  if c.expiry.action = .fault then
    match c.outbound.consulted with
    | [] => none
    | handler :: below =>
      some (handler,
        { c.outbound with
          envelope := .blankFault c.outbound.protocol
          fault := some (.timeout c.deadline)
          handlers := ⟨below⟩ })
  else none

/-- The callback that the call makes when it expires. -/
def callback (level : Nat) (c : Call) : Option (Nat × Callback) :=
  c.consults.map fun (handler, msg) => (level, .compensate handler (.timeout c.deadline) msg)

/-- What becomes of the fault of the call when it expires; a call that is dropped has none. A
handler that fails and one that panics come to the same, but for the text. -/
def fate (make : Compensation) (c : Call) : Option Disposition :=
  match c.expiry.action with
  | .drop => none
  | .discard => some .discarded
  | .fault =>
    match c.consults with
    | none => some .undeliverable
    | some (handler, msg) =>
      match (make handler (.timeout c.deadline) msg).2.caught with
      | .ok () => some (.handled handler)
      | .error e => some (.handlerFailed handler e.message)

end Call

/-- A summary with one more expired call. -/
def SweepSummary.expire (make : Compensation) (r : SweepSummary) (c : Call) : SweepSummary :=
  match c.fate make with
  | none => { r with expired := r.expired + 1, dropped := r.dropped + 1 }
  | some outcome => { r with expired := r.expired + 1 }.count outcome

/-- What a sweep tells about the calls that were due. -/
def SweepSummary.ofCalls (make : Compensation) (due : List Call) : SweepSummary where
  expired := due.length
  handled := due.countP (·.fate make matches some (.handled _))
  discarded := due.countP (·.fate make matches some .discarded)
  dropped := due.countP (·.fate make matches none)
  handlersFailed := due.countP (·.fate make matches some (.handlerFailed ..))
  undeliverable := due.countP (·.fate make matches some .undeliverable)

/-! ## Accounts -/

/-- The calls that were claimed, the latest first, and by whom. -/
def Journal.claimed (j : Journal) : List (Claimer × Call) :=
  j.filterMap fun
    | .claimed claimer call => some (claimer, call)
    | _ => none

/-- The callbacks that were made, the latest first, with their levels. -/
def Journal.callbacks (j : Journal) : List (Nat × Callback) :=
  j.filterMap fun
    | .entered level callback _ => some (level, callback)
    | _ => none

/-- What a sweep has to answer for. The rest of the state is left out, such as the notes on who
called whom, so that what one call does to it depends on nothing but the call. -/
structure Accounts where
  registry : Registry
  sessions : Sessions
  claimed : List (Claimer × Call)
  callbacks : List (Nat × Callback)
  admission : Admission
  /-- How often peers were told. -/
  published : Nat
  /-- How often there was nothing to count out. -/
  unmatched : Nat

def State.accounts (s : State) : Accounts where
  registry := s.registry
  sessions := s.sessions
  claimed := s.journal.claimed
  callbacks := s.journal.callbacks
  admission := s.admission
  published := s.journal.publications.length
  unmatched := s.notices.countP (· matches .unmatchedRelease _)

namespace Accounts

/-- The call with an id is claimed by a sweep. -/
def claim (now : Millis) (place : Nat) (c : Call) (a : Accounts) : Accounts :=
  { a with
    registry :=
      { calls := a.registry.calls.filter (·.id ≠ c.id)
        stats := { a.registry.stats with expired := a.registry.stats.expired + 1 } }
    claimed := (.sweep now place, c.marked) :: a.claimed }

/-- A call is counted out. -/
def release (a : Accounts) : Accounts :=
  { a with
    admission := a.admission.release?.getD a.admission
    published := a.published + a.admission.release?.isSome.toNat
    unmatched := a.unmatched + a.admission.release?.isNone.toNat }

/-- A callback is made, if any. -/
def call (c : Option (Nat × Callback)) (a : Accounts) : Accounts :=
  { a with callbacks := c.toList ++ a.callbacks }

/-- A call expires. -/
def expire (now : Millis) (place level : Nat) (a : Accounts) (c : Call) : Accounts :=
  (a.claim now place c).release.call (c.callback level)

/-- What has been booked for calls that expired one after another. The count of what is in flight
may run out on the way: from then on releases are reported as unmatched, and peers are told
nothing. -/
structure Expires (now : Millis) (place level : Nat) (order : List Call) (a a' : Accounts) :
    Prop where
  /-- The sweep claimed each of them. -/
  claimed : a'.claimed = (order.map fun c => (.sweep now place, c.marked)).reverse ++ a.claimed
  expired : a'.registry.stats =
    { a.registry.stats with expired := a.registry.stats.expired + .ofNat order.length }
  /-- Each called the handler that it consults, with the message that this handler is to see, and
  nobody else was called. -/
  callbacks : a'.callbacks = (order.filterMap (·.callback level)).reverse ++ a.callbacks
  /-- One call less is in flight for each, as long as there were any. -/
  inFlight : a'.admission.inFlight.toNat = a.admission.inFlight.toNat - order.length
  published : a'.published = a.published + min order.length a.admission.inFlight.toNat
  unmatched : a'.unmatched = a.unmatched + (order.length - a.admission.inFlight.toNat)

end Accounts

/-! ## One expired call -/

section Expiring

variable {env : Environment σ} {make : Compensation} {host : Host σ}

theorem compensate_eq (hmake : env.collaborators.Compensate make) (level : Nat) (handler : Handler)
    (cause : Fault) (msg : Message) (host : Host σ) :
    ∃ later,
      (env.callbacks (level + 1)).compensate handler cause msg host =
        .ended (make handler cause msg) later ∧
      later.state.accounts =
        host.state.accounts.call (some (level + 1, .compensate handler cause msg)) := by
  obtain ⟨memory, hrun⟩ := (hmake handler cause msg).run_eq
    (fun op => Environment.serve (env.callbacks level) op)
    ⟨host.state.note (.entered (level + 1) (.compensate handler cause msg) host.state.moment),
      host.memory⟩
  exact ⟨_, Environment.noted_eq_ended hrun, rfl⟩

theorem accounts_release (s : State) : s.release.accounts = s.accounts.release := by
  unfold State.release Accounts.release
  rw [show s.accounts.admission = s.admission from rfl]
  cases s.admission.release? with
  | some admission => rfl
  | none =>
    have hone : (Notice.unmatchedRelease s.admission.key :: s.notices).countP
        (· matches .unmatchedRelease _) = s.accounts.unmatched + 1 :=
      List.countP_cons_of_pos rfl
    exact congrArg (fun unmatched => { s.accounts with unmatched }) hone

theorem claimExpired_eq {s : State} {call : Call} (hfind : s.registry.find? call.id = some call)
    (hpending : call.completion = .pending) (now : Millis) (place : Nat) :
    ∃ s', s.claimExpired now place call.id = (some call.marked, s') ∧
      s'.accounts = s.accounts.claim now place call := by
  simp only [State.claimExpired, State.claim, Registry.claim?, hfind, Call.mark, hpending]
  exact ⟨_, rfl, rfl⟩

/-- What a call consults and what becomes of its fault is what routing the fault comes to. The
engine takes the handlers off a stack, runs one of them and looks at how it has ended. -/
theorem routeFault_eq (hmake : env.collaborators.Compensate make) (level : Nat) {c : Call}
    (haction : c.expiry.action ≠ .drop) (host : Host σ) :
    ∃ left outcome later,
      routeFault (env.callbacks (level + 1)) c.timedOut (.timeout c.deadline) c.expiry.action host =
        .ended (left, outcome) later ∧
      c.fate make = some outcome ∧
      later.state.accounts = host.state.accounts.call (c.callback (level + 1)) := by
  unfold routeFault Call.fate Call.callback
  cases hcase : c.expiry.action with
  | drop => exact absurd hcase haction
  | discard =>
    have hnobody : c.consults = none := if_neg (by rw [hcase]; decide)
    rw [hnobody, if_pos ⟨rfl, rfl⟩]
    exact ⟨_, _, _, rfl, rfl, rfl⟩
  | fault =>
    have hconsults : c.consults = _ := if_pos hcase
    -- The code passes the member's handler over on the stack itself.
    have hskipped : (c.timedOut.handlers.skipMember c.timedOut.lastMember).items =
        c.outbound.consulted := c.outbound.skipMember_items
    rw [hconsults, if_neg (by simp)]
    unfold runHandler
    dsimp only [Stack.pop?]
    rw [hskipped]
    dsimp only [Call.timedOut]
    cases c.outbound.consulted with
    | nil => exact ⟨_, _, _, rfl, rfl, rfl⟩
    | cons handler below =>
      obtain ⟨called, hcall, haccounts⟩ := compensate_eq hmake level handler
        (.timeout c.deadline)
        { c.outbound with
          envelope := .blankFault c.outbound.protocol
          fault := some (.timeout c.deadline)
          handlers := ⟨below⟩ } host
      dsimp only [Option.map_some]
      rw [Work.bind_apply, hcall, Progress.bind_ended]
      cases (make handler _ _).2.caught with
      | ok _ => exact ⟨_, _, _, rfl, rfl, haccounts⟩
      | error e => exact ⟨_, _, _, rfl, rfl, haccounts⟩

theorem settleFault_eq (hmake : env.collaborators.Compensate make) (level : Nat) {c : Call}
    (hdrop : c.expiry.action ≠ .drop) (host : Host σ) :
    ∃ outcome later,
      settleFault (env.callbacks (level + 1)) c.marked (.timeout c.deadline)
        (routeFault (env.callbacks (level + 1)) c.timedOut (.timeout c.deadline)
          c.expiry.action) host = .ended outcome later ∧
      c.fate make = some outcome ∧
      later.state.accounts = host.state.accounts.call (c.callback (level + 1)) := by
  obtain ⟨left, outcome, routed, hroute, hfate, haccounts⟩ := routeFault_eq hmake level hdrop
    ⟨host.state.note
      (.routing (env.callbacks (level + 1)).level c.marked (.timeout c.deadline)), host.memory⟩
  unfold settleFault
  rw [Run.update_bind, Work.bind_apply, hroute]
  exact ⟨outcome, _, rfl, hfate, haccounts⟩

theorem settleExpired_eq (hmake : env.collaborators.Compensate make) (level : Nat)
    (report : SweepSummary) (c : Call) (host : Host σ) :
    ∃ later,
      settleExpired (env.callbacks (level + 1)) { report with expired := report.expired + 1 }
        c.marked host = .ended (report.expire make c) later ∧
      later.state.accounts = host.state.accounts.release.call (c.callback (level + 1)) := by
  have hreleased : host.state.expireCall.accounts = host.state.accounts.release :=
    accounts_release _
  -- Under either of the other actions the expiry is reported and its fault is routed; what differs
  -- is left to `routeFault`.
  have hfault (action : ExpiryAction) (haction : c.expiry.action = action) (hdrop : action ≠ .drop)
      (released : Host σ) : ∃ later,
      ((do
        Run.update (·.notify (.timedOut c.id action c.deadline))
        let cause := Fault.timeout c.deadline
        return SweepSummary.count { report with expired := report.expired + 1 }
          (← settleFault (env.callbacks (level + 1)) c.marked cause
            (routeFault (env.callbacks (level + 1)) c.timedOut cause action)) :
          Run σ SweepSummary) released) = .ended (report.expire make c) later ∧
      later.state.accounts = released.state.accounts.call (c.callback (level + 1)) := by
    subst haction
    obtain ⟨outcome, later, hsettle, hfate, haccounts⟩ := settleFault_eq hmake level hdrop
      ⟨released.state.notify (.timedOut c.id c.expiry.action c.deadline), released.memory⟩
    rw [Run.update_bind, Work.bind_apply, hsettle, SweepSummary.expire, hfate]
    exact ⟨later, rfl, haccounts⟩
  unfold settleExpired
  rw [Run.update_bind, ← hreleased]
  have hmarked : c.marked.expiry.action = c.expiry.action := rfl
  rw [hmarked]
  cases haction : c.expiry.action with
  | drop =>
    have hnobody : c.consults = none := if_neg (by rw [haction]; decide)
    rw [SweepSummary.expire, Call.fate, haction, Call.callback, hnobody]
    exact ⟨_, rfl, rfl⟩
  | discard => exact hfault .discard haction (by decide) _
  | fault => exact hfault .fault haction (by decide) _

theorem sweepOne_expires (hmake : env.collaborators.Compensate make) (now : Millis)
    (place level : Nat) (report : SweepSummary) {c : Call}
    (hfind : host.state.registry.find? c.id = some c) (hpending : c.completion = .pending) :
    ∃ later,
      sweepOne (env.callbacks (level + 1)) now place report c.id host =
        .ended (report.expire make c) later ∧
      later.state.accounts = host.state.accounts.expire now place (level + 1) c := by
  obtain ⟨claimed, hclaim, hclaimed⟩ := claimExpired_eq hfind hpending now place
  unfold sweepOne
  rw [Run.apply_bind, hclaim, Accounts.expire, ← hclaimed]
  exact settleExpired_eq hmake level report c { host with state := claimed }

end Expiring

/-! ## All of them -/

/-- The ids in a registry are different, and its calls are pending. -/
structure Registry.IsSound (r : Registry) : Prop where
  unique : (r.calls.map (·.id)).Nodup
  pending : ∀ c ∈ r.calls, c.completion = .pending

theorem Registry.IsSound.filter {r r' : Registry} {p : Call → Bool} (h : r.IsSound)
    (hcalls : r'.calls = r.calls.filter p) : r'.IsSound := by
  constructor
  · rw [hcalls]
    exact h.unique.sublist (List.filter_sublist.map _)
  · intro c hmem
    rw [hcalls] at hmem
    exact h.pending c (List.mem_of_mem_filter hmem)

namespace Accounts

variable {now : Millis} {place level : Nat}

theorem release_of_zero {a : Accounts} (h : a.admission.inFlight = 0) :
    a.release = { a with unmatched := a.unmatched + 1 } := by
  rw [release, (Admission.release?_eq_none_iff _).mpr h]
  rfl

theorem release_of_ne_zero {a : Accounts} (h : a.admission.inFlight ≠ 0) :
    a.release = { a with
      admission := { a.admission with inFlight := a.admission.inFlight - 1 }
      published := a.published + 1 } := by
  rw [release, Admission.release?, if_neg h]
  rfl

/-- With nothing in flight a release is only reported. -/
theorem release_counts (a : Accounts) :
    a.release.admission.inFlight.toNat = a.admission.inFlight.toNat - 1 ∧
      a.release.published = a.published + min 1 a.admission.inFlight.toNat ∧
      a.release.unmatched = a.unmatched + (1 - a.admission.inFlight.toNat) := by
  by_cases hzero : a.admission.inFlight = 0
  · rw [release_of_zero hzero, hzero]
    exact ⟨rfl, rfl, rfl⟩
  · have hpositive : 1 ≤ a.admission.inFlight.toNat :=
      Nat.one_le_iff_ne_zero.mpr fun h => hzero (UInt32.toNat_inj.mp h)
    have hone : (1 : UInt32) ≤ a.admission.inFlight := UInt32.le_iff_toNat_le.mpr hpositive
    rw [release_of_ne_zero hzero]
    refine ⟨UInt32.toNat_sub_of_le _ _ hone, ?_, ?_⟩
    · rw [Nat.min_eq_left hpositive]
    · rw [Nat.sub_eq_zero_of_le hpositive]
      rfl

theorem foldl_expire_calls (order : List Call) (a : Accounts) :
    (order.foldl (expire now place level) a).registry.calls =
      a.registry.calls.filter (·.id ∉ order.map (·.id)) := by
  induction order generalizing a with
  | nil => simp
  | cons c order ih =>
    rw [List.foldl_cons, ih]
    change (a.registry.calls.filter _).filter _ = _
    rw [List.filter_filter]
    refine List.filter_congr fun other _ => ?_
    rw [Bool.eq_iff_iff]
    simp [and_comm]

theorem foldl_expire_sessions (order : List Call) (a : Accounts) :
    (order.foldl (expire now place level) a).sessions = a.sessions := by
  induction order generalizing a with
  | nil => rfl
  | cons c order ih => exact ih _

/-- What calls that expire one after another come to. -/
theorem foldl_expire (order : List Call) (a : Accounts) :
    a.Expires now place level order (order.foldl (expire now place level) a) := by
  induction order generalizing a with
  | nil =>
    constructor <;> simp
  | cons c order ih =>
    have h := ih (a.expire now place level c)
    obtain ⟨hinFlight, hpublished, hunmatched⟩ :
        (a.expire now place level c).admission.inFlight.toNat = a.admission.inFlight.toNat - 1 ∧
          (a.expire now place level c).published =
            a.published + min 1 a.admission.inFlight.toNat ∧
          (a.expire now place level c).unmatched =
            a.unmatched + (1 - a.admission.inFlight.toNat) := (a.claim now place c).release_counts
    rw [List.foldl_cons]
    constructor
    · rw [h.claimed]
      simp [expire, call, release, claim]
    · have hsum : (1 : UInt64) + .ofNat order.length = .ofNat (order.length + 1) := by
        rw [UInt64.ofNat_add, UInt64.add_comm]
        rfl
      rw [h.expired, List.length_cons, ← hsum, ← UInt64.add_assoc]
      rfl
    · rw [h.callbacks]
      cases hcall : c.callback level <;> simp [expire, call, release, claim, hcall]
    · rw [h.inFlight, hinFlight, List.length_cons]
      omega
    · rw [h.published, hpublished, hinFlight, List.length_cons]
      omega
    · rw [h.unmatched, hunmatched, hinFlight, List.length_cons]
      omega

end Accounts

/-- The induction is on the calls that are left; they stay in the registry until their turn, since
no handler asks for anything and their ids differ. -/
theorem sweepAll_expires {env : Environment σ} {make : Compensation}
    (hmake : env.collaborators.Compensate make) (now : Millis) (place level : Nat)
    {order : List Call} (hunique : (order.map (·.id)).Nodup) (report : SweepSummary) (host : Host σ)
    (hsound : host.state.registry.IsSound) (hmem : ∀ c ∈ order, c ∈ host.state.registry.calls) :
    ∃ later,
      (order.map (·.id)).foldlM (sweepOne (env.callbacks (level + 1)) now place) report host =
        .ended (order.foldl (SweepSummary.expire make) report) later ∧
      later.state.accounts =
        order.foldl (Accounts.expire now place (level + 1)) host.state.accounts := by
  induction order generalizing report host with
  | nil => exact ⟨host, rfl, rfl⟩
  | cons c order ih =>
    have hc : c ∈ host.state.registry.calls := hmem c List.mem_cons_self
    obtain ⟨hnew, hrest⟩ : c.id ∉ order.map (·.id) ∧ (order.map (·.id)).Nodup :=
      List.nodup_cons.mp hunique
    obtain ⟨expired, hone, haccounts⟩ := sweepOne_expires hmake now place level report
      (Registry.find?_of_mem hsound.unique hc) (hsound.pending c hc)
    have hcalls : expired.state.registry.calls =
        host.state.registry.calls.filter (·.id ≠ c.id) :=
      congrArg (·.registry.calls) haccounts
    have hstill : ∀ other ∈ order, other ∈ expired.state.registry.calls := by
      intro other hother
      rw [hcalls]
      refine List.mem_filter.mpr ⟨hmem other (List.mem_cons_of_mem _ hother), ?_⟩
      have hid : other.id ∈ order.map (·.id) := List.mem_map_of_mem hother
      have hne : other.id ≠ c.id := fun heq => hnew (heq.symm ▸ hid)
      exact decide_eq_true hne
    obtain ⟨later, hothers, hlater⟩ := ih hrest (report.expire make c) expired
      (hsound.filter hcalls) hstill
    refine ⟨later, ?_, ?_⟩
    · rw [List.map_cons, List.foldlM_cons, Work.bind_apply, hone]
      exact hothers
    · rw [hlater, haccounts, List.foldl_cons]

/-! ## What a sweep tells -/

namespace SweepSummary

variable {make : Compensation}

theorem foldl_expire (order : List Call) (r : SweepSummary) :
    order.foldl (expire make) r =
      { r with
        expired := r.expired + (ofCalls make order).expired
        handled := r.handled + (ofCalls make order).handled
        discarded := r.discarded + (ofCalls make order).discarded
        dropped := r.dropped + (ofCalls make order).dropped
        handlersFailed := r.handlersFailed + (ofCalls make order).handlersFailed
        undeliverable := r.undeliverable + (ofCalls make order).undeliverable } := by
  induction order generalizing r with
  | nil => rfl
  | cons c order ih =>
    rw [List.foldl_cons, ih]
    unfold expire ofCalls
    cases hfate : c.fate make with
    | none => simp [hfate]; omega
    | some outcome => cases outcome <;> simp [hfate, count] <;> omega

theorem ofCalls_perm {order due : List Call} (h : order.Perm due) :
    ofCalls make order = ofCalls make due := by
  simp only [ofCalls, h.length_eq, h.countP_eq]

end SweepSummary

/-- The calls that are due can be listed in the order in which a sweep goes through their ids. -/
theorem Arrangement.exists_order (a : Arrangement) (r : Registry) (now : Millis) :
    ∃ order : List Call, order.Perm (r.calls.filter (·.isDue now)) ∧
      a.arrange r (r.overdue now) = order.map (·.id) := by
  have hids := a.perm r (r.overdue now)
  have hcalls : List.Forall₂ (fun id c => id = c.id) (r.overdue now)
      (r.calls.filter (·.isDue now)) :=
    List.forall₂_map_left_iff.mpr (List.forall₂_same.mpr fun _ _ => rfl)
  obtain ⟨order, horder, hperm⟩ := List.perm_comp_forall₂ hids hcalls
  refine ⟨order, hperm, ?_⟩
  have heq := List.forall₂_map_right_iff.mpr horder
  rwa [List.forall₂_eq_eq_eq] at heq

/-- Taking out the ids of the calls that are due takes out the calls that are due. -/
theorem Registry.IsSound.filter_due {r : Registry} (h : r.IsSound) {now : Millis}
    {order : List Call} (hperm : order.Perm (r.calls.filter (·.isDue now))) :
    r.calls.filter (·.id ∉ order.map (·.id)) = r.calls.filter (!·.isDue now) := by
  refine List.filter_congr fun c hc => ?_
  have hlisted : c.id ∈ order.map (·.id) ↔ c.isDue now = true := by
    rw [(hperm.map _).mem_iff]
    constructor
    · intro hid
      obtain ⟨due, hfind, hdue⟩ := exists_due_of_mem_overdue h.unique hid
      rw [find?_of_mem h.unique hc] at hfind
      exact Option.some.inj hfind ▸ hdue
    · exact fun hdue => List.mem_map_of_mem (List.mem_filter.mpr ⟨hc, hdue⟩)
  rw [Bool.eq_iff_iff, decide_eq_true_iff, hlisted]
  simp

/-- What a sweep makes of an engine, if it goes through the calls that are due in the order. -/
structure State.Swept (now : Millis) (level : Nat) (order : List Call) (s s' : State) : Prop
    extends Accounts.Expires now (s.journal.length + 1) level order s.accounts s'.accounts where
  /-- The calls that are due are gone, and the others are as they were. -/
  calls : s'.registry.calls = s.registry.calls.filter (!·.isDue now)
  /-- The bindings that are over are gone. -/
  bindings : s'.sessions.bindings = s.sessions.bindings.filter (·.2.isLive now)
  free : s'.sweeping = false

/-- A sweep that finds no other one in progress goes through the calls that are due, in whatever
order, and drops the bindings that are over. What it tells does not depend on the order, and
neither does what is booked, but for the order of the entries. -/
theorem sweepAsOf_expires {env : Environment σ} {make : Compensation}
    (hmake : env.collaborators.Compensate make) (level : Nat) (now : Millis) {host : Host σ}
    (hsound : host.state.registry.IsSound) (hfree : host.state.sweeping = false) :
    ∃ order later, order.Perm (host.state.registry.calls.filter (·.isDue now)) ∧
      sweepAsOf (env.callbacks (level + 1)) now host =
        .ended
          { SweepSummary.ofCalls make (host.state.registry.calls.filter (·.isDue now)) with
            bindingsDropped := host.state.sessions.bindings.countP (!·.2.isLive now) } later ∧
      host.state.Swept now (level + 1) order later.state := by
  -- The arrangement is of ids; the calls that they stand for can be put in the same order.
  obtain ⟨order, hperm, hids⟩ := env.arrangement.exists_order host.state.registry now
  have hdue : ((host.state.registry.calls.filter (·.isDue now)).map (·.id)).Nodup :=
    hsound.unique.sublist (List.filter_sublist.map _)
  have hunique : (order.map (·.id)).Nodup := (hperm.map _).nodup_iff.mpr hdue
  have hmem : ∀ c ∈ order, c ∈ host.state.registry.calls :=
    fun c hc => List.mem_of_mem_filter (hperm.mem_iff.mp hc)
  obtain ⟨swept, hall, haccounts⟩ := sweepAll_expires hmake now (host.state.journal.length + 1)
    level hunique {} ⟨host.state.lock now, host.memory⟩ hsound hmem
  have hcalls : swept.state.registry.calls = host.state.registry.calls.filter (!·.isDue now) :=
    calc
      _ = host.state.registry.calls.filter (·.id ∉ order.map (·.id)) :=
        (congrArg (·.registry.calls) haccounts).trans
          (Accounts.foldl_expire_calls order host.state.accounts)
      _ = _ := hsound.filter_due hperm
  have hsessions : swept.state.sessions = host.state.sessions :=
    (congrArg (·.sessions) haccounts).trans
      (Accounts.foldl_expire_sessions order host.state.accounts)
  have hexpires : host.state.accounts.Expires now (host.state.journal.length + 1) (level + 1) order
      swept.state.accounts := haccounts ▸ Accounts.foldl_expire order host.state.accounts
  refine ⟨order, ⟨(swept.state.purgeBindings now).2.unlock, swept.memory⟩, hperm, ?_, ?_⟩
  · have hsummary : order.foldl (SweepSummary.expire make) {} =
        SweepSummary.ofCalls make (host.state.registry.calls.filter (·.isDue now)) := by
      rw [← SweepSummary.ofCalls_perm hperm, SweepSummary.foldl_expire]
      simp [SweepSummary.ofCalls]
    have harrange : (env.callbacks (level + 1)).arrangement.arrange host.state.registry
        (host.state.registry.overdue now) = order.map (·.id) := hids
    rw [sweepAsOf_of_free hfree, harrange, hall, ← hsummary, ← hsessions]
    rfl
  · refine { hexpires with calls := hcalls, bindings := ?_, free := rfl }
    change swept.state.sessions.bindings.filter _ = _
    rw [hsessions]

/-! ## A sweep over four calls -/

/-- Fault handlers panic unless the message is "a". -/
def Environment.compensating : Environment Unit where
  collaborators :=
    { Collaborators.idle with
      compensate := fun _ _ msg =>
        .recall fun _ =>
          .done (msg, if msg.id = "a" then .returned () else .panicked .other) }
  rounds := 4

theorem compensating_compensate :
    Environment.compensating.collaborators.Compensate fun _ _ msg =>
      (msg, if msg.id = "a" then .returned () else .panicked .other) :=
  fun _ _ _ _ => rfl

/-- A call for a message with one fault handler. -/
def Call.plain (id : String) (action : ExpiryAction) (deadline : Millis) : Call where
  id := ⟨id⟩
  outbound := .plain id
  expiry := { action }
  registeredAt := 0
  deadline

/-- Four calls and a binding; three of the calls are due at 10. -/
def Host.beforeSweep : Host Unit where
  state :=
    { State.init {} {} 0 with
      registry := { calls :=
        [.plain "a" .fault 5, .plain "b" .fault 10, .plain "c" .discard 8, .plain "d" .fault 11] }
      sessions := ⟨[("session", ⟨"endpoint", 10⟩)]⟩ }
  memory := ()

theorem sweepAsOf_expires_beforeSweep :
    ∃ later,
      sweepAsOf (Environment.compensating.callbacks 1) 10 Host.beforeSweep =
        .ended
          { expired := 3, handled := 1, handlersFailed := 1, discarded := 1, bindingsDropped := 1 }
          later ∧
      later.state.registry.calls.map (·.id.text) = ["d"] ∧
      later.state.journal.callbacks.length = 2 := by
  have hsound : Host.beforeSweep.state.registry.IsSound := ⟨by decide, by decide⟩
  obtain ⟨order, later, hperm, hsweep, hswept⟩ :=
    sweepAsOf_expires compensating_compensate 0 10 hsound rfl
  refine ⟨later, ?_, ?_, ?_⟩
  · rw [hsweep]
    congr 1
  · rw [hswept.calls]
    decide
  · change later.state.accounts.callbacks.length = 2
    rw [hswept.callbacks, List.length_append, List.length_reverse,
      (hperm.filterMap _).length_eq]
    rfl

end Correlator
