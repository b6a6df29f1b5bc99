import Correlator.Proofs.History
import Correlator.Proofs.Lineage
import Correlator.Proofs.Reach

/-!
# Each request is answered once

Every message of a flow shares the guard of the inbound request that the flow began with, so an
answer may be tried from many places, also while another one is being written.  The guard is marked
before the transport is called, and nobody gets in between; so the first attempt is the only one
that reaches the transport, whatever becomes of it there.

The attempts on a guard are read off the journal (`Journal.attempts`).  `InOrder` says how they go:
one that reaches the transport, and then only refusals.  If the mark can also come from somebody
else there may be none that reaches the transport.

That all messages of a flow share the guard is a matter of where they come from
(`Journal.Vouches`): a collaborator is called with the message of a call that has just been
registered or claimed, or with what a collaborator has just handed back, up to changes that keep
guard and trace.  What is claimed has been registered before (`Entry.IsDerived`).  And the journal
is tied to what was dispatched: a dispatch registers its message as one of the same flow, and
whoever takes a call goes on from the message of this call, over any number of legs
(`Correlator.Proofs.Lineage`).

## Main results

* `State.Orderly.of_move` : every move keeps the order.
* `Environment.Reaches.answers_once` : all runs answer each request at most once.
-/

namespace Correlator

/-! ## Attempts to answer -/

/-- What became of an attempt to answer a request. -/
inductive Attempt where
  /-- The transport was called. -/
  | reached
  /-- The request had been answered. -/
  | refused
  deriving DecidableEq

/-- The message carries the guard with the serial number. -/
def Message.isGuardedBy (m : Message) (serial : Nat) : Bool := m.guard.any (·.serial = serial)

/-- The attempt on a guard that an entry records. A call of the transport is one that got through,
whatever became of the write; a refusal is noted by the engine itself. -/
def Entry.attempt? (serial : Nat) : Entry → Option Attempt
  | .entered _ (.writeBack answer) _ => if answer.isGuardedBy serial then some .reached else none
  | .answerRefused answer => if answer.isGuardedBy serial then some .refused else none
  | _ => none

/-- The attempts on a guard, the latest first. -/
def Journal.attempts (j : Journal) (serial : Nat) : List Attempt := j.filterMap (·.attempt? serial)

namespace Journal

variable {answer : Message} {guard : Guard}

theorem attempts_writeBack (hguard : answer.guard = some guard) {level : Nat} {m : Moment}
    (j : Journal) (serial : Nat) :
    attempts (.entered level (.writeBack answer) m :: j) serial =
      if guard.serial = serial then .reached :: j.attempts serial else j.attempts serial := by
  by_cases hserial : guard.serial = serial <;>
    simp [attempts, Entry.attempt?, Message.isGuardedBy, hguard, hserial]

theorem attempts_refused (hguard : answer.guard = some guard) (j : Journal) (serial : Nat) :
    attempts (.answerRefused answer :: j) serial =
      if guard.serial = serial then .refused :: j.attempts serial else j.attempts serial := by
  by_cases hserial : guard.serial = serial <;>
    simp [attempts, Entry.attempt?, Message.isGuardedBy, hguard, hserial]

end Journal

/-- How the attempts on a guard go, the latest first, and whether the guard is marked after them.
Somebody else may mark the guard if `foreign` holds. There is no rule that leads back to an
unmarked guard, and none that reaches the transport from a marked one. -/
inductive InOrder (foreign : Prop) : List Attempt → Bool → Prop
  | untouched : InOrder foreign [] false
  | taken (h : foreign) : InOrder foreign [] true
  | reached : InOrder foreign [.reached] true
  | refused {attempts : List Attempt} (h : InOrder foreign attempts true) :
      InOrder foreign (.refused :: attempts) true

namespace InOrder

variable {foreign : Prop} {attempts : List Attempt} {sent : Bool}

/-- At most one attempt reaches the transport. -/
theorem count_reached_le (h : InOrder foreign attempts sent) : attempts.count .reached ≤ 1 := by
  induction h with
  | untouched => exact Nat.zero_le 1
  | taken => exact Nat.zero_le 1
  | reached => exact Nat.le_refl 1
  | refused _ ih => rwa [List.count_cons_of_ne (by simp)]

theorem eq_nil (h : InOrder foreign attempts false) : attempts = [] := by
  cases h
  rfl

/-- A guard that nobody else marks is marked by the first attempt, and that is the one that reaches
the transport. -/
theorem first_reached (h : InOrder foreign attempts sent) (hforeign : ¬ foreign) :
    (attempts = [] ∧ sent = false) ∨
      (∃ n, attempts = List.replicate n .refused ++ [.reached]) ∧ sent = true := by
  induction h with
  | untouched => exact .inl ⟨rfl, rfl⟩
  | taken h => exact absurd h hforeign
  | reached => exact .inr ⟨⟨0, rfl⟩, rfl⟩
  | refused _ ih =>
    rcases ih with ⟨-, hsent⟩ | ⟨⟨n, rfl⟩, -⟩
    · cases hsent
    · exact .inr ⟨⟨n + 1, rfl⟩, rfl⟩

/-- The mark is set. -/
theorem mark (h : InOrder foreign attempts sent) (hforeign : foreign) :
    InOrder foreign attempts true := by
  cases h with
  | untouched => exact .taken hforeign
  | taken h => exact .taken h
  | reached => exact .reached
  | refused h => exact .refused h

end InOrder

/-! ## What moves keep -/

/-- The messages of an entry come from somewhere: a claimed call is one that has been registered, a
collaborator is called with a message that there is a reason to have, and what has ended has been
entered. All of this is read off the entries before. -/
def Entry.IsDerived {σ : Type} (c : Collaborators σ) (past : Journal) : Entry → Prop
  | .claimed _ call => ∃ own, .registered own ∈ past ∧ call = own.marked
  | .entered _ callback _ =>
    (∃ answer, callback = .writeBack answer) ∨ past.Vouches c callback.message
  | .left level callback _ => ∃ moment, .entered level callback moment ∈ past
  | _ => True

/-- The attempts on every guard are in order, and every message comes from somewhere. This is what
moves keep; that the calls that wait have been registered is needed for the next claim. -/
structure State.Orderly {σ : Type} (c : Collaborators σ) (foreign : Nat → Prop) (s : State) :
    Prop where
  attempts : ∀ serial,
    InOrder (foreign serial) (s.journal.attempts serial) (s.guards.sent.contains serial)
  held : ∀ call ∈ s.registry.calls, .registered call ∈ s.journal
  derived : s.journal.Each (Entry.IsDerived c)

namespace State

variable {σ : Type} {c : Collaborators σ} {foreign : Nat → Prop} {s s' : State}

/-- A guard that was not marked is marked by this. -/
theorem markGuard_eq_false {guard : Guard} (h : s.markGuard guard = (false, s')) :
    s.guards.isSent guard = false ∧
      s' = { s with guards := { s.guards with sent := guard.serial :: s.guards.sent } } := by
  unfold markGuard Guards.mark at h
  cases hsent : s.guards.isSent guard with
  | true => simp [hsent] at h
  | false =>
    simp only [hsent, Bool.false_eq_true, if_false, Prod.mk.injEq, true_and] at h
    exact ⟨rfl, h.symm⟩

namespace Orderly

theorem init (config : Config) (clock : Clock) (nextId : Nat) :
    Orderly c foreign (.init config clock nextId) :=
  ⟨fun _ => .untouched, fun _ => nofun, trivial⟩

/-- Only marks, entries and calls matter. -/
theorem congr (h : s.Orderly c foreign) (hcalls : s'.registry.calls ⊆ s.registry.calls)
    (hsent : s'.guards.sent = s.guards.sent) (hjournal : s'.journal = s.journal) :
    s'.Orderly c foreign := by
  constructor
  · rw [hjournal, hsent]
    exact h.attempts
  · intro call hcall
    rw [hjournal]
    exact h.held call (hcalls hcall)
  · rw [hjournal]
    exact h.derived

/-- An entry that records no attempt. -/
theorem cons {e : Entry} (h : s.Orderly c foreign) (hjournal : s'.journal = e :: s.journal)
    (hcalls : ∀ call ∈ s'.registry.calls, call ∈ s.registry.calls ∨ e = .registered call)
    (hsent : s'.guards.sent = s.guards.sent) (hderived : e.IsDerived c s.journal)
    (hattempt : ∀ serial, e.attempt? serial = none := by intro _; rfl) : s'.Orderly c foreign := by
  constructor
  · intro serial
    rw [hjournal, hsent, Journal.attempts, List.filterMap_cons_none (hattempt serial)]
    exact h.attempts serial
  · intro call hcall
    rw [hjournal]
    rcases hcalls call hcall with hold | rfl
    · exact List.mem_cons_of_mem _ (h.held call hold)
    · exact List.mem_cons_self
  · rw [hjournal]
    exact ⟨hderived, h.derived⟩

theorem note {e : Entry} (h : s.Orderly c foreign) (hderived : e.IsDerived c s.journal)
    (hattempt : ∀ serial, e.attempt? serial = none := by intro _; rfl) :
    (s.note e).Orderly c foreign :=
  h.cons rfl (fun _ hcall => .inl hcall) rfl hderived hattempt

theorem release (h : s.Orderly c foreign) : s.release.Orderly c foreign := by
  have hcalls : s.release.registry.calls = s.registry.calls := congrArg _ s.release_registry
  have hsent : s.release.guards.sent = s.guards.sent := congrArg _ (Booked.release s).guards
  rcases s.release_journal with hsame | ⟨state, hpublished⟩
  · exact h.congr (hcalls ▸ List.Subset.refl _) hsent hsame
  · exact h.cons hpublished (fun _ hcall => .inl (hcalls ▸ hcall)) hsent trivial

theorem acquire (h : s.Orderly c foreign) : s.acquire.2.Orderly c foreign := by
  refine h.cons s.acquire_journal ?_ (congrArg _ (Booked.acquire s).guards) trivial
  intro call hcall
  rw [acquire_registry] at hcall
  exact .inl hcall

/-- Whatever is claimed has been registered: it was in the registry until now, and of every call
there the journal knows the registration. -/
theorem claim (h : s.Orderly c foreign) {claimer : Claimer} {id : CallId} {call : Call}
    (hclaim : s.claim claimer id = (some call, s')) : s'.Orderly c foreign := by
  obtain ⟨hr, -, hjournal, -⟩ := claim_eq_some hclaim
  obtain ⟨waiting, hfind, -, rfl, hcalls⟩ := Registry.claim?_eq_some hr
  have hheld := h.held waiting (List.mem_of_find?_eq_some hfind)
  have hguards := (Booked.claim s claimer id).guards
  rw [hclaim] at hguards
  refine h.cons hjournal (fun call hcall => .inl ?_) (congrArg _ hguards) ⟨waiting, hheld, rfl⟩
  rw [hcalls] at hcall
  exact (List.mem_filter.mp hcall).1

theorem apart (h : s.Orderly c foreign) (hapart : s.Apart s') : s'.Orderly c foreign :=
  h.congr (hapart.calls ▸ List.Subset.refl _) hapart.sent hapart.journal

theorem quiet (h : s.Orderly c foreign) (hquiet : s.Quiet s') : s'.Orderly c foreign := by
  cases hquiet with
  | mk => exact h.congr (List.Subset.refl _) rfl rfl

theorem lock (h : s.Orderly c foreign) (now : Millis) : (s.lock now).Orderly c foreign := by
  have hlocked : ({ s with sweeping := true } : State).Orderly c foreign :=
    h.congr (List.Subset.refl _) rfl rfl
  exact hlocked.note trivial

/-- Every move keeps the order.  The two that matter are the ones that look at a mark: an attempt
reaches the transport only if the guard was not marked, so that there was no attempt before, and
is refused only if it was. -/
theorem of_move (h : s.Orderly c foreign) (hmove : Move c s s') : s'.Orderly c foreign := by
  cases hmove with
  | quiet hquiet => exact h.quiet hquiet
  | @registered _ call receipt hpending henroll =>
    obtain ⟨hr, -, hjournal, -⟩ := enroll_eq_ok henroll
    have hguards := (Booked.enroll s call).guards
    rw [henroll, ← (Booked.acquire s).guards] at hguards
    rw [← s.acquire_journal] at hjournal
    refine h.acquire.cons hjournal (fun other hother => ?_) (congrArg _ hguards) trivial
    rw [(Registry.register?_eq_some hr).2, ← s.acquire_registry] at hother
    rcases List.mem_append.mp hother with hold | hnew
    · exact .inl hold
    · exact .inr (congrArg _ (List.mem_singleton.mp hnew).symm)
  | refused henroll =>
    rw [(enroll_eq_error henroll).2]
    exact (h.acquire.quiet (.notify (.refl _))).release
  | claimed _ _ hclaim hquiet => exact (h.claim hclaim).release.quiet hquiet
  | abandoned _ hclaim => exact (h.claim hclaim).release.note trivial
  | routing => exact h.note trivial
  | routed => exact h.note trivial
  | asked => exact h.note trivial
  | answered => exact h.note trivial
  | @entered level callback hcallback hvouched =>
    refine h.note (.inr hvouched) fun serial => ?_
    cases callback with
    | writeBack answer => exact absurd rfl (hcallback answer)
    | _ => rfl
  | left hentered => exact h.note hentered
  | @written level answer hguard =>
    refine h.note (.inl ⟨answer, rfl⟩) fun serial => ?_
    rw [Entry.attempt?, Message.isGuardedBy, hguard]
    rfl
  | @marked t level answer guard hguard hmark =>
    obtain ⟨hfresh, rfl⟩ := markGuard_eq_false hmark
    constructor
    · intro serial
      have hbefore := h.attempts serial
      change InOrder _ (Journal.attempts (_ :: s.journal) serial)
        ((guard.serial :: s.guards.sent).contains serial)
      rw [Journal.attempts_writeBack hguard, List.contains_cons]
      by_cases hserial : guard.serial = serial
      · subst hserial
        -- Unmarked until now, so the order says that nothing has been tried before.
        have hunmarked : s.guards.sent.contains guard.serial = false := hfresh
        rw [hunmarked] at hbefore
        rw [if_pos rfl, hbefore.eq_nil, beq_self_eq_true, Bool.true_or]
        exact .reached
      · rw [if_neg hserial, beq_false_of_ne (Ne.symm hserial), Bool.false_or]
        exact hbefore
    · exact fun call hcall => List.mem_cons_of_mem _ (h.held call hcall)
    · exact ⟨.inl ⟨answer, rfl⟩, h.derived⟩
  | @answerRefused answer guard hguard hsent =>
    constructor
    · intro serial
      have hbefore := h.attempts serial
      change InOrder _ (Journal.attempts (_ :: s.journal) serial) (s.guards.sent.contains serial)
      rw [Journal.attempts_refused hguard]
      by_cases hserial : guard.serial = serial
      · subst hserial
        -- Marked already, so one refusal more is in order, whoever set the mark.
        have hmarked : s.guards.sent.contains guard.serial = true := hsent
        rw [hmarked] at hbefore ⊢
        rw [if_pos rfl]
        exact .refused hbefore
      · rw [if_neg hserial]
        exact hbefore
    · exact fun call hcall => List.mem_cons_of_mem _ (h.held call hcall)
    · exact ⟨trivial, h.derived⟩

/-- Somebody else marks a guard. -/
theorem markGuard (h : s.Orderly c foreign) {guard : Guard} (hforeign : foreign guard.serial) :
    (s.markGuard guard).2.Orderly c foreign := by
  cases hmark : s.markGuard guard with
  | mk before t =>
    cases before with
    | true => exact (markGuard_eq_true hmark).2 ▸ h
    | false =>
      obtain ⟨-, rfl⟩ := markGuard_eq_false hmark
      refine ⟨fun serial => ?_, h.held, h.derived⟩
      have hbefore := h.attempts serial
      change InOrder _ _ ((guard.serial :: s.guards.sent).contains serial)
      rw [List.contains_cons]
      by_cases hserial : serial = guard.serial
      · subst hserial
        rw [beq_self_eq_true, Bool.true_or]
        exact hbefore.mark hforeign
      · rw [beq_false_of_ne hserial, Bool.false_or]
        exact hbefore

theorem register (h : s.Orderly c foreign) (call : Call) :
    (s.register call).2.Orderly c foreign := by
  unfold State.register
  cases hr : s.registry.register? call with
  | none => exact h.quiet (.notify (.refl s))
  | some registry =>
    refine h.cons rfl (fun other hother => ?_) rfl trivial
    have hcalls := (Registry.register?_eq_some hr).2
    rw [show registry.calls = _ from hcalls] at hother
    rcases List.mem_append.mp hother with hold | hnew
    · exact .inl hold
    · exact .inr (congrArg _ (List.mem_singleton.mp hnew).symm)

end Orderly

/-! ## Asking the registry or a guard itself -/

theorem Orderly.claimed (h : s.Orderly c foreign) (claimer : Claimer) (id : CallId) :
    (s.claim claimer id).2.Orderly c foreign := by
  cases hclaim : s.claim claimer id with
  | mk result t =>
    cases result with
    | none => exact claim_eq_none hclaim ▸ h
    | some call => exact h.claim hclaim

theorem Orderly.collected (h : s.Orderly c foreign) (claimer : Claimer) (id : CallId) :
    (s.collect claimer id).2.Orderly c foreign := by
  cases hcollect : s.collect claimer id with
  | mk result t =>
    cases result with
    | none => exact h.quiet (collect_eq_none hcollect)
    | some call =>
      obtain ⟨u, hclaim, hquiet⟩ := collect_eq_some hcollect
      exact (h.claim hclaim).quiet hquiet

end State

/-- The direct operations keep the order, if they mark no other guards than those in `foreign`.
Marking a guard without answering is what makes somebody else of whoever does it. -/
theorem perform_keeps_of_direct {σ : Type} {c : Collaborators σ} {foreign : Nat → Prop}
    (callbacks : Callbacks σ) {op : Operation} (hdirect : op.IsDirect)
    (hmark : ∀ guard, op = .markGuard guard → foreign guard.serial) :
    (perform callbacks op).Along True (Host.Keeps fun s => s.Orderly c foreign) := by
  intro host
  cases op with
  | register call => exact ⟨⟨State.journal_suffix_register _ call, (·.register call)⟩, trivial⟩
  | collect id => exact ⟨⟨State.journal_suffix_collect _ _ id, (·.collected .direct id)⟩, trivial⟩
  | claim id => exact ⟨⟨State.journal_suffix_claim _ _ id, (·.claimed .direct id)⟩, trivial⟩
  | acquire => exact ⟨⟨State.journal_suffix_acquire _, (·.acquire)⟩, trivial⟩
  | release => exact ⟨⟨State.release_journal_suffix _, (·.release)⟩, trivial⟩
  | markGuard guard =>
    have hsuffix : host.state.journal <:+ (host.state.markGuard guard).2.journal :=
      (host.state.aside_markGuard guard).journal ▸ List.suffix_refl _
    exact ⟨⟨hsuffix, (·.markGuard (hmark guard rfl))⟩, trivial⟩
  | _ => exact hdirect.elim

/-! ## All runs -/

/-- How an attempt that reaches the transport ends. -/
def Outcome.answered : Outcome Unit → Except Panic (Except EngineError Unit)
  | .returned () => .ok (.ok ())
  | .failed e => .ok (.error (.transport e))
  | .panicked p => .error p

section

variable {σ : Type} {callbacks : Callbacks σ} {answer : Message} {guard : Guard} {host : Host σ}

/-- A refused attempt touches nothing but the reports: no collaborator is called, and the work ends
in the same stretch. -/
theorem answerRequest_of_sent (hguard : answer.guard = some guard)
    (hsent : host.state.guards.isSent guard = true) :
    answerRequest callbacks answer host =
      .ended (.ok (.error (.duplicateResponse guard.requestId)))
        { host with state := host.state.refuseAnswer guard answer } := by
  unfold answerRequest
  rw [hguard]
  dsimp only
  rw [Run.apply_bind, State.markGuard, Guards.mark, hsent]
  rfl

/-- The first attempt marks the guard and goes to the transport, which decides how it ends. The
mark is set before, so an attempt from inside the transport finds it. -/
theorem answerRequest_of_not_sent (hguard : answer.guard = some guard)
    (hsent : host.state.guards.isSent guard = false) :
    answerRequest callbacks answer host =
      (callbacks.writeBack answer { host with state := (host.state.markGuard guard).2 }).bind
        fun outcome later => .ended outcome.answered later := by
  unfold answerRequest
  rw [hguard]
  dsimp only
  rw [Run.apply_bind, State.markGuard, Guards.mark, hsent]
  refine congrArg _ (funext fun outcome => ?_)
  cases outcome <;> rfl

end

namespace Environment

variable {σ : Type} {env : Environment σ} {depth : Nat} {site : Site (Host σ)}
  {allowed : Operation → Prop}

/-- The order is kept throughout every run.  Only who may mark a guard directly counts as somebody
else. -/
theorem Reaches.orderly (hcol : env.collaborators.AskOnly allowed)
    (h : env.Reaches allowed depth site) :
    site.state.state.Orderly env.collaborators
      fun serial => ∃ guard : Guard, guard.serial = serial ∧ allowed (.markGuard guard) := by
  refine h.kept .init (allows_keeps (fun hmove hs => hs.of_move hmove) (fun now hs => hs.lock now)
    (fun hapart hs => hs.apart hapart) ?_) (fun hapart hs => hs.apart hapart) hcol
  intro op hop hdirect callbacks
  refine perform_keeps_of_direct callbacks hdirect fun guard heq => ?_
  exact ⟨guard, rfl, heq ▸ hop⟩

/-- What answering each request at most once means for an engine whose collaborators ask for what is
allowed, when it has arrived in a state. -/
structure AnswersOnce (env : Environment σ) (allowed : Operation → Prop) (s : State) : Prop where
  /-- The transport was called for at most one of the attempts on a guard. -/
  reached : ∀ serial, (s.journal.attempts serial).count .reached ≤ 1
  /-- If nobody else marks the guard, the first attempt is the one that reached the transport and
  all others were refused, and the guard is marked exactly if there was an attempt. -/
  first : ∀ serial, (∀ guard : Guard, guard.serial = serial → ¬ allowed (.markGuard guard)) →
    (s.journal.attempts serial = [] ∧ s.guards.sent.contains serial = false) ∨
      (∃ n, s.journal.attempts serial = List.replicate n .refused ++ [.reached]) ∧
        s.guards.sent.contains serial = true
  /-- A refused attempt gets its error and leaves the transport alone; how another one ends is up
  to the transport, but it has marked the guard before. -/
  answered : ∀ (level : Nat) (answer : Message) (guard : Guard) (host : Host σ),
    answer.guard = some guard →
    answerRequest (env.callbacks level) answer host =
      if host.state.guards.isSent guard then
        .ended (.ok (.error (.duplicateResponse guard.requestId)))
          { host with state := host.state.refuseAnswer guard answer }
      else
        ((env.callbacks level).writeBack answer
            { host with state := (host.state.markGuard guard).2 }).bind
          fun outcome later => .ended outcome.answered later
  /-- The messages that the engine passes on belong to the flow of the call, or of the message, that
  they were made from. -/
  derived : ∀ e past, e :: past <:+ s.journal → e.IsDerived env.collaborators past
  registered : ∀ (msg : Message) (expiry : Expiry) (now deadline : Millis),
    (msg.toCall expiry now deadline).outbound.SameFlow msg
  replied : ∀ (msg : Message) (id : String) (envelope : Envelope) (properties : Properties),
    (msg.reply id envelope properties).SameFlow msg
  /-- What is dispatched is registered and handed to the transport as a message of its flow, unless
  it is refused. -/
  dispatched : ∀ (level : Nat) (msg : Message) (expiry : Expiry) (host : Host σ),
    (env.callbacks level).Launches msg host (dispatch (env.callbacks level) msg expiry host)
  /-- A response goes on from the message of the call that it takes, also with the reply. -/
  responded : ∀ (level : Nat) (id : CallId) (response : Response) (host : Host σ) rel,
    (respond (env.callbacks level) id response host).Achieves rel fun _ later =>
      (env.callbacks level).Serves rel id host later
  /-- So does a sweep with each call that it takes. -/
  swept : ∀ (level : Nat) (now : Millis) (place : Nat) (report : SweepSummary) (id : CallId)
    (host : Host σ) rel,
    (sweepOne (env.callbacks level) now place report id host).Achieves rel fun _ later =>
      (env.callbacks level).Serves rel id host later
  /-- Over any number of legs the messages stay in the flow of the first one. -/
  onward : ∀ (level : Nat) (msg : Message) (legs : List (Exchange σ)),
    env.Chain level msg legs → ∀ x ∈ legs, x.sent.SameFlow msg ∧ x.reply.SameFlow msg

/-- In every run of an engine each request is answered at most once, whoever answers it from
wherever and however often. The guard that says so goes with the flow: from what is dispatched to
the call, and from the call to whatever is made of its response. -/
theorem Reaches.answers_once (hcol : env.collaborators.AskOnly allowed)
    (h : env.Reaches allowed depth site) : env.AnswersOnce allowed site.state.state := by
  have horderly := h.orderly hcol
  constructor
  case reached => exact fun serial => (horderly.attempts serial).count_reached_le
  case first =>
    intro serial hmarks
    refine (horderly.attempts serial).first_reached ?_
    rintro ⟨guard, hguard, hallowed⟩
    exact hmarks guard hguard hallowed
  case answered =>
    intro level answer guard host hguard
    cases hsent : host.state.guards.isSent guard with
    | true => exact answerRequest_of_sent hguard hsent
    | false => exact answerRequest_of_not_sent hguard hsent
  case derived => exact fun e past hsuffix => horderly.derived.of_suffix hsuffix
  case registered => exact fun msg _ _ _ => msg.withCorrelation_sameFlow
  case replied => exact Message.reply_sameFlow
  case dispatched => exact fun level => dispatch_launches (env.callbacks level)
  case responded => exact fun _ _ _ _ _ => Progress.achieves fun _ _ h => respond_serves h
  case swept => exact fun _ _ _ _ _ _ _ => Progress.achieves fun _ _ h => sweepOne_serves h
  case onward =>
    intro level msg legs hchain x hx
    have hsent := (hchain.continues x hx).sameFlow
    exact ⟨hsent, x.reply_sameFlow.trans hsent⟩

end Environment

/-! ## A run in which answering is tried three times -/

/-- The operation marks no guard by itself. -/
def Operation.MarksNone : Operation → Prop
  | .markGuard _ => False
  | _ => True

/-- Mediation answers with the reply that it gets.  The transport tries to answer while it answers,
and then fails. -/
def Environment.answering : Environment Unit where
  collaborators :=
    { Collaborators.idle with
      startFlow := fun reply => .ask (.answerRequest reply) fun _ => .done (reply, .returned true)
      writeBack := fun answer =>
        .ask (.answerRequest answer) fun _ => .done (.failed { root := "connection reset" }) }
  rounds := 4

/-- A request comes in and is sent on; a reply to that comes back, and then the request itself is
answered. -/
def Program.answerByLeg : Program Unit Unit :=
  .ask (.compose ⟨.rest, .null, false⟩ true) fun request =>
    .ask (.dispatch request {}) fun _ =>
      .ask (.respond request.callId { kind := .reply ⟨.rest, .null, false⟩ }) fun _ =>
        .ask (.answerRequest request) fun _ => .done ()

/-- A new engine has done that. -/
def Site.afterAnswers : Site (Host Unit) :=
  (Environment.answering.complete 3 .answerByLeg { state := ⟨State.init {} {} 0, ()⟩ }).2

theorem afterAnswers_reaches :
    Environment.answering.Reaches Operation.MarksNone 3 Site.afterAnswers := by
  refine .completed ?_ (.fresh {} {} 0 ())
  exact ⟨trivial, fun _ => ⟨trivial, fun _ => ⟨trivial, fun _ => ⟨trivial, fun _ => trivial⟩⟩⟩⟩

theorem answering_askOnly :
    Environment.answering.collaborators.AskOnly Operation.MarksNone :=
  { idle_askOnly Operation.MarksNone with
    startFlow := fun _ => ⟨trivial, fun _ => trivial⟩
    writeBack := fun _ => ⟨trivial, fun _ => trivial⟩ }

/-- An inbound request. -/
def Message.guarded : Message := { Message.plain "a" with guard := some ⟨0, "a"⟩, traceId := "t" }

/-- The reply is what reaches the transport, though the write fails: neither the attempt from inside
the write nor the one with the request itself does.  All messages on the way have the guard of the
request, and so has the call that a dispatch of such a request begins with. -/
theorem answers_once_afterAnswers :
    Site.afterAnswers.state.state.journal.attempts 0 = [.refused, .refused, .reached] ∧
      (∃ n, Site.afterAnswers.state.state.journal.attempts 0 =
        List.replicate n .refused ++ [.reached]) ∧
      (Site.afterAnswers.state.state.journal.callbacks.map fun c => c.2.message.isGuardedBy 0) =
        [true, true, true] ∧
      ∃ (call : Call) (sending : Host Unit)
        (rest : Outcome Unit → Run Unit (Except Panic (Except EngineError Receipt))),
        dispatch (Environment.answering.callbacks 3) .guarded {} ⟨State.init {} {}, ()⟩ =
          ((Environment.answering.callbacks 3).transmit call.outbound sending).bind rest ∧
        .registered call ∈ sending.state.journal ∧ call.outbound.guard = some ⟨0, "a"⟩ ∧
        call.outbound.traceId = "t" := by
  have hthree : Site.afterAnswers.state.state.journal.attempts 0 =
      [.refused, .refused, .reached] := by decide +kernel
  have honce := Environment.Reaches.answers_once answering_askOnly afterAnswers_reaches
  refine ⟨hthree, ?_, by decide +kernel, ?_⟩
  · rcases honce.first 0 fun _ _ => not_false with ⟨hnone, -⟩ | ⟨hfirst, -⟩
    · rw [hthree] at hnone
      cases hnone
    · exact hfirst
  · obtain ⟨receipt, later, hdispatch⟩ : ∃ receipt later,
        dispatch (Environment.answering.callbacks 3) .guarded {} ⟨State.init {} {}, ()⟩ =
          .ended (.ok (.ok receipt)) later := ⟨_, _, rfl⟩
    -- A dispatch that succeeds cannot have been refused, so it has registered a call of the flow.
    have hlaunches := honce.dispatched 3 .guarded {} ⟨State.init {} {}, ()⟩
    generalize hprogress :
      dispatch (Environment.answering.callbacks 3) .guarded {} ⟨State.init {} {}, ()⟩ = progress
      at hlaunches hdispatch ⊢
    cases hlaunches with
    | refused _ hresult =>
      cases hdispatch
      exact absurd rfl (hresult receipt)
    | @registered call occupancy sending rest _ hflow _ hjournal =>
      refine ⟨call, sending, rest, rfl, ?_, hflow.guard, hflow.traceId⟩
      rw [hjournal]
      exact List.mem_cons_self

end Correlator
