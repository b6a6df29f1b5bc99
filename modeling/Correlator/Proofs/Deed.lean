import Correlator.Engine.Program
import Correlator.Proofs.Carried
import Correlator.Proofs.Step
import Mathlib.Algebra.Order.Group.Multiset

/-!
# Deeds and undertakings

What an operation begins it finishes later, and in between a collaborator may do as it likes.  A
response that has claimed a call is counted when it has been dealt with; a sweep that has listed the
calls that are due goes through them one by one; a fault handler that has been called is counted
when it has come back.  An `Undertaking` is something that has been begun in this way.

`State.Deed d s d' s'` lists what an engine does between two points at which somebody else can look:
it changes the state from `s` to `s'`, needs the undertakings `d` and leaves `d'` for later.  Unlike
`State.Move` it says what every counter and every worker goes through, and it says when undertakings
end.  What is noted about a fault comes in one deed with what it must not be separated from.

So a property of runs is a property of a state and of the undertakings in hand, and is checked deed
by deed (`State.Deeds.keeps`).  The predicate `allowed` says which operations anybody asks for; it
matters for starting an engine and for stopping it, for the clock and for fault handlers.

## Main definitions

* `Undertaking` : something that has been begun.
* `State.Neutral`, `State.Life` : what is nobody's undertaking.
* `State.Deed`, `State.Deeds` : one deed, and any number of them.
-/

namespace Correlator

variable {σ α β : Type} {allowed : Operation → Prop}

/-- What a call has been claimed for. -/
inductive Purpose where
  /-- A response to it. -/
  | response
  /-- It is due. -/
  | expiry
  /-- Its message, or one with its id, could not be sent. -/
  | cleanUp
  deriving DecidableEq

/-- Something that has been begun and is to be finished. It carries what its end will need to know,
since the state in between may be changed by anybody. -/
inductive Undertaking where
  /-- A call with this id has been registered, and its message is with the transport. -/
  | sending (id : CallId)
  /-- A call has been claimed and is dealt with. -/
  | claimed (purpose : Purpose) (call : Call)
  /-- A fault handler has been called. -/
  | handler
  /-- The worker with this number has taken up an item that asks for a sweep. -/
  | item (number : Nat)
  /-- A sweep is in progress that has these ids before it. -/
  | sweep (now : Millis) (left : List CallId)

/-- What has been begun by all who wait. -/
abbrev Undertakings := Multiset Undertaking

namespace Undertakings

/-- How many undertakings of a kind are in hand. -/
def number (kind : Undertaking → Bool) (d : Undertakings) : Nat := d.countP (kind ·)

variable {kind : Undertaking → Bool}

@[simp] theorem number_add (d d' : Undertakings) :
    number kind (d + d') = d.number kind + d'.number kind := Multiset.countP_add _ d d'

@[simp] theorem number_singleton (u : Undertaking) : number kind {u} = (kind u).toNat := by
  rw [number, ← Multiset.cons_zero, Multiset.countP_cons, Multiset.countP_zero]
  cases kind u <;> rfl

end Undertakings

/-- The entry is neither about a call nor about a fault nor about a sweep. -/
def Entry.isNeutral : Entry → Bool
  | .entered _ (.compensate ..) _ => false
  | .published _ | .answerRefused _ | .asked .. | .answered .. | .entered .. | .left .. => true
  | .registered _ | .claimed .. | .listed .. | .routing .. | .routed .. => false

/-- A timeout is discarded under the action: the fault is of this kind, or was reported with the
code of a timeout whatever its kind, and the action is to discard. -/
def Fault.IsDiscarded (cause : Fault) (action : ExpiryAction) : Prop :=
  (cause.kind = .timeout ∨ cause.code = 101504) ∧ action = .discard

instance (cause : Fault) (action : ExpiryAction) : Decidable (cause.IsDiscarded action) :=
  inferInstanceAs (Decidable ((_ ∨ _) ∧ _))

theorem Fault.isDiscarded_iff {cause : Fault} {action : ExpiryAction} :
    cause.IsDiscarded action ↔ cause.isTimeout ∧ action = .discard := by
  rw [IsDiscarded, isTimeout, Bool.or_eq_true, decide_eq_true_eq, decide_eq_true_eq]
  rfl

/-- The fault is a timeout, and the call discards those. -/
def Call.Discards (c : Call) (cause : Fault) : Prop := cause.IsDiscarded c.expiry.action

instance (c : Call) (cause : Fault) : Decidable (c.Discards cause) :=
  inferInstanceAs (Decidable (cause.IsDiscarded c.expiry.action))

/-- The operation asks for a fault handler, without any call. -/
def Operation.Consults (cause : Fault) : Operation → Prop
  | .runHandler _ reason => reason = cause
  | .routeFault _ reason action => reason = cause ∧ ¬ cause.IsDiscarded action
  | _ => False

/-- The operation moves the clock. -/
inductive Operation.Moves : Operation → Clock → Clock → Prop
  | set (instant : Millis) (c : Clock) : Moves (.setClock instant) c (c.set instant)
  | advance (duration : Millis) (c : Clock) : Moves (.advanceClock duration) c (c.advance duration)
  | breaks (broken : Bool) (c : Clock) : Moves (.breakClock broken) c { c with broken }

/-- What has happened last is a reason to call a fault handler at once: the fault of a call is
about to be dealt with, which is no timeout that the call discards, or somebody asks for the
handler. Only the last entry counts, so a reason cannot be used twice. -/
def Journal.Compels (allowed : Operation → Prop) (j : Journal) (level : Nat) (cause : Fault) :
    Prop :=
  match j with
  | .routing noted call reason :: _ => noted = level ∧ reason = cause ∧ ¬ call.Discards cause
  | .asked noted _ :: _ => noted = level ∧ ∃ op, allowed op ∧ op.Consults cause
  | _ => False

/-- The journal says last that a fault of a call has been dealt with. -/
def Journal.EndsWith (j : Journal) (call : Call) (cause : Fault) : Prop :=
  ∃ level msg outcome past, j = .routed level call cause msg outcome :: past

/-- A fault handler has been run. -/
def Disposition.isRun : Disposition → Bool
  | .handled _ | .handlerFailed .. => true
  | .discarded | .undeliverable => false

namespace State

/-- A worker has changed. -/
def exchange (s : State) (number : Nat) (taken : Worker Chore) : State :=
  { s with workers := s.workers.map fun w => if w.number = number then taken else w }

/-- A worker is gone. -/
def without (s : State) (number : Nat) : State :=
  { s with workers := s.workers.filter (·.number ≠ number) }

/-- Only what no call, no fault, no sweep and no worker goes by differs, and not the clock. -/
inductive Neutral (s : State) : State → Prop
  | mk {admission : Admission} {sessions : Sessions} {guards : Guards}
      {overflow duplicates : UInt64} {inFlight : Option UInt32} {notices : List Notice}
      {nextId : Nat} (newer : Journal) (h : ∀ e ∈ newer, e.isNeutral = true) :
      Neutral s
        { s with
          admission, sessions, guards, notices, nextId
          metrics :=
            { s.metrics with
              admissionOverflow := overflow, duplicateResponses := duplicates, inFlight }
          journal := newer ++ s.journal }

/-- What the life of an engine consists of, apart from its sweeps. -/
inductive Life (allowed : Operation → Prop) : State → State → Prop
  | start {s : State} (h : allowed .start) : Life allowed s s.start
  | beginStop {s : State} (h : allowed .stop ∨ allowed .beginStop) : Life allowed s s.beginStop.2
  | stopped {s : State} (h : allowed .stop ∨ allowed .beginStop) :
      Life allowed s { s with lifecycle := .stopped }
  | stopAside {s : State} (h : allowed .beginStop) :
      Life allowed s { s with stopsAside := s.stopsAside + 1 }
  | submit {s : State} (number : Nat) (t : Chore) : Life allowed s (s.submit number t).2
  | pass {s : State} (time : Nat) : Life allowed s { s with time := max s.time time }
  /-- A worker has taken up an item that asks for no sweep. -/
  | purge {s : State} {w taken : Worker Chore} (hw : w ∈ s.workers)
      (hduty : w.duty? s.time = some (.take (.task .purgeBindings) taken)) :
      Life allowed s (s.exchange w.number taken)
  | gone {s : State} (number : Nat) : Life allowed s (s.without number)

/-- What an engine does without anybody getting in between, what that needs to have been begun, and
what it leaves to be finished. A constructor that needs an undertaking and leaves none ends it; no
other way of ending one is listed. -/
inductive Deed (allowed : Operation → Prop) :
    Undertakings → State → Undertakings → State → Prop
  | neutral {s s' : State} (h : s.Neutral s') : Deed allowed 0 s 0 s'
  | life {s s' : State} (h : Life allowed s s') : Deed allowed 0 s 0 s'
  | timed {s : State} {clock : Clock} {op : Operation} (hop : allowed op)
      (h : op.Moves s.clock clock) : Deed allowed 0 s 0 { s with clock }
  /-- A worker takes up an item that asks for a sweep. -/
  | begun {s : State} {w taken : Worker Chore} {item : Item Chore} (hw : w ∈ s.workers)
      (hduty : w.duty? s.time = some (.take item taken)) (hitem : item ≠ .task .purgeBindings) :
      Deed allowed 0 s {.item w.number} (s.exchange w.number taken)
  /-- The worker dies at it. -/
  | died {s : State} (number : Nat) : Deed allowed {.item number} s 0 (s.without number)
  -- Dispatches.
  | enrolled {s s' : State} {call : Call} {receipt : Receipt} (hopen : s.acceptsCalls = true)
      (hpending : call.completion = .pending) (h : s.enroll call = (.ok receipt, s')) :
      Deed allowed 0 s {.sending call.id} s'
  | sent {s : State} (id : CallId) : Deed allowed {.sending id} s 0 s
  | abandoned {s s' : State} {place : Nat} {id : CallId} {call : Call}
      (h : s.claim (.failedSend place) id = (some call, s')) :
      Deed allowed {.sending id} s {.claimed .cleanUp call} s'.release
  -- Responses.
  | unmatched {s s' : State} {id : CallId} (h : s.collect .response id = (none, s')) :
      Deed allowed 0 s 0 (s'.countResponse .unmatched)
  | collected {s s' : State} {id : CallId} {call : Call}
      (h : s.collect .response id = (some call, s')) :
      Deed allowed 0 s {.claimed .response call} s'.release
  | responded {s : State} {outcome : Delivery} (call : Call) (h : outcome ≠ .unmatched) :
      Deed allowed {.claimed .response call} s 0 (s.countResponse outcome)
  -- Sweeps.
  /-- A sweep goes by the clock, or by the instant that somebody has asked for. -/
  | locked {s : State} {now : Millis} {order : List CallId} (hfree : s.sweeping = false)
      (hnow : s.clock.read = .ok now ∨ allowed (.sweepAsOf now))
      (hperm : order.Perm (s.registry.overdue now)) :
      Deed allowed 0 s {.sweep now order} ({ s with sweeping := true }.note (.listed now s.moment))
  /-- The item of a worker finds its sweep in progress, or another one. -/
  | relieved {s : State} (number : Nat) (h : s.sweeping = true) :
      Deed allowed {.item number} s 0 s
  | overtaken {s : State} {now : Millis} {id : CallId} {left : List CallId}
      (h : s.registry.claim? id = none) :
      Deed allowed {.sweep now (id :: left)} s {.sweep now left} s
  | expired {s s' : State} {now : Millis} {place : Nat} {id : CallId} {left : List CallId}
      {call : Call} (h : s.claimExpired now place id = (some call, s')) :
      Deed allowed {.sweep now (id :: left)} s
        ({.sweep now left} + {.claimed .expiry call}) s'.expireCall
  | unlocked {s : State} (now : Millis) :
      Deed allowed {.sweep now []} s 0 { s with sweeping := false }
  -- Faults.
  | routing {s : State} {purpose : Purpose} {call : Call} {cause : Fault} (level : Nat)
      (h : ¬ call.Discards cause) :
      Deed allowed {.claimed purpose call} s {.claimed purpose call}
        (s.note (.routing level call cause))
  | routed {s : State} {purpose : Purpose} {call : Call} {cause : Fault} {outcome : Disposition}
      (level : Nat) (msg : Message) (h : ¬ call.Discards cause)
      (houtcome : outcome ≠ .discarded) :
      Deed allowed {.claimed purpose call} s {.claimed purpose call}
        (s.note (.routed level call cause msg outcome))
  | discarded {s : State} {purpose : Purpose} {call : Call} {cause : Fault} (level : Nat)
      (msg : Message) (h : call.Discards cause) :
      Deed allowed {.claimed purpose call} s {.claimed purpose call}
        (((s.note (.routing level call cause)).countFault .discarded).note
          (.routed level call cause { msg with handlers := .empty, fault := some cause }
            .discarded))
  /-- A claimed call has been dealt with.  Responses are counted before they come to an end. -/
  | settled {s : State} {purpose : Purpose} {call : Call} (hresponse : purpose ≠ .response)
      (hexpiry : purpose = .expiry →
        call.expiry.action = .drop ∨ s.journal.EndsWith call (.timeout call.deadline)) :
      Deed allowed {.claimed purpose call} s 0 s
  | called {s : State} {level : Nat} {cause : Fault} (handler : Handler) (msg : Message)
      (h : s.journal.Compels allowed level cause) :
      Deed allowed 0 s {.handler}
        (s.note (.entered level (.compensate handler cause msg) s.moment))
  | ran {s : State} {outcome : Disposition} (h : outcome.isRun = true) :
      Deed allowed {.handler} s 0 (s.countFault outcome)
  | notRun {s : State} {outcome : Disposition} (h : outcome.isRun = false) :
      Deed allowed 0 s 0 (s.countFault outcome)

/-- Any number of deeds, whatever else is in hand. What a deed needs is taken from all that is in
hand, no matter who has begun it. -/
inductive Deeds (allowed : Operation → Prop) (d : Undertakings) (s : State) :
    Undertakings → State → Prop
  | refl : Deeds allowed d s d s
  | tail {others need left : Undertakings} {s' s'' : State}
      (h : Deeds allowed d s (others + need) s') (hdeed : Deed allowed need s' left s'') :
      Deeds allowed d s (others + left) s''

namespace Deeds

variable {d d' d'' : Undertakings} {s s' s'' : State}

theorem of_deed (h : Deed allowed d s d' s') : Deeds allowed d s d' s' := by
  have hstart : Deeds allowed d s (0 + d) s := by
    rw [zero_add]
    exact .refl
  have hdone := hstart.tail h
  rwa [zero_add] at hdone

theorem trans (h : Deeds allowed d s d' s') (h' : Deeds allowed d' s' d'' s'') :
    Deeds allowed d s d'' s'' := by
  induction h' with
  | refl => exact h
  | tail _ hdeed ih => exact ih.tail hdeed

theorem frame (others : Undertakings) (h : Deeds allowed d s d' s') :
    Deeds allowed (others + d) s (others + d') s' := by
  induction h with
  | refl => exact .refl
  | @tail rest need left _ _ _ hdeed ih =>
    rw [← add_assoc] at ih ⊢
    exact ih.tail hdeed

/-- What every deed keeps, in view of all that is in hand, any number of deeds keeps. The premise
quantifies over what the others have in hand, as a deed cannot know it. -/
theorem keeps {P : Undertakings → State → Prop}
    (hdeed : ∀ {others need left s s'}, Deed allowed need s left s' → P (others + need) s →
      P (others + left) s') (h : Deeds allowed d s d' s') (hP : P d s) : P d' s' := by
  induction h with
  | refl => exact hP
  | tail _ hlast ih => exact hdeed hlast ih

end Deeds

/-! ## What is nobody's undertaking -/

namespace Neutral

variable {s s' : State}

theorem note {e : Entry} (h : e.isNeutral = true) : s.Neutral (s.note e) :=
  .mk [e] fun _ hmem => List.mem_singleton.mp hmem ▸ h

theorem notify (n : Notice) : s.Neutral (s.notify n) := .mk [] fun _ => nofun

theorem sessions (sessions : Sessions) : s.Neutral { s with sessions } :=
  .mk [] fun _ => nofun

end Neutral

end State

/-- Deeds at an engine; its collaborators may change their memory in between. -/
def Host.Does (allowed : Operation → Prop) (d : Undertakings) (h : Host σ) (d' : Undertakings)
    (h' : Host σ) : Prop :=
  State.Deeds allowed d h.state d' h'.state

instance : Ledger (Host.Does (σ := σ) allowed) where
  refl _ _ := .refl
  trans h h' := State.Deeds.trans h h'
  frame others := State.Deeds.frame others

end Correlator
