import Correlator.Engine.Program
import Correlator.Proofs.Step

/-!
# What an engine does in one go

`State.Move` lists what the operations that reach collaborators do to the state of an engine between
two points at which somebody else can look.  It says more than `State.Step`, which is about the
books alone: what is noted, with which message a collaborator is called, and what happens to the
guards.  Claims, registrations and refusals are the steps of the same name.

A collaborator is called with a message that the engine has at hand for a reason, and the reason
stands in the journal right before the call (`Journal.Vouches`): the call that a dispatch has just
registered, the call that has just been claimed, or the collaborator that has just handed the
message back.  What the engine makes of the message before it passes it on keeps the guard and the
trace of the flow.

`Environment.Allows rel` collects what a relation on hosts has to put up with, so that everything
that goes on in an environment goes along it (`Correlator.Proofs.Operations`).

## Main definitions

* `Journal.Vouches` : where the message of a callback comes from.
* `State.Move` : one move.
* `State.Booked` : what registering, claiming and counting leave alone.
* `Environment.Allows` : a relation that takes in all moves.

## Main results

* `State.Move.steps` : what a move does to the books is made of steps.
-/

namespace Correlator

open Relation

variable {σ α : Type}

/-! ## Where messages come from -/

/-- The messages belong to the same flow: they share the guard of an inbound request, if any, and
the trace.  Everything else may differ, ids, envelopes, stacks and properties; what is made of a
message on the way through the engine is told apart by those, and held together by these two. -/
structure Message.SameFlow (m m' : Message) : Prop where
  guard : m.guard = m'.guard
  traceId : m.traceId = m'.traceId

namespace Message.SameFlow

theorem refl (m : Message) : m.SameFlow m := ⟨rfl, rfl⟩

theorem trans {m m' m'' : Message} (h : m.SameFlow m') (h' : m'.SameFlow m'') : m.SameFlow m'' :=
  ⟨h.guard.trans h'.guard, h.traceId.trans h'.traceId⟩

end Message.SameFlow

theorem Message.withCorrelation_sameFlow (m : Message) : m.withCorrelation.SameFlow m := by
  unfold withCorrelation
  split <;> exact ⟨rfl, rfl⟩

theorem Message.reply_sameFlow (m : Message) (id : String) (envelope : Envelope)
    (properties : Properties) : (m.reply id envelope properties).SameFlow m := ⟨rfl, rfl⟩

/-- What the program may give, depending on what it remembers and how it is answered. -/
def Program.CanGive : Program σ α → α → Prop
  | .done result, a => result = a
  | .recall next, a => ∃ memory, (next memory).CanGive a
  | .remember _ next, a => next.CanGive a
  | .ask _ next, a => ∃ answer, (next answer).CanGive a

/-- What a collaborator may hand back from a callback.  A callback beyond the bound on nesting hands
back what it was given. -/
inductive Collaborators.Hands (c : Collaborators σ) : Callback → Message → Prop
  | startFlow {msg back : Message} {outcome : Outcome Bool}
      (h : (c.startFlow msg).CanGive (back, outcome)) : Hands c (.startFlow msg) back
  | continueFlow {frame : Frame} {msg back : Message} {outcome : Outcome Verdict}
      (h : (c.continueFlow frame msg).CanGive (back, outcome)) :
      Hands c (.continueFlow frame msg) back
  | untouched (callback : Callback) : Hands c callback callback.message

/-- What has happened last is a reason to have the message at hand, as far as its flow goes: its
call has just been registered or claimed, a collaborator has just handed it back, or somebody asks
for an operation and brings it along.  Peers may have been told since, and a fault may be about to
be dealt with. -/
def Journal.Vouches (c : Collaborators σ) : Journal → Message → Prop
  | .registered call :: _, m => m.SameFlow call.outbound
  | .claimed _ call :: _, m => m.SameFlow call.outbound
  | .left _ callback _ :: _, m => ∃ back, c.Hands callback back ∧ m.SameFlow back
  | .asked _ _ :: _, _ => True
  | .published _ :: past, m => Vouches c past m
  | .routing _ _ _ :: past, m => Vouches c past m
  | _, _ => False

namespace Journal

variable {c : Collaborators σ} {j : Journal} {m m' : Message}

theorem Vouches.sameFlow (h : j.Vouches c m) (hm : m'.SameFlow m) : j.Vouches c m' := by
  induction j with
  | nil => exact h
  | cons e past ih =>
    cases e with
    | registered => exact hm.trans h
    | claimed => exact hm.trans h
    | left =>
      obtain ⟨back, hhands, hback⟩ := h
      exact ⟨back, hhands, hm.trans hback⟩
    | asked => exact trivial
    | published => exact ih h
    | routing => exact ih h
    | _ => exact h

end Journal

/-! ## Moves -/

namespace State

/-- Only the session bindings, the statistics, the metrics, the notices and the numbering differ,
and no kind of unmatched release is reported that was not before: those reports are part of the
accounts of admission. -/
inductive Quiet (s : State) : State → Prop
  | mk {stats : Tally} {sessions : Sessions} {metrics : Metrics} {notices : List Notice}
      {nextId : Nat}
      (h : ∀ key, .unmatchedRelease key ∈ notices → .unmatchedRelease key ∈ s.notices) :
      Quiet s { s with registry := { s.registry with stats }, sessions, metrics, notices, nextId }

/-- What an engine does without anybody getting in between, apart from beginning and ending a
sweep. -/
inductive Move (c : Collaborators σ) : State → State → Prop
  /-- It counts, reports, numbers, or drops session bindings. -/
  | quiet {s s' : State} (h : s.Quiet s') : Move c s s'
  | registered {s s' : State} {call : Call} {receipt : Receipt}
      (hpending : call.completion = .pending) (h : s.enroll call = (.ok receipt, s')) : Move c s s'
  | refused {s s' : State} {call : Call} {e : EngineError} (h : s.enroll call = (.error e, s')) :
      Move c s s'
  | claimed {s s' s'' : State} {claimer : Claimer} {id : CallId} {call : Call}
      (hother : ∀ place, claimer ≠ .failedSend place) (hwhy : claimer.IsJustified s.journal id)
      (h : s.claim claimer id = (some call, s')) (hquiet : s'.release.Quiet s'') : Move c s s''
  | abandoned {s s' : State} {place level : Nat} {id : CallId} {call : Call} {e : ErrorChain}
      (hwhy : (Claimer.failedSend place).IsJustified s.journal id)
      (h : s.claim (.failedSend place) id = (some call, s')) :
      Move c s (s'.release.note (.routing level call (Fault.failedSend e)))
  | routing {s : State} (level : Nat) (call : Call) (cause : Fault) :
      Move c s (s.note (.routing level call cause))
  | routed {s : State} (level : Nat) (call : Call) (cause : Fault) (msg : Message)
      (outcome : Disposition) : Move c s (s.note (.routed level call cause msg outcome))
  | asked {s : State} (level : Nat) : Move c s (s.note (.asked level s.moment))
  | answered {s : State} (level : Nat) : Move c s (s.note (.answered level s.moment))
  /-- A collaborator is called for anything but to write an answer. -/
  | entered {s : State} (level : Nat) {callback : Callback}
      (hcallback : ∀ answer, callback ≠ .writeBack answer)
      (hvouched : s.journal.Vouches c callback.message) :
      Move c s (s.note (.entered level callback s.moment))
  /-- A collaborator that was called has ended. -/
  | left {s : State} {level : Nat} {callback : Callback}
      (hentered : ∃ moment, .entered level callback moment ∈ s.journal) :
      Move c s (s.note (.left level callback s.moment))
  /-- An answer without a guard goes to the transport. -/
  | written {s : State} (level : Nat) {answer : Message} (hguard : answer.guard = none) :
      Move c s (s.note (.entered level (.writeBack answer) s.moment))
  /-- A guard is marked for an answer, and the answer goes to the transport. -/
  | marked {s s' : State} (level : Nat) {answer : Message} {guard : Guard}
      (hguard : answer.guard = some guard) (h : s.markGuard guard = (false, s')) :
      Move c s (s'.note (.entered level (.writeBack answer) s'.moment))
  /-- An answer is refused, because its guard is marked. -/
  | answerRefused {s : State} {answer : Message} {guard : Guard}
      (hguard : answer.guard = some guard) (h : s.guards.isSent guard = true) :
      Move c s (s.refuseAnswer guard answer)

/-- A sweep begins at the instant `now`. -/
def lock (s : State) (now : Millis) : State :=
  { s with sweeping := true }.note (.listed now s.moment)

/-- A sweep has ended. -/
def unlock (s : State) : State := { s with sweeping := false }

namespace Quiet

variable {s s' : State}

theorem aside (h : s.Quiet s') : s.Aside s' := by
  cases h with
  | mk h => exact ⟨rfl, rfl, rfl, h⟩

/-- What is only counted or reported does not matter to a release: it is the count in flight that
decides whether peers are told or a notice is written, and that is the same. -/
theorem release (h : s.Quiet s') : s.release.Quiet s'.release := by
  cases h with
  | mk h =>
    unfold State.release
    dsimp only
    split
    · exact .mk h
    · refine .mk fun key hkey => ?_
      rcases List.mem_cons.mp hkey with heq | hold
      · exact heq ▸ List.mem_cons_self
      · exact List.mem_cons_of_mem _ (h key hold)

theorem countFault (s : State) (outcome : Disposition) : s.Quiet (s.countFault outcome) :=
  .mk fun _ h => h

theorem countResponse (s : State) (outcome : Delivery) : s.Quiet (s.countResponse outcome) :=
  .mk fun _ h => h

theorem notify (h : s.Quiet s') {n : Notice}
    (hn : ∀ key, n ≠ .unmatchedRelease key := by simp) : s.Quiet (s'.notify n) := by
  cases h with
  | mk h =>
    refine .mk fun key hkey => ?_
    rcases List.mem_cons.mp hkey with heq | hold
    · exact absurd heq.symm (hn key)
    · exact h key hold

theorem refl (s : State) : s.Quiet s := .mk fun _ h => h

theorem trans {s'' : State} (h : s.Quiet s') (h' : s'.Quiet s'') : s.Quiet s'' := by
  cases h with
  | mk h =>
    cases h' with
    | mk h' => exact .mk fun key hkey => h key (h' key hkey)

end Quiet

/-- Only the books, the session bindings, the metrics, the notices and the numbering differ; guards,
workers, locks and clocks are the same. -/
inductive Booked (s : State) : State → Prop
  | mk {registry : Registry} {admission : Admission} {sessions : Sessions} {metrics : Metrics}
      {notices : List Notice} {journal : Journal} {nextId : Nat} :
      Booked s { s with registry, admission, sessions, metrics, notices, journal, nextId }

namespace Booked

variable {s s' s'' : State}

theorem trans (h : s.Booked s') (h' : s'.Booked s'') : s.Booked s'' := by
  cases h
  cases h'
  exact .mk

theorem quiet (h : s.Quiet s') : s.Booked s' := by
  cases h
  exact .mk

theorem acquire (s : State) : s.Booked s.acquire.2 := by
  unfold State.acquire
  dsimp only
  split <;> exact .mk

theorem release (s : State) : s.Booked s.release := by
  unfold State.release
  split <;> exact .mk

theorem register (s : State) (call : Call) : s.Booked (s.register call).2 := by
  unfold State.register
  split <;> exact .mk

theorem enroll (s : State) (call : Call) : s.Booked (s.enroll call).2 := by
  have hregistered := (acquire s).trans (register s.acquire.2 call)
  unfold State.enroll
  dsimp only
  -- Whether the id is free does not matter: a refused call is counted out, which leaves as much
  -- alone as counting it in.
  generalize s.acquire.2.register call = result at hregistered ⊢
  obtain ⟨answer, registered⟩ := result
  cases answer with
  | error e => exact hregistered.trans (release registered)
  | ok receipt => exact hregistered.trans .mk

theorem claim (s : State) (claimer : Claimer) (id : CallId) :
    s.Booked (s.claim claimer id).2 := by
  unfold State.claim
  split <;> exact .mk

theorem collect (s : State) (claimer : Claimer) (id : CallId) :
    s.Booked (s.collect claimer id).2 := by
  unfold State.collect
  split <;> exact .mk

theorem guards (h : s.Booked s') : s'.guards = s.guards := by
  cases h
  rfl

end Booked

/-- Marking a guard is no affair of the books. -/
theorem aside_markGuard (s : State) (guard : Guard) : s.Aside (s.markGuard guard).2 :=
  ⟨rfl, rfl, rfl, fun _ h => h⟩

theorem aside_lock (s : State) : s.Aside { s with sweeping := true } :=
  ⟨rfl, rfl, rfl, fun _ h => h⟩

theorem steps_note {s : State} {e : Entry} (hbook : e.isBooking = false)
    (hmoment : ∀ m, e.moment? = some m → m = s.moment) : Steps s (s.note e) :=
  .single (.noted hbook hmoment)

theorem steps_lock (s : State) (now : Millis) : Steps s (s.lock now) := by
  refine .tail (b := { s with sweeping := true }) (.single (.aside s.aside_lock)) ?_
  exact .noted rfl fun m hm => (Option.some.inj hm).symm

theorem steps_unlock (s : State) : Steps s s.unlock :=
  .single (.aside ⟨rfl, rfl, rfl, fun _ h => h⟩)

/-- What a move does to the books is made of steps, so whatever steps keep is kept by moves too.
Most moves are one step; those that write an entry besides changing something else are two. -/
theorem Move.steps {c : Collaborators σ} {s s' : State} (h : Move c s s') : Steps s s' := by
  have present {m m' : Moment} (hm : some m = some m') : m' = m := (Option.some.inj hm).symm
  cases h with
  | quiet h => exact .single (.aside h.aside)
  | registered hpending h => exact .single (.registered hpending h)
  | refused h => exact .single (.refused h)
  | claimed hother hwhy h hquiet =>
    -- Claiming and counting out are one step, what is reported about it is another.
    exact .tail (.single (.claimed hother hwhy h)) (.aside hquiet.aside)
  | abandoned hwhy h => exact .single (.abandoned hwhy h)
  | routing => exact steps_note rfl fun _ => nofun
  | routed => exact steps_note rfl fun _ => nofun
  | asked => exact steps_note rfl fun _ => present
  | answered => exact steps_note rfl fun _ => present
  | entered => exact steps_note rfl fun _ => present
  | left => exact steps_note rfl fun _ => present
  | written => exact steps_note rfl fun _ => present
  | @marked _ _ _ guard _ h =>
    -- The guards are no part of the books, so only the entry counts.
    have haside := s.aside_markGuard guard
    rw [h] at haside
    exact .trans (.single (.aside haside)) (steps_note rfl fun _ => present)
  | @answerRefused answer guard _ _ =>
    have haside : s.Aside { s.refuseAnswer guard answer with journal := s.journal } :=
      ⟨rfl, rfl, rfl, ((Aside.refl s).notify (n := .duplicateResponse _ _)).notices⟩
    refine .trans (.single (.aside haside)) ?_
    exact steps_note (e := .answerRefused answer) rfl fun _ => nofun

end State

/-! ## Relations that take in all moves -/

/-- The operation may call collaborators. -/
def Operation.CallsOut : Operation → Prop
  | .dispatch .. | .respond .. | .answerRequest _ | .sweep | .sweepAsOf _ | .resume _
  | .runHandler .. | .routeFault .. => True
  | _ => False

/-- The relation takes in whatever goes on in the environment if nobody asks for anything but the
allowed operations.  Where work may wait, beginning and ending a sweep are taken in one by one;
where it may not, a sweep need only be taken in as a whole. -/
structure Environment.Allows (env : Environment σ) (patient : Prop) (allowed : Operation → Prop)
    (rel : Host σ → Host σ → Prop) : Prop where
  suffix : ∀ {h h' : Host σ}, rel h h' → h.state.journal <:+ h'.state.journal
  memory : ∀ (h : Host σ) (memory : σ), rel h { h with memory }
  move : ∀ {h : Host σ} {s' : State}, State.Move env.collaborators h.state s' →
    rel h { h with state := s' }
  lock : patient → ∀ (h : Host σ) (now : Millis), rel h { h with state := h.state.lock now }
  unlock : patient → ∀ h : Host σ, rel h { h with state := h.state.unlock }
  sweep : ¬ patient → ∀ (h h' : Host σ) (now : Millis), h.state.sweeping = false →
    rel { h with state := h.state.lock now } h' → rel h { h' with state := h'.state.unlock }
  inside : ∀ {op : Operation}, allowed op → ¬ op.CallsOut → ∀ callbacks : Callbacks σ,
    (perform callbacks op).Along patient rel

end Correlator
