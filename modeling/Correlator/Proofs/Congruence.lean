import Correlator.Proofs.Reach

/-!
# Doing the same

Two engines that differ in something do the same as long as nobody looks at it; one engine does the
same with other callbacks if these do the same; and some properties speak of a single run.  To show
any of this one has to go through the whole engine: through dispatching, responses, answers and
sweeps, through the programs of the collaborators, and through the levels of nesting.

The way is the same each time.  `P` is a property of two pieces of work, one from either side.  It
is a `Run.Congruence` if it is kept when work is put together, and holds of the few steps that the
engine is made of (`State.Stroke`) and of the operations that call nobody.  Then it holds of
everything that goes on at either side.  The two sides need not find the same states; what the
engine looks at in passing is in `seen`.  In particular their journals need not be equally long, and
then the places that either side remembers differ.

Sweeps stand apart, since the lock they hold and what only they count is what some of these
properties are about: how `P` comes to hold of a whole sweep is a premise
(`Run.Pairing.KeepsSweeps`), and `sweepOne_congruent` is what there is to know about its loop.

## Main definitions

* `State.Stroke` : the steps of the operations that call collaborators.
* `Callbacks.Correspond` : the callbacks of the two sides have the property one by one.
* `Run.Congruence` : the property is kept by all of this.

## Main results

* `Run.Congruence.perform_congruent` : every operation has the property if the callbacks do.
* `Run.Congruence.callbacks_correspond` : the callbacks have it at every level of nesting.
* `Run.Congruence.run_congruent` : and so do all programs.
-/

namespace Correlator

variable {σ α β : Type}

/-! ## The steps of an engine -/

/-- The steps that the operations are made of which call collaborators, apart from claims by those
who remember a place, and from what only sweeps do. -/
inductive State.Stroke : {α : Type} → (State → α × State) → Prop
  | note (e : Entry) : Stroke fun s => ((), s.note e)
  | asked (level : Nat) : Stroke fun s => ((), s.note (.asked level s.moment))
  | answered (level : Nat) : Stroke fun s => ((), s.note (.answered level s.moment))
  | entered (level : Nat) (callback : Callback) :
      Stroke fun s => ((), s.note (.entered level callback s.moment))
  | left (level : Nat) (callback : Callback) :
      Stroke fun s => ((), s.note (.left level callback s.moment))
  | notify (n : Notice) : Stroke fun s => ((), s.notify n)
  | countFault (outcome : Disposition) : Stroke fun s => ((), s.countFault outcome)
  | countResponse (outcome : Delivery) : Stroke fun s => ((), s.countResponse outcome)
  | enroll (call : Call) : Stroke (·.enroll call)
  | release : Stroke fun s => ((), s.release)
  | collect (id : CallId) : Stroke (·.collect .response id)
  | freshMessageId : Stroke State.freshMessageId
  | markGuard (guard : Guard) : Stroke (·.markGuard guard)
  | refuseAnswer (guard : Guard) (answer : Message) :
      Stroke fun s => ((), s.refuseAnswer guard answer)
  | purgeBindings (now : Millis) : Stroke (·.purgeBindings now)

/-- Whoever acquires, registers, releases and counts alike enrolls alike. Enrolling is one stroke
for callers, and a likeness of states is shown for it from these parts. -/
theorem State.enroll_congruent {r : State → State → Prop} {s s' : State} {call : Call}
    (hresult : (s.acquire.2.register call).1 = (s'.acquire.2.register call).1)
    (hbooked : r (s.acquire.2.register call).2 (s'.acquire.2.register call).2)
    (hrelease : ∀ {t t' : State}, r t t' → r t.release t'.release)
    (hcount : ∀ {t t' : State}, r t t' →
      r { t with metrics := { t.metrics with callsRegistered := t.metrics.callsRegistered + 1 } }
        { t' with
          metrics := { t'.metrics with callsRegistered := t'.metrics.callsRegistered + 1 } }) :
    (s.enroll call).1 = (s'.enroll call).1 ∧ r (s.enroll call).2 (s'.enroll call).2 := by
  unfold State.enroll
  dsimp only
  revert hresult hbooked
  generalize s.acquire.2.register call = enrolled
  generalize s'.acquire.2.register call = enrolled'
  intro hresult hbooked
  obtain ⟨result, t⟩ := enrolled
  obtain ⟨result', t'⟩ := enrolled'
  dsimp only at hresult hbooked
  subst hresult
  cases result with
  | error e => exact ⟨rfl, hrelease hbooked⟩
  | ok receipt => exact ⟨rfl, hcount hbooked⟩

/-- Whoever claims and counts alike claims for sweeps alike. -/
theorem State.claimExpired_congruent {r : State → State → Prop} {s s' : State} {now : Millis}
    {place place' : Nat} {id : CallId}
    (hresult : (s.claim (.sweep now place) id).1 = (s'.claim (.sweep now place') id).1)
    (hclaimed : r (s.claim (.sweep now place) id).2 (s'.claim (.sweep now place') id).2)
    (hcount : ∀ {t t' : State}, r t t' →
      r { t with registry := t.registry.countExpired }
        { t' with registry := t'.registry.countExpired }) :
    (s.claimExpired now place id).1 = (s'.claimExpired now place' id).1 ∧
      r (s.claimExpired now place id).2 (s'.claimExpired now place' id).2 := by
  unfold State.claimExpired
  revert hresult hclaimed
  generalize s.claim (.sweep now place) id = claimed
  generalize s'.claim (.sweep now place') id = claimed'
  intro hresult hclaimed
  obtain ⟨result, t⟩ := claimed
  obtain ⟨result', t'⟩ := claimed'
  dsimp only at hresult hclaimed
  subst hresult
  cases result with
  | none => exact ⟨rfl, hclaimed⟩
  | some call => exact ⟨rfl, hcount hclaimed⟩

/-! ## Properties of two pieces of work -/

/-- A property of two pieces of work. -/
abbrev Run.Pairing (σ : Type) := ∀ ⦃α : Type⦄, Run σ α → Run σ α → Prop

/-- The callbacks have the property one by one. -/
structure Callbacks.Correspond (P : Run.Pairing σ) (callbacks callbacks' : Callbacks σ) :
    Prop where
  level : callbacks'.level = callbacks.level
  rounds : callbacks'.rounds = callbacks.rounds
  arrangement : callbacks'.arrangement = callbacks.arrangement
  transmit : ∀ wire, P (callbacks.transmit wire) (callbacks'.transmit wire)
  writeBack : ∀ answer, P (callbacks.writeBack answer) (callbacks'.writeBack answer)
  startFlow : ∀ msg, P (callbacks.startFlow msg) (callbacks'.startFlow msg)
  continueFlow : ∀ frame msg,
    P (callbacks.continueFlow frame msg) (callbacks'.continueFlow frame msg)
  compensate : ∀ handler cause msg,
    P (callbacks.compensate handler cause msg) (callbacks'.compensate handler cause msg)

namespace Run

/-- The property is kept when work is put together, and holds of what engines are made of where
only the allowed operations are asked for. What either side looks at in passing is `seen`. So a
proof about two whole runs comes down to these fields, none of which mentions a loop or a level of
nesting. -/
structure Congruence (allowed : Operation → Prop) (seen : State → State → Prop) (P : Pairing σ) :
    Prop where
  pure : ∀ {α : Type} (a : α), P (pure a) (pure a)
  bind : ∀ {α β : Type} {work work' : Run σ α} {f f' : α → Run σ β}, P work work' →
    (∀ a, P (f a) (f' a)) → P (work >>= f) (work' >>= f')
  look : ∀ {α : Type} {f f' : State → Run σ α}, (∀ s s', seen s s' → P (f s) (f' s')) →
    P (read >>= f) (read >>= f')
  «recall» : ∀ {α : Type} {f f' : σ → Run σ α}, (∀ memory, P (f memory) (f' memory)) →
    P (fun host => f host.memory host) (fun host => f' host.memory host)
  remember : ∀ {α : Type} {work work' : Run σ α} (memory : σ), P work work' →
    P (fun host => work { host with memory }) (fun host => work' { host with memory })
  stroke : ∀ {α : Type} {f : State → α × State}, State.Stroke f → P (apply f) (apply f)
  clock : ∀ {s s' : State}, seen s s' → s'.clock = s.clock
  defaultTimeout : ∀ {s s' : State}, seen s s' → s'.config.defaultTimeout = s.config.defaultTimeout
  /-- Either side remembers the place at which it has registered its call. -/
  cleanUp : ∀ {s s' : State}, seen s s' → ∀ id,
    P (apply (·.claim (.failedSend s.place) id)) (apply (·.claim (.failedSend s'.place) id))
  accepts : ∀ {s s' : State} {msg : Message} {expiry : Expiry}, allowed (.dispatch msg expiry) →
    seen s s' → s'.acceptsCalls = s.acceptsCalls
  inside : ∀ {op : Operation}, allowed op → ¬ op.CallsOut → ∀ callbacks : Callbacks σ,
    P (perform callbacks op) (perform callbacks op)

/-- Sweeps have the property if the callbacks do. This is asked for as a whole, because between
taking the lock and giving it back some properties only hold in a changed form. -/
def Pairing.KeepsSweeps (P : Pairing σ) : Prop :=
  ∀ {callbacks callbacks' : Callbacks σ}, callbacks.Correspond P callbacks' → ∀ now,
    P (sweepAsOf callbacks now) (sweepAsOf callbacks' now)

end Run

/-- What calls nobody does not depend on the callbacks. -/
theorem perform_of_not_callsOut {op : Operation} (h : ¬ op.CallsOut)
    (callbacks callbacks' : Callbacks σ) : perform callbacks op = perform callbacks' op := by
  cases op with
  | dispatch | respond | answerRequest | sweep | sweepAsOf | resume | runHandler | routeFault =>
    exact absurd trivial h
  | _ => rfl

/-- The operation is a sweep. -/
def Operation.IsSweep : Operation → Prop
  | .sweep | .sweepAsOf _ => True
  | _ => False

namespace Run.Congruence

variable {allowed : Operation → Prop} {seen : State → State → Prop} {P : Pairing σ}
  {callbacks callbacks' : Callbacks σ}

section

variable (hP : Congruence allowed seen P)

include hP

theorem update {change : State → State} (h : State.Stroke fun s => ((), change s)) :
    P (Run.update change) (Run.update change) := hP.stroke h

theorem update_pure {change : State → State} (h : State.Stroke fun s => ((), change s)) (a : α) :
    P (do Run.update change; return a) (do Run.update change; return a) :=
  hP.bind (hP.update h) fun _ => hP.pure a

/-- Two steps that are taken at once. -/
theorem update_update_pure {change change' : State → State}
    (h : State.Stroke fun s => ((), change s)) (h' : State.Stroke fun s => ((), change' s))
    (a : α) :
    P (do Run.update fun s => change' (change s); return a)
      (do Run.update fun s => change' (change s); return a) := by
  have hboth : P (do Run.update change; Run.update change'; return a)
      (do Run.update change; Run.update change'; return a) :=
    hP.bind (hP.update h) fun _ => hP.update_pure h' a
  exact hboth

/-- The induction is on the list. -/
theorem foldlM {work work' : β → α → Run σ β} (h : ∀ b a, P (work b a) (work' b a)) (as : List α)
    (b : β) : P (as.foldlM work b) (as.foldlM work' b) := by
  induction as generalizing b with
  | nil => exact hP.pure b
  | cons a as ih =>
    rw [List.foldlM_cons, List.foldlM_cons]
    exact hP.bind (h b a) ih

theorem noted {before after : Moment → Entry} {work work' : Run σ α}
    (hbefore : State.Stroke fun s => ((), s.note (before s.moment)))
    (hafter : State.Stroke fun s => ((), s.note (after s.moment))) (h : P work work') :
    P (Environment.noted before after work) (Environment.noted before after work') := by
  refine hP.bind (hP.update hbefore) fun _ => hP.bind h fun a => ?_
  exact hP.update_pure hafter a

theorem call (level : Nat) (callback : Callback) {work work' : Run σ α} (h : P work work') :
    P (Environment.call level callback work) (Environment.call level callback work') :=
  hP.noted (.entered level callback) (.left level callback) h

/-- The induction is on the program. -/
theorem program {answer answer' : (op : Operation) → Run σ op.Answer}
    (hanswer : ∀ op, allowed op → P (answer op) (answer' op)) {p : Program σ α}
    (hp : p.AsksOnly allowed) : P (p.run answer) (p.run answer') := by
  induction p with
  | done result => exact hP.pure result
  | «recall» next ih => exact hP.recall fun memory => ih memory (hp memory)
  | remember memory next ih => exact hP.remember memory (ih hp)
  | ask op next ih => exact hP.bind (hanswer op hp.1) fun a => ih a (hp.2 a)

end

section

variable (hP : Congruence allowed seen P) (hc : callbacks.Correspond P callbacks')

include hP hc

/-! ## Faults -/

theorem runHandler_congruent (msg : Message) (cause : Fault) :
    P (runHandler callbacks msg cause) (runHandler callbacks' msg cause) := by
  unfold runHandler
  dsimp only
  cases msg.handlers.pop? with
  | none => exact hP.update_update_pure (.countFault _) (.notify _) _
  | some top =>
    refine hP.bind (hc.compensate _ _ _) ?_
    rintro ⟨back, outcome⟩
    dsimp only
    cases outcome.caught with
    | ok _ => exact hP.update_pure (.countFault _) _
    | error e => exact hP.update_update_pure (.countFault _) (.notify _) _

theorem routeFault_congruent (msg : Message) (cause : Fault) (action : ExpiryAction) :
    P (routeFault callbacks msg cause action) (routeFault callbacks' msg cause action) := by
  unfold routeFault
  split
  · exact hP.update_pure (.countFault _) _
  · exact hP.runHandler_congruent hc _ cause

theorem settleFault_congruent (call : Call) (cause : Fault)
    {route route' : Run σ (Message × Disposition)} (hroute : P route route') :
    P (settleFault callbacks call cause route) (settleFault callbacks' call cause route') := by
  unfold settleFault
  rw [hc.level]
  refine hP.bind (hP.update (.note _)) fun _ => hP.bind hroute fun _ => ?_
  exact hP.update_pure (.note _) _

/-! ## Dispatching -/

theorem abandon_congruent {place place' : Nat} {id : CallId}
    (hclaim : P (Run.apply (·.claim (.failedSend place) id))
      (Run.apply (·.claim (.failedSend place') id))) (cause : Fault) :
    P (abandon callbacks place id cause) (abandon callbacks' place' id cause) := by
  unfold abandon
  refine hP.bind hclaim fun result => ?_
  cases result with
  | none => exact hP.pure ()
  | some call =>
    refine hP.bind (hP.update .release) fun _ => hP.bind ?_ fun _ => hP.pure ()
    exact hP.settleFault_congruent hc call cause (hP.routeFault_congruent hc _ _ _)

theorem dispatch_congruent {msg : Message} {expiry : Expiry}
    (hop : allowed (.dispatch msg expiry)) :
    P (dispatch callbacks msg expiry) (dispatch callbacks' msg expiry) := by
  unfold dispatch
  refine hP.look fun s s' hs => ?_
  -- All that a dispatch looks at in passing: then both sides have the same call in hand.
  rw [hP.accepts hop hs, hP.clock hs, hP.defaultTimeout hs]
  split
  · exact hP.pure _
  · cases s.clock.read with
    | error p => exact hP.pure _
    | ok now =>
      refine hP.bind (hP.stroke (.enroll _)) fun result => ?_
      cases result with
      | error e => exact hP.pure _
      | ok receipt =>
        refine hP.look fun s s' hs => ?_
        -- Either side knows its own place, and the clean-up claims by that.
        refine hP.bind (hc.transmit _) fun outcome => ?_
        cases outcome.caught with
        | ok _ => exact hP.pure _
        | error e =>
          refine hP.bind (hP.update (.notify _)) fun _ => ?_
          exact hP.bind (hP.abandon_congruent hc (hP.cleanUp hs _) _) fun _ => hP.pure _

/-! ## Responses -/

/-- The induction is on the frames that may still be run. -/
theorem resumeWithin_congruent (rounds : Nat) (msg : Message) :
    P (resumeWithin callbacks rounds msg) (resumeWithin callbacks' rounds msg) := by
  induction rounds generalizing msg with
  | zero =>
    unfold resumeWithin
    cases msg.frames.pop? with
    | none => exact hP.pure _
    | some top => exact hP.pure _
  | succ rounds ih =>
    unfold resumeWithin
    cases msg.frames.pop? with
    | none => exact hP.pure _
    | some top =>
      refine hP.bind (hc.continueFlow _ _) ?_
      rintro ⟨back, outcome⟩
      cases outcome with
      | returned verdict =>
        cases verdict with
        | proceed => exact ih back
        | halt => exact hP.pure _
      | failed e => exact hP.pure _
      | panicked p => exact hP.pure _

theorem resume_congruent (msg : Message) : P (resume callbacks msg) (resume callbacks' msg) := by
  unfold resume
  rw [hc.rounds]
  exact hP.resumeWithin_congruent hc _ msg

theorem mediate_congruent (msg : Message) :
    P (mediate callbacks msg) (mediate callbacks' msg) := by
  unfold mediate
  split
  · exact hP.bind (hc.startFlow msg) fun _ => hP.pure _
  · exact hP.bind (hP.resume_congruent hc msg) fun _ => hP.pure _

theorem deliver_congruent (call : Call) (response : Response) :
    P (deliver callbacks call response) (deliver callbacks' call response) := by
  unfold deliver
  cases response.kind with
  | acknowledged => exact hP.pure _
  | sendFailed cause =>
    refine hP.bind (hP.update (.notify _)) fun _ => hP.bind ?_ fun _ => hP.pure _
    exact hP.settleFault_congruent hc call cause (hP.routeFault_congruent hc _ _ _)
  | reply envelope =>
    refine hP.bind (hP.stroke .freshMessageId) fun id => ?_
    refine hP.bind (hP.mediate_congruent hc _) ?_
    rintro ⟨back, result⟩
    cases result with
    | ok outcome => exact hP.pure _
    | error e =>
      refine hP.bind (hP.update (.notify _)) fun _ => hP.bind ?_ fun _ => hP.pure _
      exact hP.settleFault_congruent hc call _ (hP.runHandler_congruent hc _ _)

theorem respond_congruent (id : CallId) (response : Response) :
    P (respond callbacks id response) (respond callbacks' id response) := by
  unfold respond
  refine hP.bind (hP.stroke (.collect id)) fun result => ?_
  cases result with
  | none => exact hP.update_update_pure (.notify _) (.countResponse _) _
  | some call =>
    refine hP.bind (hP.update .release) fun _ => ?_
    refine hP.bind (hP.deliver_congruent hc call response) fun outcome => ?_
    exact hP.update_pure (.countResponse outcome) _

theorem answerRequest_congruent (msg : Message) :
    P (answerRequest callbacks msg) (answerRequest callbacks' msg) := by
  have written : P (writeAnswer callbacks msg) (writeAnswer callbacks' msg) := by
    refine hP.bind (hc.writeBack msg) fun outcome => ?_
    cases outcome <;> exact hP.pure _
  unfold answerRequest
  cases msg.guard with
  | none => exact written
  | some guard =>
    refine hP.bind (hP.stroke (.markGuard guard)) fun before => ?_
    split
    · exact hP.update_pure (.refuseAnswer guard msg) _
    · exact written

/-! ## Sweeps -/

theorem settleExpired_congruent
    (hexpire : P (Run.update State.expireCall) (Run.update State.expireCall))
    (report : SweepSummary) (call : Call) :
    P (settleExpired callbacks report call) (settleExpired callbacks' report call) := by
  have hfault (action : ExpiryAction) :
      P (do
          Run.update (·.notify (.timedOut call.id action call.deadline))
          let cause := Fault.timeout call.deadline
          return report.count (← settleFault callbacks call cause
            (routeFault callbacks call.timedOut cause action)) : Run σ SweepSummary)
        (do
          Run.update (·.notify (.timedOut call.id action call.deadline))
          let cause := Fault.timeout call.deadline
          return report.count (← settleFault callbacks' call cause
            (routeFault callbacks' call.timedOut cause action))) := by
    refine hP.bind (hP.update (.notify _)) fun _ => hP.bind ?_ fun _ => hP.pure _
    exact hP.settleFault_congruent hc call _ (hP.routeFault_congruent hc _ _ _)
  unfold settleExpired
  refine hP.bind hexpire fun _ => ?_
  cases call.expiry.action with
  | drop => exact hP.pure _
  | discard => exact hfault .discard
  | fault => exact hfault .fault

theorem sweepOne_congruent {now : Millis} {place place' : Nat}
    (hexpire : P (Run.update State.expireCall) (Run.update State.expireCall))
    (hclaim : ∀ id, P (Run.apply (·.claimExpired now place id))
      (Run.apply (·.claimExpired now place' id))) (report : SweepSummary) (id : CallId) :
    P (sweepOne callbacks now place report id) (sweepOne callbacks' now place' report id) := by
  unfold sweepOne
  refine hP.bind (hclaim id) fun result => ?_
  cases result with
  | none => exact hP.pure _
  | some call => exact hP.settleExpired_congruent hc hexpire _ call

omit hc in
/-- Whatever is done as of the time on the clock. -/
theorem clocked {work work' : Millis → Run σ α} (h : ∀ now, P (work now) (work' now)) :
    P (do
        match (← Run.read).clock.read with
        | .error p => return .error p
        | .ok now => return .ok (← work now) : Run σ (Except Panic α))
      (do
        match (← Run.read).clock.read with
        | .error p => return .error p
        | .ok now => return .ok (← work' now)) := by
  refine hP.look fun s s' hs => ?_
  rw [hP.clock hs]
  cases s.clock.read with
  | error p => exact hP.pure _
  | ok now => exact hP.bind (h now) fun _ => hP.pure _

/-! ## Everything that can be asked for -/

theorem perform_of_not_sweep {op : Operation} (hop : allowed op) (hsweep : ¬ op.IsSweep) :
    P (perform callbacks op) (perform callbacks' op) := by
  by_cases hcalls : op.CallsOut
  · cases op with
    | dispatch msg expiry => exact hP.dispatch_congruent hc hop
    | respond id response => exact hP.respond_congruent hc id response
    | answerRequest msg => exact hP.answerRequest_congruent hc msg
    | sweep | sweepAsOf => exact absurd trivial hsweep
    | resume msg => exact hP.resume_congruent hc msg
    | runHandler msg cause => exact hP.runHandler_congruent hc msg cause
    | routeFault msg cause action => exact hP.routeFault_congruent hc msg cause action
    | _ => exact hcalls.elim
  · rw [perform_of_not_callsOut hcalls callbacks' callbacks]
    exact hP.inside hop hcalls callbacks

variable (hsweeps : P.KeepsSweeps)

include hsweeps

theorem sweep_congruent : P (sweep callbacks) (sweep callbacks') := hP.clocked (hsweeps hc)

theorem perform_congruent {op : Operation} (hop : allowed op) :
    P (perform callbacks op) (perform callbacks' op) := by
  cases op with
  | sweep => exact hP.sweep_congruent hc hsweeps
  | sweepAsOf now => exact hsweeps hc now
  | _ => exact hP.perform_of_not_sweep hc hop id

theorem serve_congruent {op : Operation} (hop : allowed op) :
    P (Environment.serve callbacks op) (Environment.serve callbacks' op) := by
  unfold Environment.serve
  rw [hc.level]
  exact hP.noted (.asked _) (.answered _) (hP.perform_congruent hc hsweeps hop)

theorem sweeperItem_congruent (item : Item Chore) :
    P (sweeperItem callbacks item) (sweeperItem callbacks' item) := by
  have hsweep : P (do return (← sweep callbacks).isOk) (do return (← sweep callbacks').isOk) :=
    hP.bind (hP.sweep_congruent hc hsweeps) fun _ => hP.pure _
  have hpurge : P (do return (← purgeBindingsNow).isOk) (do return (← purgeBindingsNow).isOk) :=
    hP.bind (hP.clocked fun now => hP.stroke (.purgeBindings now)) fun _ => hP.pure _
  cases item with
  | tick => exact hsweep
  | task t =>
    cases t with
    | sweep => exact hsweep
    | purgeBindings => exact hpurge

end

end Run.Congruence

/-! ## Collaborators -/

/-- The callbacks at a level, if what the collaborators ask for is done by `answer`. -/
def Environment.callbacksWith (env : Environment σ) (level : Nat)
    (answer : (op : Operation) → Run σ op.Answer) : Callbacks σ where
  level
  rounds := env.rounds
  arrangement := env.arrangement
  transmit wire := call level (.transmit wire) ((env.collaborators.transmit wire).run answer)
  writeBack reply := call level (.writeBack reply) ((env.collaborators.writeBack reply).run answer)
  startFlow msg := call level (.startFlow msg) ((env.collaborators.startFlow msg).run answer)
  continueFlow frame msg :=
    call level (.continueFlow frame msg) ((env.collaborators.continueFlow frame msg).run answer)
  compensate handler cause msg :=
    call level (.compensate handler cause msg)
      ((env.collaborators.compensate handler cause msg).run answer)

theorem Environment.callbacks_succ (env : Environment σ) (level : Nat) :
    env.callbacks (level + 1) = env.callbacksWith (level + 1) (serve (env.callbacks level)) := rfl

namespace Run.Congruence

variable {allowed : Operation → Prop} {seen : State → State → Prop} {P : Pairing σ}
  {env : Environment σ} (hP : Congruence allowed seen P)

include hP

theorem callbacksWith_correspond {answer answer' : (op : Operation) → Run σ op.Answer}
    (hcol : env.collaborators.AskOnly allowed)
    (hanswer : ∀ op, allowed op → P (answer op) (answer' op)) (level : Nat) :
    (env.callbacksWith level answer).Correspond P (env.callbacksWith level answer') where
  level := rfl
  rounds := rfl
  arrangement := rfl
  transmit wire := hP.call _ _ (hP.program hanswer (hcol.transmit wire))
  writeBack reply := hP.call _ _ (hP.program hanswer (hcol.writeBack reply))
  startFlow msg := hP.call _ _ (hP.program hanswer (hcol.startFlow msg))
  continueFlow frame msg := hP.call _ _ (hP.program hanswer (hcol.continueFlow frame msg))
  compensate handler cause msg :=
    hP.call _ _ (hP.program hanswer (hcol.compensate handler cause msg))

/-- At the lowest level every callback panics, on either side, so this is where the induction on
the levels begins. -/
theorem exhausted_correspond : (env.callbacks 0).Correspond P (env.callbacks 0) where
  level := rfl
  rounds := rfl
  arrangement := rfl
  transmit _ := hP.call _ _ (hP.pure _)
  writeBack _ := hP.call _ _ (hP.pure _)
  startFlow _ := hP.call _ _ (hP.pure _)
  continueFlow _ _ := hP.call _ _ (hP.pure _)
  compensate _ _ _ := hP.call _ _ (hP.pure _)

variable (hsweeps : P.KeepsSweeps) (hcol : env.collaborators.AskOnly allowed)

include hsweeps hcol

/-- The induction is on the level of nesting: the collaborators of a level are answered by the
callbacks of the one below. -/
theorem callbacks_correspond (level : Nat) :
    (env.callbacks level).Correspond P (env.callbacks level) := by
  induction level with
  | zero => exact hP.exhausted_correspond
  | succ level ih =>
    rw [Environment.callbacks_succ]
    exact hP.callbacksWith_correspond hcol (fun _ hop => hP.serve_congruent ih hsweeps hop) _

theorem run_congruent (depth : Nat) {p : Program σ α} (hp : p.AsksOnly allowed) :
    P (env.run depth p) (env.run depth p) :=
  hP.program
    (fun _ hop => hP.serve_congruent (hP.callbacks_correspond hsweeps hcol depth) hsweeps hop) hp

end Run.Congruence

end Correlator
