import Correlator.Engine.Delivery
import Correlator.Engine.Dispatch
import Correlator.Engine.Lifecycle

/-!
# Collaborators as programs

A collaborator that is called may do as it likes: change the message at hand, ask the engine for
further work, and in the end return, fail or panic. What it does is a `Program`: it looks at its
own memory, asks for operations one after another, and goes on by their answers. So whatever holds
for all programs holds for all collaborators.

An operation that a program asks for may call collaborators again. `Environment.callbacks` bounds
how deep that goes; a callback beyond the bound panics. What holds for every bound holds however
deep the nesting goes. A program that waits leaves the engine to its workers (`Crew`).
-/

namespace Correlator

/-- Something that can be asked of an engine or of one of its parts. -/
inductive Operation where
  -- The engine.
  | dispatch (msg : Message) (expiry : Expiry)
  | respond (id : CallId) (response : Response)
  | answerRequest (msg : Message)
  | sweep
  | request (task : Chore)
  | bindNow (session endpoint : String)
  | endpointNow (session : String)
  | start
  | stop
  /-- Stops without waiting. -/
  | beginStop
  | status
  | config
  | elapse (duration : Nat)
  /-- Lets the others go on before time passes. -/
  | rest
  -- Messages.
  | compose (envelope : Envelope) (inbound : Bool)
  | issueGuard (requestId : String)
  | markGuard (guard : Guard)
  | guardSent (guard : Guard)
  | reply (msg : Message) (envelope : Envelope) (properties : Properties)
  | resume (msg : Message)
  | runHandler (msg : Message) (cause : Fault)
  | routeFault (msg : Message) (cause : Fault) (action : ExpiryAction)
  -- The registry.
  | register (call : Call)
  | collect (id : CallId)
  | claim (id : CallId)
  | contains (id : CallId)
  | overdue (now : Millis)
  -- Admission.
  | acquire
  | release
  | admission
  -- The session store.
  | bind (session endpoint : String) (expiresAt : Millis)
  | lookup (session : String) (now : Millis)
  | unbind (session : String)
  | purge (now : Millis)
  | sessionCount
  -- The sweeper.
  | sweepAsOf (now : Millis)
  | purgeBindingsNow
  -- The clock.
  | setClock (instant : Millis)
  | advanceClock (duration : Millis)
  | breakClock (broken : Bool)
  deriving Inhabited

/-- The kind of answer to an operation. Work that may read a broken clock answers with `Except
Panic`. -/
def Operation.Answer : Operation → Type
  | .dispatch .. => Except Panic (Except EngineError Receipt)
  | .respond .. => Delivery
  | .answerRequest _ => Except Panic (Except EngineError Unit)
  | .sweep => Except Panic SweepSummary
  | .request _ => Except WorkerError Unit
  | .bindNow .. => Except Panic Unit
  | .endpointNow _ => Except Panic (Option String)
  | .start | .stop | .elapse _ | .rest | .release | .bind .. | .breakClock _ => Unit
  | .beginStop | .status => EngineStatus
  | .config => Config × String
  | .compose .. | .reply .. => Message
  | .issueGuard _ => Guard
  | .markGuard _ | .guardSent _ | .contains _ | .acquire => Bool
  | .resume _ => Message × Outcome Bool
  | .runHandler .. | .routeFault .. => Message × Disposition
  | .register _ => Except EngineError Receipt
  | .collect _ | .claim _ => Option Call
  | .overdue _ => List CallId
  | .admission => String × Occupancy
  | .lookup .. | .unbind _ => Option String
  | .purge _ | .sessionCount => Nat
  | .sweepAsOf _ => SweepSummary
  | .purgeBindingsNow => Except Panic Nat
  | .setClock _ | .advanceClock _ => Millis

def perform {σ : Type} (callbacks : Callbacks σ) : (op : Operation) → Run σ op.Answer
  | .dispatch msg expiry => Correlator.dispatch callbacks msg expiry
  | .respond id response => Correlator.respond callbacks id response
  | .answerRequest msg => Correlator.answerRequest callbacks msg
  | .sweep => Correlator.sweep callbacks
  | .request task => Correlator.request task
  | .bindNow session endpoint => Correlator.bindNow session endpoint
  | .endpointNow session => Correlator.endpointNow session
  | .start => Run.update State.start
  | .stop => Correlator.stop
  | .beginStop => Correlator.stopAside
  | .status => Run.apply fun s => (s.status, s)
  | .config => Run.apply fun s => ((s.config, s.admission.key), s)
  | .elapse duration => Correlator.elapse duration
  | .rest => Correlator.rest
  | .compose envelope inbound => Run.apply (·.compose envelope inbound)
  | .issueGuard requestId => Run.apply fun s =>
    let (guard, guards) := s.guards.issue requestId
    (guard, { s with guards })
  | .markGuard guard => Run.apply (·.markGuard guard)
  | .guardSent guard => Run.apply fun s => (s.guards.isSent guard, s)
  | .reply msg envelope properties => Run.apply fun s =>
    let (id, s) := s.freshMessageId
    (msg.reply id envelope properties, s)
  | .resume msg => Correlator.resume callbacks msg
  | .runHandler msg cause => Correlator.runHandler callbacks msg cause
  | .routeFault msg cause action => Correlator.routeFault callbacks msg cause action
  | .register call => Run.apply (·.register call)
  | .collect id => Run.apply (·.collect .direct id)
  | .claim id => Run.apply (·.claim .direct id)
  | .contains id => Run.apply fun s => (s.registry.contains id, s)
  | .overdue now => Run.apply fun s => (s.registry.overdue now, s)
  | .acquire => Run.apply State.acquire
  | .release => Run.update State.release
  | .admission => Run.apply fun s => ((s.admission.key, s.admission.state), s)
  | .bind session endpoint expiresAt => Run.update fun s =>
    { s with sessions := s.sessions.bind session endpoint expiresAt }
  | .lookup session now => Run.apply fun s => (s.sessions.lookup session now, s)
  | .unbind session => Run.apply fun s =>
    let (endpoint, sessions) := s.sessions.unbind session
    (endpoint, { s with sessions })
  | .purge now => Run.apply (·.purgeBindings now)
  | .sessionCount => Run.apply fun s => (s.sessions.size, s)
  | .sweepAsOf now => Correlator.sweepAsOf callbacks now
  | .purgeBindingsNow => Correlator.purgeBindingsNow
  | .setClock instant => Run.apply fun s => (instant, { s with clock := s.clock.set instant })
  | .advanceClock duration => Run.apply fun s =>
    ((s.clock.advance duration).instant, { s with clock := s.clock.advance duration })
  | .breakClock broken => Run.update fun s => { s with clock := { s.clock with broken } }

/-! ## Programs -/

/-- What a collaborator does: it looks at its memory, changes it, asks for operations and goes on
by their answers, and in the end gives a result. It cannot reach the engine's state in any other
way. -/
inductive Program (σ α : Type) : Type where
  | done (result : α)
  | recall (next : σ → Program σ α)
  | remember (memory : σ) (next : Program σ α)
  | ask (op : Operation) (next : op.Answer → Program σ α)

namespace Program

variable {σ α β : Type}

/-- One program, and then another that goes on with its result. -/
def bind : Program σ α → (α → Program σ β) → Program σ β
  | .done result, f => f result
  | .recall next, f => .recall fun memory => (next memory).bind f
  | .remember memory next, f => .remember memory (next.bind f)
  | .ask op next, f => .ask op fun answer => (next answer).bind f

instance : Monad (Program σ) where
  pure := .done
  bind := bind

def perform (op : Operation) : Program σ op.Answer := .ask op .done

def modify (f : σ → α × σ) : Program σ α :=
  .recall fun memory => .remember (f memory).2 (.done (f memory).1)

/-- Runs a program, whose operations are done by `perform`. -/
def run (perform : (op : Operation) → Run σ op.Answer) : Program σ α → Run σ α
  | .done result => pure result
  | .recall next => fun host => (next host.memory).run perform host
  | .remember memory next => fun host => next.run perform { host with memory }
  | .ask op next => do (next (← perform op)).run perform

end Program

structure Collaborators (σ : Type) where
  transmit : Message → Program σ (Outcome Unit)
  writeBack : Message → Program σ (Outcome Unit)
  startFlow : Message → Program σ (Message × Outcome Bool)
  continueFlow : Frame → Message → Program σ (Message × Outcome Verdict)
  compensate : Handler → Fault → Message → Program σ (Message × Outcome Unit)

/-- Collaborators, with what is fixed about a run besides them. -/
structure Environment (σ : Type) where
  collaborators : Collaborators σ
  /-- The most frames that one resumption may run, and how much more the workers may do while a
  program waits than what is known beforehand. -/
  rounds : Nat
  arrangement : Arrangement := .asListed

namespace Environment

variable {σ : Type}

/-- Does work, with the moments before and after it in the journal. It is the only place where a
run says where an operation or a callback begins and ends. -/
def noted {α : Type} (before after : Moment → Entry) (work : Run σ α) : Run σ α := do
  Run.update fun s => s.note (before s.moment)
  let result ← work
  Run.update fun s => s.note (after s.moment)
  return result

def call {α : Type} (level : Nat) (c : Callback) (work : Run σ α) : Run σ α :=
  noted (.entered level c) (.left level c) work

/-- Does an operation that somebody asked for. -/
def serve (callbacks : Callbacks σ) (op : Operation) : Run σ op.Answer :=
  noted (.asked callbacks.level) (.answered callbacks.level) (perform callbacks op)

/-- The callbacks at a level of nesting, by recursion on the level. Operations that a collaborator
asks for find those of the level below; at the lowest level every callback panics. An induction on
the level shows of all of them what each operation hands on to the next. -/
def callbacks (env : Environment σ) : Nat → Callbacks σ
  | 0 =>
    { level := 0
      rounds := env.rounds
      arrangement := env.arrangement
      transmit := fun wire => call 0 (.transmit wire) (pure (.panicked .exhausted))
      writeBack := fun answer =>
        call 0 (.writeBack answer) (pure (.panicked .exhausted))
      startFlow := fun msg => call 0 (.startFlow msg) (pure (msg, .panicked .exhausted))
      continueFlow := fun frame msg =>
        call 0 (.continueFlow frame msg) (pure (msg, .panicked .exhausted))
      compensate := fun handler cause msg =>
        call 0 (.compensate handler cause msg) (pure (msg, .panicked .exhausted)) }
  | level + 1 =>
    -- The level below is made when an operation is asked for, not before.
    let inner (op : Operation) : Run σ op.Answer := fun host =>
      serve (env.callbacks level) op host
    { level := level + 1
      rounds := env.rounds
      arrangement := env.arrangement
      transmit := fun wire => call (level + 1) (.transmit wire)
        ((env.collaborators.transmit wire).run inner)
      writeBack := fun answer => call (level + 1) (.writeBack answer)
        ((env.collaborators.writeBack answer).run inner)
      startFlow := fun msg => call (level + 1) (.startFlow msg)
        ((env.collaborators.startFlow msg).run inner)
      continueFlow := fun frame msg => call (level + 1) (.continueFlow frame msg)
        ((env.collaborators.continueFlow frame msg).run inner)
      compensate := fun handler cause msg => call (level + 1) (.compensate handler cause msg)
        ((env.collaborators.compensate handler cause msg).run inner) }

/-- A program as work from outside the engine, with callbacks nesting at most `depth` levels. -/
def run {α : Type} (env : Environment σ) (depth : Nat) (p : Program σ α) : Run σ α :=
  p.run (serve (env.callbacks depth))

/-- Runs a program to its end, while the engine's workers go on whenever it waits. This is what a
caller outside the engine sees of a run. -/
def complete {α : Type} (env : Environment σ) (depth : Nat) (p : Program σ α)
    (site : Site (Host σ)) : α × Site (Host σ) :=
  (sweepers (env.callbacks depth)).perform env.rounds (env.run depth p) site

/-- Lets the engine's workers go on as far as they can before time passes. -/
def settle (env : Environment σ) (depth : Nat) (site : Site (Host σ)) : Site (Host σ) :=
  (sweepers (env.callbacks depth)).settle env.rounds site

end Environment

end Correlator
