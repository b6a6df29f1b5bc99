import Correlator.Proofs.Operations

/-!
# How operations can end

To say what an operation comes to one has to go through its code: through each of its branches, and
through its calls to collaborators, which may end in any way while the others go on.  That is done
here once for each of the operations that more than one property is about.  What is said of such an
operation is then said end by end, and does not mention the code.

Nothing is assumed about the collaborators, nor about `rel`, along which the others go on.

## Main definitions

* `RunHandlerEnds` : the ends of a fault that runs a handler.
* `DispatchEnds` : the ends of a dispatch.
* `SweepOneEnds` : the ends of what a sweep does with one id.

## Main results

* `runHandlerEnds_of_canEnd`, `dispatchEnds_of_canEnd`, `sweepOneEnds_of_canEnd` : there are no
  others.
* `sweepAll_keeps` : what a sweep keeps with each id it keeps with all of them.
-/

namespace Correlator

variable {σ : Type} {callbacks : Callbacks σ}

/-! ## Faults -/

/-- How a fault can end that runs the handler on top, if the others go on along `rel` while that
waits. The host that is left is told exactly, up to what the handler itself has done. -/
inductive RunHandlerEnds (callbacks : Callbacks σ) (rel : Host σ → Host σ → Prop) (msg : Message)
    (cause : Fault) (host : Host σ) : Message → Disposition → Host σ → Prop
  | undeliverable (hnone : msg.handlers.items = []) :
      RunHandlerEnds callbacks rel msg cause host { msg with fault := some cause } .undeliverable
        { host with
          state := (host.state.countFault .undeliverable).notify
            (.noHandler msg.id msg.traceId cause) }
  | handled {handler : Handler} {below : List Handler} {back : Message} {result : Outcome Unit}
      {ended : Host σ} (hitems : msg.handlers.items = handler :: below)
      (hcall : (callbacks.compensate handler cause
        { msg with fault := some cause, handlers := ⟨below⟩ } host).CanEnd rel (back, result) ended)
      (hcaught : result.caught = .ok ()) :
      RunHandlerEnds callbacks rel msg cause host back (.handled handler)
        { ended with state := ended.state.countFault (.handled handler) }
  | handlerFailed {handler : Handler} {below : List Handler} {back : Message}
      {result : Outcome Unit} {e : ErrorChain} {ended : Host σ}
      (hitems : msg.handlers.items = handler :: below)
      (hcall : (callbacks.compensate handler cause
        { msg with fault := some cause, handlers := ⟨below⟩ } host).CanEnd rel (back, result) ended)
      (hcaught : result.caught = .error e) :
      RunHandlerEnds callbacks rel msg cause host back (.handlerFailed handler e.message)
        { ended with
          state := (ended.state.countFault (.handlerFailed handler e.message)).notify
            (.handlerFailed back.id handler e) }

/-- Whatever such a fault ends with, it has ended in one of these ways. -/
theorem runHandlerEnds_of_canEnd {rel : Host σ → Host σ → Prop} {msg back : Message}
    {cause : Fault} {outcome : Disposition} {host later : Host σ}
    (h : (runHandler callbacks msg cause host).CanEnd rel (back, outcome) later) :
    RunHandlerEnds callbacks rel msg cause host back outcome later := by
  unfold runHandler at h
  dsimp only [Stack.pop?] at h
  cases hitems : msg.handlers.items with
  | nil =>
    rw [hitems] at h
    obtain ⟨heq, rfl⟩ := h
    cases heq
    exact .undeliverable hitems
  | cons handler below =>
    rw [hitems] at h
    -- The one place where somebody else gets a turn; what comes after it is the engine's again.
    obtain ⟨⟨left, result⟩, ended, hcall, hend⟩ := Progress.canEnd_bind.mp h
    dsimp only at hend
    cases hcaught : result.caught with
    | ok _ =>
      rw [hcaught] at hend
      obtain ⟨heq, rfl⟩ := hend
      cases heq
      exact .handled hitems hcall hcaught
    | error e =>
      rw [hcaught] at hend
      obtain ⟨heq, rfl⟩ := hend
      cases heq
      exact .handlerFailed hitems hcall hcaught

/-- To deal with a fault is to route it, with notes around it. -/
theorem canEnd_of_settleFault {rel : Host σ → Host σ → Prop} {call : Call} {cause : Fault}
    {route : Run σ (Message × Disposition)} {outcome : Disposition} {host later : Host σ}
    (h : (settleFault callbacks call cause route host).CanEnd rel outcome later) :
    ∃ back ended,
      (route { host with state := host.state.note (.routing callbacks.level call cause) }).CanEnd
        rel (back, outcome) ended ∧
      later = { ended with
        state := ended.state.note (.routed callbacks.level call cause back outcome) } := by
  unfold settleFault at h
  rw [Run.update_bind] at h
  obtain ⟨⟨back, routed⟩, ended, hroute, heq, rfl⟩ := Progress.canEnd_bind.mp h
  cases heq
  exact ⟨back, ended, hroute, rfl⟩

/-! ## Dispatches -/

/-- How a dispatch can end, if the others go on along `rel` while the transport waits. Of a failed
send nothing is kept but that it failed: what its clean-up does is told elsewhere. -/
inductive DispatchEnds (callbacks : Callbacks σ) (rel : Host σ → Host σ → Prop) (msg : Message)
    (expiry : Expiry) (host : Host σ) :
    Except Panic (Except EngineError Receipt) → Host σ → Prop
  /-- The engine takes no calls. -/
  | closed (hclosed : host.state.acceptsCalls = false) :
      DispatchEnds callbacks rel msg expiry host (.ok (.error .notRunning)) host
  /-- The clock cannot be read. -/
  | broken {p : Panic} (hclock : host.state.clock.read = .error p) :
      DispatchEnds callbacks rel msg expiry host (.error p) host
  /-- The call is not registered. -/
  | refused {now : Millis} {call : Call} {e : EngineError} {s : State}
      (hopen : host.state.acceptsCalls = true) (hclock : host.state.clock.read = .ok now)
      (hcall : msg.toCall expiry now (expiry.deadline now host.state.config.defaultTimeout) = call)
      (henroll : host.state.enroll call = (.error e, s)) :
      DispatchEnds callbacks rel msg expiry host (.ok (.error e)) { host with state := s }
  /-- The transport has taken the message. -/
  | sent {now : Millis} {call : Call} {receipt : Receipt} {s : State} {outcome : Outcome Unit}
      {later : Host σ}
      (hcall : msg.toCall expiry now (expiry.deadline now host.state.config.defaultTimeout) = call)
      (henroll : host.state.enroll call = (.ok receipt, s))
      (hsent : (callbacks.transmit call.outbound { host with state := s }).CanEnd rel outcome
        later) :
      DispatchEnds callbacks rel msg expiry host (.ok (.ok receipt)) later
  /-- It has not, and the failure has been dealt with. -/
  | failed {cause : Fault} {later : Host σ} :
      DispatchEnds callbacks rel msg expiry host (.ok (.error (.sendFailed cause))) later

/-- Whatever a dispatch ends with, it has ended in one of these ways. -/
theorem dispatchEnds_of_canEnd {rel : Host σ → Host σ → Prop} {msg : Message} {expiry : Expiry}
    {host later : Host σ} {result : Except Panic (Except EngineError Receipt)}
    (h : (dispatch callbacks msg expiry host).CanEnd rel result later) :
    DispatchEnds callbacks rel msg expiry host result later := by
  unfold dispatch at h
  rw [Run.read_bind] at h
  cases hopen : host.state.acceptsCalls with
  | false =>
    rw [if_pos (by simp [hopen])] at h
    obtain ⟨rfl, rfl⟩ := h
    exact .closed hopen
  | true =>
    rw [if_neg (by simp [hopen])] at h
    cases hclock : host.state.clock.read with
    | error p =>
      rw [hclock] at h
      obtain ⟨rfl, rfl⟩ := h
      exact .broken hclock
    | ok now =>
      rw [hclock] at h
      dsimp only at h
      rw [Run.apply_bind] at h
      generalize hcall : msg.toCall expiry now _ = call at h
      cases henroll : host.state.enroll call with
      | mk enrolled s =>
        rw [henroll] at h
        cases enrolled with
        | error e =>
          obtain ⟨rfl, rfl⟩ := h
          exact .refused hopen hclock hcall henroll
        | ok receipt =>
          dsimp only at h
          rw [Run.read_bind] at h
          -- Up to here nothing could wait, so all branches above end where they began or with one
          -- step.
          obtain ⟨outcome, sent, hsent, hend⟩ := Progress.canEnd_bind.mp h
          cases hcaught : outcome.caught with
          | ok _ =>
            rw [hcaught] at hend
            obtain ⟨rfl, rfl⟩ := hend
            exact .sent hcall henroll hsent
          | error e =>
            rw [hcaught] at hend
            dsimp only at hend
            rw [Run.update_bind] at hend
            obtain ⟨_, _, -, rfl, -⟩ := Progress.canEnd_bind.mp hend
            exact .failed

/-! ## Sweeps -/

/-- How a sweep can deal with an id that it has listed, if the others go on along `rel` while the
fault handler waits. The two actions that are not `drop` go the same way here, and only the router
tells them apart. -/
inductive SweepOneEnds (callbacks : Callbacks σ) (rel : Host σ → Host σ → Prop) (now : Millis)
    (place : Nat) (report : SweepSummary) (id : CallId) (host : Host σ) :
    SweepSummary → Host σ → Prop
  /-- The call has been claimed before. -/
  | overtaken (hclaim : host.state.claimExpired now place id = (none, host.state)) :
      SweepOneEnds callbacks rel now place report id host
        { report with overtaken := report.overtaken + 1 } host
  /-- The call has been claimed, and that is all. -/
  | dropped {call : Call} {s : State}
      (hclaim : host.state.claimExpired now place id = (some call, s))
      (haction : call.expiry.action = .drop) :
      SweepOneEnds callbacks rel now place report id host
        { report with expired := report.expired + 1, dropped := report.dropped + 1 }
        { host with state := s.expireCall }
  /-- The call has been claimed, and its fault dealt with. -/
  | settled {call : Call} {s : State} {outcome : Disposition} {later : Host σ}
      (hclaim : host.state.claimExpired now place id = (some call, s))
      (haction : call.expiry.action ≠ .drop)
      (hsettle : (settleFault callbacks call (.timeout call.deadline)
        (routeFault callbacks call.timedOut (.timeout call.deadline) call.expiry.action)
        { host with
          state := s.expireCall.notify
            (.timedOut call.id call.expiry.action call.deadline) }).CanEnd rel outcome later) :
      SweepOneEnds callbacks rel now place report id host
        ({ report with expired := report.expired + 1 }.count outcome) later

/-- Whatever an id comes to, it is one of these. -/
theorem sweepOneEnds_of_canEnd {rel : Host σ → Host σ → Prop} {now : Millis} {place : Nat}
    {report summary : SweepSummary} {id : CallId} {host later : Host σ}
    (h : (sweepOne callbacks now place report id host).CanEnd rel summary later) :
    SweepOneEnds callbacks rel now place report id host summary later := by
  unfold sweepOne at h
  rw [Run.apply_bind] at h
  cases hclaim : host.state.claimExpired now place id with
  | mk result s =>
    rw [hclaim] at h
    cases result with
    | none =>
      obtain rfl := State.claimExpired_eq_none hclaim
      obtain ⟨rfl, rfl⟩ := h
      exact .overtaken hclaim
    | some call =>
      dsimp only [settleExpired] at h
      rw [Run.update_bind] at h
      cases haction : call.expiry.action with
      | drop =>
        rw [haction] at h
        obtain ⟨rfl, rfl⟩ := h
        exact .dropped hclaim haction
      | discard | fault =>
        rw [haction] at h
        dsimp only at h
        rw [Run.update_bind, ← haction] at h
        obtain ⟨outcome, settled, hsettle, rfl, rfl⟩ := Progress.canEnd_bind.mp h
        exact .settled hclaim (by simp [haction]) hsettle

/-- What holds before each id and after it, whatever it comes to, holds after all of them.  The
induction is on the ids that are left. -/
theorem sweepAll_keeps {rel : Host σ → Host σ → Prop} {now : Millis} {place : Nat}
    {P : Nat → SweepSummary → Host σ → Prop}
    (hone : ∀ {n : Nat} {report summary : SweepSummary} {id : CallId} {host later : Host σ},
      P n report host → SweepOneEnds callbacks rel now place report id host summary later →
      P (n + 1) summary later)
    {n : Nat} {ids : List CallId} {report summary : SweepSummary} {host later : Host σ}
    (h : P n report host)
    (hend : (ids.foldlM (sweepOne callbacks now place) report host).CanEnd rel summary later) :
    P (n + ids.length) summary later := by
  induction ids generalizing n report host with
  | nil =>
    obtain ⟨rfl, rfl⟩ := hend
    exact h
  | cons id ids ih =>
    rw [List.foldlM_cons] at hend
    obtain ⟨next, swept, hswept, hrest⟩ := Progress.canEnd_bind.mp hend
    have hall := ih (hone h (sweepOneEnds_of_canEnd hswept)) hrest
    rwa [Nat.add_right_comm, Nat.add_assoc] at hall

end Correlator
