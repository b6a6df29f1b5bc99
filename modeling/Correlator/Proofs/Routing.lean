import Correlator.Engine.Program
import Correlator.Proofs.Called
import Correlator.Proofs.Dealings
import Correlator.Proofs.Endings
import Correlator.Proofs.Reach

/-!
# Which handler a fault consults

The rules for the failure of a call meet in many ways: a discarded timeout, a handler that is passed
over, a stack on which nothing is left, a handler that fails. Passing over one handler too many, or
running the wrong one of two siblings, would show in no result. So it is said of each fault which
calls it makes, for any collaborators: at most one, to the handler on top of those that the fault
consults (`Message.consulted`), and with which message.

## Main definitions

* `Message.consulted` : the handlers that the failure of a call consults.
* `Message.Consults` : how a fault goes that consults given handlers.
* `Message.Routes` : how the failure of a call is routed.

## Main results

* `runHandler_consults` : a fault consults the handlers of its message.
* `routeFault_precedence` : the failure of a call is routed in that way.
-/

namespace Correlator

variable {σ : Type}

/-- The handlers that the failure of a call consults, the next one first. The handler on top is
passed over if it belongs to a member of a group, and this member has last accepted the message.
This is written down from the rule and not from the engine, which takes handlers off a stack; that
the engine comes to the same is `Message.skipMember_items`. -/
def Message.consulted (msg : Message) : List Handler :=
  match msg.handlers.items with
  | .endpoint name topology :: below =>
    if (topology = .failover ∨ topology = .loadBalance) ∧ msg.lastMember = some name then below
    else .endpoint name topology :: below
  | handlers => handlers

/-- A fault of the message, with these handlers to consult, makes these calls; it leaves the
message so and has this outcome. The handler sees the cause on the message and the handlers below
itself, and what it hands back is what is left, handlers included. -/
inductive Message.Consults (msg : Message) (cause : Fault) :
    List Handler → List Called → Message → Disposition → Prop
  | undeliverable :
      Consults msg cause [] [] { msg with fault := some cause, handlers := .empty } .undeliverable
  | handled (handler : Handler) (below : List Handler) (back : Message) :
      Consults msg cause (handler :: below)
        [.compensate handler cause { msg with fault := some cause, handlers := ⟨below⟩ } back
          (.returned ())]
        back (.handled handler)
  | handlerFailed (handler : Handler) (below : List Handler) (back : Message)
      {outcome : Outcome Unit} {e : ErrorChain} (h : outcome.caught = .error e) :
      Consults msg cause (handler :: below)
        [.compensate handler cause { msg with fault := some cause, handlers := ⟨below⟩ } back
          outcome]
        back (.handlerFailed handler e.message)

/-- The failure of a call is routed by these calls. It leaves the message so, with this outcome. -/
structure Message.Routes (msg : Message) (cause : Fault) (action : ExpiryAction)
    (calls : List Called) (back : Message) (outcome : Disposition) : Prop where
  once : calls.length ≤ 1
  /-- A timeout under the discard action runs nothing and leaves no handler. -/
  discards : cause.isTimeout → action = .discard →
    calls = [] ∧ back.handlers = .empty ∧ outcome = .discarded
  /-- Any other failure consults the handlers, of which one at most is passed over. -/
  consults : ¬ (cause.isTimeout ∧ action = .discard) →
    msg.Consults cause msg.consulted calls back outcome
  passes : msg.handlers.items = msg.consulted ∨
    ∃ passed, msg.handlers.items = passed :: msg.consulted
  /-- If no handler runs, only the cause and the handlers are changed. -/
  spares : calls = [] → back = { msg with fault := some cause, handlers := back.handlers }

/-! ## The handlers that are consulted -/

namespace Message

variable {msg back : Message} {cause : Fault} {handlers : List Handler} {calls : List Called}
  {outcome : Disposition}

theorem skipMember_items (msg : Message) :
    (msg.handlers.skipMember msg.lastMember).items = msg.consulted := by
  unfold Handlers.skipMember consulted Stack.pop?
  cases hitems : msg.handlers.items with
  | nil => exact hitems
  | cons handler below =>
    cases handler with
    | sequence name => exact hitems
    | endpoint name topology =>
      -- Whether the handler is passed over depends on the topology and on the two names.
      cases hmember : msg.lastMember with
      | none => simpa [Handler.isMember] using hitems
      | some member =>
        by_cases hname : name = member
        · subst hname
          cases topology <;> simp [Handler.isMember, Topology.isGroup, hitems]
        · have hother : ¬ member = name := fun h => hname h.symm
          simpa [Handler.isMember, hname, hother] using hitems

/-- One handler is passed over at most. -/
theorem consulted_passes (msg : Message) :
    msg.handlers.items = msg.consulted ∨
      ∃ passed, msg.handlers.items = passed :: msg.consulted := by
  unfold consulted
  split
  · rename_i name topology below hitems
    split
    · right
      exact ⟨.endpoint name topology, hitems⟩
    · left
      exact hitems
  · left
    rfl

namespace Consults

theorem length_le (h : msg.Consults cause handlers calls back outcome) : calls.length ≤ 1 := by
  cases h <;> simp

/-- Nothing runs exactly if there is nothing to run. -/
theorem calls_eq_nil_iff (h : msg.Consults cause handlers calls back outcome) :
    calls = [] ↔ handlers = [] := by
  cases h <;> simp

theorem undeliverable_iff (h : msg.Consults cause handlers calls back outcome) :
    outcome = .undeliverable ↔ handlers = [] := by
  cases h <;> simp

/-- The handlers on the message do not matter, only those that are consulted: a handler is given
the rest of these, whatever the message carried before. -/
theorem of_handlers {carried : Handlers}
    (h : Consults { msg with handlers := carried } cause handlers calls back outcome) :
    msg.Consults cause handlers calls back outcome := by
  cases h with
  | undeliverable => exact .undeliverable
  | handled handler below back => exact .handled handler below back
  | handlerFailed handler below back h => exact .handlerFailed handler below back h

theorem spares (h : msg.Consults cause handlers calls back outcome) (hcalls : calls = []) :
    back = { msg with fault := some cause, handlers := back.handlers } := by
  cases h with
  | undeliverable => rfl
  | handled => simp at hcalls
  | handlerFailed => simp at hcalls

/-- Neither the cause nor the handlers on a message matter to its flow. -/
theorem flows (h : msg.Consults cause handlers calls back outcome) : msg.Flows calls back := by
  cases h with
  | undeliverable => exact .none ⟨rfl, rfl⟩
  | handled => exact .call ⟨rfl, rfl⟩ (.none (.refl _))
  | handlerFailed => exact .call ⟨rfl, rfl⟩ (.none (.refl _))

end Consults

theorem Routes.flows {action : ExpiryAction} (h : msg.Routes cause action calls back outcome) :
    msg.Flows calls back := by
  by_cases hdiscard : cause.isTimeout ∧ action = .discard
  · obtain ⟨hnone, -⟩ := h.discards hdiscard.1 hdiscard.2
    rw [h.spares hnone, hnone]
    exact .none ⟨rfl, rfl⟩
  · exact (h.consults hdiscard).flows

end Message

/-! ## Routing -/

variable {callbacks : Callbacks σ} {rel : Host σ → Host σ → Prop} {host later : Host σ}
  {msg back : Message} {cause : Fault} {outcome : Disposition}

/-- Running a handler makes one call, unless there is no handler. -/
theorem runHandler_consults
    (h : (runHandler callbacks msg cause host).CanEnd rel (back, outcome) later) :
    ∃ calls, callbacks.Makes rel host calls later ∧
      msg.Consults cause msg.handlers.items calls back outcome := by
  cases runHandlerEnds_of_canEnd h with
  | undeliverable hnone =>
    have hleft : { msg with fault := some cause } =
        { msg with fault := some cause, handlers := .empty } := by
      rw [Stack.empty, ← hnone]
    refine ⟨[], .none .mk, ?_⟩
    rw [hnone, hleft]
    exact .undeliverable
  | @handled handler below back result ended hitems hcall hcaught =>
    obtain rfl : result = .returned () := by
      cases result with
      | returned => rfl
      | failed | panicked => cases hcaught
    rw [hitems]
    exact ⟨_, .single (c := .compensate handler cause _ back _) hcall .mk,
      .handled handler below back⟩
  | @handlerFailed handler below back result e ended hitems hcall hcaught =>
    rw [hitems]
    exact ⟨_, .single (c := .compensate handler cause _ back _) hcall .mk,
      .handlerFailed handler below back hcaught⟩

/-- A failure that is not discarded consults a handler. -/
theorem routeFault_consults {action : ExpiryAction}
    (hkept : ¬ (cause.isTimeout ∧ action = .discard))
    (h : (routeFault callbacks msg cause action host).CanEnd rel (back, outcome) later) :
    ∃ calls, callbacks.Makes rel host calls later ∧
      msg.Consults cause msg.consulted calls back outcome := by
  rw [routeFault_of_not_discard hkept] at h
  obtain ⟨calls, hmakes, hconsults⟩ := runHandler_consults h
  refine ⟨calls, hmakes, ?_⟩
  rw [← msg.skipMember_items]
  exact hconsults.of_handlers

theorem routeFault_routes {action : ExpiryAction}
    (h : (routeFault callbacks msg cause action host).CanEnd rel (back, outcome) later) :
    ∃ calls, callbacks.Makes rel host calls later ∧
      msg.Routes cause action calls back outcome := by
  by_cases hdiscard : cause.isTimeout ∧ action = .discard
  · rw [routeFault_of_discard hdiscard] at h
    obtain ⟨heq, rfl⟩ := h
    cases heq
    refine ⟨[], .none .mk, ?_⟩
    constructor
    case once => exact Nat.zero_le 1
    case discards => exact fun _ _ => ⟨rfl, rfl, rfl⟩
    case consults => exact fun hkept => absurd hdiscard hkept
    case passes => exact msg.consulted_passes
    case spares => exact fun _ => rfl
  · obtain ⟨calls, hmakes, hconsults⟩ := routeFault_consults hdiscard h
    refine ⟨calls, hmakes, ?_⟩
    constructor
    case once => exact hconsults.length_le
    case discards => exact fun htimeout haction => absurd ⟨htimeout, haction⟩ hdiscard
    case consults => exact fun _ => hconsults
    case passes => exact msg.consulted_passes
    case spares => exact hconsults.spares

/-- Of the handlers of a failed call one runs at most, and it is the right one, whatever the
collaborators do. Discarding comes first, then the handler that is passed over, and then the one
that runs, so a call is undeliverable just if those two leave nothing. -/
theorem routeFault_precedence (callbacks : Callbacks σ) (rel : Host σ → Host σ → Prop)
    (msg : Message) (cause : Fault) (action : ExpiryAction) (host : Host σ) :
    (routeFault callbacks msg cause action host).Achieves rel fun result later =>
      ∃ calls, callbacks.Makes rel host calls later ∧
        msg.Routes cause action calls result.1 result.2 :=
  Progress.achieves fun _ _ h => routeFault_routes h

/-! ## Two members of one name -/

/-- What a handler of the name does: the hook of an endpoint pushes a clean-up and fails, a clean-up
panics, and anything else succeeds. -/
def Handler.patch (msg : Message) : Handler → Message × Outcome Unit
  | .endpoint .. =>
    ({ msg with handlers := msg.handlers.push (.sequence "cleanUp") }, .failed { root := "down" })
  | .sequence name =>
    (msg, if name = "cleanUp" then .panicked (.text "boom") else .returned ())

/-- The handlers that have run are remembered, the latest first. -/
def Environment.patching : Environment (List Handler) where
  collaborators :=
    { Collaborators.idle with
      compensate := fun handler _ msg =>
        .recall fun ran => .remember (handler :: ran) (.done (handler.patch msg)) }
  rounds := 1

/-- A new engine, and no handler has run. -/
def Host.unpatched : Host (List Handler) where
  state := .init {} {}
  memory := []

/-- The last attempt went to the member "a", and the group below it has the same name. -/
def Message.regrouped : Message :=
  { Message.plain "m" with
    handlers := ⟨[.endpoint "a" .loadBalance, .endpoint "a" .failover, .sequence "onFault"]⟩
    lastMember := some "a" }

/-- Only the upper one of two handlers with the name of the member is passed over. -/
theorem routeFault_precedence_regrouped :
    ∃ calls back later,
      (Environment.patching.callbacks 1).Makes Eq Host.unpatched calls later ∧
        Message.regrouped.Routes (.timeout 7) .fault calls back
          (.handlerFailed (.endpoint "a" .failover) "down") ∧
        back.handlers.items = [.sequence "cleanUp", .sequence "onFault"] ∧
        later.memory = [.endpoint "a" .failover] := by
  have hend : ∃ back later,
      (routeFault (Environment.patching.callbacks 1) .regrouped (.timeout 7) .fault
        Host.unpatched).CanEnd Eq (back, .handlerFailed (.endpoint "a" .failover) "down") later ∧
      back.handlers.items = [.sequence "cleanUp", .sequence "onFault"] ∧
      later.memory = [.endpoint "a" .failover] := ⟨_, _, ⟨rfl, rfl⟩, rfl, rfl⟩
  obtain ⟨back, later, hroute, hback, hlater⟩ := hend
  obtain ⟨calls, hmakes, hroutes⟩ := (routeFault_precedence _ _ _ _ _ _).holds _ _ hroute
  exact ⟨calls, back, later, hmakes, hroutes, hback, hlater⟩

end Correlator
