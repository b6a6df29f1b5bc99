import Correlator.Proofs.Move

/-!
# The calls that an operation makes

Neither the result of an operation nor the state that it leaves tells which collaborators it has
called on the way, let alone how often. `Callbacks.Makes` does tell: it takes an operation apart
into the calls that it makes, each with what was handed over and what came back, and the stretches
between them, in which the engine only writes its reports. Nothing is assumed about the
collaborators.

Which messages are handed over is another matter. A collaborator may hand back whatever it likes,
and the next one is then given a message that is made of this. So what can be said of a series of
calls is that each of them stays in the flow of what it goes on from (`Message.Flows`): the engine
itself never leaves the flow of a message, though a collaborator may.

## Main definitions

* `Called` : a call to a collaborator that has ended.
* `Host.Reports` : only what the engine reports and numbers differs.
* `Callbacks.Makes` : one host leads to another by these calls.
* `Message.Flows` : the messages of a series of calls are made of one another.
* `Progress.Achieves` : work ends, and something holds in the end.

## Main results

* `Callbacks.Makes.append`, `Message.Flows.append` : first some calls and then others.
-/

namespace Correlator

variable {σ α : Type}

/-! ## Calls -/

/-- A call to a collaborator, and how it ended. A collaborator that is given a message to work on
hands it back. -/
inductive Called where
  | transmit (wire : Message) (outcome : Outcome Unit)
  | writeBack (answer : Message) (outcome : Outcome Unit)
  | startFlow (msg back : Message) (outcome : Outcome Bool)
  | continueFlow (frame : Frame) (msg back : Message) (outcome : Outcome Verdict)
  | compensate (handler : Handler) (cause : Fault) (msg back : Message) (outcome : Outcome Unit)

namespace Called

/-- The message that the collaborator is given. -/
def given : Called → Message
  | .transmit wire _ => wire
  | .writeBack answer _ => answer
  | .startFlow msg _ _ => msg
  | .continueFlow _ msg _ _ => msg
  | .compensate _ _ msg _ _ => msg

/-- The message that the engine has in hand afterwards. The transport hands nothing back. -/
def left : Called → Message
  | .transmit wire _ => wire
  | .writeBack answer _ => answer
  | .startFlow _ back _ => back
  | .continueFlow _ _ back _ => back
  | .compensate _ _ _ back _ => back

end Called

/-- The call, begun at the first host, can end at the second. -/
def Callbacks.Ends (callbacks : Callbacks σ) (rel : Host σ → Host σ → Prop) (host : Host σ) :
    Called → Host σ → Prop
  | .transmit wire outcome, later => (callbacks.transmit wire host).CanEnd rel outcome later
  | .writeBack answer outcome, later => (callbacks.writeBack answer host).CanEnd rel outcome later
  | .startFlow msg back outcome, later =>
    (callbacks.startFlow msg host).CanEnd rel (back, outcome) later
  | .continueFlow frame msg back outcome, later =>
    (callbacks.continueFlow frame msg host).CanEnd rel (back, outcome) later
  | .compensate handler cause msg back outcome, later =>
    (callbacks.compensate handler cause msg host).CanEnd rel (back, outcome) later

/-- Only the metrics, the notices, the journal and the numbering differ. -/
inductive Host.Reports (host : Host σ) : Host σ → Prop
  | mk {metrics : Metrics} {notices : List Notice} {journal : Journal} {nextId : Nat} :
      Reports host
        { host with state := { host.state with metrics, notices, journal, nextId } }

/-- The first host leads to the second by these calls, the first one first. Between them the engine
only reports. The hosts before and after a call are not told: what a collaborator does to the
engine is its own affair. -/
inductive Callbacks.Makes (callbacks : Callbacks σ) (rel : Host σ → Host σ → Prop) :
    Host σ → List Called → Host σ → Prop
  | none {host later : Host σ} (h : host.Reports later) : Makes callbacks rel host [] later
  | call {host begun ended later : Host σ} {c : Called} {calls : List Called}
      (h : host.Reports begun) (hcall : callbacks.Ends rel begun c ended)
      (hrest : Makes callbacks rel ended calls later) :
      Makes callbacks rel host (c :: calls) later

namespace Host.Reports

variable {host mid later : Host σ}

theorem refl (host : Host σ) : host.Reports host := .mk

theorem trans (h : host.Reports mid) (h' : mid.Reports later) : host.Reports later := by
  cases h
  cases h'
  exact .mk

end Host.Reports

namespace Callbacks.Makes

variable {callbacks : Callbacks σ} {rel : Host σ → Host σ → Prop} {host mid later : Host σ}
  {calls calls' : List Called}

theorem of_earlier (h : host.Reports mid) (hcalls : callbacks.Makes rel mid calls later) :
    callbacks.Makes rel host calls later := by
  cases hcalls with
  | none hlater => exact .none (h.trans hlater)
  | call hbegun hcall hrest => exact .call (h.trans hbegun) hcall hrest

theorem append (h : callbacks.Makes rel host calls mid)
    (h' : callbacks.Makes rel mid calls' later) :
    callbacks.Makes rel host (calls ++ calls') later := by
  induction h with
  | none hmid => exact h'.of_earlier hmid
  | call hbegun hcall _ ih => exact .call hbegun hcall (ih h')

theorem to_later (h : callbacks.Makes rel host calls mid) (hlater : mid.Reports later) :
    callbacks.Makes rel host calls later := by
  have happend := h.append (.none hlater)
  rw [List.append_nil] at happend
  exact happend

/-- One call, and reports after it. -/
theorem single {c : Called} (hcall : callbacks.Ends rel host c mid) (h : mid.Reports later) :
    callbacks.Makes rel host [c] later :=
  .call (.refl host) hcall (.none h)

end Callbacks.Makes

/-! ## Flows -/

/-- The calls begin with a message of the flow of the first one, each of them goes on from what the
call before has handed back, and so does the message that is left. What an engine makes of a message
is of its flow, whatever the collaborators make of it. -/
inductive Message.Flows : Message → List Called → Message → Prop
  | none {msg left : Message} (h : left.SameFlow msg) : Flows msg [] left
  | call {msg left : Message} {c : Called} {calls : List Called} (h : c.given.SameFlow msg)
      (hrest : Flows c.left calls left) : Flows msg (c :: calls) left

namespace Message.Flows

variable {msg mid left : Message} {calls calls' : List Called}

theorem of_sameFlow {msg' : Message} (hsame : msg'.SameFlow msg) (h : msg'.Flows calls left) :
    msg.Flows calls left := by
  cases h with
  | none hleft => exact .none (hleft.trans hsame)
  | call hgiven hrest => exact .call (hgiven.trans hsame) hrest

theorem append (h : msg.Flows calls mid) (h' : mid.Flows calls' left) :
    msg.Flows (calls ++ calls') left := by
  induction h with
  | none hmid => exact h'.of_sameFlow hmid
  | call hgiven _ ih => exact .call hgiven (ih h')

end Message.Flows

/-! ## Ends -/

namespace Progress

variable {S : Type} {rel : S → S → Prop}

/-- The work ends if the others go on while it waits, and in the end `Q` holds of its result and of
the state. -/
structure Achieves (rel : S → S → Prop) (p : Progress S α) (Q : α → S → Prop) : Prop where
  ends : (∀ s, ∃ s', rel s s') → ∃ a s, p.CanEnd rel a s
  holds : ∀ a s, p.CanEnd rel a s → Q a s

/-- All work ends, if the others go on while it waits. By induction on the work: after each wait
some later state exists, and from there less is left to do. -/
theorem exists_canEnd (hrel : ∀ s, ∃ s', rel s s') (p : Progress S α) :
    ∃ a s, p.CanEnd rel a s := by
  induction p with
  | ended a s => exact ⟨a, s, rfl, rfl⟩
  | waiting wait s next ih =>
    obtain ⟨s', hs'⟩ := hrel s
    obtain ⟨a, t, hend⟩ := ih s'
    exact ⟨a, t, s', hs', hend⟩

theorem achieves {p : Progress S α} {Q : α → S → Prop} (h : ∀ a s, p.CanEnd rel a s → Q a s) :
    p.Achieves rel Q where
  ends hrel := exists_canEnd hrel p
  holds := h

end Progress

end Correlator
