import Correlator.Engine.Delivery
import Correlator.Proofs.Containment
import Correlator.Proofs.Endings
import Correlator.Proofs.Pending

/-!
# Suspended frames over many legs

A message that is sent while mediation is suspended takes its frames along: into the call, from
there into the reply, and if a unit halts on the way out, into the message that is sent next.  Each
of these is a leg.  Over all legs of a journey the frames are gone on with as if there had been only
one: from the innermost outwards, each once, up to the one after the last that ran.

Which units run is not part of what a response gives back, so the operations are followed by
versions of themselves that also tell the calls that they make (`resumeTraced` to `respondTraced`);
forgetting the calls gives the operations (`respond_eq_traced`).  Mediation may do what it likes
meanwhile, wait for others or call back into the engine, as long as it leaves the frames of its
message alone and decides one way or the other.

## Main definitions

* `Resumption` : how going on with a stack of frames goes.
* `Environment.Leg`, `Environment.Journey` : one leg, and all of them.

## Main results

* `resumeTraced_resumption` : the engine goes on with frames in that way.
* `Environment.legsGo` : legs come about, if the collaborators do not wait.
* `Environment.Journey.in_order` : the order holds over all legs.
-/

namespace Correlator

variable {σ α : Type}

/-! ## Tracing the calls to mediation -/

/-- What happened while a reply was mediated. -/
structure Mediation where
  /-- The frames that were gone on with, and what came of it. -/
  ran : List (Frame × Outcome Verdict) := []
  /-- The messages with which new flows were started. -/
  started : List Message := []
  /-- The message when no more frames were gone on with. -/
  left : Message

/-- How a reply was dealt with.  Only the reply to a call that waits is mediated. -/
structure Handling where
  delivery : Delivery
  mediation : Option Mediation := none

/-- `resumeWithin`, with the frames that it goes on with. -/
def resumeTraced (callbacks : Callbacks σ) :
    Nat → Message → Run σ ((Message × Outcome Bool) × List (Frame × Outcome Verdict))
  | rounds, msg => do
    match msg.frames.pop? with
    | none => return ((msg, .returned true), [])
    | some (frame, below) =>
      match rounds with
      | 0 => return ((msg, .panicked .exhausted), [])
      | rounds + 1 =>
        let (msg, outcome) ← callbacks.continueFlow frame { msg with frames := below }
        match outcome with
        | .returned .proceed =>
          let (result, ran) ← resumeTraced callbacks rounds msg
          return (result, (frame, .returned .proceed) :: ran)
        | .returned .halt => return ((msg, .returned false), [(frame, .returned .halt)])
        | .failed e => return ((msg, .failed e), [(frame, .failed e)])
        | .panicked p => return ((msg, .panicked p), [(frame, .panicked p)])

/-- `mediate`, with the calls that it makes. -/
def mediateTraced (callbacks : Callbacks σ) (msg : Message) :
    Run σ ((Message × Except ErrorChain Delivery) × Mediation) := do
  if msg.frames.isEmpty then
    let (back, outcome) ← callbacks.startFlow msg
    return ((back, outcome.caught.map .started), { started := [msg], left := msg })
  else
    let ((left, outcome), ran) ← resumeTraced callbacks callbacks.rounds msg
    return ((left, outcome.caught.map .resumed), { ran, left })

/-- `deliverReply`, with what happens meanwhile. -/
def deliverTraced (callbacks : Callbacks σ) (call : Call) (msg : Message) : Run σ Handling := do
  match ← mediateTraced callbacks msg with
  | ((_, .ok delivery), mediation) => return { delivery, mediation := some mediation }
  | ((msg, .error e), mediation) =>
    Run.update (·.notify (.mediationFailed msg.id e))
    let cause := Fault.mediation e
    let outcome ← settleFault callbacks call cause (runHandler callbacks msg cause)
    return { delivery := .mediationFailed outcome, mediation := some mediation }

/-- `respond` for a reply, with what happens meanwhile. -/
def respondTraced (callbacks : Callbacks σ) (id : CallId) (envelope : Envelope)
    (properties : Properties) : Run σ Handling := do
  match ← Run.apply (·.collect .response id) with
  | none =>
    Run.update fun s => (s.notify (.unmatchedResponse id)).countResponse .unmatched
    return { delivery := .unmatched }
  | some call =>
    Run.update State.release
    let fresh ← Run.apply State.freshMessageId
    let handling ← deliverTraced callbacks call (call.outbound.reply fresh envelope properties)
    Run.update (·.countResponse handling.delivery)
    return handling

section Traced

variable (callbacks : Callbacks σ)

theorem resumeWithin_eq_traced (rounds : Nat) (msg : Message) :
    resumeWithin callbacks rounds msg = Prod.fst <$> resumeTraced callbacks rounds msg := by
  induction rounds generalizing msg with
  | zero =>
    unfold resumeWithin resumeTraced
    cases msg.frames.pop? <;> rfl
  | succ rounds ih =>
    unfold resumeWithin resumeTraced
    cases msg.frames.pop? with
    | none => rfl
    | some top =>
      simp only [map_bind]
      refine bind_congr fun (back, outcome) => ?_
      cases outcome with
      | returned verdict =>
        cases verdict with
        | proceed => simp [ih]
        | halt => rfl
      | failed e => rfl
      | panicked p => rfl

theorem mediate_eq_traced (msg : Message) :
    mediate callbacks msg = Prod.fst <$> mediateTraced callbacks msg := by
  unfold mediate mediateTraced
  split
  · simp
  · simp [resume, resumeWithin_eq_traced]

theorem deliverReply_eq_traced (call : Call) (msg : Message) :
    deliverReply callbacks call msg = Handling.delivery <$> deliverTraced callbacks call msg := by
  unfold deliverReply deliverTraced
  simp only [mediate_eq_traced, bind_map_left, map_bind]
  refine bind_congr fun ((back, result), mediation) => ?_
  cases result with
  | ok delivery => rfl
  | error e => simp

/-- Forgetting the calls gives the operation. -/
theorem respond_eq_traced (id : CallId) (envelope : Envelope) (properties : Properties)
    (relatesTo : Option String) :
    respond callbacks id { relatesTo, kind := .reply envelope, properties } =
      Handling.delivery <$> respondTraced callbacks id envelope properties := by
  unfold respond respondTraced
  simp only [map_bind]
  refine bind_congr fun found => ?_
  cases found with
  | none => rfl
  | some call => simp [deliver, deliverReply_eq_traced]

end Traced

/-! ## Going on with frames -/

/-- How going on with frames goes, the innermost first: the frames that run, one after another
until a unit halts, and the frames that are left; `drained` tells whether the last unit decided to
go on. It is about the frames alone and knows neither rounds nor messages. -/
inductive Resumption : List Frame → List (Frame × Outcome Verdict) → List Frame → Bool → Prop
  | drained : Resumption [] [] [] true
  | halted (frame : Frame) (rest : List Frame) :
      Resumption (frame :: rest) [(frame, .returned .halt)] rest false
  | proceeded {frame : Frame} {frames left : List Frame} {ran : List (Frame × Outcome Verdict)}
      {drained : Bool} (h : Resumption frames ran left drained) :
      Resumption (frame :: frames) ((frame, .returned .proceed) :: ran) left drained

namespace Resumption

variable {frames left : List Frame} {ran : List (Frame × Outcome Verdict)} {drained : Bool}

/-- Each frame runs once, in order, or is left. -/
theorem ran_append_left (h : Resumption frames ran left drained) :
    ran.map (·.1) ++ left = frames := by
  induction h with
  | drained => rfl
  | halted => rfl
  | proceeded _ ih => rw [List.map_cons, List.cons_append, ih]

/-- If the last unit that ran went on, no frame is left. -/
theorem drained_iff (h : Resumption frames ran left drained) (hframes : frames ≠ []) :
    drained = true ↔ left = [] ∧ ran.getLast?.map (·.2) = some (.returned .proceed) := by
  induction h with
  | drained => exact absurd rfl hframes
  | halted => simp
  | @proceeded frame frames left ran drained h ih =>
    cases frames with
    | nil =>
      cases h
      simp
    | cons next frames =>
      have hran : ran ≠ [] := by cases h <;> simp
      rw [ih (List.cons_ne_nil _ _), List.getLast?_cons_of_ne_nil hran]

end Resumption

/-- Mediation leaves the frames of the message that it goes on with alone, and decides one way or
the other. A unit that failed would leave the frame that it was on consumed, and a unit that
suspends anew would add to them. -/
def Callbacks.Decide (callbacks : Callbacks σ) : Prop :=
  ∀ (frame : Frame) (msg : Message) (host later : Host σ) (result : Message × Outcome Verdict),
    (callbacks.continueFlow frame msg host).CanEnd Host.Holds result later →
    result.1.frames = msg.frames ∧ ∃ verdict, result.2 = .returned verdict

variable {callbacks : Callbacks σ} {host later : Host σ} {msg left : Message}

/-- The induction is on the frames; the bound is never met, since there are no more rounds than
frames. -/
theorem resumeTraced_resumption (hdecide : callbacks.Decide) {rounds : Nat} {outcome : Outcome Bool}
    {ran : List (Frame × Outcome Verdict)} (hrounds : msg.frames.size ≤ rounds)
    (h : (resumeTraced callbacks rounds msg host).CanEnd Host.Holds ((left, outcome), ran) later) :
    ∃ drained, outcome = .returned drained ∧
      Resumption msg.frames.items ran left.frames.items drained := by
  generalize hitems : msg.frames.items = frames
  induction frames generalizing rounds msg host ran with
  | nil =>
    unfold resumeTraced at h
    rw [Stack.pop?, hitems] at h
    obtain ⟨heq, -⟩ := h
    cases heq
    exact ⟨true, rfl, hitems ▸ .drained⟩
  | cons frame rest ih =>
    have hsize : msg.frames.size = rest.length + 1 := congrArg List.length hitems
    obtain ⟨rounds, rfl⟩ : ∃ n, rounds = n + 1 := ⟨rounds - 1, by omega⟩
    unfold resumeTraced at h
    rw [Stack.pop?, hitems] at h
    obtain ⟨⟨back, verdict⟩, mid, hcall, hrest⟩ := Progress.canEnd_bind.mp h
    -- The unit may have done anything to the engine, but its message has the frames below it.
    obtain ⟨hback, verdict, rfl⟩ := hdecide _ _ _ _ _ hcall
    change back.frames = ⟨rest⟩ at hback
    have hitems' : back.frames.items = rest := congrArg Stack.items hback
    cases verdict with
    | halt =>
      obtain ⟨heq, -⟩ := hrest
      cases heq
      exact ⟨false, rfl, hitems' ▸ .halted frame _⟩
    | proceed =>
      obtain ⟨⟨result, ran'⟩, mid', hgo, heq, rfl⟩ := Progress.canEnd_bind.mp hrest
      cases heq
      have hfewer : back.frames.size ≤ rounds := by
        rw [Stack.size, hitems']
        omega
      obtain ⟨drained, houtcome, hresumed⟩ := ih hfewer hgo hitems'
      exact ⟨drained, houtcome, .proceeded hresumed⟩

/-- How a reply with the frames is handled: a message with frames is resumed, one without begins a
new flow. -/
inductive Handling.Follows (frames : List Frame) : Handling → Prop
  | started {delivery : Delivery} {msg : Message} (hframes : frames = [])
      (hmsg : msg.frames.items = []) (hdelivery : ∀ drained, delivery ≠ .resumed drained) :
      Follows frames ⟨delivery, some { started := [msg], left := msg }⟩
  | resumed {ran : List (Frame × Outcome Verdict)} {left : Message} {drained : Bool}
      (hframes : frames ≠ []) (h : Resumption frames ran left.frames.items drained) :
      Follows frames ⟨.resumed drained, some { ran, left }⟩

theorem deliverTraced_follows (hdecide : callbacks.Decide) {call : Call} {handling : Handling}
    (hrounds : msg.frames.size ≤ callbacks.rounds)
    (h : (deliverTraced callbacks call msg host).CanEnd Host.Holds handling later) :
    handling.Follows msg.frames.items := by
  obtain ⟨⟨⟨back, result⟩, mediation⟩, mid, hmediate, hend⟩ := Progress.canEnd_bind.mp h
  unfold mediateTraced at hmediate
  by_cases hitems : msg.frames.items = []
  · have hempty : msg.frames.isEmpty = true := List.isEmpty_iff.mpr hitems
    rw [if_pos hempty] at hmediate
    obtain ⟨⟨back', outcome⟩, started, -, heq, -⟩ := Progress.canEnd_bind.mp hmediate
    cases heq
    cases hcaught : outcome.caught with
    | ok handled =>
      rw [hcaught] at hend
      obtain ⟨heq, -⟩ := hend
      cases heq
      exact .started hitems hitems fun _ => nofun
    | error e =>
      rw [hcaught] at hend
      dsimp only [Except.map] at hend
      rw [Run.update_bind] at hend
      obtain ⟨outcome, settled, -, heq, -⟩ := Progress.canEnd_bind.mp hend
      cases heq
      exact .started hitems hitems fun _ => nofun
  · have hfilled : ¬ msg.frames.isEmpty = true := fun hempty => hitems (List.isEmpty_iff.mp hempty)
    rw [if_neg hfilled] at hmediate
    obtain ⟨⟨⟨left, outcome⟩, ran⟩, resumed, hresume, heq, -⟩ := Progress.canEnd_bind.mp hmediate
    cases heq
    obtain ⟨drained, rfl, hresumption⟩ := resumeTraced_resumption hdecide hrounds hresume
    obtain ⟨heq, -⟩ := hend
    cases heq
    exact .resumed hitems hresumption

theorem respondTraced_follows (hdecide : callbacks.Decide) {call : Call} {id : CallId}
    {envelope : Envelope} {properties : Properties} {handling : Handling}
    (hrounds : call.outbound.frames.size ≤ callbacks.rounds)
    (hfind : host.state.registry.find? id = some call) (hpending : call.completion = .pending)
    (h : (respondTraced callbacks id envelope properties host).CanEnd Host.Holds handling later) :
    handling.Follows call.outbound.frames.items := by
  obtain ⟨s, hcollect, -⟩ := State.collect_of_find? hfind hpending
  unfold respondTraced at h
  rw [Run.apply_bind, hcollect] at h
  dsimp only at h
  rw [Run.update_bind, Run.apply_bind] at h
  obtain ⟨handled, mid, hdeliver, heq, -⟩ := Progress.canEnd_bind.mp h
  cases heq
  -- The reply has the frames of the call.
  have hfollows := deliverTraced_follows hdecide (by exact hrounds) hdeliver
  exact hfollows

/-! ## One leg -/

/-- What happened on a leg: the message that was dispatched, and how the reply was dealt with. -/
structure Leg where
  sent : Message
  handling : Handling

/-- The message was dispatched and taken by the transport, and a reply came before anybody claimed
the call otherwise.  Others may have gone on meanwhile. -/
inductive Environment.Goes (env : Environment σ) (level : Nat) : Leg → Prop
  | mk {sent : Message} {handling : Handling} {before dispatched waiting after : Host σ}
      {expiry : Expiry} {receipt : Receipt} {envelope : Envelope} {properties : Properties}
      (hdispatch : (dispatch (env.callbacks level) sent expiry before).CanEnd Host.Holds
        (.ok (.ok receipt)) dispatched)
      (hwaiting : Host.Holds dispatched waiting)
      (hunclaimed : waiting.state.journal.claimCount sent.callId =
        before.state.journal.claimCount sent.callId)
      (hrespond : (respondTraced (env.callbacks level) sent.callId envelope properties
        waiting).CanEnd Host.Holds handling after) :
      Goes env level ⟨sent, handling⟩

/-- A dispatch that succeeds has registered its call before it handed the message over. -/
theorem dispatch_registers {rel : Host σ → Host σ → Prop} {expiry : Expiry} {receipt : Receipt}
    (h : (dispatch callbacks msg expiry host).CanEnd rel (.ok (.ok receipt)) later) :
    ∃ (call : Call) (s : State) (outcome : Outcome Unit), call.id = msg.callId ∧
      call.outbound = msg.withCorrelation ∧ call.completion = .pending ∧
      host.state.enroll call = (.ok receipt, s) ∧
      (callbacks.transmit call.outbound ⟨s, host.memory⟩).CanEnd rel outcome later := by
  cases dispatchEnds_of_canEnd h with
  | sent hcall henroll hsent =>
    exact ⟨_, _, _, hcall ▸ rfl, hcall ▸ rfl, hcall ▸ rfl, henroll, hsent⟩

theorem Message.withCorrelation_frames (m : Message) : m.withCorrelation.frames = m.frames := by
  unfold withCorrelation
  split <;> rfl

namespace Environment

variable {env : Environment σ} {level : Nat}

/-- The call that has been registered is still there when the reply comes, so the reply has the
frames of the message that was dispatched. Whatever others have done meanwhile, a call that waits
is not changed. -/
theorem Goes.follows (hdecide : (env.callbacks level).Decide) {leg : Leg}
    (hrounds : leg.sent.frames.size ≤ (env.callbacks level).rounds) (h : env.Goes level leg) :
    leg.handling.Follows leg.sent.frames.items := by
  cases h with
  | @mk sent _ before dispatched waiting after _ _ _ _ hdispatch hwaiting hunclaimed hrespond =>
  obtain ⟨call, s, outcome, hid, houtbound, hpending, henroll, hsent⟩ :=
    dispatch_registers hdispatch
  obtain ⟨hregister, -, hjournal, -⟩ := State.enroll_eq_ok henroll
  have hvouched : s.journal.Vouches env.collaborators call.outbound :=
    hjournal ▸ Message.SameFlow.refl _
  have hheld : s.Holds dispatched.state :=
    (((env.callbacks_hold level).transmit hvouched).of_canEnd hsent).1
  have hfound : s.registry.find? call.id = some call := by
    rw [Registry.find?_register hregister, if_pos rfl]
  have hlater : s.Holds waiting.state := hheld.trans hwaiting
  rw [← hid] at hunclaimed hrespond
  have hfind := hlater.waits call.id call hfound (by rw [hunclaimed, hjournal]; rfl)
  have hframes : call.outbound.frames = sent.frames := by
    rw [houtbound, Message.withCorrelation_frames]
  dsimp only at hrounds ⊢
  rw [← hframes] at hrounds ⊢
  exact respondTraced_follows hdecide hrounds hfind hpending hrespond

/-- The message goes on as long as somebody dispatches it anew, as it stood when no more frames were
gone on with, under another id. -/
inductive Journey (env : Environment σ) (level : Nat) : Message → List Leg → Prop
  | last {sent : Message} {handling : Handling} (hgoes : env.Goes level ⟨sent, handling⟩) :
      Journey env level sent [⟨sent, handling⟩]
  | onward {sent : Message} {handling : Handling} {drained : Bool} {mediation : Mediation}
      {id : String} {legs : List Leg} (hgoes : env.Goes level ⟨sent, handling⟩)
      (hresumed : handling.delivery = .resumed drained)
      (hmediation : handling.mediation = some mediation)
      (hrest : Journey env level { mediation.left with id } legs) :
      Journey env level sent (⟨sent, handling⟩ :: legs)

end Environment

/-- What a program gives is something that it can give. -/
theorem Program.canGive_of_canEnd {rel : Host σ → Host σ → Prop}
    {answer : (op : Operation) → Run σ op.Answer} {p : Program σ α} {a : α}
    (h : (p.run answer host).CanEnd rel a later) : p.CanGive a := by
  induction p generalizing host with
  | done result => exact h.1
  | «recall» next ih => exact ⟨host.memory, ih host.memory h⟩
  | remember memory next ih => exact ih h
  | ask op next ih =>
    obtain ⟨given, mid, -, hrest⟩ := Progress.canEnd_bind.mp h
    exact ⟨given, ih given hrest⟩

/-- Units that go on leave the frames below theirs alone, and decide one way or the other. -/
def Collaborators.Decide (c : Collaborators σ) : Prop :=
  ∀ (frame : Frame) (msg : Message) (result : Message × Outcome Verdict),
    (c.continueFlow frame msg).CanGive result →
    result.1.frames = msg.frames ∧ ∃ verdict, result.2 = .returned verdict

namespace Environment

variable {env : Environment σ} {level : Nat}

theorem canGive_of_call {rel : Host σ → Host σ → Prop}
    {answer : (op : Operation) → Run σ op.Answer} {callback : Callback} {p : Program σ α} {a : α}
    (h : (call level callback (p.run answer) host).CanEnd rel a later) : p.CanGive a := by
  unfold call noted at h
  rw [Run.update_bind] at h
  obtain ⟨given, mid, hrun, hend⟩ := Progress.canEnd_bind.mp h
  obtain ⟨_, _, -, heq, -⟩ := Progress.canEnd_bind.mp hend
  exact heq ▸ Program.canGive_of_canEnd hrun

theorem callbacks_decide (hdecide : env.collaborators.Decide) (level : Nat) :
    (env.callbacks (level + 1)).Decide := fun frame msg _ _ result h =>
  hdecide frame msg result (canGive_of_call h)

end Environment

/-! ## Legs that go -/

/-- The transport takes every message. -/
def Callbacks.Send (callbacks : Callbacks σ) : Prop :=
  ∀ (wire : Message) (host later : Host σ) (outcome : Outcome Unit),
    (callbacks.transmit wire host).CanEnd Host.Holds outcome later → outcome = .returned ()

/-- The transport takes every message. -/
def Collaborators.Send (c : Collaborators σ) : Prop :=
  ∀ (wire : Message) (outcome : Outcome Unit), (c.transmit wire).CanGive outcome →
    outcome = .returned ()

/-- An engine that accepts calls takes one with a new id: a taken id and a transport that fails are
the only ways of being refused, and both are excluded. -/
theorem dispatch_eq_ok (hsend : callbacks.Send) {now : Millis} {expiry : Expiry}
    (haccepts : host.state.acceptsCalls = true) (hclock : host.state.clock.read = .ok now)
    (hnew : host.state.registry.contains msg.callId = false)
    {result : Except Panic (Except EngineError Receipt)}
    (h : dispatch callbacks msg expiry host = .ended result later) :
    ∃ receipt, result = .ok (.ok receipt) := by
  unfold dispatch at h
  rw [Run.read_bind, haccepts, hclock, if_neg (by simp)] at h
  dsimp only at h
  rw [Run.apply_bind] at h
  generalize hcall : msg.toCall expiry now _ = call at h
  cases henroll : host.state.enroll call with
  | mk enrolled s =>
    rw [henroll] at h
    cases enrolled with
    | error e =>
      have htaken := (State.enroll_eq_error henroll).1
      have hid : call.id = msg.callId := hcall ▸ rfl
      rw [hid, hnew] at htaken
      cases htaken
    | ok receipt =>
      dsimp only at h
      rw [Run.read_bind] at h
      obtain ⟨outcome, sent, hsent, hend⟩ := Progress.bind_eq_ended h
      obtain rfl := hsend _ _ _ _ (.of_ended hsent)
      cases hend
      exact ⟨receipt, rfl⟩

namespace Environment

variable {env : Environment σ}

theorem callbacks_send (hsend : env.collaborators.Send) (level : Nat) :
    (env.callbacks (level + 1)).Send := fun wire _ _ outcome h =>
  hsend wire outcome (canGive_of_call h)

/-- As long as the engine accepts calls, a message with a new id can be dispatched, and a reply
that is the first to claim the call makes a leg. So journeys are not only spoken of but come about.
-/
def LegsGo (env : Environment σ) (level : Nat) : Prop :=
  ∀ (msg : Message) (expiry : Expiry) (host : Host σ) (now : Millis),
    host.state.acceptsCalls = true → host.state.clock.read = .ok now →
    host.state.registry.contains msg.callId = false →
    ∃ receipt dispatched,
      dispatch (env.callbacks level) msg expiry host = .ended (.ok (.ok receipt)) dispatched ∧
      ∀ waiting, Host.Holds dispatched waiting →
        waiting.state.journal.claimCount msg.callId =
          host.state.journal.claimCount msg.callId →
        ∀ envelope properties, ∃ handling after,
          respondTraced (env.callbacks level) msg.callId envelope properties waiting =
            .ended handling after ∧
          env.Goes level ⟨msg, handling⟩

/-- Legs go if the collaborators do not wait and the transport takes its messages. -/
theorem legsGo (hprompt : env.collaborators.AskOnly Operation.IsPrompt)
    (hsend : env.collaborators.Send) (level : Nat) : env.LegsGo (level + 1) := by
  intro msg expiry host now haccepts hclock hnew
  have hc := callbacks_unmoved hprompt (level + 1)
  obtain ⟨result, dispatched, hdispatch, -⟩ :=
    (dispatch_along env.allows_unmoved hc msg expiry host).ended_of_not_patient not_false
  obtain ⟨receipt, rfl⟩ :=
    dispatch_eq_ok (callbacks_send hsend level) haccepts hclock hnew hdispatch
  refine ⟨receipt, dispatched, hdispatch, fun waiting hwaiting hunclaimed envelope properties => ?_⟩
  obtain ⟨delivery, after, hrespond, -⟩ := (respond_along env.allows_unmoved hc msg.callId
    { kind := .reply envelope, properties } waiting).ended_of_not_patient not_false
  rw [respond_eq_traced] at hrespond
  obtain ⟨handling, later, htraced, hend⟩ := Progress.bind_eq_ended hrespond
  exact ⟨handling, later, htraced,
    .mk (.of_ended hdispatch) hwaiting hunclaimed (.of_ended htraced)⟩

end Environment

namespace Leg

/-- The frames that were gone on with. -/
def ran (leg : Leg) : List (Frame × Outcome Verdict) := (leg.handling.mediation.map (·.ran)).getD []

/-- The messages that new flows were started with. -/
def started (leg : Leg) : List Message := (leg.handling.mediation.map (·.started)).getD []

/-- The frames that were left. -/
def remaining (leg : Leg) : List Frame := (leg.handling.mediation.map (·.left.frames.items)).getD []

/-- What a leg does with the frames of its message. -/
structure IsOrderly (leg : Leg) : Prop where
  /-- It begins a new flow if there are no frames, once, and only then. -/
  started : leg.started.length = if leg.sent.frames.items = [] then 1 else 0
  /-- Otherwise it goes on with the frames, and leaves those that it has not come to. -/
  inOrder : leg.ran.map (·.1) ++ leg.remaining = leg.sent.frames.items
  /-- It reports that it is through if the outermost unit has run and decided to go on. -/
  drained : leg.handling.delivery = .resumed true ↔
    leg.remaining = [] ∧ leg.ran.getLast?.map (·.2) = some (.returned .proceed)

theorem isOrderly {leg : Leg} (h : leg.handling.Follows leg.sent.frames.items) :
    leg.IsOrderly := by
  obtain ⟨sent, handling⟩ := leg
  cases h with
  | started hframes hmsg hdelivery =>
    constructor
    · rw [if_pos hframes]
      rfl
    · change [] ++ _ = sent.frames.items
      rw [hframes]
      exact hmsg
    · constructor
      · exact fun hdrained => absurd hdrained (hdelivery true)
      · rintro ⟨-, hlast⟩
        cases hlast
  | @resumed ran left drained hframes hresumption =>
    constructor
    · rw [if_neg hframes]
      rfl
    · exact hresumption.ran_append_left
    · change Delivery.resumed drained = .resumed true ↔ _
      rw [Delivery.resumed.injEq]
      exact hresumption.drained_iff hframes

end Leg

namespace Environment

variable {env : Environment σ} {level : Nat} {legs : List Leg}

/-- The induction is on the legs: what one leaves the next one is dispatched with. The bound on
rounds stays met, since a leg never leaves more frames than it was given. -/
theorem Journey.legs_orderly (hdecide : env.collaborators.Decide)
    (h : env.Journey (level + 1) msg legs) (hrounds : msg.frames.size ≤ env.rounds) :
    (legs.flatMap fun leg => leg.ran.map (·.1)) ++ (legs.getLast?.map (·.remaining)).getD [] =
        msg.frames.items ∧
      ∀ leg ∈ legs, leg.IsOrderly := by
  have hcallbacks := callbacks_decide hdecide level
  induction h with
  | last hgoes =>
    have horderly := Leg.isOrderly (hgoes.follows hcallbacks hrounds)
    refine ⟨?_, fun leg hleg => List.mem_singleton.mp hleg ▸ horderly⟩
    rw [List.flatMap_singleton]
    exact horderly.inOrder
  | @onward sent handling drained mediation id legs hgoes _ hmediation hrest ih =>
    have horderly := Leg.isOrderly (hgoes.follows hcallbacks hrounds)
    have hsplit := horderly.inOrder
    simp only [Leg.ran, Leg.remaining, hmediation, Option.map_some, Option.getD_some] at hsplit
    -- What a leg leaves is part of what it was given.
    have hfewer : mediation.left.frames.size ≤ env.rounds := by
      have hlength := congrArg List.length hsplit
      rw [List.length_append] at hlength
      rw [Stack.size] at hrounds ⊢
      omega
    obtain ⟨hframes, hlegs⟩ := ih hfewer
    refine ⟨?_, fun leg hleg => ?_⟩
    · have hlegs : legs ≠ [] := by cases hrest <;> exact List.cons_ne_nil _ _
      rw [List.flatMap_cons, List.getLast?_cons_of_ne_nil hlegs, List.append_assoc, hframes,
        Leg.ran, hmediation]
      exact hsplit
    · rcases List.mem_cons.mp hleg with rfl | hlater
      · exact horderly
      · exact hlegs leg hlater

/-- What it means that the frames of a message are gone on with in order over the legs. -/
structure ResumesInOrder (env : Environment σ) (level : Nat) (msg : Message) (legs : List Leg) :
    Prop where
  /-- In the reverse order of their suspension, each once, apart from those that are left in the
  end. -/
  order : ∃ last, legs.getLast? = some last ∧ msg.frames.toList =
    last.remaining.reverse ++ (legs.flatMap fun leg => leg.ran.map (·.1)).reverse
  orderly : ∀ leg ∈ legs, leg.IsOrderly
  /-- What the legs tell beside the report is what the operation does. -/
  traced : ∀ (id : CallId) (envelope : Envelope) (properties : Properties)
      (relatesTo : Option String),
    respond (env.callbacks level) id { relatesTo, kind := .reply envelope, properties } =
      Handling.delivery <$> respondTraced (env.callbacks level) id envelope properties
  goes : env.collaborators.AskOnly Operation.IsPrompt → env.collaborators.Send → env.LegsGo level

/-- A message that is dispatched again and again, until its frames are used up or as long as
somebody cares to, has its frames gone on with in order. -/
theorem Journey.in_order (hdecide : env.collaborators.Decide)
    (h : env.Journey (level + 1) msg legs) (hrounds : msg.frames.size ≤ env.rounds) :
    env.ResumesInOrder (level + 1) msg legs := by
  obtain ⟨hframes, hlegs⟩ := h.legs_orderly hdecide hrounds
  constructor
  case order =>
    have hlegs : legs ≠ [] := by cases h <;> exact List.cons_ne_nil _ _
    refine ⟨legs.getLast hlegs, List.getLast?_eq_some_getLast hlegs, ?_⟩
    rw [List.getLast?_eq_some_getLast hlegs, Option.map_some, Option.getD_some] at hframes
    rw [Stack.toList, ← hframes, List.reverse_append]
  case orderly => exact hlegs
  case traced => exact respond_eq_traced _
  case goes => exact fun hprompt hsend => legsGo hprompt hsend level

end Environment

/-! ## A journey of three legs -/

/-- Units with the name "inner" halt. -/
def Environment.halting : Environment Unit where
  collaborators :=
    { Collaborators.idle with
      continueFlow := fun frame msg =>
        .done (msg, .returned (if frame.sequence = .named "inner" then .halt else .proceed)) }
  rounds := 2

/-- The message is dispatched and a reply comes at once. -/
def Environment.travel (env : Environment σ) (msg : Message) (host : Host σ) :
    Option (Handling × Host σ) :=
  match dispatch (env.callbacks 2) msg {} host with
  | .ended (.ok (.ok _)) dispatched =>
    match respondTraced (env.callbacks 2) msg.callId ⟨.rest, .null, false⟩ {} dispatched with
    | .ended handling after =>
      if dispatched.state.journal.claimCount msg.callId = host.state.journal.claimCount msg.callId
      then some (handling, after)
      else none
    | .waiting .. => none
  | _ => none

theorem Environment.goes_of_travel {env : Environment σ} {handling : Handling}
    (h : env.travel msg host = some (handling, later)) : env.Goes 2 ⟨msg, handling⟩ := by
  unfold travel at h
  split at h
  · rename_i receipt dispatched hdispatch
    split at h
    · rename_i handled after hrespond
      split at h
      · rename_i hunclaimed
        cases h
        exact .mk (.of_ended hdispatch) (refl_of Host.Holds dispatched) hunclaimed
          (.of_ended hrespond)
      · cases h
    · cases h
  · cases h

/-- The message is dispatched anew under each of the ids, as long as its reply is resumed. -/
def Environment.journey? (env : Environment σ) : List String → Message → Host σ → Option (List Leg)
  | [], msg, host => (env.travel msg host).map fun (handling, _) => [⟨msg, handling⟩]
  | id :: ids, msg, host =>
    match env.travel msg host with
    | some (⟨.resumed drained, some mediation⟩, host) =>
      (env.journey? ids { mediation.left with id } host).map
        (⟨msg, ⟨.resumed drained, some mediation⟩⟩ :: ·)
    | _ => none

theorem Environment.journey_of_journey? {env : Environment σ} {ids : List String} {legs : List Leg}
    (h : env.journey? ids msg host = some legs) : env.Journey 2 msg legs := by
  induction ids generalizing msg host legs with
  | nil =>
    obtain ⟨⟨handling, later⟩, htravel, rfl⟩ := Option.map_eq_some_iff.mp h
    exact .last (goes_of_travel htravel)
  | cons id ids ih =>
    unfold journey? at h
    split at h
    · rename_i drained mediation later htravel
      obtain ⟨legs', hrest, rfl⟩ := Option.map_eq_some_iff.mp h
      exact .onward (goes_of_travel htravel) rfl rfl (ih hrest)
    · cases h

/-- A message that was suspended in two units. -/
def Message.suspended : Message :=
  { Message.plain "a" with
    frames := .ofList [⟨.named "outer", .topLevel 1⟩, ⟨.named "inner", .topLevel 2⟩] }

theorem halting_decide : Environment.halting.collaborators.Decide := by
  rintro frame msg result rfl
  exact ⟨rfl, _, rfl⟩

/-- The inner unit halts on the first leg, the outer one goes on on the second, and the third begins
a flow. -/
theorem in_order_threeLegs :
    ∃ legs, Environment.halting.Journey 2 .suspended legs ∧
      legs.map (fun leg => (leg.ran.map (·.1.position), leg.started.length)) =
        [([.topLevel 2], 0), ([.topLevel 1], 0), ([], 1)] ∧
      ∃ last, legs.getLast? = some last ∧ Message.suspended.frames.toList =
        last.remaining.reverse ++ (legs.flatMap fun leg => leg.ran.map (·.1)).reverse := by
  have hlegs : ∃ legs,
      Environment.halting.journey? ["b", "c"] .suspended ⟨State.init {} {} 0, ()⟩ = some legs ∧
      legs.map (fun leg => (leg.ran.map (·.1.position), leg.started.length)) =
        [([.topLevel 2], 0), ([.topLevel 1], 0), ([], 1)] := by
    have hsome : (Environment.halting.journey? ["b", "c"] .suspended ⟨State.init {} {} 0, ()⟩).map
        (fun legs => legs.map fun leg => (leg.ran.map (·.1.position), leg.started.length)) =
          some [([.topLevel 2], 0), ([.topLevel 1], 0), ([], 1)] := by decide +kernel
    exact Option.map_eq_some_iff.mp hsome
  obtain ⟨legs, hjourney, hran⟩ := hlegs
  have h := Environment.journey_of_journey? hjourney
  have hrounds : Message.suspended.frames.size ≤ Environment.halting.rounds := by decide
  exact ⟨legs, h, hran, (Environment.Journey.in_order halting_decide h hrounds).order⟩

end Correlator
