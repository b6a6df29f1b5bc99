import Correlator.Proofs.Sweeping

/-!
# Responses to different calls commute

Two responses to different calls can be delivered in either order.  What they do to the registry
and to the books is a list of small steps that commute (`Books.book_right_comm`), so it remains to
see that a response takes the same steps whether the other one has been there before or not.

It does if mediation goes by the message and the arguments alone.  What stands in the way is that
the message is not quite the same: a reply becomes a message with a new id, and the ids are
numbered, so the reply that comes second gets another one.  So mediation is compared on messages
that differ in a generated id, and must not make anything of the difference
(`Program.MediateAlike`); it may ask for messages, which uses up further ids, but for nothing else.

## Main definitions

* `Message.SameButId` : the messages differ at most in a generated id.
* `Collaborators.MediateAlike` : mediation goes by the message and the arguments alone.
* `Books.book` : one step in the books.
* `Run.AdvanceAlike` : two pieces of work take the same steps, wherever they begin.

## Main results

* `deliver_alike` : a response to a claimed call is dealt with alike on any two engines.
* `respond_commutes` : two responses are dealt with alike in either order.
-/

namespace Correlator

variable {σ α β : Type}

/-! ## Messages that differ in a generated id -/

/-- Some engine makes the id for a new message. Nothing is said of which engine or when, as ids of
either order of events must count. -/
def IsGenerated (id : String) : Prop := ∃ s : State, s.freshMessageId.1 = id

/-- The messages are the same, but that each may have an id of its own that was generated. An id
that came from outside is the same on both. -/
inductive Message.SameButId (m : Message) : Message → Prop
  | mk {id : String} (hid : id = m.id ∨ IsGenerated m.id ∧ IsGenerated id) :
      SameButId m { m with id }

theorem Message.SameButId.refl (m : Message) : m.SameButId m := .mk (.inl rfl)

/-- What mediation has made of two messages differs at most in a generated id. -/
def ResultsAgree (r r' : Message × β) : Prop := r.1.SameButId r'.1 ∧ r'.2 = r.2

/-- The calls to mediation differ at most in a generated id. -/
inductive Callback.SameButId : Callback → Callback → Prop
  | startFlow {m m' : Message} (h : m.SameButId m') : SameButId (.startFlow m) (.startFlow m')
  | continueFlow (frame : Frame) {m m' : Message} (h : m.SameButId m') :
      SameButId (.continueFlow frame m) (.continueFlow frame m')
  | compensate (handler : Handler) (cause : Fault) {m m' : Message} (h : m.SameButId m') :
      SameButId (.compensate handler cause m) (.compensate handler cause m')

/-- The same calls have been made at the same levels, up to generated ids. -/
abbrev CallsAgree : List (Nat × Callback) → List (Nat × Callback) → Prop :=
  List.Forall₂ fun c c' => c'.1 = c.1 ∧ c.2.SameButId c'.2

/-! ## Mediation that keeps to the message -/

/-- The operation makes a message, and does nothing else. -/
def Operation.MakesMessage : Operation → Prop
  | .compose _ false | .reply .. => True
  | _ => False

/-- The program ends with the result, at least once. -/
def Program.Gives (p : Program σ α) (a : α) : Prop :=
  ∃ (callbacks : Callbacks σ) (host later : Host σ),
    p.run (Environment.serve callbacks) host = .ended a later

/-- The programs leave the engine alone, and whatever engine they are run on, and whatever they
remember, they give the same. A call to mediation that could look at the engine could tell which
response came first. -/
structure Program.MediateAlike (p p' : Program σ (Message × β)) : Prop where
  asksOnly : p.AsksOnly Operation.MakesMessage
  asksOnly' : p'.AsksOnly Operation.MakesMessage
  agree : ∀ r r', p.Gives r → p'.Gives r' → ResultsAgree r r'

/-- Mediation leaves the engine alone and goes by the message and the arguments, but for the ids
that were generated, of which it can make nothing. -/
structure Collaborators.MediateAlike (c : Collaborators σ) : Prop where
  startFlow : ∀ {m m'}, m.SameButId m' → (c.startFlow m).MediateAlike (c.startFlow m')
  continueFlow : ∀ frame {m m'}, m.SameButId m' →
    (c.continueFlow frame m).MediateAlike (c.continueFlow frame m')
  compensate : ∀ handler cause {m m'}, m.SameButId m' →
    (c.compensate handler cause m).MediateAlike (c.compensate handler cause m')

/-! ## Books -/

/-- Something that is written into the books while a response is dealt with. -/
inductive Booking where
  /-- A call was taken out of the registry. -/
  | taken
  /-- A call was counted out. -/
  | released
  | fault (outcome : Disposition)
  | response (outcome : Delivery)

/-- The calls in flight, and the metrics. -/
structure Books where
  admission : Admission
  metrics : Metrics

def State.books (s : State) : Books := ⟨s.admission, s.metrics⟩

namespace Books

/-- Writes into the books. -/
def book (b : Books) : Booking → Books
  | .taken => { b with metrics := b.metrics.addPending (-1) }
  | .released =>
    match b.admission.release? with
    | some admission =>
      { admission, metrics := { b.metrics with inFlight := some admission.inFlight } }
    | none => b
  | .fault outcome => { b with metrics := b.metrics.countFault outcome }
  | .response outcome => { b with metrics := b.metrics.countResponse outcome }

theorem countFault_right_comm (m : Metrics) (o o' : Disposition) :
    (m.countFault o).countFault o' = (m.countFault o').countFault o := by
  cases o <;> cases o' <;> rfl

theorem countResponse_right_comm (m : Metrics) (d d' : Delivery) :
    (m.countResponse d).countResponse d' = (m.countResponse d').countResponse d := by
  cases d <;> cases d' <;> rfl

/-- It makes no difference what is booked first. A release is the only booking that looks at what
it changes, and what it looks at no other one touches. -/
theorem book_right_comm (b : Books) (x y : Booking) : (b.book x).book y = (b.book y).book x := by
  cases x with
  | taken =>
    cases y with
    | released =>
      unfold book
      cases b.admission.release? <;> rfl
    | _ => rfl
  | released =>
    cases y with
    | released => rfl
    | _ =>
      unfold book
      cases b.admission.release? <;> rfl
  | fault o =>
    cases y with
    | released =>
      unfold book
      cases b.admission.release? <;> rfl
    | fault o' => exact congrArg (Books.mk b.admission) (countFault_right_comm b.metrics o o')
    | _ => rfl
  | response d =>
    cases y with
    | released =>
      unfold book
      cases b.admission.release? <;> rfl
    | response d' => exact congrArg (Books.mk b.admission) (countResponse_right_comm b.metrics d d')
    | _ => rfl

instance : RightCommutative book := ⟨book_right_comm⟩

/-- Nor does it for whole lists. -/
theorem foldl_book_comm (b : Books) (l l' : List Booking) :
    l'.foldl book (l.foldl book b) = l.foldl book (l'.foldl book b) := by
  rw [← List.foldl_append, ← List.foldl_append]
  exact List.perm_append_comm.foldl_eq b

end Books

namespace State

variable {s t u : State}

/-- Bookings and callbacks have been made, and the registry has been left alone. What a response
does after its claim is of this kind. -/
structure Advances (bookings : List Booking) (calls : List (Nat × Callback)) (s s' : State) :
    Prop where
  books : s'.books = bookings.foldl Books.book s.books
  callbacks : s'.journal.callbacks = calls ++ s.journal.callbacks
  registry : s'.registry = s.registry

theorem Advances.refl (s : State) : s.Advances [] [] s := ⟨rfl, rfl, rfl⟩

theorem Advances.trans {bookings bookings' : List Booking} {calls calls' : List (Nat × Callback)}
    (h : Advances bookings calls s t) (h' : Advances bookings' calls' t u) :
    Advances (bookings ++ bookings') (calls' ++ calls) s u where
  books := by rw [h'.books, h.books, List.foldl_append]
  callbacks := by rw [h'.callbacks, h.callbacks, List.append_assoc]
  registry := h'.registry.trans h.registry

theorem advances_release (s : State) : s.Advances [.released] [] s.release := by
  have hbooks : s.release.books = s.books.book .released := by
    unfold release Books.book
    rw [show s.books.admission = s.admission from rfl]
    cases s.admission.release? <;> rfl
  have hjournal : s.release.journal.callbacks = s.journal.callbacks := by
    unfold release
    split <;> rfl
  have hregistry : s.release.registry = s.registry := by
    unfold release
    split <;> rfl
  exact ⟨hbooks, hjournal, hregistry⟩

end State

/-! ## Work that takes the same steps -/

/-- Wherever they begin, both end at once, with results that are related, and have taken the same
steps. Beginnings are independent: nothing relates the two hosts. -/
def Run.AdvanceAlike (rel : α → α → Prop) (x x' : Run σ α) : Prop :=
  ∀ host host' : Host σ, ∃ a a' later later' bookings calls calls',
    x host = .ended a later ∧ x' host' = .ended a' later' ∧ rel a a' ∧ CallsAgree calls calls' ∧
    host.state.Advances bookings calls later.state ∧
    host'.state.Advances bookings calls' later'.state

namespace Run

variable {rel : α → α → Prop} {rel' : β → β → Prop} {x x' : Run σ α} {f f' : α → Run σ β}

theorem advanceAlike_pure {a a' : α} (h : rel a a') :
    AdvanceAlike rel (pure a : Run σ α) (pure a') := fun host host' =>
  ⟨a, a', host, host', [], [], [], rfl, rfl, h, .nil, .refl _, .refl _⟩

theorem AdvanceAlike.bind (hx : AdvanceAlike rel x x')
    (hf : ∀ a a', rel a a' → AdvanceAlike rel' (f a) (f' a')) :
    AdvanceAlike rel' (x >>= f) (x' >>= f') := by
  intro host host'
  obtain ⟨a, a', mid, mid', bookings, calls, calls', hrun, hrun', hrel, hcalls, hmid, hmid'⟩ :=
    hx host host'
  obtain ⟨b, b', later, later', bookings₁, calls₁, calls₁', hrest, hrest', hrel₁, hcalls₁, hlater,
    hlater'⟩ := hf a a' hrel mid mid'
  refine ⟨b, b', later, later', bookings ++ bookings₁, calls₁ ++ calls, calls₁' ++ calls', ?_, ?_,
    hrel₁, List.rel_append hcalls₁ hcalls, hmid.trans hlater, hmid'.trans hlater'⟩
  · rw [Work.bind_apply, hrun]
    exact hrest
  · rw [Work.bind_apply, hrun']
    exact hrest'

/-- Steps of the engine that book the same. -/
theorem advanceAlike_apply {change change' : State → α × State} (bookings : List Booking)
    (hrel : ∀ s s', rel (change s).1 (change' s').1)
    (hchange : ∀ s : State, s.Advances bookings [] (change s).2)
    (hchange' : ∀ s : State, s.Advances bookings [] (change' s).2) :
    AdvanceAlike rel (Run.apply change : Run σ α) (Run.apply change') := fun _ _ =>
  ⟨_, _, _, _, bookings, [], [], rfl, rfl, hrel _ _, .nil, hchange _, hchange' _⟩

theorem AdvanceAlike.after_update {change change' : State → State} (bookings : List Booking)
    (hchange : ∀ s : State, s.Advances bookings [] (change s))
    (hchange' : ∀ s : State, s.Advances bookings [] (change' s)) (hx : AdvanceAlike rel x x') :
    AdvanceAlike rel (do Run.update change; x) (do Run.update change'; x') := by
  have hupdate : AdvanceAlike (fun _ _ => True) (Run.update change : Run σ Unit)
      (Run.update change') := fun _ _ =>
    ⟨(), (), _, _, bookings, [], [], rfl, rfl, trivial, .nil, hchange _, hchange' _⟩
  exact hupdate.bind fun _ _ _ => hx

end Run

/-! ## Calls to mediation -/

namespace Environment

/-- Making a message is no step. -/
theorem serve_makesMessage {op : Operation} (hop : op.MakesMessage) (callbacks : Callbacks σ)
    (host : Host σ) : ∃ answer later, serve callbacks op host = .ended answer later ∧
      host.state.Advances [] [] later.state := by
  cases op with
  | compose envelope inbound =>
    cases inbound with
    | false => exact ⟨_, _, rfl, rfl, rfl, rfl⟩
    | true => exact hop.elim
  | reply msg envelope properties => exact ⟨_, _, rfl, rfl, rfl, rfl⟩
  | _ => exact hop.elim

theorem run_makesMessage {p : Program σ α} (hp : p.AsksOnly Operation.MakesMessage)
    (callbacks : Callbacks σ) (host : Host σ) : ∃ a later,
      p.run (serve callbacks) host = .ended a later ∧ host.state.Advances [] [] later.state := by
  induction p generalizing host with
  | done a => exact ⟨a, host, rfl, .refl _⟩
  | «recall» next ih => exact ih host.memory (hp host.memory) host
  | remember memory next ih => exact ih hp { host with memory }
  | ask op next ih =>
    obtain ⟨answer, mid, hserve, hmid⟩ := serve_makesMessage hp.1 callbacks host
    obtain ⟨a, later, hrun, hlater⟩ := ih answer (hp.2 answer) mid
    refine ⟨a, later, ?_, hmid.trans hlater⟩
    change (serve callbacks op >>= fun answer => (next answer).run (serve callbacks)) host = _
    rw [Work.bind_apply, hserve]
    exact hrun

theorem run_alike {p p' : Program σ (Message × β)} (h : p.MediateAlike p')
    (callbacks : Callbacks σ) :
    Run.AdvanceAlike ResultsAgree (p.run (serve callbacks)) (p'.run (serve callbacks)) := by
  intro host host'
  obtain ⟨r, later, hrun, hlater⟩ := run_makesMessage h.asksOnly callbacks host
  obtain ⟨r', later', hrun', hlater'⟩ := run_makesMessage h.asksOnly' callbacks host'
  exact ⟨r, r', later, later', [], [], [], hrun, hrun',
    h.agree r r' ⟨callbacks, host, later, hrun⟩ ⟨callbacks, host', later', hrun'⟩, .nil, hlater,
    hlater'⟩

/-- A callback is on record, beside what comes of it. The two records are of the same callback up
to a generated id. -/
theorem call_alike {rel : α → α → Prop} {x x' : Run σ α} (level : Nat) {c c' : Callback}
    (hc : c.SameButId c') (hx : x.AdvanceAlike rel x') :
    (call level c x).AdvanceAlike rel (call level c' x') := by
  intro host host'
  obtain ⟨a, a', later, later', bookings, calls, calls', hrun, hrun', hrel, hcalls, hlater,
    hlater'⟩ := hx { host with state := host.state.note (.entered level c host.state.moment) }
      { host' with state := host'.state.note (.entered level c' host'.state.moment) }
  have hmade : CallsAgree [(level, c)] [(level, c')] := .cons ⟨rfl, hc⟩ .nil
  exact ⟨a, a', _, _, bookings, calls ++ [(level, c)], calls' ++ [(level, c')],
    noted_eq_ended hrun, noted_eq_ended hrun', hrel, List.rel_append hcalls hmade,
    ⟨hlater.books, by rw [List.append_assoc]; exact hlater.callbacks, hlater.registry⟩,
    ⟨hlater'.books, by rw [List.append_assoc]; exact hlater'.callbacks, hlater'.registry⟩⟩

end Environment

/-- Calls to mediation take the same steps for messages that differ in a generated id. -/
structure Callbacks.MediateAlike (callbacks : Callbacks σ) : Prop where
  startFlow : ∀ {m m'}, m.SameButId m' →
    (callbacks.startFlow m).AdvanceAlike ResultsAgree (callbacks.startFlow m')
  continueFlow : ∀ frame {m m'}, m.SameButId m' →
    (callbacks.continueFlow frame m).AdvanceAlike ResultsAgree (callbacks.continueFlow frame m')
  compensate : ∀ handler cause {m m'}, m.SameButId m' →
    (callbacks.compensate handler cause m).AdvanceAlike ResultsAgree
      (callbacks.compensate handler cause m')

theorem Environment.callbacks_mediateAlike {env : Environment σ}
    (hcol : env.collaborators.MediateAlike) (level : Nat) :
    (env.callbacks level).MediateAlike := by
  cases level with
  | zero =>
    have hexhausted {β : Type} {m m' : Message} (h : m.SameButId m') :
        Run.AdvanceAlike ResultsAgree
          (pure (m, .panicked .exhausted) : Run σ (Message × Outcome β))
          (pure (m', .panicked .exhausted)) := Run.advanceAlike_pure ⟨h, rfl⟩
    exact ⟨fun h => call_alike _ (.startFlow h) (hexhausted h),
      fun frame _ _ h => call_alike _ (.continueFlow frame h) (hexhausted h),
      fun handler cause _ _ h => call_alike _ (.compensate handler cause h) (hexhausted h)⟩
  | succ level =>
    exact ⟨fun h => call_alike _ (.startFlow h) (run_alike (hcol.startFlow h) _),
      fun frame _ _ h =>
        call_alike _ (.continueFlow frame h) (run_alike (hcol.continueFlow frame h) _),
      fun handler cause _ _ h =>
        call_alike _ (.compensate handler cause h) (run_alike (hcol.compensate handler cause h) _)⟩

/-! ## The way of a response -/

section Walk

variable {callbacks : Callbacks σ} {m m' : Message}

theorem runHandler_alike (hc : callbacks.MediateAlike) (h : m.SameButId m') (cause : Fault) :
    (runHandler callbacks m cause).AdvanceAlike ResultsAgree (runHandler callbacks m' cause) := by
  obtain ⟨hid⟩ := h
  unfold runHandler
  dsimp only
  cases m.handlers.pop? with
  | none =>
    exact (Run.advanceAlike_pure ⟨.mk hid, rfl⟩).after_update [.fault .undeliverable]
      (fun _ => ⟨rfl, rfl, rfl⟩) (fun _ => ⟨rfl, rfl, rfl⟩)
  | some top =>
    obtain ⟨handler, below⟩ := top
    have hseen : Message.SameButId { m with fault := some cause, handlers := below } _ := .mk hid
    refine (hc.compensate handler cause hseen).bind fun r r' hr => ?_
    obtain ⟨m, _⟩ := r
    obtain ⟨m', outcome⟩ := r'
    obtain ⟨hm, rfl⟩ := hr
    dsimp only
    cases outcome.caught with
    | ok _ =>
      exact (Run.advanceAlike_pure ⟨hm, rfl⟩).after_update [.fault (.handled handler)]
        (fun _ => ⟨rfl, rfl, rfl⟩) (fun _ => ⟨rfl, rfl, rfl⟩)
    | error e =>
      exact (Run.advanceAlike_pure ⟨hm, rfl⟩).after_update
        [.fault (.handlerFailed handler e.message)]
        (fun _ => ⟨rfl, rfl, rfl⟩) (fun _ => ⟨rfl, rfl, rfl⟩)

theorem routeFault_alike (hc : callbacks.MediateAlike) (m : Message) (cause : Fault)
    (action : ExpiryAction) : (routeFault callbacks m cause action).AdvanceAlike ResultsAgree
      (routeFault callbacks m cause action) := by
  unfold routeFault
  split
  · exact (Run.advanceAlike_pure ⟨.refl _, rfl⟩).after_update [.fault .discarded]
      (fun _ => ⟨rfl, rfl, rfl⟩) (fun _ => ⟨rfl, rfl, rfl⟩)
  · exact runHandler_alike hc (.refl _) cause

theorem settleFault_alike (call : Call) (cause : Fault)
    {route route' : Run σ (Message × Disposition)} (h : route.AdvanceAlike ResultsAgree route') :
    (settleFault callbacks call cause route).AdvanceAlike (· = ·)
      (settleFault callbacks call cause route') := by
  unfold settleFault
  refine Run.AdvanceAlike.after_update [] (fun _ => ⟨rfl, rfl, rfl⟩)
    (fun _ => ⟨rfl, rfl, rfl⟩) (h.bind fun r r' hr => ?_)
  exact (Run.advanceAlike_pure hr.2.symm).after_update []
    (fun _ => ⟨rfl, rfl, rfl⟩) (fun _ => ⟨rfl, rfl, rfl⟩)

/-- The induction is on the rounds that are left: the message that a unit hands back differs in a
generated id again, so the next frame is taken alike. -/
theorem resumeWithin_alike (hc : callbacks.MediateAlike) (rounds : Nat) (h : m.SameButId m') :
    (resumeWithin callbacks rounds m).AdvanceAlike ResultsAgree
      (resumeWithin callbacks rounds m') := by
  induction rounds generalizing m m' with
  | zero =>
    obtain ⟨hid⟩ := h
    unfold resumeWithin
    dsimp only
    cases m.frames.pop? with
    | none => exact Run.advanceAlike_pure ⟨.mk hid, rfl⟩
    | some top => exact Run.advanceAlike_pure ⟨.mk hid, rfl⟩
  | succ rounds ih =>
    obtain ⟨hid⟩ := h
    unfold resumeWithin
    dsimp only
    cases m.frames.pop? with
    | none => exact Run.advanceAlike_pure ⟨.mk hid, rfl⟩
    | some top =>
      obtain ⟨frame, below⟩ := top
      have hseen : Message.SameButId { m with frames := below } _ := .mk hid
      refine (hc.continueFlow frame hseen).bind fun r r' hr => ?_
      obtain ⟨m, _⟩ := r
      obtain ⟨m', outcome⟩ := r'
      obtain ⟨hm, rfl⟩ := hr
      cases outcome with
      | returned verdict =>
        cases verdict with
        | proceed => exact ih hm
        | halt => exact Run.advanceAlike_pure ⟨hm, rfl⟩
      | failed e => exact Run.advanceAlike_pure ⟨hm, rfl⟩
      | panicked p => exact Run.advanceAlike_pure ⟨hm, rfl⟩

theorem mediate_alike (hc : callbacks.MediateAlike) (h : m.SameButId m') :
    (mediate callbacks m).AdvanceAlike ResultsAgree (mediate callbacks m') := by
  have hframes : m'.frames = m.frames := by
    cases h
    rfl
  unfold mediate
  rw [hframes]
  split
  · exact (hc.startFlow h).bind fun _ _ hr =>
      Run.advanceAlike_pure ⟨hr.1, congrArg (Outcome.caught · |>.map Delivery.started) hr.2⟩
  · exact (resumeWithin_alike hc callbacks.rounds h).bind fun _ _ hr =>
      Run.advanceAlike_pure ⟨hr.1, congrArg (Outcome.caught · |>.map Delivery.resumed) hr.2⟩

theorem deliverReply_alike (hc : callbacks.MediateAlike) (call : Call) (h : m.SameButId m') :
    (deliverReply callbacks call m).AdvanceAlike (· = ·) (deliverReply callbacks call m') := by
  unfold deliverReply
  refine (mediate_alike hc h).bind fun r r' hr => ?_
  obtain ⟨m, _⟩ := r
  obtain ⟨m', outcome⟩ := r'
  obtain ⟨hm, rfl⟩ := hr
  cases outcome with
  | ok delivery => exact Run.advanceAlike_pure rfl
  | error e =>
    refine Run.AdvanceAlike.after_update [] (fun _ => ⟨rfl, rfl, rfl⟩)
      (fun _ => ⟨rfl, rfl, rfl⟩) ?_
    refine (settleFault_alike call _ (runHandler_alike hc hm _)).bind fun _ _ houtcome => ?_
    exact Run.advanceAlike_pure (congrArg Delivery.mediationFailed houtcome)

/-- A response to a claimed call takes the same steps wherever it comes in. The reply is the first
place where the two sides differ, by the id that it is given. -/
theorem deliver_alike (hc : callbacks.MediateAlike) (call : Call) (response : Response) :
    (deliver callbacks call response).AdvanceAlike (· = ·) (deliver callbacks call response) := by
  unfold deliver
  cases response.kind with
  | acknowledged => exact Run.advanceAlike_pure rfl
  | sendFailed cause =>
    refine Run.AdvanceAlike.after_update [] (fun _ => ⟨rfl, rfl, rfl⟩)
      (fun _ => ⟨rfl, rfl, rfl⟩) ?_
    refine (settleFault_alike call cause (routeFault_alike hc _ _ _)).bind fun _ _ houtcome => ?_
    exact Run.advanceAlike_pure (congrArg Delivery.sendFailed houtcome)
  | reply envelope =>
    have hfresh : Run.AdvanceAlike (fun id id' => IsGenerated id ∧ IsGenerated id')
        (Run.apply State.freshMessageId : Run σ String) (Run.apply State.freshMessageId) :=
      Run.advanceAlike_apply [] (fun s s' => ⟨⟨s, rfl⟩, ⟨s', rfl⟩⟩)
        (fun _ => ⟨rfl, rfl, rfl⟩) (fun _ => ⟨rfl, rfl, rfl⟩)
    exact hfresh.bind fun id id' hid => deliverReply_alike hc call
      (.mk (m := call.outbound.reply id envelope response.properties) (.inr hid))

end Walk

/-! ## Claims of different calls -/

namespace Registry

variable {r : Registry} {id other : CallId}

/-- The registry after a response for the id that has found a call or none. -/
def answered (r : Registry) (id : CallId) : Option Call → Registry
  | some _ =>
    { calls := r.calls.filter (·.id ≠ id)
      stats := { r.stats with collected := r.stats.collected + 1 } }
  | none => { r with stats := { r.stats with unmatched := r.stats.unmatched + 1 } }

theorem collect_fst (r : Registry) (id : CallId) :
    (r.collect id).1 =
      (r.find? id).bind fun call => if call.mark.1 then some call.mark.2 else none := by
  unfold collect claim?
  cases r.find? id with
  | none => rfl
  | some call => cases hcompletion : call.completion <;> simp [Call.mark, hcompletion]

theorem collect_snd (r : Registry) (id : CallId) :
    (r.collect id).2 = r.answered id (r.collect id).1 := by
  unfold collect claim?
  cases r.find? id with
  | none => rfl
  | some call => cases hcompletion : call.completion <;> simp [Call.mark, hcompletion, answered]

/-- A response leaves the calls with other ids alone. -/
theorem collect_spares (r : Registry) (id : CallId) :
    (r.collect id).2.calls.filter (·.id ≠ id) = r.calls.filter (·.id ≠ id) := by
  rw [collect_snd]
  cases (r.collect id).1 with
  | none => rfl
  | some call => simp [answered, List.filter_filter]

theorem find?_collect_of_ne (h : id ≠ other) : (r.collect other).2.find? id = r.find? id := by
  rw [collect_snd]
  cases (r.collect other).1 with
  | none => rfl
  | some call =>
    unfold find? answered
    dsimp only
    rw [List.find?_filter]
    congr 1
    funext c
    by_cases hc : c.id = id <;> simp [hc, h]

/-- Responses to different calls find the same in either order. -/
theorem collect_fst_of_ne (h : id ≠ other) :
    ((r.collect other).2.collect id).1 = (r.collect id).1 := by
  rw [collect_fst, collect_fst, find?_collect_of_ne h]

theorem collect_comm (h : id ≠ other) (r : Registry) :
    ((r.collect other).2.collect id).2 = ((r.collect id).2.collect other).2 := by
  rw [collect_snd (r.collect other).2, collect_fst_of_ne h, collect_snd r other,
    collect_snd (r.collect id).2, collect_fst_of_ne h.symm, collect_snd r id]
  cases (r.collect id).1 <;> cases (r.collect other).1 <;>
    simp [answered, List.filter_filter, Bool.and_comm]

end Registry

/-! ## Two responses -/

/-- What a response makes of an engine. -/
structure State.Responds (id : CallId) (bookings : List Booking) (calls : List (Nat × Callback))
    (s s' : State) : Prop where
  books : s'.books = bookings.foldl Books.book s.books
  callbacks : s'.journal.callbacks = calls ++ s.journal.callbacks
  registry : s'.registry = (s.registry.collect id).2

/-- What is booked when a response has found a call or none. -/
def Booking.found : Option Call → List Booking
  | some _ => [.taken]
  | none => []

theorem State.collect_eq (s : State) (id : CallId) : ∃ s',
    s.collect .response id = ((s.registry.collect id).1, s') ∧
      s.Responds id (Booking.found (s.registry.collect id).1) [] s' := by
  unfold State.collect
  cases hcollect : s.registry.collect id with
  | mk found registry =>
    have hregistry : registry = (s.registry.collect id).2 := hcollect ▸ rfl
    cases found with
    | none => exact ⟨_, rfl, rfl, rfl, hregistry⟩
    | some call => exact ⟨_, rfl, rfl, rfl, hregistry⟩

theorem State.Responds.advances {s t u : State} {id : CallId} {bookings bookings' : List Booking}
    {calls : List (Nat × Callback)} (h : s.Responds id bookings [] t)
    (h' : t.Advances bookings' calls u) : s.Responds id (bookings ++ bookings') calls u where
  books := by rw [h'.books, h.books, List.foldl_append]
  callbacks := by rw [h'.callbacks, h.callbacks]; rfl
  registry := h'.registry.trans h.registry

/-- A response that finds the same call on two engines, or none, is dealt with alike there. That it
does find the same one is a matter of the registry alone (`Registry.collect_fst_of_ne`). -/
theorem respond_alike {callbacks : Callbacks σ} (hc : callbacks.MediateAlike) (id : CallId)
    (response : Response) {host host' : Host σ}
    (hfound : (host'.state.registry.collect id).1 = (host.state.registry.collect id).1) :
    ∃ delivery later later' bookings calls calls',
      respond callbacks id response host = .ended delivery later ∧
      respond callbacks id response host' = .ended delivery later' ∧
      CallsAgree calls calls' ∧
      host.state.Responds id bookings calls later.state ∧
      host'.state.Responds id bookings calls' later'.state := by
  obtain ⟨s, hcollect, hs⟩ := host.state.collect_eq id
  obtain ⟨s', hcollect', hs'⟩ := host'.state.collect_eq id
  rw [hfound] at hcollect' hs'
  unfold respond
  rw [Run.apply_bind, Run.apply_bind, hcollect, hcollect']
  generalize (host.state.registry.collect id).1 = found at hs hs'
  dsimp only
  have hrest : ∀ {rest : Run σ Delivery}, rest.AdvanceAlike (· = ·) rest →
      ∃ delivery later later' bookings calls calls',
        rest ⟨s, host.memory⟩ = .ended delivery later ∧
        rest ⟨s', host'.memory⟩ = .ended delivery later' ∧
        CallsAgree calls calls' ∧
        host.state.Responds id bookings calls later.state ∧
        host'.state.Responds id bookings calls' later'.state := by
    intro rest halike
    obtain ⟨delivery, _, later, later', bookings, calls, calls', hrun, hrun', rfl, hcalls, hlater,
      hlater'⟩ := halike ⟨s, host.memory⟩ ⟨s', host'.memory⟩
    exact ⟨delivery, later, later', _, calls, calls', hrun, hrun', hcalls, hs.advances hlater,
      hs'.advances hlater'⟩
  cases found with
  | none =>
    exact hrest ((Run.advanceAlike_pure rfl).after_update [.response .unmatched]
      (fun _ => ⟨rfl, rfl, rfl⟩) (fun _ => ⟨rfl, rfl, rfl⟩))
  | some call =>
    refine hrest (Run.AdvanceAlike.after_update [.released] State.advances_release
      State.advances_release ?_)
    refine (deliver_alike hc call response).bind fun delivery _ hdelivery => ?_
    subst hdelivery
    exact (Run.advanceAlike_pure rfl).after_update [.response delivery]
      (fun _ => ⟨rfl, rfl, rfl⟩) (fun _ => ⟨rfl, rfl, rfl⟩)

/-- A response is dealt with, and the calls with other ids wait as before. -/
structure Delivers (callbacks : Callbacks σ) (id : CallId) (response : Response)
    (delivery : Delivery) (host later : Host σ) : Prop where
  ended : respond callbacks id response host = .ended delivery later
  others : later.state.registry.calls.filter (·.id ≠ id) =
    host.state.registry.calls.filter (·.id ≠ id)

theorem State.Responds.delivers {callbacks : Callbacks σ} {id : CallId} {response : Response}
    {delivery : Delivery} {host later : Host σ} {bookings : List Booking}
    {calls : List (Nat × Callback)} (h : host.state.Responds id bookings calls later.state)
    (hended : respond callbacks id response host = .ended delivery later) :
    Delivers callbacks id response delivery host later :=
  ⟨hended, h.registry ▸ Registry.collect_spares _ _⟩

/-- The collaborators have been called alike from `host` to `later` and from `host'` to `later'`. -/
def CalledAlike (host later host' later' : Host σ) : Prop :=
  ∃ calls calls', CallsAgree calls calls' ∧
    later.state.journal.callbacks = calls ++ host.state.journal.callbacks ∧
    later'.state.journal.callbacks = calls' ++ host'.state.journal.callbacks

/-- Two responses come to the same in either order.  From `host` the first one leads to `h₁` and
the second one from there to `h₁₂`, or the second one leads to `h₂` and the first one to `h₂₁`. -/
structure InEitherOrder (callbacks : Callbacks σ) (id₁ id₂ : CallId)
    (response₁ response₂ : Response) (delivery₁ delivery₂ : Delivery)
    (host h₁ h₁₂ h₂ h₂₁ : Host σ) : Prop where
  /-- Each of them is dealt with in the same way, be it the first or the second. -/
  first₁ : Delivers callbacks id₁ response₁ delivery₁ host h₁
  second₂ : Delivers callbacks id₂ response₂ delivery₂ h₁ h₁₂
  first₂ : Delivers callbacks id₂ response₂ delivery₂ host h₂
  second₁ : Delivers callbacks id₁ response₁ delivery₁ h₂ h₂₁
  /-- The calls that are left and the statistics are the same. -/
  registry : h₂₁.state.registry = h₁₂.state.registry
  admission : h₂₁.state.admission = h₁₂.state.admission
  metrics : h₂₁.state.metrics = h₁₂.state.metrics
  /-- Each of them has the collaborators called in the same way. -/
  calls₁ : CalledAlike host h₁ h₂ h₂₁
  calls₂ : CalledAlike h₁ h₁₂ host h₂

/-- Two responses for different ids, be they pending or not, come to the same in either order. -/
theorem respond_commutes {env : Environment σ} (hcol : env.collaborators.MediateAlike)
    (level : Nat) {id₁ id₂ : CallId} (hne : id₁ ≠ id₂) (response₁ response₂ : Response)
    (host : Host σ) : ∃ delivery₁ delivery₂ h₁ h₁₂ h₂ h₂₁,
      InEitherOrder (env.callbacks level) id₁ id₂ response₁ response₂ delivery₁ delivery₂
        host h₁ h₁₂ h₂ h₂₁ := by
  have hc := Environment.callbacks_mediateAlike hcol level
  have hsame : (host.state.registry.collect id₂).1 = (host.state.registry.collect id₂).1 := rfl
  obtain ⟨delivery₂, h₂, _, _, _, _, hended₂, -, -, hlater₂, -⟩ :=
    respond_alike hc id₂ response₂ hsame
  -- The second response has been there before, and has left the call of the first one alone.
  have hfound₁ : (h₂.state.registry.collect id₁).1 = (host.state.registry.collect id₁).1 := by
    rw [hlater₂.registry, Registry.collect_fst_of_ne hne]
  obtain ⟨delivery₁, h₁, h₂₁, bookings₁, calls₁, calls₂₁, hended₁, hended₂₁, hcalls₁, hleft₁,
    hleft₂₁⟩ := respond_alike hc id₁ response₁ hfound₁
  have hfound₂ : (host.state.registry.collect id₂).1 = (h₁.state.registry.collect id₂).1 := by
    rw [hleft₁.registry, Registry.collect_fst_of_ne hne.symm]
  obtain ⟨delivery₁₂, h₁₂, other, bookings₂, calls₁₂, calls₂, hended₁₂, hother, hcalls₂, hleft₁₂,
    hleft₂⟩ := respond_alike hc id₂ response₂ hfound₂
  obtain ⟨rfl, rfl⟩ : delivery₂ = delivery₁₂ ∧ h₂ = other :=
    Progress.ended.inj (hended₂.symm.trans hother)
  have hbooks : h₂₁.state.books = h₁₂.state.books := by
    -- Both orders book the same two lists, one after the other.
    rw [hleft₂₁.books, hleft₂.books, hleft₁₂.books, hleft₁.books, Books.foldl_book_comm]
  refine ⟨delivery₁, delivery₂, h₁, h₁₂, h₂, h₂₁, ?_⟩
  constructor
  case first₁ => exact hleft₁.delivers hended₁
  case second₂ => exact hleft₁₂.delivers hended₁₂
  case first₂ => exact hleft₂.delivers hended₂
  case second₁ => exact hleft₂₁.delivers hended₂₁
  case registry =>
    rw [hleft₂₁.registry, hleft₂.registry, hleft₁₂.registry, hleft₁.registry,
      Registry.collect_comm hne]
  case admission => exact congrArg (·.admission) hbooks
  case metrics => exact congrArg (·.metrics) hbooks
  case calls₁ => exact ⟨calls₁, calls₂₁, hcalls₁, hleft₁.callbacks, hleft₂₁.callbacks⟩
  case calls₂ => exact ⟨calls₁₂, calls₂, hcalls₂, hleft₁₂.callbacks, hleft₂.callbacks⟩

/-! ## Two calls that end badly -/

/-- No suspended unit can go on.  Fault handlers make a message on the side, and count how often
they are run. -/
def Environment.faltering : Environment Nat where
  collaborators :=
    { Collaborators.idle with
      continueFlow := fun _ msg => .done (msg, .failed { root := "unit is gone" })
      compensate := fun _ _ msg =>
        .ask (.compose msg.envelope false) fun _ =>
          .recall fun runs => .remember (runs + 1) (.done (msg, .returned ())) }
  rounds := 2

theorem faltering_mediateAlike : Environment.faltering.collaborators.MediateAlike where
  startFlow h := by
    refine ⟨trivial, trivial, ?_⟩
    rintro r r' ⟨_, _, _, ⟨⟩⟩ ⟨_, _, _, ⟨⟩⟩
    exact ⟨h, rfl⟩
  continueFlow frame _ _ h := by
    refine ⟨trivial, trivial, ?_⟩
    rintro r r' ⟨_, _, _, ⟨⟩⟩ ⟨_, _, _, ⟨⟩⟩
    exact ⟨h, rfl⟩
  compensate handler cause _ _ h := by
    refine ⟨⟨trivial, fun _ _ => trivial⟩, ⟨trivial, fun _ _ => trivial⟩, ?_⟩
    rintro r r' ⟨_, _, _, ⟨⟩⟩ ⟨_, _, _, ⟨⟩⟩
    exact ⟨h, rfl⟩

/-- Two calls wait, the first one for a message with a suspended unit. -/
def Host.waitingTwice : Host Nat where
  state :=
    { State.init {} {} 0 with
      registry := { calls :=
        [{ Call.plain "a" .fault 5 with
            outbound := { Message.plain "a" with frames := ⟨[⟨.named "unit", .topLevel 1⟩]⟩ } },
          .plain "b" .fault 10] }
      admission := { key := "key", limit := 10, inFlight := 2 } }
  memory := 0

/-- How a response is dealt with, if that takes no waiting. -/
def Environment.delivery? (env : Environment σ) (id : CallId) (response : Response)
    (host : Host σ) : Option Delivery :=
  match respond (env.callbacks 1) id response host with
  | .ended delivery _ => some delivery
  | .waiting .. => none

/-- The reply to the one call cannot be mediated, and the other call could not be sent. -/
theorem respond_commutes_waitingTwice :
    ∃ h₁ h₁₂ h₂ h₂₁,
      InEitherOrder (Environment.faltering.callbacks 1) ⟨"a"⟩ ⟨"b"⟩
        { kind := .reply ⟨.rest, .null, false⟩ } { kind := .sendFailed (.timeout 7) }
        (.mediationFailed (.handled (.sequence "onFault")))
        (.sendFailed (.handled (.sequence "onFault"))) Host.waitingTwice h₁ h₁₂ h₂ h₂₁ := by
  have hne : (⟨"a"⟩ : CallId) ≠ ⟨"b"⟩ := by decide
  obtain ⟨delivery₁, delivery₂, h₁, h₁₂, h₂, h₂₁, h⟩ := respond_commutes faltering_mediateAlike 1
    hne { kind := .reply ⟨.rest, .null, false⟩ } { kind := .sendFailed (.timeout 7) }
    Host.waitingTwice
  have hdelivery₁ : Environment.faltering.delivery? ⟨"a"⟩
      { kind := .reply ⟨.rest, .null, false⟩ } Host.waitingTwice =
        some (.mediationFailed (.handled (.sequence "onFault"))) := by decide +kernel
  have hdelivery₂ : Environment.faltering.delivery? ⟨"b"⟩ { kind := .sendFailed (.timeout 7) }
      Host.waitingTwice = some (.sendFailed (.handled (.sequence "onFault"))) := by decide +kernel
  rw [Environment.delivery?, h.first₁.ended] at hdelivery₁
  rw [Environment.delivery?, h.first₂.ended] at hdelivery₂
  obtain rfl := Option.some.inj hdelivery₁
  obtain rfl := Option.some.inj hdelivery₂
  exact ⟨h₁, h₁₂, h₂, h₂₁, h⟩

end Correlator
