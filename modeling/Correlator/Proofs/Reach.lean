import Correlator.Engine.Program
import Correlator.Proofs.Operations

/-!
# Runs of an engine

A run begins with a new engine and is made of programs from outside, each seen through to its end
while the workers of the engine go on, and of times at which the workers have the engine to
themselves.  Collaborators are programs too, so they may ask for anything that the outside may ask
for, to any depth of nesting.  `Environment.Reaches` collects the sites that such runs arrive at.
Since a program may be any sequence of operations, these include every moment between two
operations; the moments inside an operation at which somebody else gets to look are in the journal.

Restrictions on who may ask for what are predicates on operations.  The one that matters to the
books is `Operation.IsIndirect`: nobody goes past the engine to its registry or its count of calls
in flight.

## Main results

* `Environment.callbacks_enter` : an induction on the level of nesting.
* `Environment.Reaches.isAlong` : everything that is reached lies along each relation that takes in
  all moves.
* `Environment.Reaches.invariant` : whatever a new engine has and every step keeps, holds
  throughout every run.
* `Environment.Reaches.always` : if it is about what is pending and in flight, it also holds at
  every moment that the journal records.
-/

namespace Correlator

variable {σ α : Type}

/-! ## What programs may ask for -/

/-- The operation goes through the engine, not past it to its registry or to its count of calls in
flight. -/
def Operation.IsIndirect : Operation → Prop
  | .register _ | .collect _ | .claim _ | .acquire | .release => False
  | _ => True

/-- The program asks for nothing but what is allowed, whatever it remembers and however it is
answered. Answers that the engine never gives count too, so this can be checked on the program
alone. -/
def Program.AsksOnly (allowed : Operation → Prop) : Program σ α → Prop
  | .done _ => True
  | .recall next => ∀ memory, (next memory).AsksOnly allowed
  | .remember _ next => next.AsksOnly allowed
  | .ask op next => allowed op ∧ ∀ answer, (next answer).AsksOnly allowed

/-- The collaborators ask for nothing else. -/
structure Collaborators.AskOnly (c : Collaborators σ) (allowed : Operation → Prop) : Prop where
  transmit : ∀ wire, (c.transmit wire).AsksOnly allowed
  writeBack : ∀ answer, (c.writeBack answer).AsksOnly allowed
  startFlow : ∀ msg, (c.startFlow msg).AsksOnly allowed
  continueFlow : ∀ frame msg, (c.continueFlow frame msg).AsksOnly allowed
  compensate : ∀ handler cause msg, (c.compensate handler cause msg).AsksOnly allowed

theorem Program.AsksOnly.mono {allowed allowed' : Operation → Prop}
    (hsub : ∀ op, allowed op → allowed' op) {p : Program σ α} (h : p.AsksOnly allowed) :
    p.AsksOnly allowed' := by
  induction p with
  | done result => exact trivial
  | «recall» next ih => exact fun memory => ih memory (h memory)
  | remember memory next ih => exact ih h
  | ask op next ih => exact ⟨hsub op h.1, fun answer => ih answer (h.2 answer)⟩

theorem Collaborators.AskOnly.mono {allowed allowed' : Operation → Prop}
    (hsub : ∀ op, allowed op → allowed' op) {c : Collaborators σ} (h : c.AskOnly allowed) :
    c.AskOnly allowed' where
  transmit wire := (h.transmit wire).mono hsub
  writeBack answer := (h.writeBack answer).mono hsub
  startFlow msg := (h.startFlow msg).mono hsub
  continueFlow frame msg := (h.continueFlow frame msg).mono hsub
  compensate handler cause msg := (h.compensate handler cause msg).mono hsub

/-- Nothing is forbidden. -/
theorem Program.asksOnly_true (p : Program σ α) : p.AsksOnly fun _ => True := by
  induction p with
  | done => exact trivial
  | «recall» next ih => exact ih
  | remember memory next ih => exact ih
  | ask op next ih => exact ⟨trivial, ih⟩

theorem Collaborators.askOnly_true (c : Collaborators σ) : c.AskOnly fun _ => True where
  transmit wire := (c.transmit wire).asksOnly_true
  writeBack answer := (c.writeBack answer).asksOnly_true
  startFlow msg := (c.startFlow msg).asksOnly_true
  continueFlow frame msg := (c.continueFlow frame msg).asksOnly_true
  compensate handler cause msg := (c.compensate handler cause msg).asksOnly_true

/-- It is on record that somebody asks for an operation. -/
def Host.asked (level : Nat) (host : Host σ) : Host σ :=
  { host with state := host.state.note (.asked level host.state.moment) }

/-- It is on record that an operation has been answered. -/
def Host.answered (level : Nat) (host : Host σ) : Host σ :=
  { host with state := host.state.note (.answered level host.state.moment) }

/-- It is on record that a collaborator is called. -/
def Host.entered (level : Nat) (callback : Callback) (host : Host σ) : Host σ :=
  { host with state := host.state.note (.entered level callback host.state.moment) }

/-- The journal has only grown, and a property of the state has not been lost. As a relation
between an earlier and a later host this is a preorder, so it goes along with work of any length
and with whatever others do meanwhile. -/
structure Host.Keeps (P : State → Prop) (h h' : Host σ) : Prop where
  suffix : h.state.journal <:+ h'.state.journal
  keeps : P h.state → P h'.state

instance (P : State → Prop) : IsPreorder (Host σ) (Host.Keeps P) where
  refl _ := ⟨List.suffix_refl _, id⟩
  trans _ _ _ h h' := ⟨h.suffix.trans h'.suffix, h'.keeps ∘ h.keeps⟩

/-- The sites that runs of new engines arrive at. Settings, clock, first identifier and memory are
arbitrary, and so are the programs, but for the operations that they may ask for; `depth` is how
deep collaborators may nest. -/
inductive Environment.Reaches (env : Environment σ) (allowed : Operation → Prop) (depth : Nat) :
    Site (Host σ) → Prop
  /-- A new engine. -/
  | fresh (config : Config) (clock : Clock) (nextId : Nat) (memory : σ) :
      Reaches env allowed depth { state := ⟨.init config clock nextId, memory⟩ }
  /-- A program from outside has been seen through. -/
  | completed {site : Site (Host σ)} {α : Type} {p : Program σ α} (hp : p.AsksOnly allowed)
      (h : Reaches env allowed depth site) : Reaches env allowed depth (env.complete depth p site).2
  /-- The workers have gone on as far as they could. -/
  | settled {site : Site (Host σ)} (h : Reaches env allowed depth site) :
      Reaches env allowed depth (env.settle depth site)

/-! ## Programs and callbacks go along -/

variable {patient : Prop} {allowed : Operation → Prop} {rel : Host σ → Host σ → Prop}
  [IsPreorder (Host σ) rel]

/-- The induction is on the program; each operation that it asks for is answered along the
relation, and it goes on by the answer. -/
theorem Program.run_meets {answer : (op : Operation) → Run σ op.Answer}
    (hmemory : ∀ (h : Host σ) (memory : σ), rel h { h with memory })
    (hanswer : ∀ op, allowed op → (answer op).Along patient rel) {p : Program σ α}
    (hp : p.AsksOnly allowed) (host : Host σ) :
    (p.run answer host).Meets patient rel (fun a _ => p.CanGive a) host := by
  induction p generalizing host with
  | done result => exact ⟨refl_of rel host, rfl⟩
  | «recall» next ih =>
    exact (ih host.memory (hp host.memory) host).mono fun a _ ha => ⟨host.memory, ha⟩
  | remember memory next ih => exact (ih hp { host with memory }).of_earlier (hmemory host memory)
  | ask op next ih =>
    refine Progress.Along.bind (hanswer op hp.1 host) fun a later _ => ?_
    exact (ih a (hp.2 a) later).mono fun result _ hresult => ⟨a, hresult⟩

namespace Environment

variable {env : Environment σ} {depth : Nat} {site : Site (Host σ)}

/-- What ends at once also ends at once when it is noted. -/
theorem noted_eq_ended {before after : Moment → Entry} {work : Run σ α} {result : α}
    {host later : Host σ}
    (h : work { host with state := host.state.note (before host.state.moment) } =
      .ended result later) :
    noted before after work host =
      .ended result { later with state := later.state.note (after later.state.moment) } := by
  unfold noted
  rw [Run.update_bind, Work.bind_apply, h]
  rfl

theorem run_perform (op : Operation) :
    env.run depth (.perform op) = serve (env.callbacks depth) op := bind_pure _

theorem callbacks_level (env : Environment σ) (depth : Nat) :
    (env.callbacks depth).level = depth := by
  cases depth <;> rfl

theorem callbacks_rounds (env : Environment σ) (depth : Nat) :
    (env.callbacks depth).rounds = env.rounds := by
  cases depth <;> rfl

/-- An operation that a program asks for is noted before and after. -/
theorem complete_perform_eq (op : Operation) :
    env.complete depth (.perform op) site =
      let done := (sweepers (env.callbacks depth)).complete env.rounds
        (perform (env.callbacks depth) op (site.state.asked depth)) site
      (done.1, { done.2 with state := done.2.state.answered depth }) := by
  unfold complete Crew.perform
  rw [run_perform, serve, noted, Run.update_bind, callbacks_level]
  exact Crew.complete_map _ _ _ id (·.answered depth) site

/-- An operation that ends at once leaves the crew alone. -/
theorem complete_perform_of_ended {op : Operation} {result : op.Answer} {later : Host σ}
    (h : perform (env.callbacks depth) op (site.state.asked depth) = .ended result later) :
    env.complete depth (.perform op) site =
      (result, { site with state := later.answered depth }) := by
  rw [complete_perform_eq, h]
  rfl

/-- One that waits once leaves it to the crew for so long. -/
theorem complete_perform_of_waiting {op : Operation} {wait : Wait (Host σ)} {begun : Host σ}
    {result : Host σ → op.Answer} {finish : Host σ → Host σ}
    (h : perform (env.callbacks depth) op (site.state.asked depth) =
      .waiting wait begun fun later => .ended (result later) (finish later))
    {attended : Site (Host σ)}
    (hattended : (sweepers (env.callbacks depth)).attend env.rounds
      { site with state := begun } wait = attended) :
    env.complete depth (.perform op) site =
      (result attended.state,
        { attended with state := (finish attended.state).answered depth }) := by
  rw [complete_perform_eq, h, ← hattended]
  rfl

/-- A callback is on record from the moment at which it is entered, and when it has ended that is
the last thing on record. -/
theorem call_meets (ha : env.Allows patient allowed rel) {level : Nat} {callback : Callback}
    {work : Run σ α} {P : α → Prop} {host : Host σ}
    (hwork : ∀ h : Host σ, (work h).Meets patient rel (fun a _ => P a) h) :
    (call level callback work host).Meets patient rel
      (fun a later => P a ∧
        ∃ moment past, later.state.journal = .left level callback moment :: past)
      (host.entered level callback) := by
  unfold call noted
  rw [Run.update_bind]
  refine Progress.Meets.bind (hwork _) fun a later hlater hP => ?_
  have hrecord : ∃ moment, .entered level callback moment ∈ later.state.journal :=
    ⟨_, (ha.suffix hlater).subset List.mem_cons_self⟩
  exact Run.meets_update_bind (ha.move (.left hrecord)) ⟨refl_of rel _, hP, _, _, rfl⟩

/-- An operation that is allowed goes along the relation whenever somebody asks for it; the two
notes around it are moves of the journal, which every relation takes in. -/
theorem serve_along (ha : env.Allows patient allowed rel) {callbacks : Callbacks σ}
    (hc : callbacks.Along env.collaborators patient rel) {op : Operation} (hop : allowed op) :
    (serve callbacks op).Along patient rel := by
  intro host
  unfold serve noted
  refine Run.meets_update_bind (ha.move (.asked callbacks.level)) ?_
  refine Progress.Along.bind (perform_along ha hc hop fun m => trivial) fun a later _ => ?_
  exact Run.meets_update_bind (ha.move (.answered callbacks.level)) (Work.along_pure a _)

/-- A message that is handed back is on record as the last thing that happened. -/
theorem handed_meets (ha : env.Allows patient allowed rel) {level : Nat} {callback : Callback}
    {work : Run σ (Message × α)} {host : Host σ}
    (hwork : ∀ h : Host σ, (work h).Meets patient rel
      (fun a _ => env.collaborators.Hands callback a.1) h) :
    (call level callback work host).Meets patient rel
      (fun a later => later.state.journal.Vouches env.collaborators a.1)
      (host.entered level callback) := by
  refine (call_meets ha hwork).mono ?_
  rintro a later ⟨hhands, moment, past, hjournal⟩
  rw [hjournal]
  exact ⟨a.1, hhands, .refl _⟩

end Environment

/-- The callbacks go along the relation once it is on record that they are made. -/
structure Callbacks.Enter (callbacks : Callbacks σ) (c : Collaborators σ) (patient : Prop)
    (rel : Host σ → Host σ → Prop) : Prop where
  transmit : ∀ (wire : Message) (host : Host σ), (callbacks.transmit wire host).Along patient rel
    (host.entered callbacks.level (.transmit wire))
  writeBack : ∀ (answer : Message) (host : Host σ), (callbacks.writeBack answer host).Along patient
    rel (host.entered callbacks.level (.writeBack answer))
  startFlow : ∀ (msg : Message) (host : Host σ), (callbacks.startFlow msg host).Meets patient rel
    (fun result later => later.state.journal.Vouches c result.1)
    (host.entered callbacks.level (.startFlow msg))
  continueFlow : ∀ (frame : Frame) (msg : Message) (host : Host σ),
    (callbacks.continueFlow frame msg host).Meets patient rel
      (fun result later => later.state.journal.Vouches c result.1)
      (host.entered callbacks.level (.continueFlow frame msg))
  compensate : ∀ (handler : Handler) (cause : Fault) (msg : Message) (host : Host σ),
    (callbacks.compensate handler cause msg host).Along patient rel
      (host.entered callbacks.level (.compensate handler cause msg))

/-- Whoever is called for anything but to write an answer gets a message that is vouched for. -/
theorem Callbacks.Enter.along {env : Environment σ} (ha : env.Allows patient allowed rel)
    {callbacks : Callbacks σ} (h : callbacks.Enter env.collaborators patient rel) :
    callbacks.Along env.collaborators patient rel := by
  -- An answer is not vouched for, so the move that enters a callback is there for all of them but
  -- that.
  have hentered (callback : Callback) {host : Host σ}
      (hcallback : ∀ answer, callback ≠ .writeBack answer)
      (hvouched : host.state.journal.Vouches env.collaborators callback.message) :
      rel host (host.entered callbacks.level callback) :=
    ha.move (.entered callbacks.level hcallback hvouched)
  constructor
  · exact fun {wire host} hvouched =>
      (h.transmit wire host).of_earlier (hentered (.transmit wire) (by simp) hvouched)
  · exact fun {answer _ host} hbegun => (h.writeBack answer host).of_earlier hbegun
  · exact fun {msg host} hvouched =>
      (h.startFlow msg host).of_earlier (hentered (.startFlow msg) (by simp) hvouched)
  · exact fun frame {msg host} hvouched =>
      (h.continueFlow frame msg host).of_earlier
        (hentered (.continueFlow frame msg) (by simp) hvouched)
  · exact fun handler cause {msg host} hvouched =>
      (h.compensate handler cause msg host).of_earlier
        (hentered (.compensate handler cause msg) (by simp) hvouched)

namespace Environment

variable {env : Environment σ} {depth : Nat} {site : Site (Host σ)}

/-- The induction is on the level: what a collaborator asks for at one level is done with the
callbacks of the level below. At the lowest level nobody is called, and a message is handed back as
it was. -/
theorem callbacks_enter (ha : env.Allows patient allowed rel)
    (hcol : env.collaborators.AskOnly allowed) (level : Nat) :
    (env.callbacks level).Enter env.collaborators patient rel := by
  have exhausted {β : Type} (a : β) {P : β → Prop} (hP : P a) (h : Host σ) :
      ((pure a : Run σ β) h).Meets patient rel (fun a _ => P a) h := ⟨refl_of rel h, hP⟩
  induction level with
  | zero =>
    unfold callbacks
    constructor
    · exact fun wire host => (call_meets ha (P := fun _ => True) (exhausted _ trivial)).along
    · exact fun answer host => (call_meets ha (P := fun _ => True) (exhausted _ trivial)).along
    · exact fun msg host => handed_meets ha (exhausted _ (.untouched (.startFlow msg)))
    · exact fun frame msg host =>
        handed_meets ha (exhausted _ (.untouched (.continueFlow frame msg)))
    · exact fun handler cause msg host =>
        (call_meets ha (P := fun _ => True) (exhausted _ trivial)).along
  | succ level ih =>
    -- Whatever is done at this level by collaborators is done by programs that ask the level
    -- below.
    have inner {β : Type} {p : Program σ β} (hp : p.AsksOnly allowed) (h : Host σ) :
        (p.run (fun op host => serve (env.callbacks level) op host) h).Meets patient rel
          (fun a _ => p.CanGive a) h :=
      Program.run_meets ha.memory (fun op hop => serve_along ha (ih.along ha) hop) hp h
    unfold callbacks
    constructor
    · exact fun wire host => (call_meets ha (inner (hcol.transmit wire))).along
    · exact fun answer host => (call_meets ha (inner (hcol.writeBack answer))).along
    · refine fun msg host => handed_meets ha fun h => ?_
      exact (inner (hcol.startFlow msg) h).mono fun _ _ hgive => .startFlow hgive
    · refine fun frame msg host => handed_meets ha fun h => ?_
      exact (inner (hcol.continueFlow frame msg) h).mono fun _ _ hgive => .continueFlow hgive
    · exact fun handler cause msg host =>
        (call_meets ha (inner (hcol.compensate handler cause msg))).along

theorem callbacks_along (ha : env.Allows patient allowed rel)
    (hcol : env.collaborators.AskOnly allowed) (level : Nat) :
    (env.callbacks level).Along env.collaborators patient rel :=
  (callbacks_enter ha hcol level).along ha

theorem run_along (ha : env.Allows patient allowed rel)
    (hcol : env.collaborators.AskOnly allowed) (depth : Nat) {p : Program σ α}
    (hp : p.AsksOnly allowed) : (env.run depth p).Along patient rel := fun host =>
  (Program.run_meets ha.memory (fun _ hop => serve_along ha (callbacks_along ha hcol depth) hop) hp
    host).along

/-! ## Reached sites -/

/-- What a run arrives at is later than the new engine that it began with, and so is whatever is
still waiting there once it goes on, if the workers and the programs from outside only go along the
relation. -/
theorem Reaches.isAlong
    (hcrew : (sweepers (env.callbacks depth)).Along rel)
    (hrun : ∀ {α : Type} {p : Program σ α}, p.AsksOnly allowed → (env.run depth p).Along True rel)
    (h : env.Reaches allowed depth site) :
    ∃ config clock nextId memory,
      site.IsAlong (sweepers (env.callbacks depth)) rel
        ⟨State.init config clock nextId, memory⟩ := by
  induction h with
  | fresh config clock nextId memory =>
    exact ⟨config, clock, nextId, memory, refl_of rel _, fun _ h => nomatch h⟩
  | completed hp _ ih =>
    obtain ⟨config, clock, nextId, memory, hsite⟩ := ih
    exact ⟨config, clock, nextId, memory, (Crew.complete_isAlong hcrew _ hsite (hrun hp _)).1⟩
  | settled _ ih =>
    obtain ⟨config, clock, nextId, memory, hsite⟩ := ih
    exact ⟨config, clock, nextId, memory, (hcrew.preserves _).settle _ hsite⟩

/-- What a relation says of a new engine and what comes later holds of every site that is
reached. -/
theorem Reaches.later (ha : env.Allows True allowed rel)
    (hapart : ∀ (h : Host σ) {s' : State}, h.state.Apart s' → rel h { h with state := s' })
    (hcol : env.collaborators.AskOnly allowed) (h : env.Reaches allowed depth site) :
    ∃ config clock nextId memory, rel ⟨State.init config clock nextId, memory⟩ site.state := by
  obtain ⟨config, clock, nextId, memory, hsite⟩ :=
    h.isAlong (sweepers_along ha hapart (callbacks_along ha hcol depth)) fun hp =>
      run_along ha hcol depth hp
  exact ⟨config, clock, nextId, memory, hsite.state⟩

/-- Whoever goes through the engine changes its books step by step. -/
theorem allows_later (env : Environment σ) :
    env.Allows True Operation.IsIndirect Host.Later where
  suffix := State.Steps.journal_suffix
  memory _ _ := .refl
  move := State.Move.steps
  lock _ _ _ := State.steps_lock _ _
  unlock _ _ := State.steps_unlock _
  sweep h := absurd trivial h
  inside {op} hop hcalls callbacks := by
    have hapart (h : Host σ) {s' : State} (hs' : h.state.Apart s') :
        Host.Later h { h with state := s' } := .single (.aside hs'.toAside)
    cases op with
    | register | collect | claim | acquire | release => exact hop.elim
    | markGuard guard => exact fun host => ⟨.single (.aside (State.aside_markGuard _ _)), trivial⟩
    | _ => exact perform_along_of_apart trivial hapart hcalls fun h => h

/-- A property of states is kept throughout all runs if moves keep it, the beginning of a sweep
keeps it, what is no affair of the books and the guards keeps it, and so do the direct operations
that are allowed. -/
theorem allows_keeps {P : State → Prop}
    (hmove : ∀ {s s' : State}, State.Move env.collaborators s s' → P s → P s')
    (hlock : ∀ {s : State} (now : Millis), P s → P (s.lock now))
    (hapart : ∀ {s s' : State}, s.Apart s' → P s → P s')
    (hdirect : ∀ {op : Operation}, allowed op → op.IsDirect → ∀ callbacks : Callbacks σ,
      (perform callbacks op).Along True (Host.Keeps P)) :
    env.Allows True allowed (Host.Keeps P) where
  suffix h := h.suffix
  memory _ _ := ⟨List.suffix_refl _, id⟩
  move h := ⟨(State.Move.steps h).journal_suffix, hmove h⟩
  lock _ _ now := ⟨(State.steps_lock _ now).journal_suffix, hlock now⟩
  unlock _ _ := ⟨List.suffix_refl _, hapart ⟨⟨rfl, rfl, rfl, fun _ h => h⟩, rfl⟩⟩
  sweep h := absurd trivial h
  inside {op} hop hcalls callbacks := by
    by_cases hop' : op.IsDirect
    · exact hdirect hop hop' callbacks
    · refine perform_along_of_apart trivial (fun h s' hs' => ?_) hcalls hop'
      exact ⟨hs'.journal ▸ List.suffix_refl _, hapart hs'⟩

/-- What a new engine has and is kept, holds throughout every run. -/
theorem Reaches.kept {P : State → Prop}
    (hinit : ∀ config clock nextId, P (State.init config clock nextId))
    (ha : env.Allows True allowed (Host.Keeps P))
    (hapart : ∀ {s s' : State}, s.Apart s' → P s → P s')
    (hcol : env.collaborators.AskOnly allowed) (h : env.Reaches allowed depth site) :
    P site.state.state := by
  obtain ⟨config, clock, nextId, memory, hlater⟩ := h.later ha
    (fun _ _ hs' => ⟨hs'.journal ▸ List.suffix_refl _, hapart hs'⟩) hcol
  exact hlater.keeps (hinit config clock nextId)

/-- What a new engine has and every step keeps, holds throughout every run. This is the way for
properties of the books: a `State.Step` is what changes them, and those who go through the engine
make nothing but steps. -/
theorem Reaches.invariant {P : State → Prop}
    (hinit : ∀ config clock nextId, P (State.init config clock nextId))
    (hstep : ∀ {s s'}, P s → State.Step s s' → P s')
    (hcol : env.collaborators.AskOnly Operation.IsIndirect)
    (h : env.Reaches Operation.IsIndirect depth site) : P site.state.state := by
  obtain ⟨config, clock, nextId, memory, hlater⟩ := h.later env.allows_later
    (fun _ _ hs' => .single (.aside hs'.toAside)) hcol
  -- The steps are followed from the new engine on; the last of them keeps what the others have
  -- kept.
  have hsteps : State.Steps (State.init config clock nextId) site.state.state := hlater
  generalize site.state.state = s at hsteps
  induction hsteps with
  | refl => exact hinit config clock nextId
  | tail _ hlast ih => exact hstep ih hlast

/-- The moments in the journal come from the same steps, so what holds at all times has held at
every one of them, in view of what had happened by then. -/
theorem Reaches.always {Q : Moment → Journal → Prop}
    (hinit : ∀ config clock nextId, Q (State.init config clock nextId).moment [])
    (hstep : ∀ {s s'}, Q s.moment s.journal → State.Step s s' → Q s'.moment s'.journal)
    (hcol : env.collaborators.AskOnly Operation.IsIndirect)
    (h : env.Reaches Operation.IsIndirect depth site) :
    Q site.state.state.moment site.state.state.journal ∧
      site.state.state.journal.Each (Entry.Follows Q) := by
  refine h.invariant (P := fun s => Q s.moment s.journal ∧ s.journal.Each (Entry.Follows Q))
    (fun config clock nextId => ?_) (fun hs h => ?_) hcol
  · exact ⟨hinit config clock nextId, trivial⟩
  · exact ⟨hstep hs.1 h, h.journal_each hs.1 hs.2⟩

end Environment

/-! ## A run with collaborators that call back -/

/-- A message with one fault handler. -/
def Message.plain (id : String) : Message where
  id
  traceId := "trace"
  envelope := ⟨.rest, .null, false⟩
  handlers := ⟨[.sequence "onFault"]⟩

/-- Collaborators that return at once and leave their messages alone. -/
def Collaborators.idle : Collaborators σ where
  transmit _ := .done (.returned ())
  writeBack _ := .done (.returned ())
  startFlow msg := .done (msg, .returned true)
  continueFlow _ msg := .done (msg, .returned .proceed)
  compensate _ _ msg := .done (msg, .returned ())

theorem idle_askOnly (allowed : Operation → Prop) :
    (Collaborators.idle : Collaborators σ).AskOnly allowed :=
  ⟨fun _ => trivial, fun _ => trivial, fun _ => trivial, fun _ _ => trivial, fun _ _ _ => trivial⟩

/-- The transport gets the response to its first message while it sends it, sends the message again
and then fails.  Fault handlers close the call "b" and send its message again. -/
def Collaborators.resending : Collaborators Bool where
  transmit wire := .recall fun failed =>
    if failed then .done (.returned ())
    else .remember true
      (.ask (.respond wire.callId { kind := .acknowledged }) fun _ =>
        .ask (.dispatch wire {}) fun _ => .done (.failed { root := "connection reset" }))
  writeBack _ := .done (.returned ())
  startFlow msg := .done (msg, .returned true)
  continueFlow _ msg := .done (msg, .returned .proceed)
  compensate _ _ msg :=
    .ask (.respond ⟨"b"⟩ { kind := .acknowledged }) fun _ =>
      .ask (.dispatch (.plain "b") {}) fun _ => .done (msg, .returned ())

def Environment.resending : Environment Bool where
  collaborators := .resending
  rounds := 4

/-- A new engine has dispatched the call "a". -/
def Site.afterResend : Site (Host Bool) :=
  (Environment.resending.complete 2 (.perform (.dispatch (.plain "a") {}))
    { state := ⟨State.init {} {} 0, false⟩ }).2

theorem resending_askOnly :
    Environment.resending.collaborators.AskOnly Operation.IsIndirect where
  transmit wire failed := by
    cases failed with
    | true => exact trivial
    | false => exact ⟨trivial, fun _ => ⟨trivial, fun _ => trivial⟩⟩
  writeBack _ := trivial
  startFlow _ := trivial
  continueFlow _ _ := trivial
  compensate _ _ _ := ⟨trivial, fun _ => ⟨trivial, fun _ => trivial⟩⟩

theorem afterResend_reaches :
    Environment.resending.Reaches Operation.IsIndirect 2 Site.afterResend :=
  .completed ⟨trivial, fun _ => trivial⟩ (.fresh {} {} 0 false)

end Correlator
