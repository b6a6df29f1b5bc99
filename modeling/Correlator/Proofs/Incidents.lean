import Correlator.Proofs.Routing
import Correlator.Proofs.Stacking
import Mathlib.Data.List.Perm.Basic

/-!
# Faults that follow one another

A handler may push further handlers while it runs, and only then does the router report what became
of the fault. Faults of two kinds, with different rules for the handler on top, may follow one
another on the same message, and a handler may fail or panic. Which handlers the next fault finds
depends on all of that. What holds over any number of faults is said about the history of the stack:
each fault takes handlers off the top, one of which it runs, and leaves what the handler has pushed.

## Main definitions

* `Incident` : a fault that is handled, or routed and not discarded.
* `Callbacks.Suffers` : a message suffers faults one after another.
* `Faced` : what became of one of them, and `Discipline` what holds of all.

## Main results

* `Incident.faced` : what one fault does to the handlers.
* `Callbacks.OnlyPush.disciplined` : handlers are consumed in the order of a stack, each once.
-/

namespace Correlator

open Stack (Goes)

variable {σ : Type}

/-! ## Incidents -/

/-- A fault that comes up for a message: it is handled, or it is the failure of a call and routed. A
timeout that is discarded is no incident. -/
inductive Incident where
  | handled (cause : Fault)
  | routed (cause : Fault) (action : ExpiryAction)
      (hkept : ¬ (cause.isTimeout ∧ action = .discard))

namespace Incident

def cause : Incident → Fault
  | .handled cause => cause
  | .routed cause _ _ => cause

/-- What the engine does about it. -/
def face (callbacks : Callbacks σ) (msg : Message) : Incident → Run σ (Message × Disposition)
  | .handled cause => runHandler callbacks msg cause
  | .routed cause action _ => routeFault callbacks msg cause action

/-- The handlers that it consults, the next one first. -/
def consulted (msg : Message) : Incident → List Handler
  | .handled _ => msg.handlers.items
  | .routed .. => msg.consulted

/-- At most one handler is passed over, and it lay on top. Only the failure of a call passes one
over, and only that of a group member. -/
theorem consulted_passes (msg : Message) (incident : Incident) :
    ∃ passed, passed.length ≤ 1 ∧ msg.handlers.items = passed ++ incident.consulted msg := by
  cases incident with
  | handled cause => exact ⟨[], Nat.zero_le 1, rfl⟩
  | routed cause action hkept =>
    rcases msg.consulted_passes with hall | ⟨passed, hpassed⟩
    · exact ⟨[], Nat.zero_le 1, hall⟩
    · exact ⟨[passed], le_refl 1, hpassed⟩

end Incident

/-- While handlers run they do nothing to the stack of handlers but push. This is what is asked of
collaborators; without it no order of the stack could be promised. -/
def Callbacks.OnlyPush (callbacks : Callbacks σ) (rel : Host σ → Host σ → Prop) : Prop :=
  ∀ (handler : Handler) (cause : Fault) (msg back : Message) (outcome : Outcome Unit)
    (host later : Host σ),
    (callbacks.compensate handler cause msg host).CanEnd rel (back, outcome) later →
    msg.handlers.items <:+ back.handlers.items

/-- The message suffers these incidents, with these outcomes, the first one first, and is left so.
Whatever else goes on between them, the message is not touched. -/
inductive Callbacks.Suffers (callbacks : Callbacks σ) (rel : Host σ → Host σ → Prop) :
    Message → List (Incident × Disposition) → Message → Prop
  | none (msg : Message) : Suffers callbacks rel msg [] msg
  | next {msg back final : Message} {incident : Incident} {outcome : Disposition}
      {incidents : List (Incident × Disposition)} (host : Host σ)
      (h : ∃ later, (incident.face callbacks msg host).CanEnd rel (back, outcome) later)
      (hrest : Suffers callbacks rel back incidents final) :
      Suffers callbacks rel msg ((incident, outcome) :: incidents) final

/-! ## What becomes of them -/

/-- The handler that is called. -/
def Called.handler? : Called → Option Handler
  | .compensate handler .. => some handler
  | _ => none

/-- An incident and what became of it. -/
structure Faced where
  incident : Incident
  outcome : Disposition
  /-- The message when it came up. -/
  found : Message
  /-- The handlers that were passed over. -/
  passed : List Handler
  calls : List Called
  /-- The handlers that were pushed meanwhile, the first one first. -/
  pushed : List Handler
  /-- The message afterwards. -/
  left : Message

namespace Faced

/-- The handlers that were run. -/
def ran (f : Faced) : List Handler := f.calls.filterMap Called.handler?

/-- What it did to the stack of handlers. -/
def moves (f : Faced) : List (Stack.Move Handler) :=
  f.passed.map .pop ++ f.ran.map .pop ++ f.pushed.map .push

/-- It came to this. -/
structure Happened (callbacks : Callbacks σ) (rel : Host σ → Host σ → Prop) (f : Faced) : Prop where
  faced : ∃ host later, (f.incident.face callbacks f.found host).CanEnd rel (f.left, f.outcome)
    later ∧ callbacks.Makes rel host f.calls later
  consults : f.found.Consults f.incident.cause (f.incident.consulted f.found) f.calls f.left
    f.outcome
  passed : f.found.handlers.items = f.passed ++ f.incident.consulted f.found
  once : f.passed.length ≤ 1
  /-- The next handler to be consulted is gone, whatever came of it. -/
  pushed : f.left.handlers.items = f.pushed.reverse ++ (f.incident.consulted f.found).tail

end Faced

/-- The incidents have happened one after another, and each found the message as the one before it
had left it. -/
inductive Callbacks.Faces (callbacks : Callbacks σ) (rel : Host σ → Host σ → Prop) :
    Message → List Faced → Message → Prop
  | none (msg : Message) : Faces callbacks rel msg [] msg
  | next {f : Faced} {faced : List Faced} {final : Message} (h : f.Happened callbacks rel)
      (hrest : Faces callbacks rel f.left faced final) :
      Faces callbacks rel f.found (f :: faced) final

/-- What the incidents have done to the stack of handlers, taken together. -/
structure Discipline (msg : Message) (faced : List Faced) (final : Message) : Prop where
  /-- The handlers that were there and those that were pushed have been run or passed over, or are
  left. -/
  conserved : (msg.handlers.items : Multiset Handler) + faced.flatMap Faced.pushed =
    faced.flatMap Faced.ran + faced.flatMap Faced.passed + final.handlers.items
  history : Goes msg.handlers (faced.flatMap Faced.moves) final.handlers
  /-- What one handler has pushed lies on top when the next fault comes. -/
  onward : ∀ before f g after, faced = before ++ f :: g :: after →
    g.found.handlers.items = f.pushed.reverse ++ (f.incident.consulted f.found).tail
  /-- Whatever was taken off was the latest that had been pushed and not been taken off, or had been
  there with all above it taken off. -/
  latest : ∀ earlier handler later,
    faced.flatMap Faced.moves = earlier ++ .pop handler :: later →
    (∃ before between, earlier = before ++ .push handler :: between ∧
      Goes .empty between .empty) ∨
    ∃ upper lower, msg.handlers.items = upper ++ handler :: lower ∧ Goes ⟨upper⟩ earlier .empty
  undeliverable : ∀ f ∈ faced,
    (f.outcome = .undeliverable ↔ f.incident.consulted f.found = []) ∧
      (f.outcome = .undeliverable → f.calls = [])

/-! ## One incident -/

namespace Message.Consults

variable {msg back : Message} {cause : Fault} {handlers : List Handler} {calls : List Called}
  {outcome : Disposition}

/-- The handler that is run is the next one. -/
theorem ran (h : msg.Consults cause handlers calls back outcome) :
    calls.filterMap Called.handler? ++ handlers.tail = handlers := by
  cases h with
  | undeliverable => rfl
  | handled => rfl
  | handlerFailed => rfl

theorem calls_of_undeliverable (h : msg.Consults cause handlers calls back outcome)
    (hundeliverable : outcome = .undeliverable) : calls = [] :=
  h.calls_eq_nil_iff.mpr (h.undeliverable_iff.mp hundeliverable)

end Message.Consults

variable {callbacks : Callbacks σ} {rel : Host σ → Host σ → Prop} {host later : Host σ}
  {msg back final : Message} {incident : Incident} {outcome : Disposition}

theorem Incident.face_consults
    (h : (incident.face callbacks msg host).CanEnd rel (back, outcome) later) :
    ∃ calls, callbacks.Makes rel host calls later ∧
      msg.Consults incident.cause (incident.consulted msg) calls back outcome := by
  cases incident with
  | handled cause => exact runHandler_consults h
  | routed cause action hkept => exact routeFault_consults hkept h

/-- What is left is what lay below the handler, and on it what the handler has pushed. If none was
run nothing has been pushed. -/
theorem pushed_of_consults {cause : Fault} {handlers : List Handler} {calls : List Called}
    (hpush : callbacks.OnlyPush rel) (hmakes : callbacks.Makes rel host calls later)
    (h : msg.Consults cause handlers calls back outcome) :
    ∃ pushed, back.handlers.items = pushed ++ handlers.tail := by
  cases h with
  | undeliverable => exact ⟨[], rfl⟩
  | handled handler below =>
    cases hmakes with
    | call _ hcall _ =>
      obtain ⟨pushed, hpushed⟩ := hpush _ _ _ _ _ _ _ hcall
      exact ⟨pushed, hpushed.symm⟩
  | handlerFailed handler below =>
    cases hmakes with
    | call _ hcall _ =>
      obtain ⟨pushed, hpushed⟩ := hpush _ _ _ _ _ _ _ hcall
      exact ⟨pushed, hpushed.symm⟩

theorem Incident.faced (hpush : callbacks.OnlyPush rel)
    (h : (incident.face callbacks msg host).CanEnd rel (back, outcome) later) :
    ∃ f : Faced, f.incident = incident ∧ f.outcome = outcome ∧ f.found = msg ∧ f.left = back ∧
      f.Happened callbacks rel := by
  obtain ⟨calls, hmakes, hconsults⟩ := face_consults h
  obtain ⟨passed, honce, hpassed⟩ := incident.consulted_passes msg
  obtain ⟨pushed, hpushed⟩ := pushed_of_consults hpush hmakes hconsults
  refine ⟨⟨incident, outcome, msg, passed, calls, pushed.reverse, back⟩, rfl, rfl, rfl, rfl, ?_⟩
  constructor
  case faced => exact ⟨host, later, h, hmakes⟩
  case consults => exact hconsults
  case passed => exact hpassed
  case once => exact honce
  case pushed =>
    rw [List.reverse_reverse]
    exact hpushed

namespace Faced

variable {f : Faced}

/-- The handlers that are passed over are popped first, then the one that runs, and then the stack
grows. In this way each incident is a stretch of the history of one stack. -/
theorem Happened.goes (h : f.Happened callbacks rel) :
    Goes f.found.handlers f.moves f.left.handlers := by
  have hpassed : Goes f.found.handlers (f.passed.map .pop) ⟨f.incident.consulted f.found⟩ := by
    have hpops := Goes.pops f.passed (f.incident.consulted f.found)
    rw [← h.passed] at hpops
    exact hpops
  have hran : Goes ⟨f.incident.consulted f.found⟩ (f.ran.map .pop)
      ⟨(f.incident.consulted f.found).tail⟩ := by
    have hpops := Goes.pops f.ran (f.incident.consulted f.found).tail
    rw [Faced.ran, h.consults.ran] at hpops
    exact hpops
  have hpushed : Goes ⟨(f.incident.consulted f.found).tail⟩ (f.pushed.map .push)
      f.left.handlers := by
    have hpushes := Goes.pushes f.pushed (f.incident.consulted f.found).tail
    rw [← h.pushed] at hpushes
    exact hpushes
  exact (hpassed.append hran).append hpushed

theorem pushed_moves (f : Faced) : Stack.pushed f.moves = f.pushed := by
  simp [moves]

theorem popped_moves (f : Faced) : Stack.popped f.moves = f.passed ++ f.ran := by
  simp [moves]

theorem pushed_flatMap (faced : List Faced) :
    Stack.pushed (faced.flatMap moves) = faced.flatMap pushed := by
  induction faced with
  | nil => rfl
  | cons f faced ih =>
    simp only [List.flatMap_cons, Stack.pushed_append, pushed_moves, ih]

theorem popped_flatMap (faced : List Faced) :
    Stack.popped (faced.flatMap moves) = faced.flatMap fun f => f.passed ++ f.ran := by
  induction faced with
  | nil => rfl
  | cons f faced ih =>
    simp only [List.flatMap_cons, Stack.popped_append, popped_moves, ih]

end Faced

/-! ## Many incidents -/

namespace Callbacks

variable {faced : List Faced}

theorem Faces.goes (h : callbacks.Faces rel msg faced final) :
    Goes msg.handlers (faced.flatMap Faced.moves) final.handlers := by
  induction h with
  | none msg => exact .stay _
  | next h _ ih => exact h.goes.append ih

theorem Faces.happened (h : callbacks.Faces rel msg faced final) :
    ∀ f ∈ faced, f.Happened callbacks rel := by
  induction h with
  | none msg => exact fun _ hf => absurd hf List.not_mem_nil
  | next h _ ih =>
    intro g hg
    rcases List.mem_cons.mp hg with rfl | hlater
    · exact h
    · exact ih g hlater

/-- Each incident finds the message as the one before it has left it. -/
theorem Faces.found_eq {before after : List Faced} {f g : Faced}
    (h : callbacks.Faces rel msg (before ++ f :: g :: after) final) : g.found = f.left := by
  induction before generalizing msg with
  | nil =>
    cases h with
    | next _ hrest =>
      generalize f.left = left at hrest
      cases hrest
      rfl
  | cons e before ih =>
    cases h with
    | next _ hrest => exact ih hrest

theorem Faces.discipline (h : callbacks.Faces rel msg faced final) :
    Discipline msg faced final := by
  have hgoes := h.goes
  constructor
  case conserved =>
    have hconserved := hgoes.conserves
    have hperm : (↑(faced.flatMap fun f => f.passed ++ f.ran) : Multiset Handler) =
        faced.flatMap Faced.ran + faced.flatMap Faced.passed := by
      rw [add_comm, Multiset.coe_add, Multiset.coe_eq_coe]
      exact (List.flatMap_append_perm faced Faced.passed Faced.ran).symm
    rw [Faced.pushed_flatMap, Faced.popped_flatMap, hperm] at hconserved
    exact hconserved
  case history => exact hgoes
  case onward =>
    rintro before f g after rfl
    have hf : f ∈ before ++ f :: g :: after := by simp
    rw [h.found_eq]
    exact (h.happened f hf).pushed
  case latest =>
    intro earlier handler later hsplit
    rw [hsplit] at hgoes
    -- Cut the history at the pop: what was on top there has been pushed last, or was there from
    -- the beginning.
    obtain ⟨mid, hearlier, hpop⟩ := hgoes.of_append
    cases hpop with
    | @pop mid =>
      rcases hearlier.top_latest with hpushed | ⟨upper, hitems, hupper⟩
      · exact Or.inl hpushed
      · exact Or.inr ⟨upper, mid.items, hitems, hupper⟩
  case undeliverable =>
    intro f hf
    have hconsults := (h.happened f hf).consults
    exact ⟨hconsults.undeliverable_iff, hconsults.calls_of_undeliverable⟩

/-- Any faults can follow one another, and each comes to an end, so the statements about many
faults are never empty. -/
theorem suffers_all (hrel : ∀ host, ∃ later, rel host later) (host : Host σ)
    (incidents : List Incident) (msg : Message) :
    ∃ outcomes final, outcomes.map Prod.fst = incidents ∧
      callbacks.Suffers rel msg outcomes final := by
  induction incidents generalizing msg with
  | nil => exact ⟨[], msg, rfl, .none msg⟩
  | cons incident incidents ih =>
    obtain ⟨⟨back, outcome⟩, later, hend⟩ :=
      Progress.exists_canEnd hrel (incident.face callbacks msg host)
    obtain ⟨outcomes, final, hincidents, hrest⟩ := ih back
    exact ⟨(incident, outcome) :: outcomes, final, congrArg (incident :: ·) hincidents,
      .next host ⟨later, hend⟩ hrest⟩

/-- The induction is on the faults: the next one finds what the one before it has left. -/
theorem Suffers.faces (hpush : callbacks.OnlyPush rel) {incidents : List (Incident × Disposition)}
    (h : callbacks.Suffers rel msg incidents final) :
    ∃ faced : List Faced, faced.map (fun f => (f.incident, f.outcome)) = incidents ∧
      callbacks.Faces rel msg faced final := by
  induction h with
  | none msg => exact ⟨[], rfl, .none msg⟩
  | next host hend _ ih =>
    obtain ⟨later, hend⟩ := hend
    obtain ⟨faced, hmap, hrest⟩ := ih
    obtain ⟨f, rfl, rfl, rfl, rfl, hf⟩ := Incident.faced hpush hend
    exact ⟨f :: faced, congrArg (_ :: ·) hmap, .next hf hrest⟩

/-- However many faults a message suffers, its handlers are consumed in the order of a stack, each
once. -/
theorem OnlyPush.disciplined (hpush : callbacks.OnlyPush rel) (host : Host σ) (msg : Message) :
    (∀ incidents : List Incident, (∀ host, ∃ later, rel host later) →
      ∃ outcomes final, outcomes.map Prod.fst = incidents ∧
        callbacks.Suffers rel msg outcomes final) ∧
    ∀ outcomes final, callbacks.Suffers rel msg outcomes final →
      ∃ faced : List Faced, faced.map (fun f => (f.incident, f.outcome)) = outcomes ∧
        callbacks.Faces rel msg faced final ∧ Discipline msg faced final := by
  constructor
  · exact fun incidents hrel => suffers_all hrel host incidents msg
  · intro outcomes final hsuffers
    obtain ⟨faced, hmap, hfaced⟩ := hsuffers.faces hpush
    exact ⟨faced, hmap, hfaced, hfaced.discipline⟩

end Callbacks

/-! ## Five faults -/

theorem patching_onlyPush : (Environment.patching.callbacks 1).OnlyPush Eq := by
  intro handler cause msg back outcome host later h
  obtain ⟨hpatch, -⟩ : handler.patch msg = (back, outcome) ∧ _ := h
  cases handler with
  | sequence name =>
    obtain ⟨rfl, -⟩ := Prod.mk.inj hpatch
    exact List.suffix_refl _
  | endpoint name topology =>
    obtain ⟨rfl, -⟩ := Prod.mk.inj hpatch
    exact List.suffix_cons _ _

/-- The hook of the group pushes a clean-up, which the second fault runs; the last two faults find
no handler. -/
def Incident.five : List (Incident × Disposition) :=
  [(.routed (.timeout 7) .fault (by decide), .handlerFailed (.endpoint "a" .failover) "down"),
    (.handled (.timeout 8), .handlerFailed (.sequence "cleanUp") "panicked: boom"),
    (.handled (.timeout 9), .handled (.sequence "onFault")),
    (.handled (.timeout 10), .undeliverable),
    (.routed (.timeout 11) .drop (by decide), .undeliverable)]

/-- The message after the fault of a call that was due at `deadline`. -/
def Message.afterFault (deadline : UInt64) (handlers : List Handler) : Message :=
  { Message.regrouped with fault := some (.timeout deadline), handlers := ⟨handlers⟩ }

theorem disciplined_five :
    (Environment.patching.callbacks 1).Suffers Eq .regrouped Incident.five (.afterFault 11 []) ∧
      ∃ faced : List Faced, faced.map (fun f => (f.incident, f.outcome)) = Incident.five ∧
        (Environment.patching.callbacks 1).Faces Eq .regrouped faced (.afterFault 11 []) ∧
        Discipline .regrouped faced (.afterFault 11 []) := by
  have hfifth : (Environment.patching.callbacks 1).Suffers Eq (.afterFault 10 [])
      (Incident.five.drop 4) (.afterFault 11 []) := .next Host.unpatched ⟨_, rfl, rfl⟩ (.none _)
  have hfourth : (Environment.patching.callbacks 1).Suffers Eq (.afterFault 9 [])
      (Incident.five.drop 3) (.afterFault 11 []) := .next Host.unpatched ⟨_, rfl, rfl⟩ hfifth
  have hthird : (Environment.patching.callbacks 1).Suffers Eq
      (.afterFault 8 [.sequence "onFault"]) (Incident.five.drop 2) (.afterFault 11 []) :=
    .next Host.unpatched ⟨_, rfl, rfl⟩ hfourth
  have hsecond : (Environment.patching.callbacks 1).Suffers Eq
      (.afterFault 7 [.sequence "cleanUp", .sequence "onFault"]) (Incident.five.drop 1)
      (.afterFault 11 []) := .next Host.unpatched ⟨_, rfl, rfl⟩ hthird
  have hfirst : (Environment.patching.callbacks 1).Suffers Eq .regrouped Incident.five
      (.afterFault 11 []) := .next Host.unpatched ⟨_, rfl, rfl⟩ hsecond
  have hdisciplined := Callbacks.OnlyPush.disciplined patching_onlyPush Host.unpatched .regrouped
  exact ⟨hfirst, hdisciplined.2 _ _ hfirst⟩

end Correlator
