import Correlator.Proofs.Sparing

/-!
# Sweeps do not overlap

A sweep is skipped if it finds the lock held.  That is meant to say that another sweep is in
progress, but the lock is a flag that is read and written far from where sweeps are asked for: by
fault handlers, by whatever these ask for, by workers at their ticks.

What the lock is for is said by an engine without one (`Environment.nested`).  There it is plain
from how a sweep was asked for whether it is inside another one: a collaborator that a sweep has
called, and whatever that asks for to any depth of nesting, is inside; such a sweep does nothing and
calls nobody, and every other one is carried through.  The engine with the lock does the same as
this one, as long as whoever waits finds the lock as it was (`Progress.Agrees`).

Where several parties take turns a sweep may also be asked for while somebody else has one in
progress.  So the lock is followed through whole runs too: it is held just if one of those who wait
has a sweep in hand (`Host.Locks`), and never by two.

## Main definitions

* `Host.Locks` : a stretch of work takes the lock, gives it back or leaves it alone.
* `sweepThrough` : a sweep from its beginning to its end, whatever the lock says.
* `Environment.nested` : the callbacks of an engine that tells by nesting which sweeps to skip.

## Main results

* `Environment.run_agrees` : the lock is held just inside of sweeps.
* `Environment.Reaches.sweeps_in_turn` : at most one sweep is in progress, and another one that is
  asked for meanwhile does nothing.
-/

namespace Correlator

variable {σ α β : Type} {allowed : Operation → Prop} {callbacks callbacks' : Callbacks σ}

/-! ## Who touches the lock -/

/-- A stretch of work that has `i` sweeps in hand when it begins has `i'` in hand when it ends.  If
the lock tells rightly how many there are with those that the others have in hand, it still does. -/
def Host.Locks (i : ℕ) (host : Host σ) (i' : ℕ) (host' : Host σ) : Prop :=
  ∀ others, others + i = host.state.sweeping.toNat → others + i' = host'.state.sweeping.toNat

instance : Ledger (Host.Locks (σ := σ)) where
  refl _ _ _ h := h
  trans h h' others hothers := h' others (h others hothers)
  frame others _ _ _ _ h more hmore := by
    rw [← add_assoc] at hmore ⊢
    exact h (more + others) hmore

/-- Whoever spares the sweeps of others leaves the lock to them: a sweep that is in progress
outside keeps it held, and if there is none it is free again at the end. -/
theorem Host.Spares.locks {i i' : ℕ} {host host' : Host σ} (h : Host.Spares i host i' host') :
    Host.Locks i host i' host' := fun others hothers => (h others hothers).1

/-- No operation that calls nobody touches the lock. -/
theorem perform_leaves_lock {op : Operation} (hcalls : ¬ op.CallsOut) :
    (perform callbacks op).Concludes Host.Locks := fun host =>
  (perform_leaves Host.Spares.free hcalls host).mono_step Host.Spares.locks

/-- Of those who wait as many have a sweep in hand as the lock says: one if it is held, and
otherwise nobody. -/
theorem Environment.Reaches.sweeps_in_hand {env : Environment σ} {depth : Nat}
    {site : Site (Host σ)} (h : env.Reaches allowed depth site) :
    (sweepers (env.callbacks depth)).Bear Host.Locks site.suspended
      site.state.state.sweeping.toNat :=
  h.sweeps_spared.mono_step Host.Spares.locks

/-! ## An engine without a lock -/

/-- A sweep from its beginning to its end, whatever the lock says. It takes the lock and frees it
as the sweep of the engine does, so that the two can be compared host by host; but it never reads
it. -/
def sweepThrough (callbacks : Callbacks σ) (now : Millis) : Run σ SweepSummary := do
  Run.update (·.lock now)
  let s ← Run.read
  let due := callbacks.arrangement.arrange s.registry (s.registry.overdue now)
  let report ← due.foldlM (sweepOne callbacks now s.place) {}
  let purged ← Run.apply (·.purgeBindings now)
  Run.update State.unlock
  return { report with bindingsDropped := purged }

/-- A sweep inside of another one does nothing. Any other is carried through, and the collaborators
that it calls are inside. Here the answer depends on who has called whom, and on nothing in the
state. -/
def sweepNested (callbacks : Bool → Callbacks σ) (inside : Bool) (now : Millis) :
    Run σ SweepSummary :=
  if inside then pure { skipped := true } else sweepThrough (callbacks true) now

/-- Does an operation that is asked for inside or outside of a sweep. -/
def performNested (callbacks : Bool → Callbacks σ) (inside : Bool) :
    (op : Operation) → Run σ op.Answer
  | .sweep => do
    match (← Run.read).clock.read with
    | .error p => return .error p
    | .ok now => return .ok (← sweepNested callbacks inside now)
  | .sweepAsOf now => sweepNested callbacks inside now
  | op => perform (callbacks inside) op

namespace Environment

/-- Does an operation that somebody asked for inside or outside of a sweep. -/
def serveNested (callbacks : Bool → Callbacks σ) (inside : Bool) (op : Operation) :
    Run σ op.Answer :=
  noted (.asked (callbacks inside).level) (.answered (callbacks inside).level)
    (performNested callbacks inside op)

/-- The callbacks at a level of nesting, as they are made inside or outside of a sweep.  Whatever a
collaborator asks for is inside if the callback is. -/
def nested (env : Environment σ) : Nat → Bool → Callbacks σ
  | 0, _ => env.callbacks 0
  | level + 1, inside => env.callbacksWith (level + 1) (serveNested (env.nested level) inside)

/-- A program as work from outside the engine that begins inside or outside of a sweep. -/
def runNested (env : Environment σ) (inside : Bool) (depth : Nat) (p : Program σ α) : Run σ α :=
  p.run (serveNested (env.nested depth) inside)

end Environment

/-- They come to the same, and leave the lock as it is to be left, provided that whenever they wait
the others leave the lock as it is. Without that proviso nothing could be said: whoever takes turns
with a sweep might free the lock under it. -/
def Progress.Agrees (locked : Bool) : Progress (Host σ) α → Progress (Host σ) α → Prop
  | .ended a host, .ended a' host' => a = a' ∧ host = host' ∧ host.state.sweeping = locked
  | .waiting wait host next, .waiting wait' host' next' =>
    wait = wait' ∧ host = host' ∧
      ∀ later, later.state.sweeping = host.state.sweeping →
        (next later).Agrees locked (next' later)
  | _, _ => False

theorem Progress.Agrees.bind {locked locked' : Bool} {p p' : Progress (Host σ) α}
    {f f' : α → Run σ β} (h : p.Agrees locked p')
    (hf : ∀ a host, host.state.sweeping = locked → (f a host).Agrees locked' (f' a host)) :
    (p.bind f).Agrees locked' (p'.bind f') := by
  induction p generalizing p' with
  | ended a host =>
    cases p' with
    | ended a' host' =>
      obtain ⟨rfl, rfl, hlocked⟩ := h
      exact hf a host hlocked
    | waiting => exact h.elim
  | waiting wait host next ih =>
    cases p' with
    | ended => exact h.elim
    | waiting wait' host' next' =>
      obtain ⟨hwait, hhost, hnext⟩ := h
      exact ⟨hwait, hhost, fun later hlater => ih later (hnext later hlater)⟩

/-- Work that leaves the lock as it finds it agrees with itself. It may take and free the lock in
between, which is what the count `i` of the sweeps in hand follows. -/
theorem Progress.Carries.agrees {post : α → ℕ → Host σ → Prop} {i : ℕ} {host : Host σ}
    {p : Progress (Host σ) α} (h : p.Carries Host.Locks post i host)
    (hpost : ∀ a j later, post a j later → j = 0) {locked : Bool}
    (hlocked : locked.toNat + i = host.state.sweeping.toNat) : p.Agrees locked p := by
  induction p generalizing i host with
  | ended a later =>
    obtain ⟨j, hlocks, ha⟩ := h
    have hleft := hlocks locked.toNat hlocked
    rw [hpost a j later ha, add_zero] at hleft
    -- What is left in hand is nothing, so the lock says what the others have in hand.
    have toNat_inj : ∀ b b' : Bool, b.toNat = b'.toNat → b' = b := by decide
    exact ⟨rfl, rfl, toNat_inj _ _ hleft⟩
  | waiting wait later next ih =>
    obtain ⟨j, hlocks, hnext⟩ := h
    refine ⟨rfl, rfl, fun host' hhost' => ih host' (hnext host') ?_⟩
    rw [hhost']
    exact hlocks locked.toNat hlocked

/-- The two pieces of work agree wherever the lock is held, or wherever it is free. -/
def Run.Agree (locked : Bool) : Run.Pairing σ := fun _ work work' =>
  ∀ host, host.state.sweeping = locked → (work host).Agrees locked (work' host)

theorem congruence_agree (locked : Bool) :
    Run.Congruence (σ := σ) (fun _ => True) Eq (Run.Agree locked) where
  pure _ host hlocked := ⟨rfl, rfl, hlocked⟩
  bind hw hf host hlocked := (hw host hlocked).bind hf
  look hf host hlocked := hf host.state host.state rfl host hlocked
  «recall» hf host hlocked := hf host.memory host hlocked
  remember memory hw host hlocked := hw { host with memory } hlocked
  stroke hf host hlocked := ⟨rfl, rfl, (hf.unswept host.state).sweeping.trans hlocked⟩
  clock := fun | rfl => rfl
  defaultTimeout := fun | rfl => rfl
  cleanUp := fun | rfl => fun id host hlocked =>
    ⟨rfl, rfl, (host.state.unswept_claim _ id).sweeping.trans hlocked⟩
  accepts := fun _ => fun | rfl => rfl
  inside _ hcalls _ host hlocked :=
    (perform_leaves_lock hcalls host).agrees (fun _ _ _ h => h.1) (by rw [hlocked, add_zero])

section Nested

variable {nested : Bool → Callbacks σ} {inside : Bool}

/-- The lock makes a sweep do what nesting says it should do. A sweep that finds the lock free
calls handlers while it is held, so these are to agree as callbacks from inside, wherever the sweep
itself was asked for. -/
theorem sweepAsOf_agrees (hc : callbacks.Correspond (Run.Agree true) (nested true)) (now : Millis) :
    Run.Agree inside (sweepAsOf callbacks now) (sweepNested nested inside now) := by
  intro host hlocked
  cases inside with
  | true =>
    rw [sweepAsOf_of_locked hlocked]
    exact ⟨rfl, rfl, hlocked⟩
  | false =>
    -- Both sweeps visit the calls in the order of the same arrangement, and between the visits
    -- they have the lock held; so the loops are congruent as work from inside.
    have hthrough : sweepNested nested false now host =
        (((nested true).arrangement.arrange host.state.registry
            (host.state.registry.overdue now)).foldlM
          (sweepOne (nested true) now (host.state.journal.length + 1)) ({} : SweepSummary)
          { host with state := host.state.lock now }).bind fun report later =>
            .ended { report with bindingsDropped := (later.state.purgeBindings now).1 }
              { later with state := (later.state.purgeBindings now).2.unlock } := rfl
    have hP := congruence_agree (σ := σ) true
    rw [sweepAsOf_of_free hlocked, hthrough, hc.arrangement]
    refine (hP.foldlM (hP.sweepOne_congruent hc ?_ ?_) _ _ _ rfl).bind ?_
    · exact fun t ht => ⟨rfl, rfl, (State.sweeping_expireCall t.state).trans ht⟩
    · exact fun id t ht =>
        ⟨rfl, rfl, (t.state.sweeping_claimExpired now _ id).trans ht⟩
    · exact fun report later _ => ⟨rfl, rfl, rfl⟩

variable (hc : callbacks.Correspond (Run.Agree inside) (nested inside))
  (hinside : callbacks.Correspond (Run.Agree true) (nested true))

include hc hinside

theorem perform_agrees (op : Operation) :
    Run.Agree inside (perform callbacks op) (performNested nested inside op) := by
  cases op with
  | sweep => exact (congruence_agree inside).clocked (sweepAsOf_agrees hinside)
  | sweepAsOf now => exact sweepAsOf_agrees hinside now
  | _ => exact (congruence_agree inside).perform_of_not_sweep hc trivial id

theorem serve_agrees (op : Operation) :
    Run.Agree inside (Environment.serve callbacks op)
      (Environment.serveNested nested inside op) := by
  unfold Environment.serve Environment.serveNested
  rw [hc.level]
  exact (congruence_agree inside).noted (.asked _) (.answered _) (perform_agrees hc hinside op)

end Nested

namespace Environment

variable {env : Environment σ} {depth : Nat} {site : Site (Host σ)}

/-- The induction is on the level of nesting. -/
theorem callbacks_agree (env : Environment σ) (level : Nat) (inside : Bool) :
    (env.callbacks level).Correspond (Run.Agree inside) (env.nested level inside) := by
  induction level generalizing inside with
  | zero => exact (congruence_agree inside).exhausted_correspond
  | succ level ih =>
    rw [callbacks_succ]
    exact (congruence_agree inside).callbacksWith_correspond env.collaborators.askOnly_true
      (fun op _ => serve_agrees (ih inside) (ih true) op) _

/-- Whatever a program does, and the collaborators that it has called, the lock is held just inside
of sweeps: the engine that reads it and the one that goes by nesting return the same, and leave the
same host behind. -/
theorem run_agrees (env : Environment σ) (inside : Bool) (depth : Nat) (p : Program σ α) :
    Run.Agree inside (env.run depth p) (env.runNested inside depth p) :=
  (congruence_agree inside).program
    (fun op _ =>
      serve_agrees (env.callbacks_agree depth inside) (env.callbacks_agree depth true) op)
    p.asksOnly_true

/-! ## Sites -/

/-- What it means that sweeps do not overlap, for a run that has arrived somewhere. -/
structure SweepsInTurn (env : Environment σ) (depth : Nat) (site : Site (Host σ)) : Prop where
  /-- Of those who wait as many have a sweep in hand as the lock says: one if it is held, and
  otherwise nobody. -/
  inHand : (sweepers (env.callbacks depth)).Bear Host.Locks site.suspended
    site.state.state.sweeping.toNat
  /-- Programs that begin here do the same as if a sweep were skipped just inside of another one. -/
  program : ∀ {α : Type} (p : Program σ α), (env.run depth p site.state).Agrees
    site.state.state.sweeping (env.runNested site.state.state.sweeping depth p site.state)
  /-- And so does a worker that turns to a sweep. -/
  worker : (sweep (env.callbacks depth) site.state).Agrees site.state.state.sweeping
    (performNested (env.nested depth) site.state.state.sweeping .sweep site.state)
  /-- While a sweep is in progress others say so, and change nothing. -/
  skipped : site.state.state.sweeping = true → ∀ now,
    env.complete depth (.perform (.sweepAsOf now)) site =
      ({ skipped := true }, { site with state := (site.state.asked depth).answered depth })
  skippedNow : site.state.state.sweeping = true →
    env.complete depth (.perform .sweep) site =
      (site.state.state.clock.read.map fun _ => { skipped := true },
        { site with state := (site.state.asked depth).answered depth })
  /-- While none is in progress no sweep is skipped. -/
  carriedThrough : site.state.state.sweeping = false → ∀ now,
    (env.complete depth (.perform (.sweepAsOf now)) site).1.skipped = false

/-- Sweeps do not overlap, whatever collaborators and programs from outside do. A sweep that others
ask for while one is in progress answers that it was skipped and changes nothing but the journal;
one that is asked for while none is in progress is carried through. -/
theorem Reaches.sweeps_in_turn (h : env.Reaches allowed depth site) :
    env.SweepsInTurn depth site where
  inHand := h.sweeps_in_hand
  program p := env.run_agrees _ depth p site.state rfl
  worker := perform_agrees (env.callbacks_agree depth _) (env.callbacks_agree depth true) .sweep
    site.state rfl
  skipped hlocked now := by
    have hasked : (site.state.asked depth).state.sweeping = true := hlocked
    exact complete_perform_of_ended (sweepAsOf_of_locked hasked now)
  skippedNow hlocked := by
    have hasked : (site.state.asked depth).state.sweeping = true := hlocked
    exact complete_perform_of_ended (sweep_of_locked hasked)
  carriedThrough hfree now := by
    have hasked : (site.state.asked depth).state.sweeping = false := hfree
    rw [complete_perform_eq]
    exact sweepAsOf_not_skipped hasked (Crew.complete_canEnd _ _ _ _)

end Environment

/-! ## A run in which handlers reach for another sweep -/

/-- Fault handlers send a message, doze and panic.  The transport asks for a sweep whenever it sends
one, and remembers whether that was skipped. -/
def Environment.resweeping : Environment (List Bool) where
  collaborators :=
    { Collaborators.idle with
      transmit := fun _ =>
        .ask .sweep fun (result : Except Panic SweepSummary) =>
          .recall fun told =>
            .remember (result.toOption.any (·.skipped) :: told) (.done (.returned ()))
      compensate := fun _ _ msg =>
        .ask (.dispatch { msg with id := "again" } {}) fun _ =>
          .ask (.elapse 3) fun _ => .done (msg, .panicked .other) }
  rounds := 64

/-- The engine is started, a call expires, and its worker is at a sweep when time is up. -/
def Program.sweepLong : Program (List Bool) Unit :=
  .ask .start fun _ =>
    .ask (.dispatch (.plain "a") { term := .perCall 5 }) fun _ =>
      .ask (.advanceClock 10) fun _ => .ask (.elapse 1001) fun _ => .done ()

def Site.duringSweep : Site (Host (List Bool)) :=
  (Environment.resweeping.complete 2 .sweepLong { state := ⟨State.init {} {} 0, []⟩ }).2

def Site.afterLongSweep : Site (Host (List Bool)) :=
  (Environment.resweeping.complete 2 (.perform (.elapse 10)) Site.duringSweep).2

theorem duringSweep_reaches :
    Environment.resweeping.Reaches (fun _ => True) 2 Site.duringSweep :=
  .completed (Program.asksOnly_true _) (.fresh {} {} 0 [])

/-- The sweep that the transport asked for outside of a sweep was carried through, and the one it
asked for inside was not.  While the handler dozes another sweep is skipped, and once the handler
has panicked the next one is not. -/
theorem sweeps_in_turn_duringSweep :
    Site.duringSweep.state.memory = [true, false] ∧
      Site.duringSweep.suspended.length = 1 ∧
      Environment.resweeping.complete 2 (.perform (.sweepAsOf 20)) Site.duringSweep =
        ({ skipped := true },
          { Site.duringSweep with state := (Site.duringSweep.state.asked 2).answered 2 }) ∧
      (Environment.resweeping.complete 2 (.perform (.sweepAsOf 20))
        Site.afterLongSweep).1.skipped = false := by
  have hduring := Environment.Reaches.sweeps_in_turn duringSweep_reaches
  have hafter : Environment.resweeping.SweepsInTurn 2 Site.afterLongSweep :=
    Environment.Reaches.sweeps_in_turn
      (.completed (Program.asksOnly_true (.perform (.elapse 10))) duringSweep_reaches)
  refine ⟨by decide +kernel, by decide +kernel, ?_, ?_⟩
  · exact hduring.skipped (by decide +kernel) 20
  · exact hafter.carriedThrough (by decide +kernel) 20

end Correlator
