import Correlator.Proofs.Deed
import Correlator.Proofs.Operations

/-!
# What the workers of an engine live by

Most deeds are no affair of the workers.  The `Posture` of an engine is what its workers, and
whoever starts and stops it, go by; `State.Shift` says how a deed can change it.  It is less than a
deed says: what the workers have in hand is left out.

The first use of this is the pace of the workers: however a worker has come to its schedule, its
next tick is no more than an interval away (`State.IsPaced`).

## Main results

* `State.Deed.shift` : how a deed changes the posture.
* `State.Life.workers_all` : what all workers keep that take up no sweep.
* `State.Deed.paced` : no deed puts off a tick for longer than an interval.
-/

namespace Correlator

variable {allowed : Operation → Prop} {s s' : State}

/-- What the workers of an engine live by. -/
structure Posture where
  config : Config
  lifecycle : Lifecycle
  worker : Option Nat
  workers : List (Worker Chore)
  started : Nat
  stopsAside : Nat
  time : Nat
  clock : Clock
  sweeping : Bool

namespace State

def posture (s : State) : Posture where
  config := s.config
  lifecycle := s.lifecycle
  worker := s.worker
  workers := s.workers
  started := s.started
  stopsAside := s.stopsAside
  time := s.time
  clock := s.clock
  sweeping := s.sweeping

theorem Booked.posture (h : s.Booked s') : s'.posture = s.posture := by
  cases h
  rfl

theorem Neutral.posture (h : s.Neutral s') : s'.posture = s.posture := by
  cases h
  rfl

theorem posture_release (s : State) : s.release.posture = s.posture := (Booked.release s).posture

/-- How a deed can change the posture. A deed that is about calls leaves it alone; what is left are
the steps of a lifecycle, the clock, a worker that takes up an item or is gone, and the lock of
sweeps. A property of the workers is shown for these six, and holds then of every deed. -/
inductive Shift (allowed : Operation → Prop) (s : State) : State → Prop
  | stay {s' : State} (h : s'.posture = s.posture) : Shift allowed s s'
  | life {s' : State} (h : Life allowed s s') : Shift allowed s s'
  | timed {clock : Clock} {op : Operation} (hop : allowed op) (h : op.Moves s.clock clock) :
      Shift allowed s { s with clock }
  /-- A worker has taken up an item. -/
  | taken {w taken : Worker Chore} {item : Item Chore} (hw : w ∈ s.workers)
      (hduty : w.duty? s.time = some (.take item taken)) :
      Shift allowed s (s.exchange w.number taken)
  | gone (number : Nat) : Shift allowed s (s.without number)
  /-- A sweep has begun or ended. -/
  | swept {s' : State} (sweeping : Bool) (h : s'.posture = { s.posture with sweeping }) :
      Shift allowed s s'

theorem posture_of_claim {claimer : Claimer} {id : CallId} {result : Option Call}
    (h : s.claim claimer id = (result, s')) : s'.posture = s.posture := by
  have hbooked := Booked.claim s claimer id
  rw [h] at hbooked
  exact hbooked.posture

theorem posture_of_collect {claimer : Claimer} {id : CallId} {result : Option Call}
    (h : s.collect claimer id = (result, s')) : s'.posture = s.posture := by
  have hbooked := Booked.collect s claimer id
  rw [h] at hbooked
  exact hbooked.posture

theorem posture_of_enroll {call : Call} {result : Except EngineError Receipt}
    (h : s.enroll call = (result, s')) : s'.posture = s.posture := by
  have hbooked := Booked.enroll s call
  rw [h] at hbooked
  exact hbooked.posture

theorem Deed.shift {need left : Undertakings} (h : Deed allowed need s left s') :
    s.Shift allowed s' := by
  cases h with
  | neutral h => exact .stay h.posture
  | life h => exact .life h
  | timed hop h => exact .timed hop h
  | begun hw hduty => exact .taken hw hduty
  | died number => exact .gone number
  | enrolled _ _ h => exact .stay (posture_of_enroll h)
  | abandoned h => exact .stay ((posture_release _).trans (posture_of_claim h))
  | unmatched h =>
    have hcollected := posture_of_collect h
    exact .stay hcollected
  | collected h => exact .stay ((posture_release _).trans (posture_of_collect h))
  | expired h =>
    obtain ⟨t, hclaim, hquiet⟩ := claimExpired_eq_some h
    have hclaimed := (Booked.quiet hquiet).posture.trans (posture_of_claim hclaim)
    exact .stay ((posture_release _).trans hclaimed)
  | locked => exact .swept true rfl
  | unlocked => exact .swept false rfl
  -- The others change no more than the books.
  | _ => exact .stay rfl

/-- Unless somebody asks for stops aside, their number stays what it was. It counts requests: when
one of them is carried out that is kept track of by the crew, and not here. -/
theorem Shift.stopsAside (hunasked : ¬ allowed .beginStop) (h : s.Shift allowed s') :
    s'.stopsAside = s.stopsAside := by
  cases h with
  | stay h | swept _ h => exact congrArg Posture.stopsAside h
  | timed | taken | gone => rfl
  | life h =>
    cases h with
    | start => exact (by unfold State.start; split <;> rfl)
    | beginStop => exact (by unfold State.beginStop; split <;> rfl)
    | stopAside hasked => exact absurd hasked hunasked
    | submit number t => exact (by unfold State.submit; split <;> rfl)
    | stopped | pass | purge | gone => rfl

theorem Deeds.stopsAside {d d' : Undertakings} (hunasked : ¬ allowed .beginStop)
    (h : Deeds allowed d s d' s') (hnone : s.stopsAside = 0) : s'.stopsAside = 0 :=
  h.keeps (P := fun _ s => s.stopsAside = 0)
    (fun hdeed hs => (hdeed.shift.stopsAside hunasked).trans hs) hnone

/-! ## Workers that take up no sweep -/

end State

/-- A property that a worker does not lose by being told to stop, by a task that is submitted to
it, or by dropping session bindings. These are what happens to a worker without its taking up a
sweep. -/
structure Worker.Lasts (Q : Worker Chore → Prop) : Prop where
  told : ∀ {w}, Q w → Q { w with stopping := true }
  submitted : ∀ {w t}, Q w → Q { w with queue := w.queue ++ [t] }
  purged : ∀ {w rest}, w.queue = .purgeBindings :: rest → Q w → Q { w with queue := rest }

namespace State

theorem exchange_all {Q : Worker Chore → Prop} {number : Nat} {taken : Worker Chore}
    (htaken : Q taken) (hs : ∀ w ∈ s.workers, w.number ≠ number → Q w) :
    ∀ w ∈ (s.exchange number taken).workers, Q w := by
  intro w hmem
  obtain ⟨v, hv, rfl⟩ := List.mem_map.mp hmem
  split
  · exact htaken
  · exact hs v hv ‹_›

/-- What lasts is kept, if the worker that is started has it. The other workers come out of a step
of the lifecycle as they were, or with a flag or a queue changed. -/
theorem Life.workers_all {Q : Worker Chore → Prop} (hQ : Worker.Lasts Q)
    (h : Life allowed s s')
    (hstart : s.started < s'.started →
      Q (.start s.started s.time s.config.sweepInterval.toNat))
    (hs : ∀ w ∈ s.workers, Q w) : ∀ w ∈ s'.workers, Q w := by
  cases h with
  | start =>
    unfold State.start at hstart ⊢
    split
    · exact hs
    · rename_i hfree
      rw [if_neg hfree] at hstart
      intro w hmem
      rcases List.mem_append.mp hmem with hold | hnew
      · exact hs w hold
      · rw [List.mem_singleton.mp hnew]
        exact hstart (Nat.lt_succ_self _)
  | beginStop =>
    unfold State.beginStop
    split
    · exact hs
    · intro w hmem
      obtain ⟨v, hv, rfl⟩ := List.mem_map.mp hmem
      split
      · exact hQ.told (hs v hv)
      · exact hs v hv
  | stopped | stopAside | pass => exact hs
  | submit number t =>
    unfold State.submit
    split
    · exact hs
    · rename_i found hfound
      have hfound : Q found := hs found (List.mem_of_find?_eq_some hfound)
      have hsubmitted : Q (found.submit t).2 := by
        unfold Worker.submit
        split
        · exact hfound
        · exact hQ.submitted hfound
      exact exchange_all hsubmitted fun w hw _ => hs w hw
  | purge hw hduty =>
    refine exchange_all ?_ fun w hw _ => hs w hw
    rcases Worker.eq_of_take hduty with ⟨t, rest, hitem, hqueue, rfl⟩ | ⟨hitem, -⟩
    · obtain rfl := Item.task.inj hitem
      exact hQ.purged hqueue (hs _ hw)
    · cases hitem
  | gone number => exact fun w hw => hs w (List.mem_of_mem_filter hw)

/-- Time and the numbers of the workers go on, and neither the settings change nor whether a sweep
is in progress. -/
theorem Life.onward (h : Life allowed s s') :
    s'.config = s.config ∧ s'.sweeping = s.sweeping ∧ s.time ≤ s'.time ∧
      s.started ≤ s'.started := by
  cases h with
  | start =>
    unfold State.start
    split
    · exact ⟨rfl, rfl, le_rfl, le_rfl⟩
    · exact ⟨rfl, rfl, le_rfl, Nat.le_succ _⟩
  | beginStop => unfold State.beginStop; split <;> exact ⟨rfl, rfl, le_rfl, le_rfl⟩
  | submit number t => unfold State.submit; split <;> exact ⟨rfl, rfl, le_rfl, le_rfl⟩
  | pass time => exact ⟨rfl, rfl, le_max_left _ _, le_rfl⟩
  | stopped | stopAside | purge | gone => exact ⟨rfl, rfl, le_rfl, le_rfl⟩

end State

/-! ## The pace of the workers -/

/-- The worker is one of those that have been started, and its next tick is no more than an
interval away. The second is more than that ticks come at intervals: it holds also right after a
tick that came late. -/
structure Worker.IsPaced (w : Worker Chore) (interval time started : Nat) : Prop where
  number : w.number < started
  pace : w.interval ≤ interval
  nextTick : w.nextTick ≤ time + interval

namespace Worker.IsPaced

variable {w taken : Worker Chore} {interval time started : Nat}

theorem mono (h : w.IsPaced interval time started) {time' started' : Nat} (htime : time ≤ time')
    (hstarted : started ≤ started') : w.IsPaced interval time' started' :=
  ⟨h.number.trans_le hstarted, h.pace, by have := h.nextTick; omega⟩

theorem lasts : Worker.Lasts (·.IsPaced interval time started) where
  told h := ⟨h.number, h.pace, h.nextTick⟩
  submitted h := ⟨h.number, h.pace, h.nextTick⟩
  purged _ h := ⟨h.number, h.pace, h.nextTick⟩

theorem take (h : w.IsPaced interval time started) {item : Item Chore}
    (hduty : w.duty? time = some (.take item taken)) : taken.IsPaced interval time started := by
  rcases eq_of_take hduty with ⟨t, rest, -, -, rfl⟩ | ⟨-, -, hdue, rfl⟩
  · exact ⟨h.number, h.pace, h.nextTick⟩
  · have hnext := w.nextTick_ticked_le hdue
    have hpace := h.pace
    exact ⟨h.number, h.pace, by omega⟩

end Worker.IsPaced

namespace State

/-- All workers are paced. -/
def IsPaced (s : State) : Prop :=
  ∀ w ∈ s.workers, w.IsPaced s.config.sweepInterval.toNat s.time s.started

theorem Shift.paced (h : s.Shift allowed s') (hs : s.IsPaced) : s'.IsPaced := by
  -- Pace is read off four fields of the posture, so what leaves these alone leaves it.
  have same (hconfig : s'.config = s.config) (hworkers : s'.workers = s.workers)
      (htime : s'.time = s.time) (hstarted : s'.started = s.started) : s'.IsPaced := by
    unfold IsPaced
    rw [hconfig, hworkers, htime, hstarted]
    exact hs
  cases h with
  | stay h | swept _ h =>
    exact same (congrArg Posture.config h) (congrArg Posture.workers h) (congrArg Posture.time h)
      (congrArg Posture.started h)
  | life h =>
    obtain ⟨hconfig, -, htime, hstarted⟩ := h.onward
    unfold IsPaced
    rw [hconfig]
    refine h.workers_all Worker.IsPaced.lasts (fun hlt => ⟨hlt, min_le_left _ _, ?_⟩) fun w hw =>
      (hs w hw).mono htime hstarted
    exact Nat.add_le_add_right htime _
  | timed => exact hs
  | taken hw hduty => exact exchange_all ((hs _ hw).take hduty) fun w hw _ => hs w hw
  | gone number => exact fun w hw => hs w (List.mem_of_mem_filter hw)

/-- No deed puts off a tick for longer than an interval. -/
theorem Deed.paced {need left : Undertakings} (h : Deed allowed need s left s')
    (hs : s.IsPaced) : s'.IsPaced := h.shift.paced hs

end State

end Correlator
