/-!
# Work that can wait

Several pieces of work share a state and go on one at a time. A piece of work runs until it ends
or until it has to wait; then the others go on, and later it finds the state as they left it.

`Progress` says how far work has come, and `Work` is work on a shared state. Work that never waits
is a plain function on the state: `bind_ended` goes through it step by step. What waits is put
together by `bind_waiting`.
-/

namespace Correlator

/-- The longest time that a pause lasts: thirty years, in milliseconds. -/
def longestPause : Nat := 30 * 365 * 24 * 60 * 60 * 1000

inductive Wait (S : Type) where
  /-- That the others have gone on as far as they could. -/
  | rest
  /-- That this time has come. -/
  | time (time : Nat)
  /-- A condition on the shared state. -/
  | condition (holds : S → Bool)

namespace Wait

variable {S : Type}

def isRest : Wait S → Bool
  | .rest => true
  | _ => false

def time? : Wait S → Option Nat
  | .time t => some t
  | _ => none

/-- Whether it waits for a condition that the state meets. -/
def isMet (s : S) : Wait S → Bool
  | .condition holds => holds s
  | _ => false

/-- Whether it is over once it is its turn at the time `now`. -/
def isOver (now : Nat) (s : S) : Wait S → Bool
  | .rest => true
  | .time t => t ≤ now
  | .condition holds => holds s

end Wait

/-- How far work has come: to its end with a result, or to a point where it waits; `next` is what
it does from there on. -/
inductive Progress (S α : Type) where
  | ended (result : α) (state : S)
  | waiting (wait : Wait S) (state : S) (next : S → Progress S α)

/-- Work on a shared state. -/
def Work (S α : Type) : Type := S → Progress S α

namespace Progress

variable {S α β : Type}

/-- Goes on with `work` from the result. -/
def bind : Progress S α → (α → Work S β) → Progress S β
  | .ended result s, work => work result s
  | .waiting wait s next, work => .waiting wait s fun s => (next s).bind work

@[simp] theorem bind_ended (result : α) (s : S) (work : α → Work S β) :
    (ended result s).bind work = work result s := rfl

@[simp] theorem bind_waiting (wait : Wait S) (s : S) (next : S → Progress S α)
    (work : α → Work S β) :
    (waiting wait s next).bind work = .waiting wait s fun s => (next s).bind work := rfl

theorem bind_ended_right (p : Progress S α) : p.bind ended = p := by
  induction p with
  | ended => rfl
  | waiting wait s next ih => exact congrArg (waiting wait s) (funext ih)

theorem bind_assoc {γ : Type} (p : Progress S α) (f : α → Work S β) (g : β → Work S γ) :
    (p.bind f).bind g = p.bind fun a s => (f a s).bind g := by
  induction p with
  | ended => rfl
  | waiting wait s next ih => exact congrArg (waiting wait s) (funext ih)

end Progress

namespace Work

variable {S α β : Type}

instance : Monad (Work S) where
  pure a := fun s => .ended a s
  bind x f := fun s => (x s).bind f

instance : LawfulMonad (Work S) :=
  LawfulMonad.mk' (Work S)
    (fun x => funext fun s => (x s).bind_ended_right)
    (fun _ _ => rfl)
    (fun x f g => funext fun s => (x s).bind_assoc f g)

def apply (f : S → α × S) : Work S α := fun s => .ended (f s).1 (f s).2

def await (wait : Wait S) : Work S Unit := fun s => .waiting wait s (.ended ())

/-- Lets `duration` pass from the time `now`, but no more than the longest pause. -/
def pause (now duration : Nat) : Work S Unit :=
  if duration = 0 then pure () else await (.time (now + min duration longestPause))

theorem pure_apply (a : α) (s : S) : (pure a : Work S α) s = .ended a s := rfl

theorem bind_apply (x : Work S α) (f : α → Work S β) (s : S) : (x >>= f) s = (x s).bind f := rfl

end Work

end Correlator
