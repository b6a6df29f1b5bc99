import Correlator.Stack
import Mathlib.Data.Multiset.AddSub

/-!
# Histories of stacks

Two stacks do not tell what went on between them: what was put on top and taken off again has left
no trace. A history of pushes and pops does tell, and `Stack.Goes` says which histories lead from
one stack to another. Whatever is said about the discipline of a stack is said about histories.

## Main definitions

* `Stack.Goes` : the history leads from the first stack to the second.
* `Stack.lowest` : the lowest size that the stack has on the way.

## Main results

* `Stack.Goes.conserves` : what was there and what was pushed is what was popped and what is left.
* `Stack.Goes.take_lowest` : below the lowest point nothing has changed.
* `Stack.Goes.top_latest` : what is on top is the latest that has been pushed and not been popped.
-/

namespace Correlator

namespace Stack

variable {α : Type}

/-- A change of a stack. -/
inductive Move (α : Type) where
  | push (a : α)
  | pop (a : α)

/-- What the change puts on the stack. -/
def Move.pushed? : Move α → Option α
  | .push a => some a
  | .pop _ => none

/-- What the change takes off the stack. -/
def Move.popped? : Move α → Option α
  | .push _ => none
  | .pop a => some a

/-- The size of the stack after the change. -/
def Move.resize (size : Nat) : Move α → Nat
  | .push _ => size + 1
  | .pop _ => size - 1

/-- Everything that is pushed. -/
def pushed (moves : List (Move α)) : List α := moves.filterMap Move.pushed?

/-- Everything that is popped. -/
def popped (moves : List (Move α)) : List α := moves.filterMap Move.popped?

/-- The lowest size of a stack that has the size `size` at first. Down to there everything on the
stack may have changed, and below there nothing has. -/
def lowest (size : Nat) : List (Move α) → Nat
  | [] => size
  | move :: moves => min size (lowest (move.resize size) moves)

/-- The changes lead from one stack to the other, the first change first. A pop is of what is on
top, so a history that pops anything else leads nowhere. -/
inductive Goes : Stack α → List (Move α) → Stack α → Prop
  | stay (s : Stack α) : Goes s [] s
  | push {s t : Stack α} {a : α} {moves : List (Move α)} (h : Goes (s.push a) moves t) :
      Goes s (.push a :: moves) t
  | pop {s t : Stack α} {a : α} {moves : List (Move α)} (h : Goes s moves t) :
      Goes (s.push a) (.pop a :: moves) t

section Parts

variable (xs ys : List (Move α)) (a : α)

@[simp] theorem pushed_append : pushed (xs ++ ys) = pushed xs ++ pushed ys := by simp [pushed]

@[simp] theorem popped_append : popped (xs ++ ys) = popped xs ++ popped ys := by simp [popped]

@[simp] theorem pushed_push : pushed (.push a :: xs) = a :: pushed xs := rfl

@[simp] theorem pushed_pop : pushed (.pop a :: xs) = pushed xs := rfl

@[simp] theorem popped_push : popped (.push a :: xs) = popped xs := rfl

@[simp] theorem popped_pop : popped (.pop a :: xs) = a :: popped xs := rfl

@[simp] theorem pushed_map_push (as : List α) : pushed (as.map .push) = as := by
  induction as with
  | nil => rfl
  | cons a as ih => rw [List.map_cons, pushed_push, ih]

@[simp] theorem pushed_map_pop (as : List α) : pushed (as.map .pop) = [] := by
  induction as with
  | nil => rfl
  | cons a as ih => rw [List.map_cons, pushed_pop, ih]

@[simp] theorem popped_map_push (as : List α) : popped (as.map .push) = [] := by
  induction as with
  | nil => rfl
  | cons a as ih => rw [List.map_cons, popped_push, ih]

@[simp] theorem popped_map_pop (as : List α) : popped (as.map .pop) = as := by
  induction as with
  | nil => rfl
  | cons a as ih => rw [List.map_cons, popped_pop, ih]

theorem lowest_le (size : Nat) : lowest size xs ≤ size := by
  cases xs with
  | nil => exact le_refl size
  | cons move moves => exact min_le_left _ _

end Parts

namespace Goes

variable {s t u : Stack α} {a : α} {xs ys moves : List (Move α)}

theorem append (h : Goes s xs t) (h' : Goes t ys u) : Goes s (xs ++ ys) u := by
  induction h with
  | stay => exact h'
  | push _ ih => exact .push (ih h')
  | pop _ ih => exact .pop (ih h')

theorem of_append (h : Goes s (xs ++ ys) u) : ∃ t, Goes s xs t ∧ Goes t ys u := by
  induction xs generalizing s with
  | nil => exact ⟨s, .stay s, h⟩
  | cons move xs ih =>
    cases h with
    | push h =>
      obtain ⟨t, hxs, hys⟩ := ih h
      exact ⟨t, .push hxs, hys⟩
    | pop h =>
      obtain ⟨t, hxs, hys⟩ := ih h
      exact ⟨t, .pop hxs, hys⟩

/-- Pushing one after another. -/
theorem pushes (above below : List α) :
    Goes ⟨below⟩ (above.map .push) ⟨above.reverse ++ below⟩ := by
  induction above generalizing below with
  | nil => exact .stay _
  | cons a above ih =>
    have hrest := ih (a :: below)
    rw [List.reverse_cons, List.append_assoc]
    exact .push hrest

/-- Popping one after another. -/
theorem pops (above below : List α) : Goes ⟨above ++ below⟩ (above.map .pop) ⟨below⟩ := by
  induction above with
  | nil => exact .stay _
  | cons a above ih => exact .pop ih

/-- Nothing gets lost on a stack and nothing appears from nowhere. Multisets say this and no more;
in which order things come off is what `top_latest` says. -/
theorem conserves (h : Goes s moves t) :
    (s.items : Multiset α) + pushed moves = popped moves + t.items := by
  induction h with
  | stay s => simp [pushed, popped]
  | @push s t a moves _ ih =>
    rw [popped_push, ← ih, pushed_push]
    simp only [Stack.push, ← Multiset.cons_coe, Multiset.cons_add, Multiset.add_cons]
  | @pop s t a moves _ ih =>
    rw [pushed_pop, popped_pop]
    simp only [Stack.push, ← Multiset.cons_coe, Multiset.cons_add, ih]

/-- If nothing is pushed, the stack is taken down from the top. -/
theorem of_pushed_eq_nil (h : Goes s moves t) (hpushed : pushed moves = []) :
    popped moves ++ t.items = s.items := by
  induction h with
  | stay => rfl
  | push => simp at hpushed
  | @pop s t a moves _ ih =>
    have hrest : popped moves ++ t.items = s.items := ih hpushed
    rw [popped_pop, List.cons_append, hrest]
    rfl

theorem take_lowest (h : Goes s moves t) :
    t.toList.take (lowest s.size moves) = s.toList.take (lowest s.size moves) := by
  induction h with
  | stay => rfl
  | @push s t a moves _ ih =>
    -- The push lies above the size at which the history begins, so cutting there cuts it off.
    have hlength : s.toList.length = s.size := by simp [toList, size]
    show t.toList.take (min s.size (lowest (s.push a).size moves)) =
      s.toList.take (min s.size (lowest (s.push a).size moves))
    calc t.toList.take (min s.size (lowest (s.push a).size moves))
        = (t.toList.take (lowest (s.push a).size moves)).take s.size := List.take_take.symm
      _ = ((s.toList ++ [a]).take (lowest (s.push a).size moves)).take s.size := by
          rw [ih, toList_push]
      _ = (s.toList ++ [a]).take (min s.size (lowest (s.push a).size moves)) := List.take_take
      _ = s.toList.take (min s.size (lowest (s.push a).size moves)) :=
          List.take_append_of_le_length (by omega)
  | @pop s t a moves _ ih =>
    have hlow := lowest_le moves s.size
    have hlowest : lowest (s.push a).size (.pop a :: moves) = lowest s.size moves := by
      show min (s.size + 1) (lowest s.size moves) = lowest s.size moves
      omega
    have hlength : lowest s.size moves ≤ s.toList.length := by simpa [toList, size] using hlow
    rw [hlowest, ih, toList_push, List.take_append_of_le_length hlength]

/-- What lies on top was either pushed on the way, and all that was pushed after it has been popped
again, or it was there, and all that lay above it has been popped. -/
theorem top_latest (h : Goes s moves (t.push a)) :
    (∃ earlier between, moves = earlier ++ .push a :: between ∧ Goes empty between empty) ∨
      ∃ upper, s.items = upper ++ a :: t.items ∧ Goes ⟨upper⟩ moves empty := by
  generalize htop : t.push a = top at h
  induction h with
  | stay =>
    right
    exact ⟨[], congrArg items htop.symm, .stay _⟩
  | @push s _ b moves _ ih =>
    rcases ih htop with ⟨earlier, between, rfl, hbetween⟩ | ⟨upper, hitems, hupper⟩
    · left
      exact ⟨.push b :: earlier, between, rfl, hbetween⟩
    · cases upper with
      | nil =>
        -- This is the push that has put it there.
        obtain ⟨rfl, -⟩ := List.cons.inj hitems
        left
        exact ⟨[], moves, rfl, hupper⟩
      | cons c upper =>
        obtain ⟨rfl, hrest⟩ := List.cons.inj hitems
        right
        exact ⟨upper, hrest, .push hupper⟩
  | @pop s _ b moves _ ih =>
    rcases ih htop with ⟨earlier, between, rfl, hbetween⟩ | ⟨upper, hitems, hupper⟩
    · left
      exact ⟨.pop b :: earlier, between, rfl, hbetween⟩
    · right
      exact ⟨b :: upper, congrArg (b :: ·) hitems, .pop hupper⟩

end Goes

end Stack

end Correlator
