/-!
# Stacks

Fault handlers and suspended frames are kept in stacks. `toList` lists a stack from the bottom to
the top, which is also the order in which it is written.

* `toList_push`, `pop?_push`, `ofList_toList` : what the operations do to that view.
-/

namespace Correlator

/-- A stack; `items` starts with the top. -/
structure Stack (α : Type) where
  items : List α := []
  deriving DecidableEq, Inhabited

namespace Stack

variable {α : Type}

def empty : Stack α := {}

def push (s : Stack α) (a : α) : Stack α := ⟨a :: s.items⟩

def pop? (s : Stack α) : Option (α × Stack α) :=
  match s.items with
  | [] => none
  | a :: rest => some (a, ⟨rest⟩)

def peek? (s : Stack α) : Option α := s.items.head?

def size (s : Stack α) : Nat := s.items.length

def isEmpty (s : Stack α) : Bool := s.items.isEmpty

def toList (s : Stack α) : List α := s.items.reverse

/-- The stack that pushing the items one after another gives. -/
def ofList (items : List α) : Stack α := ⟨items.reverse⟩

@[simp] theorem toList_push (s : Stack α) (a : α) : (s.push a).toList = s.toList ++ [a] := by
  simp [push, toList]

@[simp] theorem pop?_push (s : Stack α) (a : α) : (s.push a).pop? = some (a, s) := rfl

theorem isEmpty_eq_isNone_pop? (s : Stack α) : s.isEmpty = s.pop?.isNone := by
  obtain ⟨items⟩ := s
  cases items <;> rfl

@[simp] theorem ofList_toList (s : Stack α) : ofList s.toList = s := by
  simp [ofList, toList]

@[simp] theorem toList_ofList (items : List α) : (ofList items).toList = items := by
  simp [ofList, toList]

end Stack

end Correlator
