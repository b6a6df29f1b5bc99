/-!
# JSON values

A value is what a body or a property carries: it is passed along unread. Objects are kept with
strictly increasing names (`Members.insert` keeps them so), which makes equality of values the
equality of what they say.

* `Members.find?_insert_self`, `Members.find?_insert_of_ne` : what an insertion changes.
-/

namespace Correlator

/-- A JSON value. Whole numbers are kept exactly; any other number is
`significand * 10 ^ exponent`. -/
inductive Json where
  | null
  | bool (b : Bool)
  | integer (n : Int)
  | real (significand exponent : Int)
  | string (s : String)
  | array (items : List Json)
  | object (members : List (String × Json))
  deriving Inhabited

/-! ## Members: lists of named values in order of name -/

namespace Members

variable {α : Type}

/-- Gives `name` the value `value`, replacing what it had. Names in increasing order stay so. -/
def insert (name : String) (value : α) : List (String × α) → List (String × α)
  | [] => [(name, value)]
  | (k, v) :: rest =>
    if name < k then (name, value) :: (k, v) :: rest
    else if name = k then (name, value) :: rest
    else (k, v) :: insert name value rest

def find? (name : String) : List (String × α) → Option α
  | [] => none
  | (k, v) :: rest => if name = k then some v else find? name rest

/-- Members given one after another; of two with the same name the later one stays. -/
def ofList (members : List (String × α)) : List (String × α) :=
  members.foldl (fun acc m => insert m.1 m.2 acc) []

def erase (name : String) (members : List (String × α)) : List (String × α) :=
  members.filter fun m => m.1 ≠ name

@[simp] theorem find?_insert_self (name : String) (value : α) (members : List (String × α)) :
    find? name (insert name value members) = some value := by
  induction members with
  | nil => simp [insert, find?]
  | cons m rest ih =>
    obtain ⟨k, v⟩ := m
    simp only [insert]
    split
    · simp [find?]
    · split
      · simp [find?]
      · simp [find?, *]

theorem find?_insert_of_ne {name other : String} (h : other ≠ name) (value : α)
    (members : List (String × α)) :
    find? other (insert name value members) = find? other members := by
  induction members with
  | nil => simp [insert, find?, h]
  | cons m rest ih =>
    obtain ⟨k, v⟩ := m
    simp only [insert]
    split
    · simp [find?, h]
    · split
      · rename_i hk
        simp [find?, ← hk, h]
      · simp [find?, ih]

theorem find?_of_notMem {name : String} {members : List (String × α)}
    (h : name ∉ members.map (·.1)) : find? name members = none := by
  induction members with
  | nil => rfl
  | cons m rest ih =>
    obtain ⟨k, v⟩ := m
    rw [List.map_cons, List.mem_cons, not_or] at h
    rw [find?, if_neg h.1, ih h.2]

end Members

end Correlator
