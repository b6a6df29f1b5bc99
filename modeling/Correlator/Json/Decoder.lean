import Correlator.Json.Document

/-!
# Decoding documents

A decoder reads a document as a value of some type, given how many levels of containers it may
still enter. A record has two presentations: an object, whose members may come in any order and
among unknown ones, and an array of all its fields in order. `fields` brings both to one form, the
list of what each field was given; after it nothing depends on the presentation.
-/

namespace Correlator

/-- Reads a document that may nest the given number of levels. `none` stands for every way in which
a text may fail to say a value; which one it was is not kept. -/
abbrev Decoder (α : Type) := Nat → Document → Option α

namespace Decoder

variable {α : Type}

/-- The levels that a whole text may nest. -/
def maxLevels : Nat := 127

/-- Decodes a text. -/
def ofText? (d : Decoder α) (text : String) : Option α :=
  (Document.parse text).bind (d maxLevels)

/-! ## Scalars and lists -/

def text : Decoder String
  | _, .string s => s
  | _, _ => none

def bool : Decoder Bool
  | _, .bool b => some b
  | _, _ => none

/-- A whole number from `low` to `high`. A minus before a zero makes it no whole number. -/
def whole (low high : Int) : Decoder Int
  | _, .number (.whole negative magnitude) =>
    let n : Int := if negative then -magnitude else magnitude
    if (negative && magnitude = 0) || n < low || high < n then none else some n
  | _, _ => none

def word64 : Decoder UInt64 := fun levels d =>
  (whole 0 (UInt64.size - 1) levels d).map fun n => .ofNat n.toNat

def word32 : Decoder UInt32 := fun levels d =>
  (whole 0 (UInt32.size - 1) levels d).map fun n => .ofNat n.toNat

def signed32 : Decoder Int32 := fun levels d =>
  (whole Int32.minValue.toInt Int32.maxValue.toInt levels d).map .ofInt

def json : Decoder Json := Document.value?

/-- A value, or `null` for its absence. -/
def nullable (d : Decoder α) : Decoder (Option α)
  | _, .null => some none
  | levels, doc => (d levels doc).map some

def list (d : Decoder α) : Decoder (List α)
  | inner + 1, .array items => items.mapM (d inner)
  | _, _ => none

/-! ## Records -/

/-- The members of an object by name, unless a name is no string. -/
def namedMembers (members : List (Option String × Document)) : Option (List (String × Document)) :=
  members.mapM fun (name, d) => name.map (·, d)

/-- What each of the fields `names` was given, and the levels left inside the record. No field may
be given twice; members with other names are not looked at, so what they hold need not even say a
value. An array gives all fields in order. -/
def fields (names : List String) : Nat → Document → Option (Nat × List (Option Document))
  | inner + 1, .object members => do
    let members ← namedMembers members
    if names.all fun name => (members.filter (·.1 = name)).length ≤ 1 then
      return (inner, names.map fun name => (members.find? (·.1 = name)).map (·.2))
    else none
  | inner + 1, .array items =>
    if items.length = names.length then some (inner, items.map some) else none
  | _, _ => none

/-- A field that must be given. -/
def required (d : Decoder α) (inner : Nat) (slot : Option Document) : Option α :=
  slot.bind (d inner)

/-- A field that may be left out or `null`. -/
def optional (d : Decoder α) (inner : Nat) (slot : Option Document) : Option (Option α) :=
  match slot with
  | none => some none
  | some doc => nullable d inner doc

/-! ## Variants -/

/-- The name of a variant, and its payload with the levels left for it: either the name alone, or
an object with one member. -/
def tagged : Nat → Document → Option (String × Option (Nat × Document))
  | _, .string (some name) => some (name, none)
  | inner + 1, .object [(some name, payload)] => some (name, some (inner, payload))
  | _, _ => none

/-- A variant without payload: its name alone, or its name with `null`. -/
def plainName (levels : Nat) (d : Document) : Option String :=
  match tagged levels d with
  | some (name, none) => some name
  | some (name, some (_, .null)) => some name
  | _ => none

end Decoder

end Correlator
