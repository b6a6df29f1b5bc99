import Correlator.Proofs.Fields
import Mathlib.Data.List.Nodup
import Mathlib.Logic.Relation

/-!
# What a decoder goes by

A decoder goes by the fields of a type, not by how a document presents them.  A `Shape` says which
fields there are and what stands in them.  The same can be presented in several ways, at the top or
anywhere inside (`Shape.Recast`, one change at a time), and some documents present nothing at all
(`Shape.Spoils`).  A decoder follows a shape if it does not see the first and refuses the second
(`Decoder.Follows`).

Records are where the two presentations meet, and `fields` brings both to a list of slots; so all
that has to be known about a recast record is that its slots are alike (`fields_recast`), and about
a spoiled one that a slot is spoiled (`fields_spoiled`).

## Main results

* `Follows.record`, `Follows.variant`, `Follows.list` : a decoder that is put together from decoders
  which follow the shapes of the parts follows the shape of the whole.
-/

namespace Correlator

/-! ## Shapes -/

/-- What a decoder looks for in a document. A shape says nothing about the values in its leaves:
what is spoiled there is the business of the decoder of the leaf. -/
inductive Shape where
  /-- Something without fields. -/
  | leaf
  /-- A whole number between two bounds. -/
  | whole (low high : Int)
  /-- Something that may be absent. -/
  | optional (value : Shape)
  | list (item : Shape)
  /-- Named fields, in the order of an array of them. -/
  | record (fields : List (String × Shape))
  /-- One of several named payloads. -/
  | variant (payloads : List (String × Shape))

namespace Shape

/-- Whether a field of this shape may be left out. -/
def isOptional : Shape → Bool
  | .optional _ => true
  | _ => false

/-- The second document says the same as the first; they differ in the presentation of one record.
Any number of such changes, in either direction and at any depth, makes `Alike`. -/
inductive Recast : Shape → Document → Document → Prop
  /-- The members of an object in another order. -/
  | permute {fs : List (String × Shape)} {members members' : List (Option String × Document)} :
    members.Perm members' → Recast (.record fs) (.object members) (.object members')
  /-- One more member, whose name is not that of a field. -/
  | insert {fs : List (String × Shape)} {before after : List (Option String × Document)}
    {name : String} (d : Document) : name ∉ fs.map (·.1) →
    Recast (.record fs) (.object (before ++ after)) (.object (before ++ (some name, d) :: after))
  /-- The array of all fields. -/
  | positional {fs : List (String × Shape)} {docs : List Document} : docs.length = fs.length →
    Recast (.record fs) (.object (((fs.map (·.1)).map some).zip docs)) (.array docs)
  /-- A field that may be left out, given as `null`. -/
  | absent {fs : List (String × Shape)} {before after : List (Option String × Document)}
    {name : String} {s : Shape} : (name, .optional s) ∈ fs →
    some name ∉ (before ++ after).map (·.1) →
    Recast (.record fs) (.object (before ++ after))
      (.object (before ++ (some name, .null) :: after))
  /-- A change inside a field. -/
  | field {fs : List (String × Shape)} {before after : List (Option String × Document)}
    {name : String} {s : Shape} {d d' : Document} : (name, s) ∈ fs → Recast s d d' →
    Recast (.record fs) (.object (before ++ (some name, d) :: after))
      (.object (before ++ (some name, d') :: after))
  /-- A change inside a field of an array. -/
  | element {fs fs' : List (String × Shape)} {before after : List Document} {name : String}
    {s : Shape} {d d' : Document} : before.length = fs.length → Recast s d d' →
    Recast (.record (fs ++ (name, s) :: fs')) (.array (before ++ d :: after))
      (.array (before ++ d' :: after))
  /-- A change inside an item. -/
  | item {before after : List Document} {s : Shape} {d d' : Document} : Recast s d d' →
    Recast (.list s) (.array (before ++ d :: after)) (.array (before ++ d' :: after))
  /-- A change inside a payload. -/
  | payload {payloads : List (String × Shape)} {name : String} {s : Shape} {d d' : Document} :
    (name, s) ∈ payloads → Recast s d d' →
    Recast (.variant payloads) (.object [(some name, d)]) (.object [(some name, d')])
  /-- A change inside something that is not absent. -/
  | present {s : Shape} {d d' : Document} : Recast s d d' → Recast (.optional s) d d'

/-- Two documents that say the same. -/
def Alike (s : Shape) : Document → Document → Prop := Relation.EqvGen s.Recast

/-- The document says nothing of this shape: something in it is out of range, missing, given twice,
or of the wrong number, at the top or wherever a field, an item or a payload leads. -/
inductive Spoils : Shape → Document → Prop
  /-- A number out of bounds. -/
  | range {low high : Int} {negative : Bool} {magnitude : Nat} :
    ¬ (low ≤ (if negative then -(magnitude : Int) else magnitude) ∧
      (if negative then -(magnitude : Int) else magnitude) ≤ high) →
    Spoils (.whole low high) (.number (.whole negative magnitude))
  /-- A field that is given twice. -/
  | repeated {fs : List (String × Shape)} {before between after : List (Option String × Document)}
    {name : String} {d d' : Document} : name ∈ fs.map (·.1) →
    Spoils (.record fs)
      (.object (before ++ (some name, d) :: (between ++ (some name, d') :: after)))
  /-- A field that is left out and must be given. -/
  | missing {fs : List (String × Shape)} {members : List (Option String × Document)}
    {name : String} {s : Shape} : (name, s) ∈ fs → s.isOptional = false →
    some name ∉ members.map (·.1) → Spoils (.record fs) (.object members)
  /-- An array with too few or too many elements. -/
  | length {fs : List (String × Shape)} {docs : List Document} : docs.length ≠ fs.length →
    Spoils (.record fs) (.array docs)
  /-- No variant, or more than one. -/
  | keys {payloads : List (String × Shape)} {members : List (Option String × Document)} :
    members.length ≠ 1 → Spoils (.variant payloads) (.object members)
  /-- A spoiled field. -/
  | field {fs : List (String × Shape)} {members : List (Option String × Document)} {name : String}
    {s : Shape} {d : Document} : (name, s) ∈ fs → (some name, d) ∈ members → Spoils s d →
    Spoils (.record fs) (.object members)
  /-- A spoiled field of an array. -/
  | element {fs fs' : List (String × Shape)} {before after : List Document} {name : String}
    {s : Shape} {d : Document} : before.length = fs.length → Spoils s d →
    Spoils (.record (fs ++ (name, s) :: fs')) (.array (before ++ d :: after))
  /-- A spoiled item. -/
  | item {s : Shape} {docs : List Document} {d : Document} : d ∈ docs → Spoils s d →
    Spoils (.list s) (.array docs)
  /-- A spoiled payload. -/
  | payload {payloads : List (String × Shape)} {name : String} {s : Shape} {d : Document} :
    (name, s) ∈ payloads → Spoils s d → Spoils (.variant payloads) (.object [(some name, d)])
  /-- Something spoiled where nothing would do. -/
  | present {s : Shape} {d : Document} : Spoils s d → Spoils (.optional s) d

theorem Recast.ne_null {s : Shape} {d d' : Document} (h : s.Recast d d') :
    d ≠ .null ∧ d' ≠ .null := by
  induction h with
  | present _ ih => exact ih
  | _ => exact ⟨nofun, nofun⟩

theorem Spoils.ne_null {s : Shape} {d : Document} (h : s.Spoils d) : d ≠ .null := by
  induction h with
  | present _ ih => exact ih
  | _ => nofun

end Shape

/-! ## Slots -/

/-- What a field is given, in two ways that say the same. -/
inductive SlotAlike : Shape → Option Document → Option Document → Prop
  | same (s : Shape) (slot : Option Document) : SlotAlike s slot slot
  | recast {s : Shape} {d d' : Document} : s.Recast d d' → SlotAlike s (some d) (some d')
  | absent (s : Shape) : SlotAlike (.optional s) none (some .null)

/-- What a field is given, if that is not what its shape asks for. -/
inductive SlotSpoiled : Shape → Option Document → Prop
  | missing {s : Shape} : s.isOptional = false → SlotSpoiled s none
  | given {s : Shape} {d : Document} : s.Spoils d → SlotSpoiled s (some d)

/-- What all fields are given, in two ways that say the same. -/
inductive SlotsAlike :
    List (String × Shape) → List (Option Document) → List (Option Document) → Prop
  | nil : SlotsAlike [] [] []
  | cons {f : String × Shape} {fs : List (String × Shape)} {slot slot' : Option Document}
    {slots slots' : List (Option Document)} : SlotAlike f.2 slot slot' →
    SlotsAlike fs slots slots' → SlotsAlike (f :: fs) (slot :: slots) (slot' :: slots')

/-- What all fields are given, if one of them is spoiled. -/
inductive SlotsSpoiled : List (String × Shape) → List (Option Document) → Prop
  | head {f : String × Shape} {fs : List (String × Shape)} {slot : Option Document}
    {slots : List (Option Document)} : SlotSpoiled f.2 slot → slots.length = fs.length →
    SlotsSpoiled (f :: fs) (slot :: slots)
  | tail {f : String × Shape} {fs : List (String × Shape)} (slot : Option Document)
    {slots : List (Option Document)} : SlotsSpoiled fs slots →
    SlotsSpoiled (f :: fs) (slot :: slots)

theorem SlotsAlike.map {fs : List (String × Shape)} {slot slot' : String → Option Document}
    (h : ∀ f ∈ fs, SlotAlike f.2 (slot f.1) (slot' f.1)) :
    SlotsAlike fs ((fs.map (·.1)).map slot) ((fs.map (·.1)).map slot') := by
  induction fs with
  | nil => exact .nil
  | cons f fs ih =>
    obtain ⟨hf, hfs⟩ := List.forall_mem_cons.mp h
    exact .cons hf (ih hfs)

theorem SlotsSpoiled.map {fs : List (String × Shape)} {slot : String → Option Document}
    {f : String × Shape} (hf : f ∈ fs) (h : SlotSpoiled f.2 (slot f.1)) :
    SlotsSpoiled fs ((fs.map (·.1)).map slot) := by
  induction fs with
  | nil => cases hf
  | cons first fs ih =>
    obtain rfl | hf := List.mem_cons.mp hf
    · exact .head h (by simp)
    · exact .tail _ (ih hf)

theorem SlotsAlike.refl {fs : List (String × Shape)} {docs : List Document}
    (hlen : docs.length = fs.length) : SlotsAlike fs (docs.map some) (docs.map some) := by
  induction fs generalizing docs with
  | nil =>
    obtain rfl := List.length_eq_zero_iff.mp hlen
    exact .nil
  | cons f fs ih =>
    obtain ⟨d, docs, rfl⟩ := List.exists_cons_of_length_eq_add_one hlen
    exact .cons (.same _ _) (ih (Nat.succ.inj hlen))

theorem SlotsAlike.array {fs fs' : List (String × Shape)} {before after : List Document}
    {name : String} {s : Shape} {d d' : Document} (hbefore : before.length = fs.length)
    (hafter : after.length = fs'.length) (h : s.Recast d d') :
    SlotsAlike (fs ++ (name, s) :: fs') ((before ++ d :: after).map some)
      ((before ++ d' :: after).map some) := by
  induction fs generalizing before with
  | nil =>
    obtain rfl := List.length_eq_zero_iff.mp hbefore
    exact .cons (.recast h) (.refl hafter)
  | cons f fs ih =>
    obtain ⟨first, before, rfl⟩ := List.exists_cons_of_length_eq_add_one hbefore
    exact .cons (.same _ _) (ih (Nat.succ.inj hbefore))

theorem SlotsSpoiled.array {fs fs' : List (String × Shape)} {before after : List Document}
    {name : String} {s : Shape} {d : Document} (hbefore : before.length = fs.length)
    (hafter : after.length = fs'.length) (h : s.Spoils d) :
    SlotsSpoiled (fs ++ (name, s) :: fs') ((before ++ d :: after).map some) := by
  induction fs generalizing before with
  | nil =>
    obtain rfl := List.length_eq_zero_iff.mp hbefore
    exact .head (.given h) (by rw [List.length_map, hafter])
  | cons f fs ih =>
    obtain ⟨first, before, rfl⟩ := List.exists_cons_of_length_eq_add_one hbefore
    exact .tail _ (ih (Nat.succ.inj hbefore))

/-! ## Records -/

namespace Decoder

variable {fs : List (String × Shape)} {d d' : Document}
  {members members' : List (Option String × Document)}

/-- Two readings of a record that cannot be told apart: they are the same, or both give slots, and
slot by slot these are alike. -/
def FieldsAlike (fs : List (String × Shape)) (levels : Nat) (d d' : Document) : Prop :=
  fields (fs.map (·.1)) levels d = fields (fs.map (·.1)) levels d' ∨
    ∃ inner slots slots', fields (fs.map (·.1)) levels d = some (inner, slots) ∧
      fields (fs.map (·.1)) levels d' = some (inner, slots') ∧ SlotsAlike fs slots slots'

/-- Objects of which each field is given alike. -/
theorem FieldsAlike.object
    (hsound : (∀ m ∈ members, m.1 ≠ none) ↔ ∀ m ∈ members', m.1 ≠ none)
    (honce : ∀ name ∈ fs.map (·.1),
      ((given name members).length ≤ 1 ↔ (given name members').length ≤ 1))
    (hslots : ∀ f ∈ fs, (given f.1 members).length ≤ 1 →
      SlotAlike f.2 (given f.1 members).head? (given f.1 members').head?) (levels : Nat) :
    FieldsAlike fs levels (.object members) (.object members') := by
  cases levels with
  | zero => exact .inl rfl
  | succ inner =>
    rw [FieldsAlike, fields_object, fields_object]
    by_cases hfits : (∀ m ∈ members, m.1 ≠ none) ∧
        ∀ name ∈ fs.map (·.1), (given name members).length ≤ 1
    · rw [if_pos hfits, if_pos ⟨hsound.mp hfits.1, fun name hname =>
        (honce name hname).mp (hfits.2 name hname)⟩]
      refine .inr ⟨_, _, _, rfl, rfl, .map fun f hf => hslots f hf ?_⟩
      exact hfits.2 _ (List.mem_map_of_mem hf)
    · rw [if_neg hfits, if_neg fun h => hfits ⟨hsound.mpr h.1, fun name hname =>
        (honce name hname).mpr (h.2 name hname)⟩]
      exact .inl rfl

/-- Arrays of which one field is recast. -/
theorem FieldsAlike.array {fs' : List (String × Shape)} {before after : List Document}
    {name : String} {s : Shape} (hlen : before.length = fs.length) (h : s.Recast d d')
    (levels : Nat) : FieldsAlike (fs ++ (name, s) :: fs') levels (.array (before ++ d :: after))
      (.array (before ++ d' :: after)) := by
  have hsame : (before ++ d :: after).length = (before ++ d' :: after).length := by
    rw [List.length_append, List.length_append, List.length_cons, List.length_cons]
  cases levels with
  | zero => exact .inl rfl
  | succ inner =>
    rw [FieldsAlike, fields, fields, ← hsame]
    split
    case isTrue hall =>
      have hafter : after.length = fs'.length := by
        simp only [List.length_append, List.length_cons, List.length_map] at hall
        omega
      exact .inr ⟨_, _, _, rfl, rfl, .array hlen hafter h⟩
    case isFalse => exact .inl rfl

/-- The slots of a recast record are alike. -/
theorem fields_recast (hnodup : (fs.map (·.1)).Nodup) (h : (Shape.record fs).Recast d d')
    (levels : Nat) : FieldsAlike fs levels d d' := by
  cases h with
  | permute hperm => exact .inl (fields_perm hperm _ levels)
  | insert d hname => exact .inl (fields_insert hname d levels).symm
  | positional hlen =>
    exact .inl (fields_object_zip hnodup (by rw [hlen, List.length_map]) levels)
  | @absent _ before after name s hmem hnone =>
    have hnone : given name (before ++ after) = [] := given_eq_nil hnone
    -- A field that is given nowhere is given just the `null` once that has been put in.
    have hnull : given name (before ++ (some name, .null) :: after) = [.null] := by
      rw [given_append, List.append_eq_nil_iff] at hnone
      rw [given_append, given_cons_self, hnone.1, hnone.2, List.nil_append]
    refine .object (by simp [or_imp, forall_and]) (fun other _ => ?_) (fun f hf _ => ?_) levels
    · by_cases hother : name = other
      · rw [← hother, hnone, hnull]
        decide
      · rw [given_insert hother]
    · by_cases hother : name = f.1
      · obtain rfl : (name, .optional s) = f := List.inj_on_of_nodup_map hnodup hmem hf hother
        rw [hnone, hnull]
        exact .absent s
      · rw [given_insert hother]
        exact .same _ _
  | @field _ before after name s x x' hmem hrecast =>
    have hmem' : ∀ y, (some name, y) ∈ before ++ (some name, y) :: after := fun y => by simp
    -- What the field is given is changed, but not how often any field is given.
    have hlength : ∀ other, (given other (before ++ (some name, x) :: after)).length =
        (given other (before ++ (some name, x') :: after)).length := fun other => by
      by_cases hother : name = other
      · simp [hother]
      · rw [given_insert hother, given_insert hother]
    refine .object (by simp [or_imp, forall_and]) (fun other _ => by rw [hlength])
      (fun f hf hlen => ?_) levels
    by_cases hother : name = f.1
    · obtain rfl : (name, s) = f := List.inj_on_of_nodup_map hnodup hmem hf hother
      rw [given_of_mem (hmem' x) hlen, given_of_mem (hmem' x') (hlength _ ▸ hlen)]
      exact .recast hrecast
    · rw [given_insert hother, given_insert hother]
      exact .same _ _
  | element hlen hrecast => exact .array hlen hrecast levels

/-- A reading of a record that fails, or meets a spoiled slot. -/
def FieldsSpoiled (fs : List (String × Shape)) (levels : Nat) (d : Document) : Prop :=
  fields (fs.map (·.1)) levels d = none ∨
    ∃ inner slots, fields (fs.map (·.1)) levels d = some (inner, slots) ∧ SlotsSpoiled fs slots

/-- An object with a field that is spoiled if it is given once at most. If it is given more than
once the whole object is refused, and there are no slots. -/
theorem FieldsSpoiled.object {f : String × Shape} (hf : f ∈ fs)
    (hslot : (given f.1 members).length ≤ 1 → SlotSpoiled f.2 (given f.1 members).head?)
    (levels : Nat) : FieldsSpoiled fs levels (.object members) := by
  cases levels with
  | zero => exact .inl rfl
  | succ inner =>
    rw [FieldsSpoiled, fields_object]
    split
    case isTrue hfits =>
      exact .inr ⟨_, _, rfl, .map hf (hslot (hfits.2 _ (List.mem_map_of_mem hf)))⟩
    case isFalse => exact .inl rfl

/-- A spoiled record has a spoiled slot, if it has slots. -/
theorem fields_spoiled (h : (Shape.record fs).Spoils d) (levels : Nat) :
    FieldsSpoiled fs levels d := by
  cases h with
  | repeated hname =>
    obtain ⟨f, hf, rfl⟩ := List.mem_map.mp hname
    refine .object hf (fun hlen => ?_) levels
    simp only [given_append, given_cons_self, List.length_append, List.length_cons] at hlen
    omega
  | missing hmem hreq hnone =>
    refine .object hmem (fun _ => ?_) levels
    rw [given_eq_nil hnone]
    exact .missing hreq
  | length hlen =>
    cases levels with
    | zero => exact .inl rfl
    | succ inner => exact .inl (if_neg (by simpa using hlen))
  | field hmem hm hspoils =>
    refine .object hmem (fun hlen => ?_) levels
    rw [given_of_mem hm hlen]
    exact .given hspoils
  | @element fs fs' before after name s x hlen hspoils =>
    cases levels with
    | zero => exact .inl rfl
    | succ inner =>
      rw [FieldsSpoiled, fields]
      split
      case isTrue hall =>
        have hafter : after.length = fs'.length := by
          simp only [List.length_append, List.length_cons, List.length_map] at hall
          omega
        exact .inr ⟨_, _, rfl, .array hlen hafter hspoils⟩
      case isFalse => exact .inl rfl

/-! ## Decoders -/

variable {α β : Type} {p : Decoder α} {q : Decoder β} {s t : Shape} {name name' : String}
  {slot slot' : Option Document}

/-- The decoder does not see how a document of the shape is presented, and gives no value for a
spoiled one. -/
structure Follows (p : Decoder α) (s : Shape) : Prop where
  recast {d d' : Document} : s.Recast d d' → ∀ levels, p levels d = p levels d'
  spoiled {d : Document} : s.Spoils d → ∀ levels, p levels d = none

theorem Follows.leaf (p : Decoder α) : p.Follows .leaf := ⟨nofun, nofun⟩

theorem Follows.map (h : p.Follows s) (f : α → β) :
    Follows (fun levels d => (p levels d).map f) s where
  recast hrecast levels := congrArg (Option.map f) (h.recast hrecast levels)
  spoiled hspoils levels := congrArg (Option.map f) (h.spoiled hspoils levels)

theorem whole_follows (low high : Int) : (whole low high).Follows (.whole low high) where
  recast := nofun
  spoiled := by
    rintro _ ⟨hrange⟩ levels
    rw [not_and_or, Int.not_le, Int.not_le] at hrange
    refine if_pos ?_
    rw [Bool.or_assoc, Bool.or_eq_true, Bool.or_eq_true, decide_eq_true_eq, decide_eq_true_eq]
    exact .inr hrange

theorem list_follows (h : p.Follows s) : (list p).Follows (.list s) where
  recast := by
    intro d d' hlist levels
    cases hlist with | item hrecast => ?_
    cases levels with
    | zero => rfl
    | succ inner => simp [list, List.mapM_append, List.mapM_cons, h.recast hrecast inner]
  spoiled := by
    intro d hlist levels
    cases hlist with | item hd hspoils => ?_
    cases levels with
    | zero => rfl
    | succ inner =>
      refine Option.eq_none_iff_forall_ne_some.mpr fun vs hvs => ?_
      have hmem := List.mem_map_of_mem (f := p inner) hd
      rw [mapM_eq_some_iff.mp hvs, h.spoiled hspoils inner] at hmem
      simp at hmem

/-! ### Slots -/

/-- A field that must be given. -/
theorem Follows.required (h : p.Follows s) (hslot : SlotAlike s slot slot')
    (hs : s.isOptional = false) (inner : Nat) : required p inner slot = required p inner slot' := by
  cases hslot with
  | same => rfl
  | recast hrecast => exact h.recast hrecast inner
  | absent => cases hs

theorem Follows.required_spoiled (h : p.Follows s) (hslot : SlotSpoiled s slot) (inner : Nat) :
    Decoder.required p inner slot = none := by
  cases hslot with
  | missing => rfl
  | given hspoils => exact h.spoiled hspoils inner

theorem nullable_of_ne_null (hd : d ≠ .null) (levels : Nat) :
    nullable p levels d = (p levels d).map some := by
  cases d <;> first | rfl | exact absurd rfl hd

/-- A field that may be left out. -/
theorem Follows.optional (h : p.Follows s) (hslot : SlotAlike (.optional s) slot slot')
    (inner : Nat) : Decoder.optional p inner slot = Decoder.optional p inner slot' := by
  cases hslot with
  | same => rfl
  | recast hrecast =>
    cases hrecast with | present hrecast => ?_
    obtain ⟨hd, hd'⟩ := hrecast.ne_null
    rw [Decoder.optional, Decoder.optional, nullable_of_ne_null hd, nullable_of_ne_null hd',
      h.recast hrecast inner]
  | absent => rfl

theorem Follows.optional_spoiled (h : p.Follows s) (hslot : SlotSpoiled (.optional s) slot)
    (inner : Nat) : Decoder.optional p inner slot = none := by
  cases hslot with
  | missing hs => cases hs
  | given hspoils =>
    cases hspoils with | present hspoils => ?_
    rw [Decoder.optional, nullable_of_ne_null hspoils.ne_null, h.spoiled hspoils inner]
    rfl

/-! ### Records and variants -/

/-- What is made of the slots of a record. Both presentations of a record have come to slots here,
so nothing is left to be said about objects and arrays. -/
structure FollowsSlots (read : Nat × List (Option Document) → Option α)
    (fs : List (String × Shape)) : Prop where
  alike {slots slots' : List (Option Document)} : SlotsAlike fs slots slots' → ∀ inner,
    read (inner, slots) = read (inner, slots')
  spoiled {slots : List (Option Document)} : SlotsSpoiled fs slots → ∀ inner,
    read (inner, slots) = none

/-- A record with one field that must be given. -/
theorem FollowsSlots.one (hp : p.Follows s) (hs : s.isOptional = false) (f : α → β)
    {read : Nat × List (Option Document) → Option β}
    (hread : ∀ inner a, read (inner, [a]) = (required p inner a).bind fun x => some (f x)) :
    FollowsSlots read [(name, s)] where
  alike := by
    rintro _ _ (_ | ⟨ha, _ | _⟩) inner
    rw [hread, hread, hp.required ha hs]
  spoiled := by
    rintro _ (⟨ha, hlen⟩ | ⟨_, ⟨⟩⟩) inner
    obtain rfl := List.length_eq_zero_iff.mp hlen
    rw [hread, hp.required_spoiled ha, Option.bind_none]

/-- A record with two fields that must be given. -/
theorem FollowsSlots.two {γ : Type} (hp : p.Follows s) (hs : s.isOptional = false)
    (hq : q.Follows t) (ht : t.isOptional = false) (f : α → β → γ)
    {read : Nat × List (Option Document) → Option γ}
    (hread : ∀ inner a b, read (inner, [a, b]) =
      (required p inner a).bind fun x => (required q inner b).bind fun y => some (f x y)) :
    FollowsSlots read [(name, s), (name', t)] where
  alike := by
    rintro _ _ (_ | ⟨ha, _ | ⟨hb, _ | _⟩⟩) inner
    rw [hread, hread, hp.required ha hs, hq.required hb ht]
  spoiled := by
    rintro _ (⟨ha, hlen⟩ | ⟨a, ⟨hb, hlen⟩ | ⟨_, ⟨⟩⟩⟩) inner
    · obtain ⟨b, rfl⟩ := List.length_eq_one_iff.mp hlen
      rw [hread, hp.required_spoiled ha, Option.bind_none]
    · obtain rfl := List.length_eq_zero_iff.mp hlen
      simp only [hread, hq.required_spoiled hb, Option.bind_none, Option.bind_fun_none]

/-- A record is followed if its slots are. -/
theorem Follows.record {read : Nat × List (Option Document) → Option α}
    (hread : FollowsSlots read fs) (hnodup : (fs.map (·.1)).Nodup)
    (hp : ∀ levels d, p levels d = (fields (fs.map (·.1)) levels d).bind read) :
    p.Follows (.record fs) where
  recast hrecast levels := by
    rw [hp, hp]
    obtain heq | ⟨inner, slots, slots', hslots, hslots', halike⟩ :=
      fields_recast hnodup hrecast levels
    · rw [heq]
    · rw [hslots, hslots', Option.bind_some, Option.bind_some, hread.alike halike]
  spoiled hspoils levels := by
    rw [hp]
    obtain hnone | ⟨inner, slots, hslots, hspoiled⟩ := fields_spoiled hspoils levels
    · rw [hnone, Option.bind_none]
    · rw [hslots, Option.bind_some, hread.spoiled hspoiled]

theorem tagged_eq_none (h : members.length ≠ 1) (levels : Nat) :
    tagged levels (.object members) = none := by
  rw [tagged.eq_def]
  split
  case h_1 hstring => cases hstring
  case h_2 hobject =>
    cases hobject
    exact absurd rfl h
  case h_3 => rfl

/-- A variant is followed if its payloads are. -/
theorem Follows.variant {payloads : List (String × Shape)}
    (hnone : ∀ levels d, tagged levels d = none → p levels d = none)
    (hpayload : ∀ c ∈ payloads, ∃ q : Decoder α, q.Follows c.2 ∧
      ∀ inner d, p (inner + 1) (.object [(some c.1, d)]) = q inner d) :
    p.Follows (.variant payloads) where
  recast := by
    intro d d' hvariant levels
    cases hvariant with | payload hmem hrecast => ?_
    obtain ⟨q, hq, hp⟩ := hpayload _ hmem
    cases levels with
    | zero => rw [hnone 0 _ rfl, hnone 0 _ rfl]
    | succ inner => rw [hp, hp, hq.recast hrecast inner]
  spoiled := by
    intro d hvariant levels
    cases hvariant with
    | keys hlen => exact hnone _ _ (tagged_eq_none hlen levels)
    | payload hmem hspoils =>
      obtain ⟨q, hq, hp⟩ := hpayload _ hmem
      cases levels with
      | zero => exact hnone 0 _ rfl
      | succ inner => rw [hp, hq.spoiled hspoils inner]

end Decoder

end Correlator
