import Correlator.Json.Decoder
import Mathlib.Data.List.Perm.Basic

/-!
# The fields of a record

What a record gives under a name is the list of the documents that stand under it (`given`).  A
record is read from these lists alone: no name may be broken, no field may be given twice, and what
is given under other names does not matter (`fields_object`).  So whatever leaves these lists as
they are leaves the record as it is, whether members change their order (`fields_perm`) or others
come between them (`fields_insert`).

## Main results

* `fields_object` : how an object is read.
* `fields_object_zip` : an object with all fields is read like the array of them.
-/

namespace Correlator.Decoder

variable {name : String} {names : List String} {inner : Nat} {d : Document}
  {members members' before after : List (Option String × Document)}

/-- What the members give under a name. -/
def given (name : String) (members : List (Option String × Document)) : List Document :=
  members.filterMap fun m => if m.1 = some name then some m.2 else none

@[simp] theorem given_cons_self (name : String) (d : Document)
    (members : List (Option String × Document)) :
    given name ((some name, d) :: members) = d :: given name members :=
  List.filterMap_cons_some (if_pos rfl)

theorem given_cons_of_ne {k : Option String} (h : k ≠ some name) (d : Document)
    (members : List (Option String × Document)) :
    given name ((k, d) :: members) = given name members :=
  List.filterMap_cons_none (if_neg h)

@[simp] theorem given_append (name : String) (before after : List (Option String × Document)) :
    given name (before ++ after) = given name before ++ given name after :=
  List.filterMap_append

theorem given_perm (h : members.Perm members') (name : String) :
    (given name members).Perm (given name members') := h.filterMap _

/-- A member with another name gives nothing. -/
theorem given_insert {other : String} (h : other ≠ name) (d : Document) :
    given name (before ++ (some other, d) :: after) = given name (before ++ after) := by
  rw [given_append, given_cons_of_ne (fun heq => h (Option.some.inj heq)), given_append]

theorem given_eq_nil (h : some name ∉ members.map (·.1)) : given name members = [] := by
  refine List.filterMap_eq_nil_iff.mpr fun m hm => if_neg fun heq => h ?_
  exact heq ▸ List.mem_map_of_mem hm

/-- What is given once is all that is given, so no later member can replace it. -/
theorem given_of_mem (hm : (some name, d) ∈ members) (hlen : (given name members).length ≤ 1) :
    given name members = [d] := by
  have hmem : d ∈ given name members := List.mem_filterMap.mpr ⟨_, hm, if_pos rfl⟩
  obtain ⟨d', hd'⟩ := List.length_eq_one_iff.mp
    (Nat.le_antisymm hlen (List.length_pos_of_mem hmem))
  rw [hd'] at hmem ⊢
  rw [List.mem_singleton.mp hmem]

/-! ## Objects -/

theorem mapM_eq_some_iff {α β : Type} {f : α → Option β} {as : List α} {bs : List β} :
    as.mapM f = some bs ↔ as.map f = bs.map some := by
  induction as generalizing bs with
  | nil => cases bs <;> simp
  | cons a as ih => cases bs <;> simp [List.mapM_cons, Option.bind_eq_some_iff, ih]

/-- Members have their names if none of them is broken. -/
theorem namedMembers_eq_some_iff {named : List (String × Document)} :
    namedMembers members = some named ↔ members = named.map fun m => (some m.1, m.2) := by
  rw [namedMembers, mapM_eq_some_iff]
  induction members generalizing named with
  | nil => cases named <;> simp
  | cons m members ih =>
    cases named with
    | nil => simp
    | cons n named => simp [ih, Prod.ext_iff]

/-- A broken name breaks all members. -/
theorem namedMembers_eq_none (hm : (none, d) ∈ members) : namedMembers members = none := by
  refine Option.eq_none_iff_forall_ne_some.mpr fun named hnamed => ?_
  rw [namedMembers_eq_some_iff.mp hnamed] at hm
  obtain ⟨m, -, hm⟩ := List.mem_map.mp hm
  cases hm

theorem exists_named (h : ∀ m ∈ members, m.1 ≠ none) :
    ∃ named, namedMembers members = some named := by
  induction members with
  | nil => exact ⟨[], rfl⟩
  | cons m members ih =>
    obtain ⟨hm, hmembers⟩ := List.forall_mem_cons.mp h
    obtain ⟨named, hnamed⟩ := ih hmembers
    obtain ⟨name, hname⟩ := Option.ne_none_iff_exists'.mp hm
    refine ⟨(name, m.2) :: named, namedMembers_eq_some_iff.mpr ?_⟩
    rw [List.map_cons, ← namedMembers_eq_some_iff.mp hnamed, ← hname]

theorem given_map (named : List (String × Document)) (name : String) :
    given name (named.map fun m => (some m.1, m.2)) =
      (named.filter (·.1 = name)).map (·.2) := by
  induction named with
  | nil => rfl
  | cons m named ih =>
    obtain ⟨k, d⟩ := m
    rw [List.map_cons, List.filter_cons]
    by_cases h : k = name
    · rw [h, given_cons_self, ih, if_pos (decide_eq_true rfl), List.map_cons]
    · rw [given_cons_of_ne (fun heq => h (Option.some.inj heq)), ih, if_neg (by simpa using h)]

/-- How an object is read: from what it gives under each name, and from whether a name is broken.
No later proof about objects opens `fields` again. -/
theorem fields_object (names : List String) (inner : Nat)
    (members : List (Option String × Document)) :
    fields names (inner + 1) (.object members) =
      if (∀ m ∈ members, m.1 ≠ none) ∧ ∀ name ∈ names, (given name members).length ≤ 1 then
        some (inner, names.map fun name => (given name members).head?)
      else none := by
  by_cases hsound : ∀ m ∈ members, m.1 ≠ none
  · obtain ⟨named, hnamed⟩ := exists_named hsound
    obtain rfl := namedMembers_eq_some_iff.mp hnamed
    simp only [fields, hnamed, Option.bind_eq_bind, Option.bind_some, given_map, List.length_map,
      List.head?_map, List.head?_filter, List.all_eq_true, decide_eq_true_eq, Option.pure_def]
    exact if_congr (and_iff_right hsound).symm rfl rfl
  · obtain ⟨⟨k, d⟩, hm, hnone⟩ : ∃ m ∈ members, m.1 = none := by simpa using hsound
    obtain rfl : k = none := hnone
    rw [if_neg fun h => hsound h.1, fields, namedMembers_eq_none hm]
    rfl

/-- The fields of a record are one level further in. -/
theorem levels_of_fields {levels : Nat} {slots : List (Option Document)}
    (h : fields names levels d = some (inner, slots)) : levels = inner + 1 := by
  cases levels with
  | zero => cases d <;> cases h
  | succ levels =>
    cases d with
    | object members =>
      rw [fields_object] at h
      obtain ⟨-, h⟩ := Option.ite_none_right_eq_some.mp h
      cases h
      rfl
    | array items =>
      obtain ⟨-, h⟩ := Option.ite_none_right_eq_some.mp h
      cases h
      rfl
    | _ => cases h

theorem head?_eq_of_perm {ds ds' : List Document} (h : ds.Perm ds') (hlen : ds.length ≤ 1) :
    ds.head? = ds'.head? := by
  match ds, hlen with
  | [], _ => rw [List.nil_perm.mp h]
  | [d], _ => rw [List.singleton_perm.mp h]

/-- Objects that give the same under every field are read alike, up to the order, which a list of
at most one document does not have. -/
theorem fields_congr (hsound : (∀ m ∈ members, m.1 ≠ none) ↔ ∀ m ∈ members', m.1 ≠ none)
    (hgiven : ∀ name ∈ names, (given name members).Perm (given name members')) (levels : Nat) :
    fields names levels (.object members) = fields names levels (.object members') := by
  cases levels with
  | zero => rfl
  | succ inner =>
    have hlength : ∀ name ∈ names, (given name members).length = (given name members').length :=
      fun name hname => (hgiven name hname).length_eq
    rw [fields_object, fields_object]
    by_cases hfits : (∀ m ∈ members, m.1 ≠ none) ∧ ∀ name ∈ names, (given name members).length ≤ 1
    · rw [if_pos hfits, if_pos ⟨hsound.mp hfits.1, fun name hname =>
        hlength name hname ▸ hfits.2 name hname⟩]
      refine congrArg (fun slots => some (inner, slots)) (List.map_congr_left fun name hname => ?_)
      exact head?_eq_of_perm (hgiven name hname) (hfits.2 name hname)
    · rw [if_neg hfits, if_neg fun h => hfits ⟨hsound.mpr h.1, fun name hname =>
        (hlength name hname).symm ▸ h.2 name hname⟩]

/-- The order of the members does not matter. -/
theorem fields_perm (h : members.Perm members') (names : List String) (levels : Nat) :
    fields names levels (.object members) = fields names levels (.object members') :=
  fields_congr (by simp only [h.mem_iff]) (fun name _ => given_perm h name) levels

/-- Members with other names do not matter. -/
theorem fields_insert (hname : name ∉ names) (d : Document) (levels : Nat) :
    fields names levels (.object (before ++ (some name, d) :: after)) =
      fields names levels (.object (before ++ after)) := by
  refine fields_congr (by simp [or_imp, forall_and]) (fun other hother => ?_) levels
  have hne : name ≠ other := fun heq => hname (heq ▸ hother)
  rw [given_insert hne]

/-- What all fields are given, if they stand in their order. -/
theorem given_zip (hnodup : names.Nodup) {docs : List Document}
    (hlen : docs.length = names.length) :
    names.map (given · ((names.map some).zip docs)) = docs.map fun d => [d] := by
  induction names generalizing docs with
  | nil =>
    obtain rfl := List.length_eq_zero_iff.mp hlen
    rfl
  | cons name names ih =>
    obtain ⟨d, docs, rfl⟩ := List.exists_cons_of_length_eq_add_one hlen
    obtain ⟨hname, hnodup⟩ := List.nodup_cons.mp hnodup
    have hlen : docs.length = names.length := Nat.succ.inj hlen
    -- Names differ, so nothing further on is given under the first one.
    have hrest : given name ((names.map some).zip docs) = [] := by
      refine given_eq_nil fun hmem => ?_
      rw [List.map_fst_zip (Nat.le_of_eq (by rw [List.length_map, hlen]))] at hmem
      obtain ⟨other, hother, heq⟩ := List.mem_map.mp hmem
      exact hname (Option.some.inj heq ▸ hother)
    rw [List.map_cons, List.map_cons, List.zip_cons_cons, given_cons_self, hrest, List.map_cons,
      ← ih hnodup hlen]
    refine congrArg _ (List.map_congr_left fun other hother => given_cons_of_ne ?_ _ _)
    intro heq
    exact hname (Option.some.inj heq ▸ hother)

/-- An object with all fields is read like the array of them. This is where the two presentations
of a record meet. -/
theorem fields_object_zip (hnodup : names.Nodup) {docs : List Document}
    (hlen : docs.length = names.length) (levels : Nat) :
    fields names levels (.object ((names.map some).zip docs)) =
      fields names levels (.array docs) := by
  cases levels with
  | zero => rfl
  | succ inner =>
    have hgiven := given_zip hnodup hlen
    have hsound : ∀ m ∈ (names.map some).zip docs, m.1 ≠ none := fun m hm => by
      obtain ⟨name, -, hname⟩ := List.mem_map.mp (List.of_mem_zip hm).1
      exact hname ▸ nofun
    have honce : ∀ name ∈ names, (given name ((names.map some).zip docs)).length ≤ 1 :=
      fun name hname => by
        obtain ⟨d, -, hd⟩ := List.mem_map.mp (hgiven ▸ List.mem_map_of_mem hname)
        exact hd ▸ Nat.le_refl 1
    have hslots : names.map (fun name => (given name ((names.map some).zip docs)).head?) =
        docs.map some := by
      have hheads := congrArg (List.map List.head?) hgiven
      rwa [List.map_map, List.map_map] at hheads
    rw [fields_object, if_pos ⟨hsound, honce⟩, hslots, fields, if_pos hlen]

end Correlator.Decoder
