import Correlator.Json.Value
import Mathlib.Data.List.Induction
import Mathlib.Data.String.Basic
import Mathlib.Order.Basic

/-!
# Members in order

Named values are kept with strictly increasing names, and every operation keeps them so.  In that
order a name stands at most once, so a look-up finds whatever stands there
(`InOrder.find?_eq_some_iff`), and dropping other members uncovers none (`InOrder.find?_filter`).
Values, sessions and properties are all stored like this.

## Main results

* `InOrder.insert`, `inOrder_ofList` : what is built by insertion is in order.
* `InOrder.find?_filter` : looking up among those that stay.
* `InOrder.ofList_eq` : members that are in order are built from themselves.
-/

namespace Correlator.Members

variable {α : Type} {name other : String} {value : α} {members : List (String × α)}

/-- The names increase strictly. So a name stands once at most, and equal members are equal lists.
-/
def InOrder (members : List (String × α)) : Prop := members.Pairwise (·.1 < ·.1)

theorem mem_insert {m : String × α} (h : m ∈ insert name value members) :
    m = (name, value) ∨ m ∈ members := by
  induction members with
  | nil => exact .inl (List.mem_singleton.mp h)
  | cons first rest ih =>
    obtain ⟨k, v⟩ := first
    rw [insert] at h
    split at h
    · exact List.mem_cons.mp h
    · split at h
      · exact (List.mem_cons.mp h).imp_right (List.mem_cons_of_mem _)
      · obtain rfl | h := List.mem_cons.mp h
        · exact .inr List.mem_cons_self
        · exact (ih h).imp_right (List.mem_cons_of_mem _)

theorem InOrder.insert (h : InOrder members) (name : String) (value : α) :
    InOrder (insert name value members) := by
  induction members with
  | nil => exact List.pairwise_singleton _ _
  | cons first rest ih =>
    obtain ⟨k, v⟩ := first
    obtain ⟨hfirst, hrest⟩ := List.pairwise_cons.mp h
    rw [Members.insert]
    split
    case isTrue hlt =>
      refine List.pairwise_cons.mpr ⟨fun m hm => ?_, h⟩
      obtain rfl | hm := List.mem_cons.mp hm
      · exact hlt
      · exact hlt.trans (hfirst m hm)
    case isFalse hge =>
      split
      case isTrue heq =>
        subst heq
        exact List.pairwise_cons.mpr ⟨hfirst, hrest⟩
      case isFalse hne =>
        -- It goes further in, and what it meets there has come after `k` before.
        have hlt : k < name := lt_of_le_of_ne (not_lt.mp hge) (Ne.symm hne)
        refine List.pairwise_cons.mpr ⟨fun m hm => ?_, ih hrest⟩
        obtain rfl | hm := mem_insert hm
        · exact hlt
        · exact hfirst m hm

theorem InOrder.filter (h : InOrder members) (p : String × α → Bool) :
    InOrder (members.filter p) := List.Pairwise.filter p h

theorem InOrder.erase (h : InOrder members) (name : String) : InOrder (erase name members) :=
  h.filter _

theorem InOrder.nodup (h : InOrder members) : (members.map (·.1)).Nodup :=
  List.pairwise_map.mpr (h.imp fun hlt => hlt.ne)

theorem mem_of_find? (h : find? name members = some value) : (name, value) ∈ members := by
  induction members with
  | nil => cases h
  | cons first rest ih =>
    obtain ⟨k, v⟩ := first
    rw [find?] at h
    split at h
    case isTrue heq =>
      cases h
      exact heq ▸ List.mem_cons_self
    case isFalse => exact List.mem_cons_of_mem _ (ih h)

/-- A look-up finds whatever stands under the name. -/
theorem InOrder.find?_eq_some_iff (h : InOrder members) :
    find? name members = some value ↔ (name, value) ∈ members := by
  refine ⟨mem_of_find?, fun hmem => ?_⟩
  induction members with
  | nil => cases hmem
  | cons first rest ih =>
    obtain ⟨k, v⟩ := first
    obtain ⟨hfirst, hrest⟩ := List.pairwise_cons.mp h
    obtain heq | hmem := List.mem_cons.mp hmem
    · cases heq
      exact if_pos rfl
    · exact (if_neg (hfirst _ hmem).ne').trans (ih hrest hmem)

/-- Among the members that stay, a name has the value that it had, if that one stays: there is no
second one under the name that could come to light. -/
theorem InOrder.find?_filter (h : InOrder members) (p : String × α → Bool) :
    find? name (members.filter p) = (find? name members).filter fun v => p (name, v) := by
  refine Option.ext fun v => ?_
  rw [(h.filter p).find?_eq_some_iff, List.mem_filter, Option.filter_eq_some_iff,
    h.find?_eq_some_iff]

@[simp] theorem find?_erase_self : find? name (erase name members) = none :=
  find?_of_notMem fun h => by simp [erase] at h

theorem InOrder.find?_erase_of_ne (h : InOrder members) (hne : other ≠ name) :
    find? other (Members.erase name members) = find? other members := by
  rw [Members.erase, h.find?_filter]
  cases find? other members with
  | none => rfl
  | some v => exact Option.filter_some_pos (decide_eq_true hne)

/-! ## Members given one after another -/

theorem ofList_append_singleton (members : List (String × α)) (m : String × α) :
    ofList (members ++ [m]) = insert m.1 m.2 (ofList members) := List.foldl_append

theorem inOrder_ofList (members : List (String × α)) : InOrder (ofList members) := by
  induction members using List.reverseRecOn with
  | nil => exact List.Pairwise.nil
  | append_singleton members m ih =>
    rw [ofList_append_singleton]
    exact ih.insert m.1 m.2

theorem mem_of_mem_ofList {m : String × α} (h : m ∈ ofList members) : m ∈ members := by
  induction members using List.reverseRecOn with
  | nil => exact h
  | append_singleton members last ih =>
    rw [ofList_append_singleton] at h
    obtain rfl | h := mem_insert h
    · exact List.mem_append_right _ (List.mem_singleton_self _)
    · exact List.mem_append_left _ (ih h)

/-- A name behind all others is inserted at the end. -/
theorem insert_of_last (h : ∀ m ∈ members, m.1 < name) :
    insert name value members = members ++ [(name, value)] := by
  induction members with
  | nil => rfl
  | cons first rest ih =>
    obtain ⟨hfirst, hrest⟩ := List.forall_mem_cons.mp h
    rw [insert, if_neg hfirst.asymm, if_neg hfirst.ne', ih hrest, List.cons_append]

/-- Members that are in order are built from themselves. -/
theorem InOrder.ofList_eq (h : InOrder members) : ofList members = members := by
  induction members using List.reverseRecOn with
  | nil => rfl
  | append_singleton members m ih =>
    obtain ⟨hinitial, -, hlast⟩ := List.pairwise_append.mp h
    rw [ofList_append_singleton, ih hinitial]
    exact insert_of_last fun k hk => hlast k hk m (List.mem_singleton_self m)

end Correlator.Members
