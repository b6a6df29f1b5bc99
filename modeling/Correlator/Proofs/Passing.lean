import Correlator.Json.Printer
import Correlator.Proofs.Members
import Correlator.Proofs.Trees

/-!
# Values that are passed along

A body is read and written without being looked at, so all that can be said of it is that it is the
same afterwards.  That is so for values that reading itself could give, up to numbers that are not
whole: names are in order, whole numbers fit a word (`IsProper`), and containers nest no deeper than
a text may.  Whatever is read is like this (`isProper_of_value?`), and then it is read back
(`value?_document`).

## Main results

* `value?_document` : a proper value with whole numbers is read back from its document.
* `isProper_of_value?` : what has been read is proper and nests no deeper than was allowed.
-/

namespace Correlator

/-! ## Depth -/

namespace Document

mutual

/-- How many containers a document nests. -/
def depth : Document → Nat
  | .array items => itemDepth items + 1
  | .object members => memberDepth members + 1
  | _ => 0

/-- The depth of the deepest item. -/
def itemDepth : List Document → Nat
  | [] => 0
  | d :: rest => max (depth d) (itemDepth rest)

/-- The depth of the deepest member. -/
def memberDepth : List (Option String × Document) → Nat
  | [] => 0
  | (_, d) :: rest => max (depth d) (memberDepth rest)

end

theorem itemDepth_le_iff {items : List Document} {n : Nat} :
    itemDepth items ≤ n ↔ ∀ d ∈ items, d.depth ≤ n := by
  induction items with
  | nil => simp [itemDepth]
  | cons d rest ih => rw [itemDepth, Nat.max_le, ih, List.forall_mem_cons]

theorem memberDepth_le_iff {members : List (Option String × Document)} {n : Nat} :
    memberDepth members ≤ n ↔ ∀ m ∈ members, m.2.depth ≤ n := by
  induction members with
  | nil => simp [memberDepth]
  | cons m rest ih => rw [memberDepth, Nat.max_le, ih, List.forall_mem_cons]

/-- An array nests one level more than its items. -/
theorem depth_array_le_iff {items : List Document} {n : Nat} :
    (Document.array items).depth ≤ n + 1 ↔ ∀ d ∈ items, d.depth ≤ n := by
  rw [depth, Nat.add_le_add_iff_right, itemDepth_le_iff]

/-- An object nests one level more than its members. -/
theorem depth_object_le_iff {members : List (Option String × Document)} {n : Nat} :
    (Document.object members).depth ≤ n + 1 ↔ ∀ m ∈ members, m.2.depth ≤ n := by
  rw [depth, Nat.add_le_add_iff_right, memberDepth_le_iff]

end Document

/-! ## Values -/

namespace Json

/-- What every value keeps: whole numbers fit a word and names are in order. It is what reading
guarantees, and what reading back relies on. -/
inductive IsProper : Json → Prop
  | null : IsProper .null
  | bool (b : Bool) : IsProper (.bool b)
  | integer {n : Int} : Numeral.inWordRange n = true → IsProper (.integer n)
  | real (significand exponent : Int) : IsProper (.real significand exponent)
  | string (s : String) : IsProper (.string s)
  | array {items : List Json} : (∀ v ∈ items, IsProper v) → IsProper (.array items)
  | object {members : List (String × Json)} : Members.InOrder members →
    (∀ m ∈ members, IsProper m.2) → IsProper (.object members)

/-- All numbers in the value are whole. -/
inductive IsIntegral : Json → Prop
  | null : IsIntegral .null
  | bool (b : Bool) : IsIntegral (.bool b)
  | integer (n : Int) : IsIntegral (.integer n)
  | string (s : String) : IsIntegral (.string s)
  | array {items : List Json} : (∀ v ∈ items, IsIntegral v) → IsIntegral (.array items)
  | object {members : List (String × Json)} : (∀ m ∈ members, IsIntegral m.2) →
    IsIntegral (.object members)

theorem itemDocuments_eq_map (items : List Json) : itemDocuments items = items.map document := by
  induction items with
  | nil => rfl
  | cons v rest ih => rw [itemDocuments, ih, List.map_cons]

theorem memberDocuments_eq_map (members : List (String × Json)) :
    memberDocuments members = members.map fun m => (some m.1, m.2.document) := by
  induction members with
  | nil => rfl
  | cons m rest ih => rw [memberDocuments, ih, List.map_cons]

/-- Sign and magnitude say the number. -/
theorem magnitude_wholeNumeral (n : Int) :
    (if decide (n < 0) = true then -(n.natAbs : Int) else n.natAbs) = n := by
  simp only [decide_eq_true_eq]
  split <;> omega

/-- No minus is written before a zero. -/
theorem sign_wholeNumeral (n : Int) : (decide (n < 0) && decide (n.natAbs = 0)) = false := by
  rw [← Bool.decide_and, decide_eq_false_iff_not]
  omega

/-- A whole number is read back from its numeral. -/
theorem value?_wholeNumeral {n : Int} (h : Numeral.inWordRange n = true) :
    (wholeNumeral n).value? = some (.integer n) := by
  rw [wholeNumeral, Numeral.value?, magnitude_wholeNumeral, sign_wholeNumeral, h]
  rfl

end Json

namespace Document

open Json

/-- Items are read one by one. -/
theorem itemValues?_eq_some_iff {levels : Nat} {items : List Document} {vs : List Json} :
    itemValues? levels items = some vs ↔ items.map (value? levels) = vs.map some := by
  induction items generalizing vs with
  | nil => cases vs <;> simp [itemValues?]
  | cons d rest ih => cases vs <;> simp [itemValues?, Option.bind_eq_some_iff, ih]

/-- Members are read one by one, each with its name. -/
theorem memberValues?_eq_some_iff {levels : Nat} {members : List (Option String × Document)}
    {vs : List (String × Json)} :
    memberValues? levels members = some vs ↔
      (members.map fun m => m.1.bind fun name => (value? levels m.2).map (name, ·)) =
        vs.map some := by
  induction members generalizing vs with
  | nil => cases vs <;> simp [memberValues?]
  | cons m rest ih =>
    cases vs with
    | nil => simp [memberValues?, Option.bind_eq_some_iff]
    | cons first vs =>
      simp only [memberValues?, Option.bind_eq_bind, Option.bind_eq_some_iff, ih, Option.pure_def,
        Option.some.injEq, List.map_cons, List.cons.injEq, Option.map_eq_some_iff]
      constructor
      · rintro ⟨name, hname, v, hv, vs, hvs, rfl, rfl⟩
        exact ⟨⟨name, hname, v, hv, rfl⟩, hvs⟩
      · rintro ⟨⟨name, hname, v, hv, rfl⟩, hvs⟩
        exact ⟨name, hname, v, hv, vs, hvs, rfl, rfl⟩

/-- A proper value with whole numbers is read back from its document; other numbers are left out.
The induction is on the value, with one level less inside each container. -/
theorem value?_document {v : Json} (h : v.IsProper) (hi : v.IsIntegral) {levels : Nat}
    (hd : v.document.depth ≤ levels) : value? levels v.document = some v := by
  induction h generalizing levels with
  | null | bool | string => rfl
  | integer hn => exact value?_wholeNumeral hn
  | real => cases hi
  | @array items _ ih =>
    cases hi with | array hitems => ?_
    rw [document, itemDocuments_eq_map] at hd ⊢
    match levels with
    | 0 => exact absurd hd (Nat.not_succ_le_zero _)
    | inner + 1 =>
      rw [depth_array_le_iff] at hd
      have hread : itemValues? inner (items.map document) = some items :=
        itemValues?_eq_some_iff.mpr <| List.map_map.trans <|
          List.map_congr_left fun v hv => ih v hv (hitems v hv) (hd _ (List.mem_map_of_mem hv))
      rw [value?, hread]
      rfl
  | @object members horder _ ih =>
    cases hi with | object hmembers => ?_
    rw [document, memberDocuments_eq_map] at hd ⊢
    match levels with
    | 0 => exact absurd hd (Nat.not_succ_le_zero _)
    | inner + 1 =>
      rw [depth_object_le_iff] at hd
      have hread : memberValues? inner (members.map fun m => (some m.1, m.2.document)) =
          some members :=
        memberValues?_eq_some_iff.mpr <| List.map_map.trans <| List.map_congr_left fun m hm => by
          rw [Function.comp_apply, Option.bind_some,
            ih m hm (hmembers m hm) (hd _ (List.mem_map_of_mem hm)), Option.map_some]
      -- Members are put in order once more, and they were in order.
      rw [value?, hread, Option.map_some, horder.ofList_eq]

/-- A number is proper and opens no container. -/
theorem isProper_of_numeral {n : Numeral} {v : Json} (h : n.value? = some v) :
    v.IsProper ∧ v.document.depth = 0 := by
  cases n with
  | whole negative magnitude =>
    rw [Numeral.value?] at h
    generalize (if negative then -(magnitude : Int) else magnitude) = n at h
    split at h
    case isTrue hrange =>
      obtain rfl := Option.some.inj h
      exact ⟨.integer (Bool.and_eq_true_iff.mp hrange).1, rfl⟩
    case isFalse =>
      obtain ⟨-, h⟩ := Option.ite_none_right_eq_some.mp h
      obtain rfl := Option.some.inj h
      exact ⟨.real _ _, rfl⟩
  | scaled negative significand exponent =>
    obtain ⟨-, h⟩ := Option.ite_none_right_eq_some.mp h
    obtain rfl := Option.some.inj h
    exact ⟨.real _ _, rfl⟩

/-- What has been read is proper, and its document nests no deeper than was allowed. The induction
is on the document; members lose repeated names on the way, which makes them no deeper. -/
theorem isProper_of_value? {d : Document} {levels : Nat} {v : Json}
    (h : value? levels d = some v) : v.IsProper ∧ v.document.depth ≤ levels := by
  induction d generalizing levels v with
  | null =>
    cases h
    exact ⟨.null, Nat.zero_le _⟩
  | bool b =>
    cases h
    exact ⟨.bool b, Nat.zero_le _⟩
  | number n => exact (isProper_of_numeral h).imp_right fun hd => hd.trans_le (Nat.zero_le _)
  | string s =>
    obtain ⟨s, -, rfl⟩ := Option.map_eq_some_iff.mp h
    exact ⟨.string s, Nat.zero_le _⟩
  | array items ih =>
    match levels with
    | 0 => cases h
    | inner + 1 =>
      obtain ⟨vs, hvs, rfl⟩ := Option.map_eq_some_iff.mp h
      have hall : ∀ v ∈ vs, v.IsProper ∧ v.document.depth ≤ inner := fun v hv => by
        obtain ⟨d, hd, hread⟩ :=
          List.mem_map.mp (itemValues?_eq_some_iff.mp hvs ▸ List.mem_map_of_mem hv)
        exact ih d hd hread
      rw [document, itemDocuments_eq_map, depth_array_le_iff, List.forall_mem_map]
      exact ⟨.array fun v hv => (hall v hv).1, fun v hv => (hall v hv).2⟩
  | object members ih =>
    match levels with
    | 0 => cases h
    | inner + 1 =>
      obtain ⟨vs, hvs, rfl⟩ := Option.map_eq_some_iff.mp h
      have hall : ∀ m ∈ Members.ofList vs, m.2.IsProper ∧ m.2.document.depth ≤ inner :=
        fun m hm => by
          obtain ⟨d, hd, hmember⟩ := List.mem_map.mp
            (memberValues?_eq_some_iff.mp hvs ▸ List.mem_map_of_mem (Members.mem_of_mem_ofList hm))
          obtain ⟨name, -, hmember⟩ := Option.bind_eq_some_iff.mp hmember
          obtain ⟨v, hread, rfl⟩ := Option.map_eq_some_iff.mp hmember
          exact ih d hd hread
      rw [document, memberDocuments_eq_map, depth_object_le_iff, List.forall_mem_map]
      exact ⟨.object (Members.inOrder_ofList vs) fun m hm => (hall m hm).1,
        fun m hm => (hall m hm).2⟩

end Document

end Correlator
