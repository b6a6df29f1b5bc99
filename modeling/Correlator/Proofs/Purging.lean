import Correlator.Proofs.Members
import Correlator.Session

/-!
# When bindings are purged cannot be seen

A store is purged whenever a sweep comes by, so the bindings that it holds depend on when that was.
What it answers does not: until its expiry a binding is kept, and from then on it answers as if it
were not there, purged or not.  So the store is compared with one that is never purged
(`find?_changed_filter`), and that one with what was asked of it: a session is bound by the last
`bind` that no `unbind` of it follows (`Stands`).

The two stores differ in what they hold at an instant before their last purge, for a session that
is bound until then.  That is why nothing is said of instants that purges have left behind.

## Main results

* `purges_unseen` : what is answered after any changes, and what each purge among them does.
-/

namespace Correlator.Sessions

/-- A change of the store. -/
inductive Change where
  | bind (session endpoint : String) (expiresAt : Millis)
  | unbind (session : String)
  | purge (now : Millis)
  deriving DecidableEq

/-- Whether the change is a purge. -/
def Change.isPurge : Change → Bool
  | .purge _ => true
  | _ => false

/-- The change binds or unbinds the session. -/
def Change.Concerns (session : String) : Change → Prop
  | .bind other _ _ => other = session
  | .unbind other => other = session
  | .purge _ => False

/-- The store after a change. -/
def change (s : Sessions) : Change → Sessions
  | .bind session endpoint expiresAt => s.bind session endpoint expiresAt
  | .unbind session => (s.unbind session).2
  | .purge now => (s.purge now).2

/-- The store after some changes of an empty one. -/
def changed (changes : List Change) : Sessions := changes.foldl change {}

/-- The last time that the session was bound or unbound, it was bound like this. This is said of
the changes alone, and not of any store, so that it can serve as what a store is expected to
answer. -/
def Stands (changes : List Change) (session : String) (b : Binding) : Prop :=
  ∃ earlier later, changes = earlier ++ .bind session b.endpoint b.expiresAt :: later ∧
    ∀ c ∈ later, ¬ c.Concerns session

/-- What a purge does: it removes the bindings that have expired and tells how many they were. -/
structure Purges (s : Sessions) (now : Millis) : Prop where
  /-- There is no more than one binding for a session, so bindings are counted by the list. -/
  single : (s.bindings.map (·.1)).Nodup
  stays : ∀ m, m ∈ (s.purge now).2.bindings ↔ m ∈ s.bindings ∧ now < m.2.expiresAt
  removed : (s.purge now).1 = (s.bindings.filter (·.2.expiresAt ≤ now)).length
  size : (s.purge now).2.size + (s.purge now).1 = s.size

variable {s : Sessions} {changes : List Change} {c : Change} {session : String} {b : Binding}
  {now t : Millis}

theorem changed_append_singleton (changes : List Change) (c : Change) :
    changed (changes ++ [c]) = (changed changes).change c := List.foldl_append

/-! ## What the store holds -/

theorem inOrder_change (h : Members.InOrder s.bindings) (c : Change) :
    Members.InOrder (s.change c).bindings := by
  cases c with
  | bind session endpoint expiresAt => exact h.insert session _
  | unbind session => exact h.erase session
  | purge now => exact h.filter _

theorem inOrder_changed (changes : List Change) : Members.InOrder (changed changes).bindings := by
  induction changes using List.reverseRecOn with
  | nil => exact List.Pairwise.nil
  | append_singleton changes c ih =>
    rw [changed_append_singleton]
    exact inOrder_change ih c

theorem find?_bind (s : Sessions) (session other endpoint : String) (expiresAt : Millis) :
    Members.find? session (s.change (.bind other endpoint expiresAt)).bindings =
      if session = other then some ⟨endpoint, expiresAt⟩ else Members.find? session s.bindings := by
  show Members.find? session (Members.insert other _ _) = _
  split
  case isTrue hsame => rw [hsame, Members.find?_insert_self]
  case isFalse hne => exact Members.find?_insert_of_ne hne _ _

theorem find?_unbind (h : Members.InOrder s.bindings) (session other : String) :
    Members.find? session (s.change (.unbind other)).bindings =
      if session = other then none else Members.find? session s.bindings := by
  show Members.find? session (Members.erase other _) = _
  split
  case isTrue hsame => rw [hsame, Members.find?_erase_self]
  case isFalse hne => exact h.find?_erase_of_ne hne

theorem find?_purge (h : Members.InOrder s.bindings) (session : String) (now : Millis) :
    Members.find? session (s.change (.purge now)).bindings =
      (Members.find? session s.bindings).filter (·.isLive now) := h.find?_filter _

theorem purges (h : Members.InOrder s.bindings) (now : Millis) : s.Purges now where
  single := h.nodup
  stays m := by
    show m ∈ s.bindings.filter (·.2.isLive now) ↔ _
    rw [List.mem_filter, Binding.isLive, decide_eq_true_eq]
  removed := by
    show s.bindings.countP (!·.2.isLive now) = _
    rw [List.countP_eq_length_filter]
    refine congrArg List.length (List.filter_congr fun m _ => ?_)
    rw [Binding.isLive, ← decide_not]
    exact decide_eq_decide.mpr UInt64.not_lt
  size := by
    show (s.bindings.filter (·.2.isLive now)).length + s.bindings.countP (!·.2.isLive now) =
      s.bindings.length
    rw [← List.countP_eq_length_filter]
    simpa using (List.length_eq_countP_add_countP (l := s.bindings) (·.2.isLive now)).symm

/-! ## A store that is never purged -/

theorem stands_append_singleton :
    Stands (changes ++ [c]) session b ↔
      c = .bind session b.endpoint b.expiresAt ∨
        ¬ c.Concerns session ∧ Stands changes session b := by
  constructor
  · rintro ⟨earlier, later, heq, hlater⟩
    -- Either the last change is the bind itself, or it is among those behind the bind.
    obtain rfl | ⟨later, last, rfl⟩ := List.eq_nil_or_concat later
    · exact .inl (List.singleton_inj.mp (List.append_inj' heq rfl).2)
    · rw [List.concat_eq_append, ← List.cons_append, ← List.append_assoc] at heq
      obtain ⟨rfl, hc⟩ := List.append_inj' heq rfl
      cases hc
      rw [List.concat_eq_append, List.forall_mem_append] at hlater
      exact .inr ⟨hlater.2 c (List.mem_singleton_self c), earlier, later, rfl, hlater.1⟩
  · rintro (rfl | ⟨hc, earlier, later, rfl, hlater⟩)
    · exact ⟨changes, [], rfl, nofun⟩
    · refine ⟨earlier, later ++ [c], by simp, fun d hd => ?_⟩
      obtain hd | hd := List.mem_append.mp hd
      · exact hlater d hd
      · exact List.mem_singleton.mp hd ▸ hc

/-- A store that is never purged holds what stands: its binding for a session is that of the last
change that concerns the session, if that was a `bind`. -/
theorem find?_changed (h : ∀ c ∈ changes, c.isPurge = false) :
    Members.find? session (changed changes).bindings = some b ↔ Stands changes session b := by
  induction changes using List.reverseRecOn with
  | nil =>
    refine ⟨nofun, ?_⟩
    rintro ⟨earlier, later, heq, -⟩
    exact absurd heq.symm (List.append_ne_nil_of_right_ne_nil _ (List.cons_ne_nil _ _))
  | append_singleton changes c ih =>
    obtain ⟨hinitial, hlast⟩ := List.forall_mem_append.mp h
    rw [changed_append_singleton, stands_append_singleton, ← ih hinitial]
    cases c with
    | bind other endpoint expiresAt =>
      obtain ⟨endpoint', expiresAt'⟩ := b
      rw [find?_bind]
      split
      case isTrue hsame => simp [Change.Concerns, hsame]
      case isFalse hne => simp [Change.Concerns, Ne.symm hne]
    | unbind other =>
      rw [find?_unbind (inOrder_changed changes)]
      split
      case isTrue hsame => simp [Change.Concerns, hsame]
      case isFalse hne => simp [Change.Concerns, Ne.symm hne]
    | purge now => cases hlast _ (List.mem_singleton_self _)

/-- Purges bind and unbind nothing. -/
theorem stands_filter : Stands (changes.filter (!·.isPurge)) session b ↔
    Stands changes session b := by
  induction changes using List.reverseRecOn with
  | nil => rfl
  | append_singleton changes c ih =>
    rw [List.filter_append, stands_append_singleton, ← ih]
    cases c with
    | bind other endpoint expiresAt => exact stands_append_singleton
    | unbind other => exact stands_append_singleton
    | purge now =>
      show Stands (_ ++ []) session b ↔ _
      simp [Change.Concerns]

/-! ## Purges -/

/-- From the last purge on, the bindings that hold are those of the store without purges. A binding
that a purge drops has expired by then, and holds at no later instant whether it is kept or not. -/
theorem find?_changed_filter (hpurges : ∀ now, .purge now ∈ changes → now ≤ t) :
    (Members.find? session (changed changes).bindings).filter (·.isLive t) =
      (Members.find? session (changed (changes.filter (!·.isPurge))).bindings).filter
        (·.isLive t) := by
  induction changes using List.reverseRecOn with
  | nil => rfl
  | append_singleton changes c ih =>
    replace ih := ih fun now hnow => hpurges now (List.mem_append_left _ hnow)
    rw [changed_append_singleton, List.filter_append]
    cases c with
    | bind other endpoint expiresAt =>
      show _ = (Members.find? session (changed (_ ++ [.bind ..])).bindings).filter _
      rw [changed_append_singleton, find?_bind, find?_bind]
      split
      · rfl
      · exact ih
    | unbind other =>
      show _ = (Members.find? session (changed (_ ++ [.unbind other])).bindings).filter _
      rw [changed_append_singleton, find?_unbind (inOrder_changed _),
        find?_unbind (inOrder_changed _)]
      split
      · rfl
      · exact ih
    | purge now =>
      -- What this purge drops has expired at `now`, so it does not hold at `t` either.
      show _ = (Members.find? session (changed (_ ++ [])).bindings).filter _
      rw [List.append_nil, ← ih, find?_purge (inOrder_changed _), Option.filter_filter]
      have hle : now ≤ t := hpurges now (List.mem_append_right _ (List.mem_singleton_self _))
      refine congrArg (Option.filter · _) (funext fun b => Bool.and_eq_right_iff_imp.mpr ?_)
      simp only [Binding.isLive, decide_eq_true_eq]
      exact UInt64.lt_of_le_of_lt hle

theorem lookup_eq_some_iff {endpoint : String} :
    s.lookup session t = some endpoint ↔
      ∃ expiresAt,
        Members.find? session s.bindings = some ⟨endpoint, expiresAt⟩ ∧ t < expiresAt := by
  simp only [lookup, Option.map_eq_some_iff, Option.filter_eq_some_iff, Binding.isLive,
    decide_eq_true_eq]
  constructor
  · rintro ⟨⟨_, expiresAt⟩, ⟨hfind, hlive⟩, rfl⟩
    exact ⟨expiresAt, hfind, hlive⟩
  · rintro ⟨expiresAt, hfind, hlive⟩
    exact ⟨_, ⟨hfind, hlive⟩, rfl⟩

/-- After any changes, purges among them, a session is answered by the last bind of it that no
unbind follows, as long as that holds; a store that is never purged answers the same; and each
purge removes what has expired and nothing else. -/
theorem purges_unseen (changes : List Change) (session : String) (t : Millis)
    (hpurges : ∀ now, .purge now ∈ changes → now ≤ t) :
    (∀ endpoint, (changed changes).lookup session t = some endpoint ↔
      ∃ expiresAt, Stands changes session ⟨endpoint, expiresAt⟩ ∧ t < expiresAt) ∧
    (changed changes).lookup session t =
      (changed (changes.filter (!·.isPurge))).lookup session t ∧
    ∀ earlier now, earlier ++ [.purge now] <+: changes → (changed earlier).Purges now := by
  have hsame : (changed changes).lookup session t =
      (changed (changes.filter (!·.isPurge))).lookup session t :=
    congrArg (Option.map Binding.endpoint) (find?_changed_filter hpurges)
  refine ⟨fun endpoint => ?_, hsame, fun earlier now _ => purges (inOrder_changed earlier) now⟩
  rw [hsame, lookup_eq_some_iff]
  refine exists_congr fun expiresAt => and_congr_left' ?_
  have hnone : ∀ c ∈ changes.filter (!·.isPurge), c.isPurge = false := fun c hc =>
    (Bool.not_eq_true' _).mp (List.mem_filter.mp hc).2
  rw [find?_changed hnone, stands_filter]

/-- One session is bound for longer after its binding has expired and been purged; another one is
unbound, and bound anew to an instant that is already over. -/
def rebinding : List Change :=
  [.bind "a" "north" 10, .bind "b" "east" 30, .purge 10, .bind "a" "south" 21, .purge 20,
    .unbind "b", .bind "b" "west" 15]

theorem purges_unseen_rebinding :
    (changed rebinding).lookup "a" 20 = some "south" ∧ (changed rebinding).lookup "b" 20 = none ∧
      (changed rebinding).size = 2 ∧
      (∃ expiresAt, Stands rebinding "a" ⟨"south", expiresAt⟩ ∧ 20 < expiresAt) ∧
      (changed [.bind "a" "north" 10, .bind "b" "east" 30]).Purges 10 := by
  have hpurges : ∀ now, .purge now ∈ rebinding → now ≤ 20 := by
    simp [rebinding]
  obtain ⟨hstands, -, hpurge⟩ := purges_unseen rebinding "a" 20 hpurges
  have ha : (changed rebinding).lookup "a" 20 = some "south" := by decide +kernel
  exact ⟨ha, by decide +kernel, by decide +kernel, (hstands _).mp ha, hpurge _ _ ⟨_, rfl⟩⟩

end Correlator.Sessions
