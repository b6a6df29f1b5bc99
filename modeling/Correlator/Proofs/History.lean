import Correlator.Journal

/-!
# Reading the journal

The journal lists what happened, the latest first, so a suffix of it is the journal as it was
earlier.  `Journal.upTo` and `Journal.since` cut it at a place that somebody remembers.

The story of an id (`Journal.story`) is what the journal says about the calls that had the id.  In
an orderly story registrations and claims take turns, and each claim gets the call that was
registered last.  `InTurn story waiting` says so, and that `waiting` is what the latest
registration has left to be claimed.

## Main results

* `InTurn.ends` : what follows a registration in an orderly story.
* `InTurn.reused` : two calls that wait under one id, one earlier and one later, are either the
  same registration or the first one has been claimed and the id registered anew.
-/

namespace Correlator

/-- A call as its claimer gets it. -/
def Call.marked (c : Call) : Call := { c with completion := .marked }

/-! ## Places -/

namespace Journal

/-- The journal as it was at a place. -/
def upTo (j : Journal) (place : Nat) : Journal := j.drop (j.length - place)

/-- What has been noted since a place. -/
def since (j : Journal) (place : Nat) : Journal := j.take (j.length - place)

theorem since_append_upTo (j : Journal) (place : Nat) : j.since place ++ j.upTo place = j :=
  List.take_append_drop _ _

theorem upTo_suffix (j : Journal) (place : Nat) : j.upTo place <:+ j := List.drop_suffix _ _

/-- A place that the journal has once come to stays where it is, so whoever remembers a length can
find the journal of that time again. -/
theorem upTo_of_suffix {past j : Journal} (h : past <:+ j) : j.upTo past.length = past := by
  obtain ⟨newer, rfl⟩ := h
  rw [upTo, List.length_append, Nat.add_sub_cancel, List.drop_left]

/-- Every entry of the journal stands in the relation `P` to what happened before it. -/
def Each (P : Journal → Entry → Prop) : Journal → Prop
  | [] => True
  | e :: past => P past e ∧ Each P past

theorem Each.of_suffix {P : Journal → Entry → Prop} {j past : Journal} {e : Entry}
    (h : j.Each P) (hsuffix : e :: past <:+ j) : P past e := by
  induction j with
  | nil => exact absurd (List.suffix_nil.mp hsuffix) (List.cons_ne_nil e past)
  | cons latest j ih =>
    rcases List.suffix_cons_iff.mp hsuffix with heq | holder
    · obtain ⟨rfl, rfl⟩ := List.cons.inj heq
      exact h.1
    · exact ih h.2 holder

/-- The claims in the journal, each with what had happened before. -/
def claims : Journal → List (Claimer × Call × Journal)
  | [] => []
  | .claimed claimer call :: past => (claimer, call, past) :: claims past
  | _ :: past => claims past

theorem suffix_of_mem_claims {j past : Journal} {claimer : Claimer} {call : Call}
    (h : (claimer, call, past) ∈ j.claims) : .claimed claimer call :: past <:+ j := by
  induction j with
  | nil => cases h
  | cons e j ih =>
    cases e with
    | claimed claimer' call' =>
      rcases List.mem_cons.mp h with heq | hold
      · cases heq
        exact List.suffix_refl _
      · exact (ih hold).trans (List.suffix_cons _ _)
    | _ => exact (ih h).trans (List.suffix_cons _ _)

end Journal

/-! ## Stories -/

/-- Something that happened to a call. -/
inductive CallEvent where
  | registered (call : Call)
  | claimed (claimer : Claimer) (call : Call)

/-- What an entry says about the calls that have the id. -/
def Entry.about? (id : CallId) : Entry → Option CallEvent
  | .registered call => if call.id = id then some (.registered call) else none
  | .claimed claimer call => if call.id = id then some (.claimed claimer call) else none
  | _ => none

/-- What the journal says about the calls that had the id, the latest first. -/
def Journal.story (j : Journal) (id : CallId) : List CallEvent := j.filterMap (·.about? id)

namespace Journal

theorem story_append (newer older : Journal) (id : CallId) :
    story (newer ++ older) id = newer.story id ++ older.story id :=
  List.filterMap_append ..

theorem story_registered (call : Call) (j : Journal) (id : CallId) :
    story (.registered call :: j) id =
      if call.id = id then .registered call :: j.story id else j.story id := by
  by_cases hid : call.id = id <;> simp [story, Entry.about?, hid]

theorem story_claimed (claimer : Claimer) (call : Call) (j : Journal) (id : CallId) :
    story (.claimed claimer call :: j) id =
      if call.id = id then .claimed claimer call :: j.story id else j.story id := by
  by_cases hid : call.id = id <;> simp [story, Entry.about?, hid]

/-- Nothing else belongs to a story. -/
theorem story_cons {e : Entry} (h : ∀ id, e.about? id = none) (j : Journal) (id : CallId) :
    story (e :: j) id = j.story id :=
  List.filterMap_cons_none (h id)

end Journal

/-- In the story of an id, the latest first, registrations and claims take turns, the engine makes
the claims, and each claim gets the call that was registered before it. The call that is left is
the one whose registration nobody has claimed; it is an index, so that an orderly story determines
it. -/
inductive InTurn : List CallEvent → Option Call → Prop
  | nothing : InTurn [] none
  | registered {story : List CallEvent} {call : Call} (hpending : call.completion = .pending)
      (h : InTurn story none) : InTurn (.registered call :: story) (some call)
  | claimed {story : List CallEvent} {call : Call} {claimer : Claimer}
      (hengine : claimer ≠ .direct) (h : InTurn story (some call)) :
      InTurn (.claimed claimer call.marked :: story) none

namespace InTurn

variable {newer older story : List CallEvent} {call first : Call} {waiting : Option Call}

/-- A call that is left is the one that was registered last. -/
theorem eq_registered_cons (h : InTurn story (some call)) :
    call.completion = .pending ∧ ∃ older, story = .registered call :: older := by
  cases h with
  | registered hpending _ => exact ⟨hpending, _, rfl⟩

theorem eq_some (h : InTurn (.registered call :: older) waiting) : waiting = some call := by
  cases h
  rfl

/-- A story tells what is left. -/
theorem unique {other : Option Call} (h : InTurn story waiting) (h' : InTurn story other) :
    waiting = other := by
  cases h with
  | nothing => cases h'; rfl
  | registered => cases h'; rfl
  | claimed =>
    generalize hlatest : CallEvent.claimed _ _ :: _ = latest at h'
    cases h' with
    | nothing => rfl
    | registered => cases hlatest
    | claimed => rfl

/-- An orderly story was orderly at every earlier time. -/
theorem earlier (h : InTurn (newer ++ older) waiting) : ∃ left, InTurn older left := by
  induction newer generalizing waiting with
  | nil => exact ⟨waiting, h⟩
  | cons event newer ih =>
    cases h with
    | registered _ h => exact ih h
    | claimed _ h => exact ih h

/-- What happens first after a registration is that somebody claims the call. -/
theorem first_claimed (hfirst : InTurn older (some first)) (h : InTurn (newer ++ older) waiting) :
    (newer = [] ∧ waiting = some first) ∨
      ∃ claimer rest, claimer ≠ .direct ∧ newer = rest ++ [.claimed claimer first.marked] := by
  induction newer generalizing waiting with
  | nil => exact .inl ⟨rfl, h.unique hfirst⟩
  | cons event newer ih =>
    right
    cases h with
    | registered _ h =>
      -- A registration needs that nothing is left, so the first claim has been earlier.
      rcases ih h with ⟨-, hnone⟩ | ⟨claimer, rest, hengine, rfl⟩
      · cases hnone
      · exact ⟨claimer, _ :: rest, hengine, rfl⟩
    | claimed hnow h =>
      rcases ih h with ⟨rfl, hsome⟩ | ⟨claimer, rest, hengine, rfl⟩
      · obtain rfl := Option.some.inj hsome
        exact ⟨_, [], hnow, rfl⟩
      · exact ⟨claimer, _ :: rest, hengine, rfl⟩

/-- What happens first after a claim is that the id is registered anew. -/
theorem first_registered (hfirst : InTurn older none) (h : InTurn (newer ++ older) waiting) :
    newer = [] ∨ ∃ next rest, newer = rest ++ [.registered next] := by
  induction newer generalizing waiting with
  | nil => exact .inl rfl
  | cons event newer ih =>
    right
    cases h with
    | registered _ h =>
      rcases ih h with rfl | ⟨next, rest, rfl⟩
      · exact ⟨_, [], rfl⟩
      · exact ⟨next, _ :: rest, rfl⟩
    | claimed _ h =>
      rcases ih h with rfl | ⟨next, rest, rfl⟩
      · cases hfirst.unique h
      · exact ⟨next, _ :: rest, rfl⟩

/-- A registration is the last event, or it is followed by one claim of its call, and that is the
last event or is followed by the next registration. -/
theorem ends (h : InTurn (newer ++ .registered call :: older) waiting) :
    newer = [] ∨ ∃ claimer, claimer ≠ .direct ∧
      (newer = [.claimed claimer call.marked] ∨ ∃ next rest,
        newer = rest ++ [.registered next, .claimed claimer call.marked]) := by
  obtain ⟨left, hleft⟩ := h.earlier
  obtain rfl := hleft.eq_some
  rcases first_claimed hleft h with ⟨rfl, -⟩ | ⟨claimer, rest, hengine, rfl⟩
  · exact .inl rfl
  · refine .inr ⟨claimer, hengine, ?_⟩
    rw [List.append_assoc] at h
    have hclaimed : InTurn (.claimed claimer call.marked :: .registered call :: older) none :=
      .claimed hengine hleft
    rcases first_registered hclaimed h with rfl | ⟨next, rest, rfl⟩
    · exact .inl rfl
    · exact .inr ⟨next, rest, by rw [List.append_assoc]; rfl⟩

/-- A claim gets the call that was registered just before it. -/
theorem claimed_own {claimer : Claimer}
    (h : InTurn (newer ++ .claimed claimer call :: older) waiting) :
    claimer ≠ .direct ∧ ∃ own rest, older = .registered own :: rest ∧ call = own.marked := by
  obtain ⟨left, hleft⟩ := h.earlier
  cases hleft with
  | claimed hengine hown =>
    obtain ⟨-, rest, rfl⟩ := hown.eq_registered_cons
    exact ⟨hengine, _, rest, rfl, rfl⟩

/-- A call that waits later under the same id is the same registration, unless the first one has
been claimed and the id registered anew. -/
theorem reused (hfirst : InTurn older (some first)) (h : InTurn (newer ++ older) (some call)) :
    (newer = [] ∧ call = first) ∨
      ∃ claimer between,
        newer = .registered call :: between ++ [.claimed claimer first.marked] := by
  rcases first_claimed hfirst h with ⟨hnew, hcall⟩ | ⟨claimer, rest, -, rfl⟩
  · exact .inl ⟨hnew, Option.some.inj hcall⟩
  · obtain ⟨-, tail, hstory⟩ := h.eq_registered_cons
    cases rest with
    | nil => cases hstory
    | cons event between =>
      obtain ⟨rfl, -⟩ := List.cons.inj hstory
      exact .inr ⟨claimer, between, rfl⟩

end InTurn

end Correlator
