import Correlator.Engine.Unwinding
import Correlator.Proofs.Called

/-!
# How resuming ends

A unit that is resumed has the very stack in its hands from which the loop takes the next frame. It
may suspend further frames on the message, and it may resume the message itself. So neither how
many units run nor which of them is next can be read off the stack that resuming begins with. What
does hold is said about a run as it goes (`Unwound`): whatever a unit does in its turn, the loop
then takes the frame on top of what the unit has left, until a unit stops it or no frame is left.

`Unwound` is about any units. What is known about the run of one unit, and about what happens to the
frames meanwhile, is a parameter.

## Main definitions

* `Stage` : one unit that the loop runs, and `Happening` what happens to the frames.
* `Unwound` : how a message is resumed.
* `Answers` : how the answer depends on the units.

## Main results

* `resumeWithin_unwound` : the engine resumes messages in that way.
* `Unwound.answers` : what it answers.
-/

namespace Correlator

variable {σ : Type}

/-! ## Runs of the loop -/

/-- What happens to the frames of a message while it is resumed, in the order in which it happens.
Units do the first, the loop does the second, and the third ends it early. -/
inductive Happening where
  /-- A frame is put on the stack. -/
  | suspended (frame : Frame)
  /-- A frame has been taken off the stack, and its unit is given the message. -/
  | continued (frame : Frame) (msg : Message)
  /-- Nested work or the number of frames has met its bound. -/
  | cutOff

/-- One unit that the loop runs: the message that it is given, and what it hands back. -/
structure Stage where
  frame : Frame
  msg : Message
  back : Message
  outcome : Outcome Verdict

/-- The stage as a call. -/
def Stage.called (stage : Stage) : Called :=
  .continueFlow stage.frame stage.msg stage.back stage.outcome

/-- How resuming ends after a unit that does not let it go on. -/
def Outcome.stop? : Outcome Verdict → Option (Outcome Bool)
  | .returned .proceed => none
  | .returned .halt => some (.returned false)
  | .failed e => some (.failed e)
  | .panicked p => some (.panicked p)

theorem Outcome.of_stop? {o : Outcome Verdict} {result : Outcome Bool} (h : o.stop? = some result) :
    o = .returned .halt ∧ result = .returned false ∨
      (∃ e, o = .failed e ∧ result = .failed e) ∨ ∃ p, o = .panicked p ∧ result = .panicked p := by
  cases o with
  | returned verdict =>
    cases verdict with
    | proceed => cases h
    | halt => exact Or.inl ⟨rfl, (Option.some.inj h).symm⟩
  | failed e => exact Or.inr (Or.inl ⟨e, rfl, (Option.some.inj h).symm⟩)
  | panicked p => exact Or.inr (Or.inr ⟨p, rfl, (Option.some.inj h).symm⟩)

/-- What is known about the run of a unit: the frame and the message that it is given at the first
host, what happens to the frames meanwhile, what it hands back, and the host then. Different uses
of the loop know different things, so this is a parameter. -/
abbrev UnitRun (σ : Type) :=
  Frame → Message → Host σ → List Happening → Message × Outcome Verdict → Host σ → Prop

/-- At most `rounds` frames of the message are gone on with: these units run, and this happens to
the frames. A unit is given the message without its own frame, and what it hands back is what the
loop goes on with, whatever stack is on it by then. -/
inductive Unwound (unit : UnitRun σ) : Nat → Message → Host σ → List Stage → List Happening →
    Message × Outcome Bool → Host σ → Prop
  | drained {rounds : Nat} {msg : Message} {host : Host σ} (h : msg.frames.items = []) :
      Unwound unit rounds msg host [] [] (msg, .returned true) host
  | cutOff {msg : Message} {host : Host σ} (h : msg.frames.items ≠ []) :
      Unwound unit 0 msg host [] [.cutOff] (msg, .panicked .exhausted) host
  | stopped {rounds : Nat} {msg back : Message} {frame : Frame} {below : List Frame}
      {history : List Happening} {outcome : Outcome Verdict} {result : Outcome Bool}
      {host later : Host σ} (h : msg.frames.items = frame :: below)
      (hunit : unit frame { msg with frames := ⟨below⟩ } host history (back, outcome) later)
      (hstop : outcome.stop? = some result) :
      Unwound unit (rounds + 1) msg host [⟨frame, { msg with frames := ⟨below⟩ }, back, outcome⟩]
        (.continued frame { msg with frames := ⟨below⟩ } :: history) (back, result) later
  | proceeded {rounds : Nat} {msg back : Message} {frame : Frame} {below : List Frame}
      {history history' : List Happening} {stages : List Stage} {result : Message × Outcome Bool}
      {host mid later : Host σ} (h : msg.frames.items = frame :: below)
      (hunit : unit frame { msg with frames := ⟨below⟩ } host history (back, .returned .proceed)
        mid)
      (hrest : Unwound unit rounds back mid stages history' result later) :
      Unwound unit (rounds + 1) msg host
        (⟨frame, { msg with frames := ⟨below⟩ }, back, .returned .proceed⟩ :: stages)
        (.continued frame { msg with frames := ⟨below⟩ } :: (history ++ history')) result later

/-- The induction is on the rounds, as in the loop itself: each takes one frame off, and the rest
is a run with one round less of the message that the unit has handed back. -/
theorem resumeWithin_unwound {callbacks : Callbacks σ} {rel : Host σ → Host σ → Prop}
    {unit : UnitRun σ}
    (hunit : ∀ frame msg host result later,
      (callbacks.continueFlow frame msg host).CanEnd rel result later →
        ∃ history, unit frame msg host history result later)
    {rounds : Nat} {msg : Message} {host later : Host σ} {result : Message × Outcome Bool}
    (h : (resumeWithin callbacks rounds msg host).CanEnd rel result later) :
    ∃ stages history, Unwound unit rounds msg host stages history result later := by
  induction rounds generalizing msg host with
  | zero =>
    unfold resumeWithin Stack.pop? at h
    cases hitems : msg.frames.items with
    | nil =>
      rw [hitems] at h
      obtain ⟨rfl, rfl⟩ := h
      exact ⟨[], [], .drained hitems⟩
    | cons frame below =>
      rw [hitems] at h
      obtain ⟨rfl, rfl⟩ := h
      exact ⟨[], [.cutOff], .cutOff (hitems ▸ List.cons_ne_nil frame below)⟩
  | succ rounds ih =>
    unfold resumeWithin Stack.pop? at h
    cases hitems : msg.frames.items with
    | nil =>
      rw [hitems] at h
      obtain ⟨rfl, rfl⟩ := h
      exact ⟨[], [], .drained hitems⟩
    | cons frame below =>
      rw [hitems] at h
      obtain ⟨⟨back, outcome⟩, mid, hcall, hend⟩ := Progress.canEnd_bind.mp h
      obtain ⟨history, hrun⟩ := hunit _ _ _ _ _ hcall
      cases outcome with
      | returned verdict =>
        cases verdict with
        | proceed =>
          obtain ⟨stages, history', hrest⟩ := ih hend
          exact ⟨_, _, .proceeded hitems hrun hrest⟩
        | halt =>
          obtain ⟨rfl, rfl⟩ := hend
          exact ⟨_, _, .stopped hitems hrun rfl⟩
      | failed e =>
        obtain ⟨rfl, rfl⟩ := hend
        exact ⟨_, _, .stopped hitems hrun rfl⟩
      | panicked p =>
        obtain ⟨rfl, rfl⟩ := hend
        exact ⟨_, _, .stopped hitems hrun rfl⟩

/-! ## Answers -/

/-- How the units that were run make out the answer, and which message is left. Of the units before
the last it is known that they let it go on, so only the last of them and the frames that are left
decide. -/
inductive Ending (rounds : Nat) : List Stage → Message → Outcome Bool → Prop
  | drained {stages : List Stage} {left : Message}
      (hall : ∀ stage ∈ stages, stage.outcome = .returned .proceed)
      (hleft : ∀ stage, stages.getLast? = some stage → stage.back = left)
      (h : left.frames.items = []) : Ending rounds stages left (.returned true)
  | cutOff {stages : List Stage} {left : Message}
      (hall : ∀ stage ∈ stages, stage.outcome = .returned .proceed)
      (hleft : ∀ stage, stages.getLast? = some stage → stage.back = left)
      (h : left.frames.items ≠ []) (hrounds : stages.length = rounds) :
      Ending rounds stages left (.panicked .exhausted)
  | stopped {stages : List Stage} {last : Stage} {outcome : Outcome Bool}
      (hall : ∀ stage ∈ stages, stage.outcome = .returned .proceed)
      (hstop : last.outcome.stop? = some outcome) :
      Ending rounds (stages ++ [last]) last.back outcome

/-- What resuming a message answers, by the units that it has run itself. Each answer comes with
its condition in both directions, so they exclude each other and leave no run without one. -/
structure Answers (rounds : Nat) (stages : List Stage) (left : Message) (outcome : Outcome Bool) :
    Prop where
  drained : outcome = .returned true ↔
    left.frames.items = [] ∧ ∀ stage ∈ stages, stage.outcome = .returned .proceed
  halted : outcome = .returned false ↔
    stages.getLast?.map Stage.outcome = some (.returned .halt)
  failed : ∀ e, outcome = .failed e ↔ stages.getLast?.map Stage.outcome = some (.failed e)
  /-- Apart from a unit, only the bound on frames panics, and then frames are left. -/
  panicked : ∀ p, outcome = .panicked p ↔
    stages.getLast?.map Stage.outcome = some (.panicked p) ∨
      p = .exhausted ∧ stages.length = rounds ∧ left.frames.items ≠ [] ∧
        ∀ stage ∈ stages, stage.outcome = .returned .proceed
  /-- No unit runs after one that does not let it go on. -/
  stops : ∀ stage ∈ stages.dropLast, stage.outcome = .returned .proceed
  /-- The message is left as the last unit has handed it back. -/
  left : ∀ stage, stages.getLast? = some stage → stage.back = left

namespace Ending

variable {rounds : Nat} {stages : List Stage} {left : Message} {outcome : Outcome Bool}

/-- The first unit does not let it go on. -/
theorem stopped_first {last : Stage} (hstop : last.outcome.stop? = some outcome) :
    Ending rounds [last] last.back outcome := by
  have hstopped : Ending rounds ([] ++ [last]) last.back outcome := .stopped (by simp) hstop
  exact hstopped

/-- One more unit before. -/
theorem cons {first : Stage} (h : Ending rounds stages left outcome)
    (hfirst : first.outcome = .returned .proceed) (hback : stages = [] → first.back = left) :
    Ending (rounds + 1) (first :: stages) left outcome := by
  -- The first unit has let it go on, so it changes neither condition on the others nor who was
  -- last, unless there are no others.
  have hcons {stages : List Stage} (hall : ∀ stage ∈ stages, stage.outcome = .returned .proceed) :
      ∀ stage ∈ first :: stages, stage.outcome = .returned .proceed :=
    List.forall_mem_cons.mpr ⟨hfirst, hall⟩
  have hlast (hleft : ∀ stage, stages.getLast? = some stage → stage.back = left) :
      ∀ stage, (first :: stages).getLast? = some stage → stage.back = left := by
    intro stage hstage
    cases stages with
    | nil =>
      obtain rfl := Option.some.inj hstage
      exact hback rfl
    | cons next stages => exact hleft stage (by simpa using hstage)
  cases h with
  | drained hall hleft h => exact .drained (hcons hall) (hlast hleft) h
  | cutOff hall hleft h hrounds => exact .cutOff (hcons hall) (hlast hleft) h (by simp [hrounds])
  | @stopped stages last _ hall hstop =>
    have hstopped : Ending (rounds + 1) ((first :: stages) ++ [last]) last.back outcome :=
      .stopped (hcons hall) hstop
    exact hstopped

theorem answers (h : Ending rounds stages left outcome) :
    Answers rounds stages left outcome := by
  -- If all units let it go on, the last one did.
  have hlast (hall : ∀ stage ∈ stages, stage.outcome = .returned .proceed) {o : Outcome Verdict}
      (ho : stages.getLast?.map Stage.outcome = some o) : o = .returned .proceed := by
    obtain ⟨stage, hstage, rfl⟩ := Option.map_eq_some_iff.mp ho
    exact hall stage (List.mem_of_getLast? hstage)
  cases h with
  | drained hall hleft h =>
    constructor
    case drained => exact ⟨fun _ => ⟨h, hall⟩, fun _ => rfl⟩
    case halted => exact ⟨nofun, fun ho => nomatch hlast hall ho⟩
    case failed => exact fun e => ⟨nofun, fun ho => nomatch hlast hall ho⟩
    case panicked =>
      refine fun p => ⟨nofun, ?_⟩
      rintro (ho | ⟨-, -, hfilled, -⟩)
      · exact nomatch hlast hall ho
      · exact absurd h hfilled
    case stops => exact fun stage hstage => hall stage ((List.dropLast_sublist stages).mem hstage)
    case left => exact hleft
  | cutOff hall hleft h hrounds =>
    constructor
    case drained => exact ⟨nofun, fun hempty => absurd hempty.1 h⟩
    case halted => exact ⟨nofun, fun ho => nomatch hlast hall ho⟩
    case failed => exact fun e => ⟨nofun, fun ho => nomatch hlast hall ho⟩
    case panicked =>
      refine fun p => ⟨fun hp => ?_, ?_⟩
      · obtain rfl := Outcome.panicked.inj hp
        exact Or.inr ⟨rfl, hrounds, h, hall⟩
      · rintro (ho | ⟨rfl, -⟩)
        · exact nomatch hlast hall ho
        · rfl
    case stops => exact fun stage hstage => hall stage ((List.dropLast_sublist stages).mem hstage)
    case left => exact hleft
  | @stopped stages last _ hall hstop =>
    have hstopped : ¬ ∀ stage ∈ stages ++ [last], stage.outcome = .returned .proceed := by
      intro hgo
      rw [hgo last List.mem_concat_self] at hstop
      cases hstop
    have hverdict : (stages ++ [last]).getLast?.map Stage.outcome = some last.outcome := by simp
    constructor
    case drained =>
      refine ⟨fun hdrained => ?_, fun hdrained => absurd hdrained.2 hstopped⟩
      rcases Outcome.of_stop? hstop with ⟨-, rfl⟩ | ⟨e, -, rfl⟩ | ⟨p, -, rfl⟩ <;> cases hdrained
    case halted =>
      rw [hverdict]
      rcases Outcome.of_stop? hstop with ⟨ho, rfl⟩ | ⟨e, ho, rfl⟩ | ⟨p, ho, rfl⟩ <;> simp [ho]
    case failed =>
      intro e
      rw [hverdict]
      rcases Outcome.of_stop? hstop with ⟨ho, rfl⟩ | ⟨e', ho, rfl⟩ | ⟨p, ho, rfl⟩ <;> simp [ho]
    case panicked =>
      intro p
      rw [hverdict, or_iff_left fun hbound => hstopped hbound.2.2.2]
      rcases Outcome.of_stop? hstop with ⟨ho, rfl⟩ | ⟨e, ho, rfl⟩ | ⟨p', ho, rfl⟩ <;> simp [ho]
    case stops => simpa using hall
    case left => simp

end Ending

namespace Unwound

variable {unit : UnitRun σ} {rounds : Nat} {msg left : Message} {host later : Host σ}
  {stages : List Stage} {history : List Happening} {outcome : Outcome Bool}

theorem ending (h : Unwound unit rounds msg host stages history (left, outcome) later) :
    Ending rounds stages left outcome := by
  generalize hresult : (left, outcome) = result at h
  induction h with
  | drained hitems =>
    cases hresult
    exact .drained (by simp) (by simp) hitems
  | cutOff hitems =>
    cases hresult
    exact .cutOff (by simp) (by simp) hitems rfl
  | stopped _ _ hstop =>
    cases hresult
    exact .stopped_first hstop
  | proceeded _ _ hrest ih =>
    refine (ih hresult).cons rfl ?_
    rintro rfl
    cases hrest <;> cases hresult <;> rfl

/-- The answer depends on the units that were run, and on whether frames are left. -/
theorem answers (h : Unwound unit rounds msg host stages history (left, outcome) later) :
    Answers rounds stages left outcome := h.ending.answers

/-- A message with frames is given to a unit, if the bound allows for one. So an answer without any
unit means that there was nothing to resume. -/
theorem stages_ne_nil (h : Unwound unit rounds msg host stages history (left, outcome) later)
    (hrounds : 0 < rounds) (hframes : msg.frames.items ≠ []) : stages ≠ [] := by
  cases h with
  | drained hitems => exact absurd hitems hframes
  | cutOff => exact absurd hrounds (Nat.lt_irrefl 0)
  | stopped => exact List.cons_ne_nil _ _
  | proceeded => exact List.cons_ne_nil _ _

/-- If every unit lets it go on and frames are left all the same, the bound has been met. -/
theorem cutOff_mem {result : Message × Outcome Bool}
    (h : Unwound unit rounds msg host stages history result later)
    (hall : ∀ stage ∈ stages, stage.outcome = .returned .proceed)
    (hleft : result.1.frames.items ≠ []) : .cutOff ∈ history := by
  induction h with
  | drained hitems => exact absurd hitems hleft
  | cutOff => exact List.mem_singleton_self _
  | @stopped _ _ _ _ _ _ outcome _ _ _ _ _ hstop =>
    have hgo : outcome = .returned .proceed := hall _ (List.mem_singleton_self _)
    rw [hgo] at hstop
    cases hstop
  | proceeded _ _ _ ih =>
    have hrest := ih (List.forall_mem_cons.mp hall).2 hleft
    exact List.mem_cons_of_mem _ (List.mem_append_right _ hrest)

/-- The stages are the calls that are made. -/
theorem makes {callbacks : Callbacks σ} {rel : Host σ → Host σ → Prop}
    {result : Message × Outcome Bool}
    (hcalls : ∀ frame msg host history result later, unit frame msg host history result later →
      (callbacks.continueFlow frame msg host).CanEnd rel result later)
    (h : Unwound unit rounds msg host stages history result later) :
    callbacks.Makes rel host (stages.map Stage.called) later := by
  induction h with
  | drained => exact .none .mk
  | cutOff => exact .none .mk
  | @stopped _ msg _ frame below _ outcome _ _ _ _ hunit _ =>
    exact .single (c := .continueFlow frame _ _ outcome) (hcalls _ _ _ _ _ _ hunit) .mk
  | @proceeded _ msg back frame below _ _ _ _ _ _ _ _ hunit _ ih =>
    exact .call (c := .continueFlow frame _ back (.returned .proceed)) .mk
      (hcalls _ _ _ _ _ _ hunit) ih

/-- Each unit is given what the one before has handed back, without a frame. -/
theorem flows {result : Message × Outcome Bool}
    (h : Unwound unit rounds msg host stages history result later) :
    msg.Flows (stages.map Stage.called) result.1 := by
  induction h with
  | drained => exact .none (.refl _)
  | cutOff => exact .none (.refl _)
  | stopped => exact .call ⟨rfl, rfl⟩ (.none (.refl _))
  | proceeded _ _ _ ih => exact .call ⟨rfl, rfl⟩ ih

end Unwound

/-- Resuming a message calls units, at least one if there are frames and the bound allows for one,
and it answers by what they come to. -/
theorem resume_makes {callbacks : Callbacks σ} {rel : Host σ → Host σ → Prop} {msg left : Message}
    {host later : Host σ} {outcome : Outcome Bool}
    (h : (resume callbacks msg host).CanEnd rel (left, outcome) later) :
    ∃ stages : List Stage,
      (0 < callbacks.rounds → msg.frames.items ≠ [] → stages ≠ []) ∧
      callbacks.Makes rel host (stages.map Stage.called) later ∧
      msg.Flows (stages.map Stage.called) left ∧
      Answers callbacks.rounds stages left outcome := by
  have hunit : ∀ frame msg host result later,
      (callbacks.continueFlow frame msg host).CanEnd rel result later →
      ∃ history, history = ([] : List Happening) ∧
        (callbacks.continueFlow frame msg host).CanEnd rel result later :=
    fun _ _ _ _ _ hcall => ⟨[], rfl, hcall⟩
  obtain ⟨stages, history, hunwound⟩ := resumeWithin_unwound hunit h
  have hmakes := hunwound.makes fun _ _ _ _ _ _ hcall => hcall.2
  exact ⟨stages, hunwound.stages_ne_nil, hmakes, hunwound.flows, hunwound.answers⟩

end Correlator
