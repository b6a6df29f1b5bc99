import Correlator.Proofs.Reach
import Correlator.Proofs.Resuming
import Correlator.Proofs.Stacking

/-!
# Resuming as a stack machine

A unit may suspend further frames and resume its message again while the loop that runs it waits, so
pushes and pops of several levels of nesting go into one stack. Neither level sees what the others
do. What happens to the frames is therefore written down as it happens, over all levels in one
history. On each level the history is put together from those of the units that run there
(`Unwound`), and the history of a unit from what it suspends and from the histories of the
resumptions that it asks for (`Program.Conducts`). The recursion on the level is that of the
callbacks themselves.

The programs of the units may be anything as long as they deal with the frames of their message in
these two ways only (`Program.KeepsFrames`). Where the bounds on frames and on nesting are met, the
history says so. A message whose units suspend nothing stays below both bounds.

## Main definitions

* `Program.KeepsFrames` : all that a unit does to the frames is to suspend and to resume.
* `Environment.Unfolds` : the run of a unit, and what happens to the frames meanwhile.
* `Undergo` : what may happen to a stack of frames, and `Unwinds` what holds of a resumption.

## Main results

* `Environment.unfolds` : each run of a unit has a history.
* `Environment.unfolds_isUncut` : units that suspend nothing stay below the bounds.
* `Environment.resume_unwinds` : resuming is a stack machine.
-/

namespace Correlator

open Environment (serve)
open Stack (Goes)

variable {σ : Type}

/-! ## Units and their runs -/

/-- The program does nothing to the frames of its message but suspend further ones, if `adds`
permits it, and resume the message. Otherwise it does as it likes. The frames are those that the
message has by now; a program that would hand back others is none of these. -/
inductive Program.KeepsFrames (adds : Prop) :
    Suspensions → Program σ (Message × Outcome Verdict) → Prop
  | done (back : Message) (outcome : Outcome Verdict) :
      KeepsFrames adds back.frames (.done (back, outcome))
  | «recall» {frames : Suspensions} {next : σ → Program σ (Message × Outcome Verdict)}
      (h : ∀ memory, KeepsFrames adds frames (next memory)) :
      KeepsFrames adds frames (.recall next)
  | remember {frames : Suspensions} {memory : σ} {next : Program σ (Message × Outcome Verdict)}
      (h : KeepsFrames adds frames next) : KeepsFrames adds frames (.remember memory next)
  | suspend {frames : Suspensions} {p : Program σ (Message × Outcome Verdict)} (hadds : adds)
      (frame : Frame) (h : KeepsFrames adds (frames.push frame) p) : KeepsFrames adds frames p
  | resume (msg : Message) {next : Message × Outcome Bool → Program σ (Message × Outcome Verdict)}
      (h : ∀ back outcome, KeepsFrames adds back.frames (next (back, outcome))) :
      KeepsFrames adds msg.frames (.ask (.resume msg) next)
  | ask {frames : Suspensions} (op : Operation)
      {next : op.Answer → Program σ (Message × Outcome Verdict)}
      (h : ∀ answer, KeepsFrames adds frames (next answer)) : KeepsFrames adds frames (.ask op next)

/-- All units keep to that. -/
def Environment.KeepsFrames (env : Environment σ) (adds : Prop) : Prop :=
  ∀ frame msg, (env.collaborators.continueFlow frame msg).KeepsFrames adds msg.frames

/-- What is known about a resumption: the message at the first host, what happens to the frames, the
answer, and the host then. -/
abbrev ResumeRun (σ : Type) :=
  Message → Host σ → List Happening → Message × Outcome Bool → Host σ → Prop

/-- The resumptions in which such units run. -/
def UnitRun.resumeRun (unit : UnitRun σ) (rounds : Nat) : ResumeRun σ :=
  fun msg host history result later =>
    ∃ stages, Unwound unit rounds msg host stages history result later

/-- The run of a program that keeps frames, and what happens to the frames meanwhile. What is known
about the resumptions that it asks for is a parameter. -/
inductive Program.Conducts (callbacks : Callbacks σ) (rel : Host σ → Host σ → Prop)
    (resumes : ResumeRun σ) (adds : Prop) : Suspensions → Program σ (Message × Outcome Verdict) →
      Host σ → List Happening → Message × Outcome Verdict → Host σ → Prop
  | done (back : Message) (outcome : Outcome Verdict) (host : Host σ) :
      Conducts callbacks rel resumes adds back.frames (.done (back, outcome)) host []
        (back, outcome) host
  | «recall» {frames : Suspensions} {next : σ → Program σ (Message × Outcome Verdict)}
      {host later : Host σ} {history : List Happening} {result : Message × Outcome Verdict}
      (h : Conducts callbacks rel resumes adds frames (next host.memory) host history result
        later) :
      Conducts callbacks rel resumes adds frames (.recall next) host history result later
  | remember {frames : Suspensions} {memory : σ} {next : Program σ (Message × Outcome Verdict)}
      {host later : Host σ} {history : List Happening} {result : Message × Outcome Verdict}
      (h : Conducts callbacks rel resumes adds frames next { host with memory } history result
        later) :
      Conducts callbacks rel resumes adds frames (.remember memory next) host history result later
  | suspend {frames : Suspensions} {p : Program σ (Message × Outcome Verdict)}
      {host later : Host σ} {history : List Happening} {result : Message × Outcome Verdict}
      (hadds : adds) (frame : Frame)
      (h : Conducts callbacks rel resumes adds (frames.push frame) p host history result later) :
      Conducts callbacks rel resumes adds frames p host (.suspended frame :: history) result later
  | resume (msg : Message) {back : Message} {outcome : Outcome Bool}
      {next : Message × Outcome Bool → Program σ (Message × Outcome Verdict)}
      {host begun ended mid later : Host σ} {history history' : List Happening}
      {result : Message × Outcome Verdict} (hbegun : host.Reports begun)
      (hresumes : resumes msg begun history (back, outcome) ended) (hended : ended.Reports mid)
      (h : Conducts callbacks rel resumes adds back.frames (next (back, outcome)) mid history'
        result later) :
      Conducts callbacks rel resumes adds msg.frames (.ask (.resume msg) next) host
        (history ++ history') result later
  | ask {frames : Suspensions} {op : Operation} {answer : op.Answer}
      {next : op.Answer → Program σ (Message × Outcome Verdict)} {host mid later : Host σ}
      {history : List Happening} {result : Message × Outcome Verdict}
      (hserve : (serve callbacks op host).CanEnd rel answer mid)
      (h : Conducts callbacks rel resumes adds frames (next answer) mid history result later) :
      Conducts callbacks rel resumes adds frames (.ask op next) host history result later

/-- The run of a unit at a level of nesting: it is a call to the unit, and this happens to the
frames meanwhile. Beyond the bound on nesting no unit runs. -/
def Environment.Unfolds (env : Environment σ) (rel : Host σ → Host σ → Prop) (adds : Prop) :
    Nat → UnitRun σ
  | 0 => fun frame msg host history result later =>
    ((env.callbacks 0).continueFlow frame msg host).CanEnd rel result later ∧ history = [.cutOff]
  | level + 1 => fun frame msg host history result later =>
    ((env.callbacks (level + 1)).continueFlow frame msg host).CanEnd rel result later ∧
      ∃ begun ended, host.Reports begun ∧ ended.Reports later ∧
        (env.collaborators.continueFlow frame msg).Conducts (env.callbacks level) rel
          (UnitRun.resumeRun (env.Unfolds rel adds level) env.rounds) adds msg.frames begun history
          result ended

/-! ## Each run has a history -/

namespace Environment

variable {α : Type} {rel : Host σ → Host σ → Prop} {host later : Host σ} {adds : Prop}

/-- Around work that is noted the engine only reports. -/
theorem canEnd_noted {before after : Moment → Entry} {work : Run σ α} {a : α}
    (h : (noted before after work host).CanEnd rel a later) :
    ∃ begun ended, host.Reports begun ∧ (work begun).CanEnd rel a ended ∧ ended.Reports later := by
  unfold noted at h
  rw [Run.update_bind] at h
  obtain ⟨given, ended, hwork, heq, rfl⟩ := Progress.canEnd_bind.mp h
  cases heq
  exact ⟨_, ended, .mk, hwork, .mk⟩

end Environment

section Histories

variable {callbacks : Callbacks σ} {rel : Host σ → Host σ → Prop} {adds : Prop}
  {resumes : ResumeRun σ} {env : Environment σ}

/-- The induction is on how the program keeps the frames, which tells its resumptions from what else
it asks for. -/
theorem Program.KeepsFrames.conducts
    (hresumes : ∀ msg host result later,
      (Correlator.resume callbacks msg host).CanEnd rel result later →
      ∃ history, resumes msg host history result later)
    {frames : Suspensions} {p : Program σ (Message × Outcome Verdict)}
    (hp : p.KeepsFrames adds frames) {host later : Host σ} {result : Message × Outcome Verdict}
    (h : (p.run (serve callbacks) host).CanEnd rel result later) :
    ∃ history, p.Conducts callbacks rel resumes adds frames host history result later := by
  induction hp generalizing host with
  | done back outcome =>
    obtain ⟨rfl, rfl⟩ := h
    exact ⟨[], .done back outcome _⟩
  | «recall» _ ih =>
    obtain ⟨history, hconducts⟩ := ih host.memory h
    exact ⟨history, .recall hconducts⟩
  | @remember _ memory _ _ ih =>
    obtain ⟨history, hconducts⟩ := @ih { host with memory } h
    exact ⟨history, .remember hconducts⟩
  | suspend hadds frame _ ih =>
    obtain ⟨history, hconducts⟩ := ih h
    exact ⟨_, .suspend hadds frame hconducts⟩
  | resume msg _ ih =>
    obtain ⟨⟨back, outcome⟩, mid, hserve, hrest⟩ := Progress.canEnd_bind.mp h
    obtain ⟨begun, ended, hbegun, hresume, hended⟩ := Environment.canEnd_noted hserve
    obtain ⟨history, hhistory⟩ := hresumes _ _ _ _ hresume
    obtain ⟨history', hconducts⟩ := ih back outcome hrest
    exact ⟨_, .resume msg hbegun hhistory hended hconducts⟩
  | ask op _ ih =>
    obtain ⟨answer, mid, hserve, hrest⟩ := Progress.canEnd_bind.mp h
    obtain ⟨history, hconducts⟩ := ih answer hrest
    exact ⟨history, .ask hserve hconducts⟩

/-- The units of a resumption have histories if units do. -/
theorem Environment.unwound_of_unfolds {level : Nat}
    (hunfolds : ∀ frame msg host result later,
      ((env.callbacks level).continueFlow frame msg host).CanEnd rel result later →
      ∃ history, env.Unfolds rel adds level frame msg host history result later)
    {msg : Message} {host later : Host σ} {result : Message × Outcome Bool}
    (h : (resume (env.callbacks level) msg host).CanEnd rel result later) :
    ∃ stages history,
      Unwound (env.Unfolds rel adds level) env.rounds msg host stages history result later := by
  unfold resume at h
  rw [env.callbacks_rounds] at h
  exact resumeWithin_unwound hunfolds h

/-- The induction is on the level: what a unit asks for is served one level below. -/
theorem Environment.unfolds (hkeeps : env.KeepsFrames adds) {level : Nat} {frame : Frame}
    {msg : Message} {host later : Host σ} {result : Message × Outcome Verdict}
    (h : ((env.callbacks level).continueFlow frame msg host).CanEnd rel result later) :
    ∃ history, env.Unfolds rel adds level frame msg host history result later := by
  induction level generalizing frame msg host result later with
  | zero => exact ⟨[.cutOff], h, rfl⟩
  | succ level ih =>
    have hresumes : ∀ (msg : Message) (host : Host σ) (result : Message × Outcome Bool)
        (later : Host σ), (resume (env.callbacks level) msg host).CanEnd rel result later →
        ∃ history, UnitRun.resumeRun (env.Unfolds rel adds level) env.rounds msg host history
          result later := by
      intro msg host result later hresume
      obtain ⟨stages, history, hunwound⟩ := unwound_of_unfolds (fun _ _ _ _ _ => ih) hresume
      exact ⟨history, stages, hunwound⟩
    obtain ⟨begun, ended, hbegun, hrun, hended⟩ := canEnd_noted h
    obtain ⟨history, hconducts⟩ := (hkeeps frame msg).conducts hresumes hrun
    exact ⟨history, h, begun, ended, hbegun, hended, hconducts⟩

end Histories

/-! ## What may happen to frames -/

/-- The histories that lead from the first stack to the second: a unit is given the frame on top,
with the message whose frames are those below it. Frames are suspended only if `adds` permits it. -/
inductive Undergo (adds : Prop) : Suspensions → List Happening → Suspensions → Prop
  | nothing (frames : Suspensions) : Undergo adds frames [] frames
  | suspended {frames left : Suspensions} {history : List Happening} (hadds : adds) (frame : Frame)
      (h : Undergo adds (frames.push frame) history left) :
      Undergo adds frames (.suspended frame :: history) left
  | continued {left : Suspensions} {history : List Happening} (frame : Frame) (msg : Message)
      (h : Undergo adds msg.frames history left) :
      Undergo adds (msg.frames.push frame) (.continued frame msg :: history) left
  | cutOff {frames left : Suspensions} {history : List Happening}
      (h : Undergo adds frames history left) : Undergo adds frames (.cutOff :: history) left

/-- What a happening changes about the stack. -/
def Happening.move? : Happening → Option (Stack.Move Frame)
  | .suspended frame => some (.push frame)
  | .continued frame _ => some (.pop frame)
  | .cutOff => none

/-- The changes to the stack. -/
def Happening.moves (history : List Happening) : List (Stack.Move Frame) :=
  history.filterMap Happening.move?

namespace Undergo

variable {adds : Prop} {frames mid left : Suspensions} {history history' : List Happening}

theorem append (h : Undergo adds frames history mid) (h' : Undergo adds mid history' left) :
    Undergo adds frames (history ++ history') left := by
  induction h with
  | nothing => exact h'
  | suspended hadds frame _ ih => exact .suspended hadds frame (ih h')
  | continued frame msg _ ih => exact .continued frame msg (ih h')
  | cutOff _ ih => exact .cutOff (ih h')

theorem goes (h : Undergo adds frames history left) :
    Goes frames (Happening.moves history) left := by
  induction h with
  | nothing frames => exact .stay frames
  | suspended _ _ _ ih => exact .push ih
  | continued _ _ _ ih => exact .pop ih
  | cutOff _ ih => exact ih

theorem pushed_eq_nil (hadds : ¬ adds) (h : Undergo adds frames history left) :
    Stack.pushed (Happening.moves history) = [] := by
  induction h with
  | nothing => rfl
  | suspended h => exact absurd h hadds
  | continued _ _ _ ih => exact ih
  | cutOff _ ih => exact ih

/-- Without further suspensions the frames are gone on with from the top downwards. -/
theorem continued_append (hadds : ¬ adds) (h : Undergo adds frames history left) :
    Stack.popped (Happening.moves history) ++ left.items = frames.items :=
  h.goes.of_pushed_eq_nil (h.pushed_eq_nil hadds)

theorem size_le (hadds : ¬ adds) (h : Undergo adds frames history left) :
    left.size ≤ frames.size := by
  have hitems := congrArg List.length (h.continued_append hadds)
  rw [List.length_append] at hitems
  exact Nat.le.intro ((Nat.add_comm _ _).trans hitems)

end Undergo

/-! ## From units to resumptions and back -/

/-- What happens to the frames leads from those that the unit is given to those that it leaves.
This passes from units to the resumptions in which they run, and from these to the units that ask
for them. -/
def UnitRun.Undergoes (unit : UnitRun σ) (adds : Prop) : Prop :=
  ∀ ⦃frame msg host history result later⦄, unit frame msg host history result later →
    Undergo adds msg.frames history result.1.frames

/-- A unit that is given fewer frames than that meets no bound. -/
def UnitRun.IsUncut (unit : UnitRun σ) (most : Nat) : Prop :=
  ∀ ⦃frame msg host history result later⦄, unit frame msg host history result later →
    msg.frames.size < most → .cutOff ∉ history

/-- What happens to the frames leads from those that there are to those that are left. -/
def ResumeRun.Undergoes (resumes : ResumeRun σ) (adds : Prop) : Prop :=
  ∀ ⦃msg host history result later⦄, resumes msg host history result later →
    Undergo adds msg.frames history result.1.frames

/-- No bound is met if there are no more frames than that. -/
def ResumeRun.IsUncut (resumes : ResumeRun σ) (most : Nat) : Prop :=
  ∀ ⦃msg host history result later⦄, resumes msg host history result later →
    msg.frames.size ≤ most → .cutOff ∉ history

namespace Unwound

variable {unit : UnitRun σ} {rounds : Nat} {adds : Prop} {msg : Message} {host later : Host σ}
  {stages : List Stage} {history : List Happening} {result : Message × Outcome Bool}

theorem undergo (hunit : unit.Undergoes adds)
    (h : Unwound unit rounds msg host stages history result later) :
    Undergo adds msg.frames history result.1.frames := by
  -- A unit is given the message with what was below its frame.
  have htake {msg : Message} {frame : Frame} {below : List Frame}
      (hitems : msg.frames.items = frame :: below) : msg.frames = Stack.push ⟨below⟩ frame :=
    congrArg Stack.mk hitems
  induction h with
  | drained => exact .nothing _
  | cutOff => exact .cutOff (.nothing _)
  | stopped hitems hrun _ =>
    rw [htake hitems]
    exact .continued _ _ (hunit hrun)
  | proceeded hitems hrun _ ih =>
    rw [htake hitems]
    exact .continued _ _ ((hunit hrun).append ih)

/-- Each round takes one frame off, and units do not put any on. So as many rounds as there are
frames are enough, and the bound that a unit has to keep below is one less than that of the
resumption. -/
theorem cutOff_not_mem {most : Nat} (hadds : ¬ adds) (hunit : unit.Undergoes adds)
    (huncut : unit.IsUncut most) (h : Unwound unit rounds msg host stages history result later)
    (hmost : msg.frames.size ≤ most) (hrounds : msg.frames.size ≤ rounds) : .cutOff ∉ history := by
  have hsize {msg : Message} {frame : Frame} {below : List Frame}
      (hitems : msg.frames.items = frame :: below) : msg.frames.size = below.length + 1 :=
    congrArg List.length hitems
  induction h with
  | drained => exact List.not_mem_nil
  | cutOff hitems =>
    exact absurd (List.length_eq_zero_iff.mp (Nat.le_zero.mp hrounds)) hitems
  | stopped hitems hrun _ =>
    rw [hsize hitems] at hmost
    have hnone := huncut hrun hmost
    simpa using hnone
  | @proceeded _ _ back _ below _ _ _ _ _ _ _ hitems hrun _ ih =>
    rw [hsize hitems] at hmost hrounds
    have hnone := huncut hrun hmost
    have hback : back.frames.size ≤ below.length := (hunit hrun).size_le hadds
    have hlater := ih (by omega) (by omega)
    simp [hnone, hlater]

/-- The units that the loop runs itself are among those that are run. -/
theorem stages_sublist (h : Unwound unit rounds msg host stages history result later) :
    (stages.map fun stage => Happening.continued stage.frame stage.msg).Sublist history := by
  induction h with
  | drained => exact .slnil
  | cutOff => exact List.nil_sublist _
  | stopped => exact List.Sublist.cons_cons _ (List.nil_sublist _)
  | proceeded _ _ _ ih =>
    exact List.Sublist.cons_cons _ (ih.trans (List.sublist_append_right _ _))

end Unwound

namespace UnitRun

variable {unit : UnitRun σ} {rounds most : Nat} {adds : Prop}

theorem Undergoes.resumeRun (h : unit.Undergoes adds) :
    (unit.resumeRun rounds).Undergoes adds := by
  rintro msg host history result later ⟨stages, hunwound⟩
  exact hunwound.undergo h

theorem IsUncut.resumeRun (h : unit.IsUncut most) (hadds : ¬ adds) (hunit : unit.Undergoes adds) :
    (unit.resumeRun rounds).IsUncut (min most rounds) := by
  rintro msg host history result later ⟨stages, hunwound⟩ hmany
  exact hunwound.cutOff_not_mem hadds hunit h (by omega) (by omega)

end UnitRun

namespace Program.Conducts

variable {callbacks : Callbacks σ} {rel : Host σ → Host σ → Prop} {resumes : ResumeRun σ}
  {adds : Prop} {frames : Suspensions} {p : Program σ (Message × Outcome Verdict)}
  {host later : Host σ} {history : List Happening} {result : Message × Outcome Verdict}

theorem undergo (hresumes : resumes.Undergoes adds)
    (h : p.Conducts callbacks rel resumes adds frames host history result later) :
    Undergo adds frames history result.1.frames := by
  induction h with
  | done => exact .nothing _
  | «recall» _ ih => exact ih
  | remember _ ih => exact ih
  | suspend hadds frame _ ih => exact .suspended hadds frame ih
  | resume msg _ hresume _ _ ih => exact (hresumes hresume).append ih
  | ask _ _ ih => exact ih

/-- A unit resumes its message with no more frames than it has been given. -/
theorem cutOff_not_mem {most : Nat} (hadds : ¬ adds) (hresumes : resumes.Undergoes adds)
    (huncut : resumes.IsUncut most)
    (h : p.Conducts callbacks rel resumes adds frames host history result later)
    (hmost : frames.size ≤ most) : .cutOff ∉ history := by
  induction h with
  | done => exact List.not_mem_nil
  | «recall» _ ih => exact ih hmost
  | remember _ ih => exact ih hmost
  | suspend h => exact absurd h hadds
  | resume msg _ hresume _ _ ih =>
    have hnone := huncut hresume hmost
    have hlater := ih (((hresumes hresume).size_le hadds).trans hmost)
    simp [hnone, hlater]
  | ask _ _ ih => exact ih hmost

end Program.Conducts

namespace Environment

variable {env : Environment σ} {rel : Host σ → Host σ → Prop} {adds : Prop} {level : Nat}

theorem Unfolds.canEnd {frame : Frame} {msg : Message} {host later : Host σ}
    {history : List Happening} {result : Message × Outcome Verdict}
    (h : env.Unfolds rel adds level frame msg host history result later) :
    ((env.callbacks level).continueFlow frame msg host).CanEnd rel result later := by
  cases level with
  | zero => exact h.1
  | succ level => exact h.1

/-- The induction is on the level, where the recursion of the histories is. -/
theorem unfolds_undergoes : (env.Unfolds rel adds level).Undergoes adds := by
  induction level with
  | zero =>
    rintro frame msg host history result later ⟨hcall, rfl⟩
    obtain ⟨begun, ended, -, hpanic, -⟩ := canEnd_noted hcall
    obtain ⟨rfl, -⟩ := hpanic
    exact .cutOff (.nothing _)
  | succ level ih =>
    rintro frame msg host history result later ⟨-, begun, ended, -, -, hconducts⟩
    exact hconducts.undergo ih.resumeRun

/-- A unit has one frame less than the resumption that runs it, so the nesting is no deeper than
the stack is high. Both bounds are followed at once, since a nested resumption has rounds of its
own. -/
theorem unfolds_isUncut (hadds : ¬ adds) :
    (env.Unfolds rel adds level).IsUncut (min level (env.rounds + 1)) := by
  induction level with
  | zero =>
    intro frame msg host history result later _ hmost
    omega
  | succ level ih =>
    rintro frame msg host history result later ⟨-, begun, ended, -, -, hconducts⟩ hmost
    exact hconducts.cutOff_not_mem hadds unfolds_undergoes.resumeRun
      (ih.resumeRun hadds unfolds_undergoes) (by omega)

end Environment

/-! ## Resuming -/

/-- What holds of a resumption: the units that it has run itself, what has happened to the frames
meanwhile, the message that it leaves and what it answers. The history is of all levels of nesting,
and the stages are of this one. -/
structure Unwinds (rounds : Nat) (adds : Prop) (msg : Message) (stages : List Stage)
    (history : List Happening) (left : Message) (outcome : Outcome Bool) : Prop where
  /-- Each unit is given the frame that is on top, and the frame is off the stack by then. -/
  undergoes : Undergo adds msg.frames history left.frames
  own : (stages.map fun stage => Happening.continued stage.frame stage.msg).Sublist history
  conserved : (msg.frames.items : Multiset Frame) + Stack.pushed (Happening.moves history) =
    Stack.popped (Happening.moves history) + left.frames.items
  /-- Below its lowest point the stack has not changed. -/
  untouched : left.frames.toList.take (Stack.lowest msg.frames.size (Happening.moves history)) =
    msg.frames.toList.take (Stack.lowest msg.frames.size (Happening.moves history))
  answers : Answers rounds stages left outcome
  /-- Where no bound is met, only a unit panics. -/
  panicked : .cutOff ∉ history → ∀ p, outcome = .panicked p ↔
    stages.getLast?.map Stage.outcome = some (.panicked p)
  /-- Unless frames are added, they are gone on with from the top downwards. -/
  inOrder : ¬ adds → Stack.popped (Happening.moves history) ++ left.frames.items = msg.frames.items

/-- Resuming is a stack machine, whatever the units do as long as they keep the frames. It comes to
an end if the others go on while units wait. If no frames are added, neither of the bounds is met
unless the message has more frames than it allows. -/
theorem Environment.resume_unwinds {env : Environment σ} {adds : Prop}
    (hkeeps : env.KeepsFrames adds) (level : Nat) (rel : Host σ → Host σ → Prop) (msg : Message)
    (host : Host σ) :
    (resume (env.callbacks level) msg host).Achieves rel fun result later =>
      ∃ stages history,
        Unwound (env.Unfolds rel adds level) env.rounds msg host stages history result later ∧
        (env.callbacks level).Makes rel host (stages.map Stage.called) later ∧
        Unwinds env.rounds adds msg stages history result.1 result.2 ∧
        (¬ adds → msg.frames.size ≤ level → msg.frames.size ≤ env.rounds → .cutOff ∉ history) := by
  refine Progress.achieves fun result later hend => ?_
  obtain ⟨left, outcome⟩ := result
  obtain ⟨stages, history, hunwound⟩ := unwound_of_unfolds (fun _ _ _ _ _ => unfolds hkeeps) hend
  have hundergo : Undergo adds msg.frames history left.frames :=
    hunwound.undergo unfolds_undergoes
  have hmakes := hunwound.makes fun _ _ _ _ _ _ hunit => hunit.canEnd
  refine ⟨stages, history, hunwound, hmakes, ?_, ?_⟩
  · constructor
    case undergoes => exact hundergo
    case own => exact hunwound.stages_sublist
    case conserved => exact hundergo.goes.conserves
    case untouched => exact hundergo.goes.take_lowest
    case answers => exact hunwound.answers
    case panicked =>
      refine fun huncut p => (hunwound.answers.panicked p).trans (or_iff_left ?_)
      -- The loop panics by itself only where it is cut off.
      exact fun hbound => huncut (hunwound.cutOff_mem hbound.2.2.2 hbound.2.2.1)
    case inOrder => exact fun hadds => hundergo.continued_append hadds
  · intro hadds hlevel hrounds
    exact hunwound.cutOff_not_mem hadds unfolds_undergoes (unfolds_isUncut hadds) (by omega) hrounds

/-! ## Frames that outlive a nested resumption -/

/-- The inbound side of a proxy suspends two units and resumes the message at once. The outbound
side leaves the rest for later. -/
def Environment.proxied : Environment Unit where
  collaborators :=
    { Collaborators.idle with
      continueFlow := fun frame msg =>
        match frame.sequence with
        | .proxyIn proxy =>
          let frames := msg.frames.push ⟨.named proxy, .topLevel 0⟩
          .ask (.resume { msg with frames := frames.push ⟨.proxyOut proxy, .topLevel 0⟩ })
            fun answer => .done (answer.1, .returned .proceed)
        | .proxyOut _ => .done (msg, .returned .halt)
        | _ => .done (msg, .returned .proceed) }
  rounds := 3

theorem Environment.proxied_keepsFrames : Environment.proxied.KeepsFrames True := by
  intro frame msg
  obtain ⟨sequence, position⟩ := frame
  cases sequence with
  | proxyIn proxy =>
    refine .suspend trivial ⟨.named proxy, .topLevel 0⟩ ?_
    refine .suspend trivial ⟨.proxyOut proxy, .topLevel 0⟩ ?_
    exact .resume { msg with frames := _ } fun back _ => .done back (.returned .proceed)
  | named => exact .done _ _
  | proxyOut => exact .done _ _
  | resource => exact .done _ _

def Message.proxied : Message :=
  { Message.plain "m" with
    frames := ⟨[⟨.proxyIn "proxy", .topLevel 0⟩, ⟨.named "main", .topLevel 1⟩]⟩ }

/-- The proxy has left one frame, and the message ends without frames. -/
theorem Environment.resume_unwinds_proxied :
    ∃ stages history left later,
      Unwound (Environment.proxied.Unfolds Eq True 2) 3 Message.proxied ⟨.init {} {}, ()⟩ stages
        history (left, .returned true) later ∧
      Unwinds 3 True Message.proxied stages history left (.returned true) ∧
      left.frames.items = [] := by
  have hend : ∃ left later, (resume (Environment.proxied.callbacks 2) .proxied
      ⟨.init {} {}, ()⟩).CanEnd Eq (left, .returned true) later ∧ left.frames.items = [] :=
    ⟨_, _, ⟨rfl, rfl⟩, rfl⟩
  obtain ⟨left, later, hend, hempty⟩ := hend
  have hachieves := Environment.resume_unwinds Environment.proxied_keepsFrames 2 Eq .proxied
    ⟨.init {} {}, ()⟩
  obtain ⟨stages, history, hunwound, -, hunwinds, -⟩ := hachieves.holds _ later hend
  exact ⟨stages, history, left, later, hunwound, hunwinds, hempty⟩

end Correlator
