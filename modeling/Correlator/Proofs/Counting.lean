import Correlator.Proofs.Balance
import Correlator.Proofs.Dealings

/-!
# Counters agree with what happened

An engine counts at different places: the registry when calls come and go, the metrics some of it
before and some of it after a collaborator has been called.  While a response is dealt with or a
fault handler runs the counts are apart, by as much as is in hand.  So the agreement that every deed
keeps speaks of the responses and the handlers in hand (`Figures.Agree`), and where nobody waits
there are none.

Counters are 64-bit words that wrap, so the agreement is one of words.

## Main definitions

* `State.figures` : everything that is counted, and what it is counted against.
* `State.IsCountedRight` : what the counters say, where nothing is in progress.

## Main results

* `State.Deed.agree` : every deed keeps the agreement.
* `Environment.Reaches.counted_right` : the counters are right wherever nobody waits.
-/

namespace Correlator

variable {σ : Type} {allowed : Operation → Prop}

/-! ## Figures -/

/-- A dispatch whose message could not be sent has claimed a call back. -/
def Entry.isCleanUp : Entry → Bool
  | .claimed (.failedSend _) _ => true
  | _ => false

/-- A fault handler is called. -/
def Entry.isHandlerCall : Entry → Bool
  | .entered _ (.compensate ..) _ => true
  | _ => false

/-- How many failed dispatches have claimed a call back. -/
def Journal.cleanUps (j : Journal) : Nat := j.countP (·.isCleanUp)

/-- How often a fault handler has been called. -/
def Journal.handlerCalls (j : Journal) : Nat := j.countP (·.isHandlerCall)

/-- The responses that have found their calls. -/
def ResponseCounters.matched (r : ResponseCounters) : UInt64 :=
  r.acknowledged + r.resumed + r.started + r.sendFailed + r.mediationFailed

/-- The faults for which a handler has been run, whether it failed or not. -/
def FaultCounters.run (c : FaultCounters) : UInt64 := c.handled + c.handlerFailed

/-- What is counted, and what it is counted against. Only this part of a state matters for the
agreement, so every deed that leaves it alone is dealt with at once. -/
structure Figures where
  calls : List Call
  stats : Tally
  registered : UInt64
  timeouts : UInt64
  /-- Faults for which a handler has been run. -/
  run : UInt64
  responses : ResponseCounters
  /-- The gauge of pending calls. -/
  pending : Int
  cleanUps : Nat
  handlerCalls : Nat

def State.figures (s : State) : Figures where
  calls := s.registry.calls
  stats := s.registry.stats
  registered := s.metrics.callsRegistered
  timeouts := s.metrics.timeouts
  run := s.metrics.faultCounts.run
  responses := s.metrics.responses
  pending := s.metrics.pendingCalls.getD 0
  cleanUps := s.journal.cleanUps
  handlerCalls := s.journal.handlerCalls

/-- The figures agree while some responses and some fault handlers are in progress: each of them
has been counted in one place and not yet in the other. -/
structure Figures.Agree (f : Figures) (responses handlers : Nat) : Prop where
  unique : (f.calls.map (·.id)).Nodup
  /-- A call that has been registered is pending, or it has been claimed by a response, by a sweep
  or by the dispatch whose message could not be sent. -/
  stats : f.stats.registered =
    .ofNat f.calls.length + f.stats.collected + f.stats.expired + .ofNat f.cleanUps
  registered : f.registered = f.stats.registered
  timeouts : f.timeouts = f.stats.expired
  unmatched : f.responses.unmatched = f.stats.unmatched
  collected : f.responses.matched + .ofNat responses = f.stats.collected
  pending : f.pending = f.calls.length
  handlers : f.run + .ofNat handlers = .ofNat f.handlerCalls

/-- The response is dealt with. -/
def Undertaking.isResponse : Undertaking → Bool
  | .claimed .response _ => true
  | _ => false

/-- A fault handler has been called. -/
def Undertaking.isHandler : Undertaking → Bool
  | .handler => true
  | _ => false

/-- The figures of the state agree in view of what is in hand. -/
def State.Agree (d : Undertakings) (s : State) : Prop :=
  s.figures.Agree (d.number (·.isResponse)) (d.number (·.isHandler))

/-! ## What changes the figures -/

namespace State

variable {s s' : State}

theorem figures_release (s : State) : s.release.figures = s.figures := by
  unfold release
  split <;> rfl

theorem figures_acquire (s : State) : s.acquire.2.figures = s.figures := by
  unfold acquire
  dsimp only
  split <;> rfl

theorem Neutral.figures (h : s.Neutral s') : s'.figures = s.figures := by
  cases h with
  | mk newer h =>
    have hcleanUps : newer.countP (·.isCleanUp) = 0 := by
      refine List.countP_eq_zero.mpr fun e he => ?_
      have hneutral := h e he
      cases e with
      | claimed => cases hneutral
      | _ => exact Bool.false_ne_true
    have hcalls : newer.countP (·.isHandlerCall) = 0 := by
      refine List.countP_eq_zero.mpr fun e he => ?_
      have hneutral := h e he
      cases e with
      | entered level callback m =>
        cases callback with
        | compensate => cases hneutral
        | _ => exact Bool.false_ne_true
      | _ => exact Bool.false_ne_true
    simp only [State.figures, Journal.cleanUps, Journal.handlerCalls, List.countP_append, hcleanUps,
      hcalls, Nat.zero_add]

theorem Life.figures (h : Life allowed s s') : s'.figures = s.figures := by
  cases h with
  | start => unfold State.start; split <;> rfl
  | beginStop => unfold State.beginStop; split <;> rfl
  | submit number t => unfold State.submit; split <;> rfl
  | _ => rfl

/-- A claim takes the call out of the registry. -/
theorem figures_claim {claimer : Claimer} {id : CallId} {call : Call}
    (h : s.claim claimer id = (some call, s')) :
    s'.figures =
      { s.figures with
        calls := s'.registry.calls
        pending := s.figures.pending - 1
        cleanUps := s.figures.cleanUps + (Entry.claimed claimer call).isCleanUp.toNat } := by
  unfold claim Registry.claim? at h
  cases hfind : s.registry.find? id with
  | none => simp [hfind] at h
  | some waiting =>
    cases hcompletion : waiting.completion with
    | marked => simp [hfind, Call.mark, hcompletion] at h
    | pending =>
      simp only [hfind, Call.mark, hcompletion, Prod.mk.injEq, Option.some.injEq] at h
      obtain ⟨rfl, rfl⟩ := h
      have hcleanUps (claimer : Claimer) (call : Call) :
          Journal.cleanUps (.claimed claimer call :: s.journal) =
            s.journal.cleanUps + (Entry.claimed claimer call).isCleanUp.toNat := by
        rw [Journal.cleanUps, List.countP_cons]
        cases (Entry.claimed claimer call).isCleanUp <;> rfl
      have hhandlers (claimer : Claimer) (call : Call) :
          Journal.handlerCalls (.claimed claimer call :: s.journal) = s.journal.handlerCalls :=
        List.countP_cons_of_neg Bool.false_ne_true
      simp only [State.figures, taken, hcleanUps, hhandlers]
      rfl

theorem figures_register {call : Call} {receipt : Receipt}
    (h : s.register call = (.ok receipt, s')) :
    s'.figures =
      { s.figures with
        calls := s.figures.calls ++ [call]
        stats := { s.figures.stats with registered := s.figures.stats.registered + 1 }
        pending := s.figures.pending + 1 } := by
  unfold register Registry.register? at h
  cases hcontains : s.registry.contains call.id with
  | true => simp [hcontains] at h
  | false =>
    simp only [hcontains, Bool.false_eq_true, if_false, Prod.mk.injEq] at h
    obtain ⟨-, rfl⟩ := h
    have hcleanUps : Journal.cleanUps (.registered call :: s.journal) = s.journal.cleanUps :=
      List.countP_cons_of_neg Bool.false_ne_true
    have hhandlers :
        Journal.handlerCalls (.registered call :: s.journal) = s.journal.handlerCalls :=
      List.countP_cons_of_neg Bool.false_ne_true
    simp only [State.figures, hcleanUps, hhandlers]
    rfl

theorem figures_enroll {call : Call} {receipt : Receipt}
    (h : s.enroll call = (.ok receipt, s')) :
    s'.figures =
      { s.figures with
        calls := s.figures.calls ++ [call]
        stats := { s.figures.stats with registered := s.figures.stats.registered + 1 }
        registered := s.figures.registered + 1
        pending := s.figures.pending + 1 } := by
  unfold enroll at h
  dsimp only at h
  split at h
  · cases h
  · rename_i receipt' registered hregister
    simp only [Prod.mk.injEq] at h
    obtain ⟨-, rfl⟩ := h
    have hregistered := figures_register hregister
    rw [figures_acquire] at hregistered
    have hcounted (t : State) :
        State.figures { t with
          metrics := { t.metrics with callsRegistered := t.metrics.callsRegistered + 1 } } =
        { t.figures with registered := t.figures.registered + 1 } := rfl
    rw [hcounted, hregistered]

end State

/-! ## What keeps the agreement -/

namespace Figures.Agree

variable {f : Figures} {responses handlers : Nat} {calls : List Call}

theorem enroll (h : f.Agree responses handlers) {call : Call}
    (hunique : ((f.calls ++ [call]).map (·.id)).Nodup) :
    Figures.Agree
      { f with
        calls := f.calls ++ [call]
        stats := { f.stats with registered := f.stats.registered + 1 }
        registered := f.registered + 1
        pending := f.pending + 1 } responses handlers := by
  refine { h with unique := hunique, stats := ?_, registered := ?_, pending := ?_ }
  · have hstats := h.stats
    rw [List.length_append, List.length_singleton, UInt64.ofNat_add]
    grind
  · rw [h.registered]
  · rw [h.pending, List.length_append]
    rfl

section Taking

variable (hcalls : calls.Sublist f.calls) (hsize : calls.length + 1 = f.calls.length)

include hcalls hsize

/-- A call is taken out and counted as claimed back. -/
theorem cleanUp (h : f.Agree responses handlers) :
    Figures.Agree { f with calls, pending := f.pending - 1, cleanUps := f.cleanUps + 1 }
      responses handlers := by
  refine { h with unique := h.unique.sublist (hcalls.map _), stats := ?_, pending := ?_ }
  · have hstats := h.stats
    rw [← hsize, UInt64.ofNat_add] at hstats
    rw [UInt64.ofNat_add]
    grind
  · have hpending := h.pending
    grind

/-- A call is taken out for a response. -/
theorem collect (h : f.Agree responses handlers) :
    Figures.Agree
      { f with
        calls
        pending := f.pending - 1
        stats := { f.stats with collected := f.stats.collected + 1 } }
      (responses + 1) handlers := by
  refine
    { h with
      unique := h.unique.sublist (hcalls.map _), stats := ?_, collected := ?_, pending := ?_ }
  · have hstats := h.stats
    rw [← hsize, UInt64.ofNat_add] at hstats
    grind
  · have hcollected := h.collected
    rw [UInt64.ofNat_add]
    grind
  · have hpending := h.pending
    grind

/-- A call is taken out by a sweep. -/
theorem expire (h : f.Agree responses handlers) :
    Figures.Agree
      { f with
        calls
        pending := f.pending - 1
        stats := { f.stats with expired := f.stats.expired + 1 }
        timeouts := f.timeouts + 1 } responses handlers := by
  refine
    { h with
      unique := h.unique.sublist (hcalls.map _), stats := ?_, timeouts := ?_, pending := ?_ }
  · have hstats := h.stats
    rw [← hsize, UInt64.ofNat_add] at hstats
    grind
  · rw [h.timeouts]
  · have hpending := h.pending
    grind

end Taking

/-- A response finds no call. -/
theorem unmatch (h : f.Agree responses handlers) :
    Figures.Agree
      { f with
        stats := { f.stats with unmatched := f.stats.unmatched + 1 }
        responses := { f.responses with unmatched := f.responses.unmatched + 1 } }
      responses handlers :=
  { h with unmatched := congrArg (· + 1) h.unmatched }

/-- A response has been dealt with. -/
theorem respond (h : f.Agree (responses + 1) handlers) {r : ResponseCounters}
    (hmatched : r.matched = f.responses.matched + 1)
    (hunmatched : r.unmatched = f.responses.unmatched) :
    Figures.Agree { f with responses := r } responses handlers := by
  refine { h with unmatched := hunmatched.trans h.unmatched, collected := ?_ }
  have hcollected := h.collected
  rw [UInt64.ofNat_add] at hcollected
  grind

/-- A fault handler is called. -/
theorem call (h : f.Agree responses handlers) :
    Figures.Agree { f with handlerCalls := f.handlerCalls + 1 } responses (handlers + 1) := by
  refine { h with handlers := ?_ }
  have hhandlers := h.handlers
  rw [UInt64.ofNat_add, UInt64.ofNat_add]
  grind

/-- A fault handler has come back. -/
theorem ran (h : f.Agree responses (handlers + 1)) :
    Figures.Agree { f with run := f.run + 1 } responses handlers := by
  refine { h with handlers := ?_ }
  have hhandlers := h.handlers
  rw [UInt64.ofNat_add] at hhandlers
  grind

end Figures.Agree

namespace State

variable {s s' : State} {others need left : Undertakings}

theorem agree_add_singleton {d : Undertakings} {u : Undertaking} :
    Agree (d + {u}) s ↔ s.figures.Agree (d.number (·.isResponse) + u.isResponse.toNat)
      (d.number (·.isHandler) + u.isHandler.toNat) := by
  simp only [Agree, Undertakings.number_add, Undertakings.number_singleton]

/-- Only the figures matter, and how many responses and handlers are in hand. -/
theorem Agree.congr {d d' : Undertakings} (h : s.Agree d) (hfigures : s'.figures = s.figures)
    (hresponses : d'.number (·.isResponse) = d.number (·.isResponse) := by
      simp [Undertaking.isResponse])
    (hhandlers : d'.number (·.isHandler) = d.number (·.isHandler) := by
      simp [Undertaking.isHandler]) : s'.Agree d' := by
  unfold Agree
  rw [hfigures, hresponses, hhandlers]
  exact h

/-- What a claim does to the calls. -/
theorem sublist_of_claim {claimer : Claimer} {id : CallId} {call : Call}
    (hunique : (s.registry.calls.map (·.id)).Nodup) (h : s.claim claimer id = (some call, s')) :
    s'.registry.calls.Sublist s.registry.calls ∧
      s'.registry.calls.length + 1 = s.registry.calls.length := by
  have hclaim := (claim_eq_some h).1
  obtain ⟨_, -, -, -, hcalls⟩ := Registry.claim?_eq_some hclaim
  exact ⟨hcalls ▸ List.filter_sublist, Registry.size_of_claim? hunique hclaim⟩

theorem figures_collect {claimer : Claimer} {id : CallId} {call : Call}
    (h : s.collect claimer id = (some call, s')) :
    ∃ t, s.claim claimer id = (some call, t) ∧
      s'.figures =
        { t.figures with
          stats := { t.figures.stats with collected := t.figures.stats.collected + 1 } } := by
  unfold collect Registry.collect at h
  unfold claim
  cases hclaim : s.registry.claim? id with
  | none => simp [hclaim] at h
  | some result =>
    simp only [hclaim, Prod.mk.injEq, Option.some.injEq] at h ⊢
    obtain ⟨rfl, rfl⟩ := h
    exact ⟨_, ⟨rfl, rfl⟩, rfl⟩

theorem figures_collect_none {claimer : Claimer} {id : CallId}
    (h : s.collect claimer id = (none, s')) :
    s'.figures =
      { s.figures with
        stats := { s.figures.stats with unmatched := s.figures.stats.unmatched + 1 } } := by
  unfold collect Registry.collect at h
  cases hclaim : s.registry.claim? id with
  | some result => simp [hclaim] at h
  | none =>
    simp only [hclaim, Prod.mk.injEq, true_and] at h
    subst h
    rfl

theorem figures_claimExpired {now : Millis} {place : Nat} {id : CallId} {call : Call}
    (h : s.claimExpired now place id = (some call, s')) :
    ∃ t, s.claim (.sweep now place) id = (some call, t) ∧
      s'.figures =
        { t.figures with
          stats := { t.figures.stats with expired := t.figures.stats.expired + 1 } } := by
  unfold claimExpired at h
  split at h
  · cases h
  · rename_i found t hclaim
    simp only [Prod.mk.injEq, Option.some.injEq] at h
    obtain ⟨rfl, rfl⟩ := h
    exact ⟨t, hclaim, rfl⟩

/-- A fault is counted among those for which a handler has been run if one has been. -/
theorem figures_countFault (outcome : Disposition) :
    (s.countFault outcome).figures =
      { s.figures with run := s.figures.run + if outcome.isRun then 1 else 0 } := by
  have hrun : (s.metrics.countFault outcome).faultCounts.run =
      s.metrics.faultCounts.run + if outcome.isRun then 1 else 0 := by
    cases outcome <;> simp only [Metrics.countFault, FaultCounters.run, Disposition.isRun] <;> grind
  simp only [State.figures, countFault, hrun]
  rfl

/-- Every deed keeps the agreement. A deed that begins something counts it on one side and takes
one more in hand; the deed that finishes it counts the other side and has one less. -/
theorem Deed.agree (h : Deed allowed need s left s') (hs : Agree (others + need) s) :
    Agree (others + left) s' := by
  cases h with
  | neutral h => exact hs.congr h.figures
  | life h => exact hs.congr h.figures
  | timed => exact hs.congr rfl
  | begun => exact hs.congr rfl
  | died => exact hs.congr rfl
  | @enrolled _ _ call _ _ _ h =>
    rw [add_zero] at hs
    have hregister := (enroll_eq_ok h).1
    -- The registry has refused any other call with the id, so the ids are still different.
    have hunique := Registry.unique_of_register hs.unique hregister
    rw [(Registry.register?_eq_some hregister).2] at hunique
    rw [agree_add_singleton, figures_enroll h]
    exact Figures.Agree.enroll hs hunique
  | sent => exact hs.congr rfl
  | abandoned h =>
    obtain ⟨hsub, hsize⟩ := sublist_of_claim hs.unique h
    rw [agree_add_singleton] at hs ⊢
    rw [figures_release, figures_claim h]
    exact Figures.Agree.cleanUp hsub hsize hs
  | unmatched h =>
    have hcounted (t : State) : (t.countResponse .unmatched).figures =
        { t.figures with
          responses := { t.figures.responses with
            unmatched := t.figures.responses.unmatched + 1 } } := rfl
    unfold Agree
    rw [hcounted, figures_collect_none h]
    exact Figures.Agree.unmatch hs
  | collected h =>
    rw [add_zero] at hs
    obtain ⟨t, hclaim, hfigures⟩ := figures_collect h
    obtain ⟨hsub, hsize⟩ := sublist_of_claim hs.unique hclaim
    rw [agree_add_singleton, figures_release, hfigures, figures_claim hclaim]
    exact Figures.Agree.collect hsub hsize hs
  | @responded _ outcome call houtcome =>
    -- Whatever has become of the response, it is counted among those that found their calls.
    have hmatched : (s.metrics.countResponse outcome).responses.matched =
        s.metrics.responses.matched + 1 := by
      cases outcome with
      | unmatched => exact absurd rfl houtcome
      | _ => simp only [Metrics.countResponse, ResponseCounters.matched]; grind
    have hunmatched : (s.metrics.countResponse outcome).responses.unmatched =
        s.metrics.responses.unmatched := by
      cases outcome with
      | unmatched => exact absurd rfl houtcome
      | _ => rfl
    rw [agree_add_singleton] at hs
    rw [add_zero]
    exact Figures.Agree.respond hs hmatched hunmatched
  | locked => exact hs.congr rfl
  | relieved => exact hs.congr rfl
  | overtaken => exact hs.congr rfl
  | expired h =>
    obtain ⟨t, hclaim, hfigures⟩ := figures_claimExpired h
    obtain ⟨hsub, hsize⟩ := sublist_of_claim hs.unique hclaim
    have hcounted (t : State) : t.expireCall.figures =
        { t.figures with timeouts := t.figures.timeouts + 1 } := figures_release _
    rw [agree_add_singleton] at hs
    rw [← add_assoc, agree_add_singleton, Undertakings.number_add, Undertakings.number_add,
      Undertakings.number_singleton, Undertakings.number_singleton, hcounted, hfigures,
      figures_claim hclaim]
    exact Figures.Agree.expire hsub hsize hs
  | unlocked => exact hs.congr rfl
  | routing => exact hs.congr rfl
  | routed => exact hs.congr rfl
  | discarded => exact hs.congr rfl
  | settled hresponse =>
    refine hs.congr rfl ?_
    rename_i purpose call _
    cases purpose with
    | response => exact absurd rfl hresponse
    | expiry | cleanUp => simp [Undertaking.isResponse]
  | @called _ level cause handler msg _ =>
    rw [add_zero] at hs
    have hcalls : Journal.handlerCalls
        (.entered level (.compensate handler cause msg) s.moment :: s.journal) =
          s.journal.handlerCalls + 1 := List.countP_cons_of_pos rfl
    have hfigures : (s.note (.entered level (.compensate handler cause msg) s.moment)).figures =
        { s.figures with handlerCalls := s.figures.handlerCalls + 1 } := by
      simp only [State.figures, note, hcalls]
      rfl
    rw [agree_add_singleton, hfigures]
    exact Figures.Agree.call hs
  | ran h =>
    unfold Agree
    rw [add_zero, figures_countFault, if_pos h]
    exact Figures.Agree.ran (agree_add_singleton.mp hs)
  | notRun h =>
    refine hs.congr ?_
    rw [figures_countFault, if_neg (by simp [h]), UInt64.add_zero]

end State

/-- What the counters of an engine say, where nothing is in progress. Sums are those of 64-bit
words, so the equations hold also after a counter has wrapped. -/
structure State.IsCountedRight (s : State) : Prop where
  registered : s.registry.stats.registered =
    .ofNat s.registry.size + s.registry.stats.collected + s.registry.stats.expired +
      .ofNat s.journal.cleanUps
  callsRegistered : s.metrics.callsRegistered = s.registry.stats.registered
  timeouts : s.metrics.timeouts = s.registry.stats.expired
  unmatched : s.metrics.responses.unmatched = s.registry.stats.unmatched
  matched : s.metrics.responses.matched = s.registry.stats.collected
  /-- The gauge of pending calls is exact; one that was never moved stands at zero. -/
  pending : s.metrics.pendingCalls.getD 0 = s.registry.size
  handlers : s.metrics.faultCounts.handled + s.metrics.faultCounts.handlerFailed =
    .ofNat s.journal.handlerCalls

theorem State.Agree.isCountedRight {s : State} (h : s.Agree 0) : s.IsCountedRight where
  registered := h.stats
  callsRegistered := h.registered
  timeouts := h.timeouts
  unmatched := h.unmatched
  matched := (UInt64.add_zero _).symm.trans h.collected
  pending := h.pending
  handlers := (UInt64.add_zero _).symm.trans h.handlers

theorem State.agree_init (config : Config) (clock : Clock) (nextId : Nat) :
    (State.init config clock nextId).Agree 0 :=
  ⟨List.nodup_nil, rfl, rfl, rfl, rfl, rfl, rfl, rfl⟩

namespace Environment

variable {env : Environment σ} {depth : Nat} {site : Site (Host σ)}

/-- In every run of an engine, however operations nest, the counters agree with what happened
whenever nothing is in progress. -/
theorem Reaches.counted_right (hcol : env.collaborators.AskOnly Operation.IsIndirect)
    (h : env.Reaches Operation.IsIndirect depth site) (hnobody : site.suspended = []) :
    site.state.state.IsCountedRight := by
  obtain ⟨d, hd, hagree⟩ := h.borne (fun _ hop => hop) hcol (P := State.Agree) State.agree_init
    fun hdeed hs => hdeed.agree hs
  rw [hd hnobody] at hagree
  exact hagree.isCountedRight

/-- A dispatch within a dispatch has been answered, the outer one has failed, and its clean-up has
run a handler that dispatched again. -/
theorem counted_right_afterResend :
    Site.afterResend.state.state.IsCountedRight ∧
      Site.afterResend.state.state.registry.stats.registered = 3 ∧
      Site.afterResend.state.state.journal.cleanUps = 1 ∧
      Site.afterResend.state.state.journal.handlerCalls = 1 := by
  have hnobody : Site.afterResend.suspended = [] := by decide +kernel
  refine ⟨Reaches.counted_right resending_askOnly afterResend_reaches hnobody, ?_⟩
  decide +kernel

end Environment

end Correlator
