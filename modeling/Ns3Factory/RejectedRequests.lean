import Ns3Factory.KernelInvariant

/-!
Which requests the dispatcher accepts, and that a rejected one leaves no trace.

The floor of a request comes from the dispatch under way or from the last one, and is in
every reachable state the phase of the last event executed at that time. A rejected request
changes nothing, so a history without its rejected requests leads to the same state.
-/

namespace Ns3Factory

open StdAlgorithm Transition

variable {κ : Type*}

namespace System

/-! ### What is accepted -/

/-- The sequence ids given out are as many as the accepted events. -/
def SequenceInv (firstSequence : EventSequenceId) (s : System κ) : Prop :=
  firstSequence.value.val + s.accepted.length =
    if s.kernel.dispatcher.sequenceExhausted then 2 ^ 64
    else s.kernel.dispatcher.nextSequence.val

lemma SequenceInv.exhausted_iff {firstSequence : EventSequenceId} {s : System κ}
    (h : SequenceInv firstSequence s) :
    s.kernel.dispatcher.sequenceExhausted = false ↔
      firstSequence.value.val + s.accepted.length < 2 ^ 64 := by
  have hlt := s.kernel.dispatcher.nextSequence.isLt
  rw [h]
  rcases s.kernel.dispatcher.sequenceExhausted with _ | _ <;> simp

lemma SequenceInv.step {firstSequence : EventSequenceId} {s t : System κ} {a : Action κ}
    (hinv : s.Inv) (h : SequenceInv firstSequence s) (hstep : s.step a = some t) :
    SequenceInv firstSequence t := by
  cases step_sound hstep with
  | scheduleAt time phase callback hc =>
    rcases scheduleAt_cases hinv.queue.readable time phase callback with
      ⟨⟨e, he⟩, -⟩ | ⟨cb, next, exhausted, -, -, -, hx, hn, hok⟩
    · rw [he]; exact h
    · rw [hok]
      unfold SequenceInv at h ⊢
      rw [hx, if_neg (by simp)] at h
      simp only [List.length_append, List.length_singleton, Kernel.accept]
      rcases hn with ⟨rfl, hmax⟩ | ⟨rfl, hnext⟩
      · rw [hmax] at h
        simp only [maxIdentity] at h
        simp only [if_true]
        omega
      · simp only [Bool.false_eq_true, if_false]
        omega
  | run hc => exact h
  | fire event hc hf => exact h
  | leave time kernel hc hn =>
    obtain ⟨hnext, hexhausted⟩ := nextRecord_sequence hinv.buckets.ascending hn
    simpa only [SequenceInv, Kernel.leaveDispatchTime, hnext, hexhausted] using h
  | call time kernel record hc hn =>
    obtain ⟨hnext, hexhausted⟩ := nextRecord_sequence hinv.buckets.ascending hn
    simpa only [SequenceInv, hnext, hexhausted] using h
  | finish status time record hc => rcases status with e | u <;> exact h
  | finishRun hc hr => exact h

lemma Runs.sequenceInv {firstSequence : EventSequenceId} {now : ℤ}
    (hnow : 0 ≤ now ∧ now ≤ kMax) {h : List (Action κ)} {s : System κ}
    (hr : Runs firstSequence now h s) : SequenceInv firstSequence s :=
  (run_invariant (P := fun s => s.Inv ∧ SequenceInv firstSequence s) (A := fun _ => True)
    (fun _ _ _ hs _ hstep => ⟨hs.1.step hstep, hs.2.step hs.1 hstep⟩)
    ⟨inv_init firstSequence hnow, by simp [SequenceInv, init, EventDispatcher.create]⟩
    (fun _ _ => trivial) hr).2

/-- The request comes after the last event executed, in time and phase. -/
def AfterLast (s : System κ) (time : SimTime) (phase : EventPhase) : Prop :=
  ∀ last, s.executed.getLast? = some last →
    toLex (last.key.time, last.key.phase) < toLex (time, phase)

lemma Inv.admits_iff {s : System κ} (h : s.Inv) (hc : s.CanSchedule) {time : SimTime}
    {phase : EventPhase} (htime : s.kernel.simulator.now ≤ time.nanoseconds) :
    s.kernel.dispatcher.Admits time phase ↔ s.AfterLast time phase := by
  have hlast := h.last
  unfold EventDispatcher.Admits AfterLast
  unfold LastInv at hlast
  rw [h.phaseFloor_eq hc]
  rcases hl : s.executed.getLast? with _ | last <;> rw [hl] at hlast
  · simp [hlast]
  obtain ⟨h1, h2, h3⟩ := hlast
  have hle : last.key.time ≤ time := SimTime.le_iff.mpr (h3.trans htime)
  simp only [h1, h2, Option.some.injEq, forall_eq', Prod.Lex.toLex_lt_toLex]
  by_cases ht : last.key.time = time
  · simp [ht]
  · simp [ht, lt_of_le_of_ne hle ht]

lemma isValidPhase_iff {phase : EventPhase} :
    isValidPhase phase = true ↔ phase ∈ [EventPhase.kSessionFinalize, .kSignalArrival,
      .kInputReady, .kRuntimeDecision, .kTxStart, .kCycleClose] := by
  simp [isValidPhase, or_assoc]

lemma Inv.scheduleAt_succeeds {s : System κ} (h : s.Inv) (hc : s.CanSchedule) {time : SimTime}
    {phase : EventPhase} {callback : Option κ} :
    Result.succeeded (s.scheduleAt time phase callback).1 = true ↔
      isValidPhase phase = true ∧ callback.isSome ∧
        s.kernel.simulator.now ≤ time.nanoseconds ∧ s.AfterLast time phase ∧
        s.kernel.dispatcher.sequenceExhausted = false := by
  have hresult : (s.scheduleAt time phase callback).1 =
      (s.kernel.scheduleAt time phase callback).1 := by
    unfold System.scheduleAt
    split
    · next heq => rw [heq]
    · next heq => rw [heq]
  have hfloor : (s.kernel.simulator.now ≤ time.nanoseconds ∧ s.AfterLast time phase) ↔
      s.kernel.simulator.now ≤ time.nanoseconds ∧ s.kernel.dispatcher.Admits time phase :=
    and_congr_right fun htime => (h.admits_iff hc htime).symm
  rw [hresult, ← and_assoc (a := _ ≤ _), hfloor, and_assoc]
  rcases Ns3Factory.scheduleAt_cases h.queue.readable time phase callback with
    ⟨⟨e, he⟩, hnot⟩ | ⟨cb, next, exhausted, rfl, hv, htime, hadm, hx, -, hok⟩
  · rw [he]
    exact ⟨fun h => by simp at h, fun h => absurd h hnot⟩
  · rw [hok]
    exact ⟨fun _ => ⟨hv, rfl, htime, hadm, hx⟩, fun _ => rfl⟩

/-! ### Deleting what is rejected -/

/-- The action is a `ScheduleAt` call that `s` rejects. -/
def Rejects (s : System κ) : Action κ → Bool
  | .scheduleAt time phase callback => !Result.succeeded (s.scheduleAt time phase callback).1
  | _ => false

/-- A history without its rejected `ScheduleAt` calls. -/
def deleteRejected (s : System κ) (h : List (Action κ)) : List (Action κ) :=
  dropIdle step Rejects s h

lemma rejects_iff {s : System κ} {a : Action κ} :
    s.Rejects a = true ↔ ∃ time phase callback, a = .scheduleAt time phase callback ∧
      Result.succeeded (s.scheduleAt time phase callback).1 = false := by
  cases a <;> simp [Rejects]

lemma Inv.step_rejected {s t : System κ} {a : Action κ} (h : s.Inv) (hr : s.Rejects a = true)
    (hstep : s.step a = some t) : t = s := by
  obtain ⟨time, phase, callback, rfl, hfail⟩ := rejects_iff.mp hr
  cases step_sound hstep with
  | scheduleAt _ _ _ hc =>
    rcases scheduleAt_cases h.queue.readable time phase callback with
      ⟨⟨e, he⟩, -⟩ | ⟨cb, next, exhausted, -, -, -, -, -, hok⟩
    · rw [he]
    · rw [hok] at hfail
      cases hfail

/-- **Rejected requests have no effect.** Where platform code runs, `ScheduleAt` accepts exactly
the requests with a defined phase and a callback that are not past, come after the last event
executed in time and phase, and find a sequence id left. Without its rejected requests a
history is one of the dispatcher still, with none rejected, and leads to the same state: the
same events accepted, executed and pending. -/
theorem rejected_requests {firstSequence : EventSequenceId} {now : ℤ}
    (hnow : 0 ≤ now ∧ now ≤ kMax) {h : List (Action κ)} {s : System κ}
    (hr : Runs firstSequence now h s) :
    (s.CanSchedule → ∀ time phase callback,
      Result.succeeded (s.scheduleAt time phase callback).1 = true ↔
        phase ∈ [EventPhase.kSessionFinalize, .kSignalArrival, .kInputReady,
          .kRuntimeDecision, .kTxStart, .kCycleClose] ∧
        callback.isSome ∧ s.kernel.simulator.now ≤ time.nanoseconds ∧
        (∀ last, s.executed.getLast? = some last →
          toLex (last.key.time, last.key.phase) < toLex (time, phase)) ∧
        firstSequence.value.val + s.accepted.length < 2 ^ 64) ∧
    Runs firstSequence now (deleteRejected (init firstSequence now) h) s ∧
    (deleteRejected (init firstSequence now) h).Sublist h ∧
    ∀ before time phase callback after m,
      deleteRejected (init firstSequence now) h =
        before ++ .scheduleAt time phase callback :: after →
      Runs firstSequence now before m →
      Result.succeeded (m.scheduleAt time phase callback).1 = true := by
  have hinv := hr.inv hnow
  obtain ⟨hrun, hnone⟩ := run_dropIdle (P := Inv) (fun _ _ _ hs hstep => hs.step hstep)
    (fun _ _ _ hs hi hstep => hs.step_rejected hi hstep) (inv_init firstSequence hnow) hr
  refine ⟨fun hc time phase callback => ?_, hrun, dropIdle_sublist .., ?_⟩
  · rw [hinv.scheduleAt_succeeds hc, isValidPhase_iff, (hr.sequenceInv hnow).exhausted_iff]
    rfl
  · intro before time phase callback after m heq hm
    simpa [Rejects] using hnone before _ after m heq hm

/-- A callback that asks for an earlier phase of its own time, and then for a later one. -/
def earlierPhaseHistory : List (Action Unit) :=
  let time : SimTime := .ofUInt32 20
  [.scheduleAt time .kRuntimeDecision (some ()), .run, .fire ⟨20, time⟩, .next,
    .scheduleAt time .kSignalArrival (some ()), .scheduleAt time .kTxStart (some ()),
    .finish (.ok ()), .next, .finish (.ok ()), .next, .finishRun]

theorem rejected_requests_earlierPhase :
    ∃ s : System Unit, Runs ⟨0⟩ 0 earlierPhaseHistory s ∧
      Runs ⟨0⟩ 0 (deleteRejected (init ⟨0⟩ 0) earlierPhaseHistory) s ∧
      (deleteRejected (init ⟨0⟩ 0) earlierPhaseHistory).length + 1 =
        earlierPhaseHistory.length := by
  obtain ⟨s, hs⟩ : ∃ s, Runs ⟨0⟩ 0 earlierPhaseHistory s :=
    Option.isSome_iff_exists.mp (by decide +kernel)
  exact ⟨s, hs, (rejected_requests (by decide) hs).2.1, by decide +kernel⟩

end System

end Ns3Factory
