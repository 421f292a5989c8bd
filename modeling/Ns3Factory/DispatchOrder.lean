import Ns3Factory.KernelInvariant

/-!
The order in which a dispatcher executes events.

Over a whole history the keys of the executed events ascend strictly, across `Run` calls and
across the callbacks ns-3 runs for one time. Inside one timestamp this is the order of the
phases; in one phase it is the order of the sequence ids. A callback that fails is the last
one of its `Run`, which returns its error.
-/

namespace Ns3Factory

open StdAlgorithm Transition

variable {κ : Type*}

/-- A callback of the `Run` that failed is its last, and `Run` returns exactly that error;
without a failure `Run` succeeds. -/
def RunRecord.FailStop (r : RunRecord) : Prop :=
  (∀ before key e after, r.returned = before ++ (key, .error e) :: after →
    after = [] ∧ r.result = .error e) ∧
  ((∀ p ∈ r.returned, Result.succeeded p.2) → r.result = .ok ())

namespace System

/-- The keys of the events a callback has been called for, split by the `Run` that did it. -/
def recordedKeys (s : System κ) : List EventKey :=
  (s.runs.flatMap RunRecord.returned).map Prod.fst ++
    match s.control with
    | .idle => []
    | .calling _ record => s.current.map Prod.fst ++ [record.key]
    | _ => s.current.map Prod.fst

/-- The dispatcher holds the error of the last callback, if that one failed. -/
def ErrorInv (s : System κ) : Prop :=
  match s.kernel.dispatcher.executionError with
  | none => ∀ p ∈ s.current, Result.succeeded p.2
  | some e => ∃ before key, s.current = before ++ [(key, .error e)] ∧
      ∀ p ∈ before, Result.succeeded p.2

structure RunInv (s : System κ) : Prop where
  recorded : s.recordedKeys = s.executed.map EventRecord.key
  error : s.ErrorInv
  failStop : ∀ r ∈ s.runs, r.FailStop

lemma ErrorInv.failStop {s : System κ} (h : s.ErrorInv) :
    RunRecord.FailStop ⟨s.current, s.kernel.runStatus⟩ := by
  unfold ErrorInv at h
  unfold RunRecord.FailStop Kernel.runStatus
  rcases herr : s.kernel.dispatcher.executionError with _ | e <;> rw [herr] at h <;> simp only
  · refine ⟨fun before key e after heq => ?_, fun _ => trivial⟩
    have := h (key, .error e) (by rw [heq]; simp)
    simp at this
  · obtain ⟨init, last, hcur, hok⟩ := h
    refine ⟨fun before key e' after heq => ?_, fun hall => ?_⟩
    · rw [hcur] at heq
      rcases List.eq_nil_or_concat after with rfl | ⟨front, z, rfl⟩
      · have := (List.append_inj' heq rfl).2
        simp only [List.cons.injEq, Prod.mk.injEq, Except.error.injEq, and_true] at this
        exact ⟨rfl, by rw [this.2]⟩
      · -- a failure before the last callback would be among those that succeeded
        have heq' : init ++ [(last, .error e)] =
            (before ++ (key, .error e') :: front) ++ [z] := by simpa using heq
        have hinit := (List.append_inj' heq' rfl).1
        have := hok (key, .error e') (by rw [hinit]; simp)
        simp at this
    · have := hall (last, .error e) (by rw [hcur]; simp)
      simp at this

lemma RunInv.step {s t : System κ} {a : Action κ} (hinv : s.Inv) (h : s.RunInv)
    (hstep : s.step a = some t) : t.RunInv := by
  have hrec := h.recorded
  have herr := h.error
  cases step_sound hstep with
  | scheduleAt time phase callback hc =>
    rcases scheduleAt_cases hinv.queue.readable time phase callback with
      ⟨⟨e, he⟩, -⟩ | ⟨cb, next, exhausted, -, -, -, -, -, hok⟩
    · rw [he]; exact h
    · rw [hok]; exact ⟨hrec, herr, h.failStop⟩
  | run hc =>
    refine ⟨?_, by simp [ErrorInv, Kernel.beginRun], h.failStop⟩
    simpa [recordedKeys, hc] using hrec
  | fire event hc hf =>
    refine ⟨?_, herr, h.failStop⟩
    simpa [recordedKeys, hc] using hrec
  | leave time kernel hc hn =>
    have hkeep := nextRecord_executionError hinv.buckets.ascending hn
    refine ⟨?_, ?_, h.failStop⟩
    · simpa [recordedKeys, hc] using hrec
    · simpa only [ErrorInv, Kernel.leaveDispatchTime, hkeep] using herr
  | call time kernel record hc hn =>
    have hkeep := nextRecord_executionError hinv.buckets.ascending hn
    refine ⟨?_, ?_, h.failStop⟩
    · simp only [recordedKeys, hc] at hrec ⊢
      simp [← hrec]
    · simpa only [ErrorInv, hkeep] using herr
  | finish status time record hc =>
    have hctl := hinv.control
    rw [ControlInv, hc] at hctl
    rw [ErrorInv, hctl.2.1] at herr
    refine ⟨?_, ?_, h.failStop⟩
    · simp only [recordedKeys, hc] at hrec ⊢
      simpa using hrec
    · rcases status with e | u
      · exact ⟨s.current, record.key, rfl, herr⟩
      · simp only [ErrorInv, Kernel.finishCallback, hctl.2.1]
        intro p hp
        rcases List.mem_append.mp hp with hp | hp
        · exact herr p hp
        · rw [List.mem_singleton.mp hp]; rfl
  | finishRun hc hr =>
    refine ⟨?_, herr, fun r hr => ?_⟩
    · simpa [recordedKeys, hc] using hrec
    · rcases List.mem_append.mp hr with hr | hr
      · exact h.failStop r hr
      · rw [List.mem_singleton.mp hr]; exact herr.failStop

lemma Runs.runInv {firstSequence : EventSequenceId} {now : ℤ} (hnow : 0 ≤ now ∧ now ≤ kMax)
    {h : List (Action κ)} {s : System κ} (hr : Runs firstSequence now h s) : s.RunInv := by
  have hinit : (init (κ := κ) firstSequence now).Inv ∧
      (init (κ := κ) firstSequence now).RunInv :=
    ⟨inv_init firstSequence hnow, rfl, by simp [ErrorInv, init, EventDispatcher.create],
      by simp [init]⟩
  exact (run_invariant (P := fun s => s.Inv ∧ s.RunInv) (A := fun _ => True)
    (fun _ _ _ hs _ hstep => ⟨hs.1.step hstep, hs.2.step hs.1 hstep⟩) hinit
    (fun _ _ => trivial) hr).2

/-- **Dispatch order.** In every history the keys of the executed events ascend strictly, so
none runs twice and at one timestamp none runs in a phase before one already executed, nor
in the same phase with an earlier sequence id; what `ScheduleAt` still accepts for a
timestamp is of a phase later than all executed there. A failing callback is the last of its
`Run`, which returns exactly its error. -/
theorem dispatch_order {firstSequence : EventSequenceId} {now : ℤ}
    (hnow : 0 ≤ now ∧ now ≤ kMax) {h : List (Action κ)} {s : System κ}
    (hr : Runs firstSequence now h s) :
    s.executed.Pairwise (fun r r' => r.key < r'.key) ∧
    s.executed.Pairwise (fun r r' => r.key.time = r'.key.time →
      r.key.phase < r'.key.phase ∨
        r.key.phase = r'.key.phase ∧ r.key.sequence < r'.key.sequence) ∧
    (∀ time phase callback key t, s.CanSchedule →
      s.scheduleAt time phase callback = (.ok key, t) →
      ∀ x ∈ s.executed, x.key.time = time → x.key.phase < phase) ∧
    s.recordedKeys = s.executed.map EventRecord.key ∧
    ∀ r ∈ s.runs, r.FailStop := by
  have hinv := hr.inv hnow
  have hrun := hr.runInv hnow
  refine ⟨hinv.increasing, ?_, ?_, hrun.recorded, hrun.failStop⟩
  · refine hinv.increasing.imp fun {r r'} hlt htime => ?_
    rcases EventKey.lt_iff.mp hlt with hlt | ⟨-, hlt⟩
    · exact absurd htime hlt.ne
    · exact hlt
  · intro time phase callback key t hc hsched x hx htime
    rcases scheduleAt_cases hinv.queue.readable time phase callback with
      ⟨⟨e, he⟩, -⟩ | ⟨cb, next, exhausted, -, hge, hadm, -, -, -⟩
    · rw [he] at hsched; cases hsched
    -- whatever the sequence id, the key would come after all executed ones
    · have hlt := hinv.executed_lt hc hge hadm x.key.sequence x hx
      simpa [EventKey.lt_iff, htime] using hlt

/-- Two events of one phase and timestamp, both executed. -/
def samePhaseHistory : List (Action Unit) :=
  let time : SimTime := .ofUInt32 0
  [.scheduleAt time .kInputReady (some ()), .scheduleAt time .kInputReady (some ()), .run,
    .fire ⟨0, time⟩, .next, .finish (.ok ()), .next, .finish (.ok ()), .next, .finishRun]

theorem dispatch_order_samePhase :
    ∃ s : System Unit, Runs ⟨0⟩ 0 samePhaseHistory s ∧
      s.executed.Pairwise (fun r r' => r.key < r'.key) ∧ ∀ r ∈ s.runs, r.FailStop := by
  obtain ⟨s, hs⟩ : ∃ s, Runs ⟨0⟩ 0 samePhaseHistory s :=
    Option.isSome_iff_exists.mp (by decide +kernel)
  obtain ⟨h1, -, -, -, h5⟩ := dispatch_order (by decide) hs
  exact ⟨s, hs, h1, h5⟩

/-- The order is not one of phases alone: two events of one phase run at one timestamp. -/
theorem phase_order_not_strict :
    ¬ ∀ (h : List (Action Unit)) (s : System Unit), Runs ⟨0⟩ 0 h s →
      s.executed.Pairwise fun r r' =>
        r.key.time = r'.key.time → ¬ r'.key.phase ≤ r.key.phase := by
  intro hall
  have hrun : (run step (init ⟨0⟩ 0) samePhaseHistory).map
      (fun s => s.executed.map EventRecord.key) =
        some [⟨.ofUInt32 0, .kInputReady, ⟨0⟩⟩, ⟨.ofUInt32 0, .kInputReady, ⟨1⟩⟩] := by
    decide +kernel
  obtain ⟨s, hs, hexec⟩ := Option.map_eq_some_iff.mp hrun
  have hp := hall _ s hs
  have hp' := List.Pairwise.map (S := fun k k' : EventKey => k.time = k'.time →
    ¬ k'.phase ≤ k.phase) EventRecord.key (fun _ _ h => h) hp
  rw [hexec] at hp'
  simp at hp'

end System

end Ns3Factory
