import Ns3Factory.DispatchConservation

/-!
The events whose callback has returned, and histories without a failure.

A failure is remembered by the dispatcher until its `Run` returns, and then by the status of
that `Run`. So where every `Run` has returned success no callback has failed, and whatever was
accepted has been executed.
-/

namespace Ns3Factory.System

open StdAlgorithm Transition

variable {κ : Type*}

/-- The events whose callback has returned, in order. -/
def finished (s : System κ) : List (EventRecord κ) :=
  match s.control with
  | .calling _ _ => s.executed.dropLast
  | _ => s.executed

/-- A callback has failed, in a `Run` that returned or in the current one. -/
def Failed (s : System κ) : Prop :=
  (∃ r ∈ s.runs, Result.succeeded r.result = false) ∨
    (s.control ≠ .idle ∧ s.kernel.dispatcher.executionError.isSome)

lemma Failed.step {s t : System κ} {a : Action κ} (hinv : s.Inv) (h : s.Failed)
    (hstep : s.step a = some t) : t.Failed := by
  have hasc := hinv.buckets.ascending
  cases step_sound hstep with
  | scheduleAt time phase callback hc =>
    rcases scheduleAt_cases hinv.queue.readable time phase callback with
      ⟨⟨e, he⟩, -⟩ | ⟨cb, next, exhausted, -, -, -, -, -, hok⟩
    · rw [he]; exact h
    · rw [hok]; exact h
  | run hc => exact Or.inl (h.resolve_right fun hcur => hcur.1 hc)
  | fire event hc hf => exact h.imp_right fun hcur => ⟨by simp, hcur.2⟩
  | leave time kernel hc hn =>
    have hkeep := nextRecord_executionError hasc hn
    exact h.imp_right fun hcur =>
      ⟨by simp, by simpa only [Kernel.leaveDispatchTime, hkeep] using hcur.2⟩
  | call time kernel record hc hn =>
    have hkeep := nextRecord_executionError hasc hn
    exact h.imp_right fun hcur => ⟨by simp, by simpa only [hkeep] using hcur.2⟩
  | finish status time record hc =>
    refine h.imp_right fun hcur => ⟨by simp, ?_⟩
    rcases status with e | u
    · rfl
    · exact hcur.2
  | finishRun hc hr =>
    refine Or.inl ?_
    rcases h with ⟨r, hr, hfail⟩ | ⟨-, herr⟩
    · exact ⟨r, by simp [hr], hfail⟩
    · obtain ⟨e, he⟩ := Option.isSome_iff_exists.mp herr
      exact ⟨_, List.mem_append_right _ (List.mem_singleton.mpr rfl),
        by simp [Kernel.runStatus, he]⟩

lemma failed_of_finish {s t : System κ} {e : Error}
    (hstep : s.step (.finish (.error e)) = some t) : t.Failed := by
  cases step_sound hstep with
  | finish status time record hc => exact Or.inr ⟨by simp, rfl⟩

/-- The state of a history: the callback that is running is of the last event executed, and
without a failure every bucket is served. -/
structure Sound (s : System κ) : Prop where
  inv : s.Inv
  calling : ∀ time record, s.control = .calling time record →
    s.executed = s.finished ++ [record] ∧ record.key.time = time
  healthy : ¬ s.Failed → s.Healthy

lemma sound_init (firstSequence : EventSequenceId) {now : ℤ} (h : 0 ≤ now ∧ now ≤ kMax) :
    Sound (init (κ := κ) firstSequence now) where
  inv := inv_init firstSequence h
  calling := by simp [init]
  healthy := fun _ => healthy_init firstSequence now

lemma Sound.step {s t : System κ} {a : Action κ} (h : s.Sound) (hstep : s.step a = some t) :
    t.Sound := by
  refine ⟨h.inv.step hstep, ?_, fun hok => ?_⟩
  · intro time record hc
    cases step_sound hstep with
    | scheduleAt time' phase callback hc' =>
      rcases scheduleAt_cases h.inv.queue.readable time' phase callback with
        ⟨⟨e, he⟩, -⟩ | ⟨cb, next, exhausted, -, -, -, -, -, hok⟩
      · rw [he] at hc ⊢; exact h.calling time record hc
      · rw [hok] at hc ⊢; exact h.calling time record hc
    | call time' kernel record' hc' hn =>
      cases hc
      refine ⟨by simp [finished], ?_⟩
      rcases nextRecord_cases h.inv.buckets.ascending time with
        ⟨-, he⟩ | ⟨-, -, he⟩ | ⟨-, m, rest, hp, -, he⟩ <;> rw [he] at hn <;> cases hn
      exact h.inv.buckets.keyed_recordsAt (hp.mem_iff.mpr (by simp))
    | run hc' => cases hc
    | fire event hc' hf => cases hc
    | leave time' kernel hc' hn => cases hc
    | finish status time' record' hc' => cases hc
    | finishRun hc' hr => cases hc
  · have hs : s.Healthy := h.healthy fun hfail => hok (hfail.step h.inv hstep)
    refine hs.step h.inv ?_ hstep
    cases a with
    | finish status =>
      rcases status with e | u
      · exact absurd (failed_of_finish hstep) hok
      · rfl
    | _ => trivial

lemma Sound.leads {s t : System κ} {h : List (Action κ)} (hs : s.Sound) (hr : s.Leads h t) :
    t.Sound :=
  run_invariant (A := fun _ => True) (fun _ _ _ hs _ hstep => hs.step hstep) hs
    (fun _ _ => trivial) hr

lemma Failed.leads {s t : System κ} {h : List (Action κ)} (hs : s.Sound) (hfail : s.Failed)
    (hr : s.Leads h t) : t.Failed :=
  (run_invariant (P := fun s => s.Sound ∧ s.Failed) (A := fun _ => True)
    (fun _ _ _ hs _ hstep => ⟨hs.1.step hstep, hs.2.step hs.1.inv hstep⟩) ⟨hs, hfail⟩
    (fun _ _ => trivial) hr).2

/-! ### What a step does to the events -/

lemma Sound.scheduleAt_cases {s : System κ} (h : s.Sound) (hc : s.CanSchedule) (time : SimTime)
    (phase : EventPhase) (callback : κ) :
    (∃ e, s.scheduleAt time phase (some callback) = (.error e, s)) ∨
    ∃ key t, s.scheduleAt time phase (some callback) = (.ok key, t) ∧
      s.step (.scheduleAt time phase (some callback)) = some t ∧ key.time = time ∧
      key.phase = phase ∧ t.accepted = s.accepted ++ [⟨key, callback⟩] ∧
      t.control = s.control ∧ t.executed = s.executed := by
  rcases System.scheduleAt_cases h.inv.queue.readable time phase (some callback) with
    ⟨⟨e, he⟩, -⟩ | ⟨cb, next, exhausted, hcb, -, -, -, -, hok⟩
  · exact Or.inl ⟨e, he⟩
  · cases hcb
    refine Or.inr ⟨_, _, hok, ?_, rfl, rfl, rfl, rfl, rfl⟩
    have hstep := step_iff.mpr (Step.scheduleAt (s := s) time phase (some callback) hc)
    rwa [hok] at hstep

lemma finished_congr {s t : System κ} (hc : t.control = s.control)
    (hx : t.executed = s.executed) : t.finished = s.finished := by
  simp only [finished, hc, hx]

lemma Sound.scheduled {s t : System κ} (h : s.Sound) {time : SimTime} {phase : EventPhase}
    {callback : κ} (hstep : s.step (.scheduleAt time phase (some callback)) = some t) :
    t.finished = s.finished ∧ (t.accepted = s.accepted ∨ ∃ key, key.time = time ∧
      key.phase = phase ∧ t.accepted = s.accepted ++ [⟨key, callback⟩]) := by
  cases step_sound hstep with
  | scheduleAt time phase callback hc =>
    rcases h.scheduleAt_cases hc time phase callback with
      ⟨e, he⟩ | ⟨key, t, ht, -, htime, hphase, hacc, hctl, hexec⟩
    · rw [he]; exact ⟨rfl, Or.inl rfl⟩
    · rw [ht]; exact ⟨finished_congr hctl hexec, Or.inr ⟨key, htime, hphase, hacc⟩⟩

lemma Sound.accepted_of_finished {s : System κ} (h : s.Sound) {record : EventRecord κ}
    (hr : record ∈ s.finished) : record ∈ s.accepted := by
  refine h.inv.conserved.mem_iff.mpr (List.mem_append_left _ ?_)
  unfold finished at hr
  split at hr
  · exact List.mem_of_mem_dropLast hr
  · exact hr

lemma Sound.calling_spec {s : System κ} (h : s.Sound) {time : SimTime} {record : EventRecord κ}
    (hc : s.control = .calling time record) :
    record ∈ s.accepted ∧ record.key.time = time ∧
      ∀ earlier ∈ s.finished, earlier.key < record.key := by
  obtain ⟨hexec, htime⟩ := h.calling time record hc
  refine ⟨h.inv.conserved.mem_iff.mpr (by simp [hexec]), htime, fun earlier he => ?_⟩
  have hinc := h.inv.increasing
  rw [hexec] at hinc
  exact (List.pairwise_append.mp hinc).2.2 earlier he record (by simp)

/-- The action leaves the events to the callbacks. -/
def Drives : Action κ → Prop
  | .scheduleAt _ _ _ => False
  | .finish _ => False
  | _ => True

lemma finished_of_drives {s t : System κ} {a : Action κ} (ha : Drives a)
    (hstep : s.step a = some t) : t.finished = s.finished ∧ t.accepted = s.accepted := by
  cases step_sound hstep with
  | scheduleAt time phase callback hc => exact ha.elim
  | run hc => simp [finished, hc]
  | fire event hc hf => simp [finished, hc]
  | leave time kernel hc hn => simp [finished, hc]
  | call time kernel record hc hn => simp [finished, hc]
  | finish status time record hc => exact ha.elim
  | finishRun hc hr => simp [finished, hc]

lemma Sound.finish {s t : System κ} {status : Status} (h : s.Sound)
    (hstep : s.step (.finish status) = some t) :
    ∃ time record, s.control = .calling time record ∧ t.finished = s.finished ++ [record] ∧
      t.accepted = s.accepted ∧ t.executed = s.executed := by
  cases step_sound hstep with
  | finish status time record hc => exact ⟨time, record, hc, (h.calling time record hc).1, rfl, rfl⟩

lemma Sound.finishRun {s t : System κ} (h : s.Sound) (hok : ¬ t.Failed)
    (hstep : s.step .finishRun = some t) :
    t.finished = t.executed ∧ t.accepted.Perm t.finished := by
  have hs : s.Healthy := h.healthy fun hfail => hok (hfail.step h.inv hstep)
  obtain ⟨hempty, -, -⟩ := hs.finishRun hstep
  have hfin : t.finished = t.executed := by
    cases step_sound hstep with
    | finishRun hc hr => rfl
  have hp := (h.inv.step hstep).conserved
  rw [EventDispatcher.pendingRecords, hempty] at hp
  exact ⟨hfin, by simpa [hfin] using hp⟩

end Ns3Factory.System
