import Ns3Factory.KernelInvariant

/-!
What becomes of the events a dispatcher accepts.

As long as callbacks succeed, every bucket keeps an ns-3 callback for its time, so whatever
was accepted is executed by the next `Run` that returns. A callback that fails leaves its
bucket behind without one: the records left in it, and those filed under its time later, are
never executed, and `Run` can succeed with events pending.
-/

namespace Ns3Factory

open StdAlgorithm Transition

variable {κ : Type*}

/-- The action is not a callback returning an error. -/
def Action.Succeeds : Action κ → Prop
  | .finish status => Result.succeeded status
  | _ => True

namespace System

/-- Every bucket has a pending ns-3 callback for its time. -/
def Registered (s : System κ) : Prop :=
  ∀ b ∈ s.kernel.dispatcher.buckets, ∃ e ∈ s.kernel.simulator.events, e.time = b.time

/-- The last `Run` returned success. -/
def RunSucceeded (s : System κ) : Prop := ∃ r, s.runs.getLast? = some r ∧ r.result = .ok ()

/-- The event is executed by the time any later `Run` returns whose callbacks, like all in
between, succeed; and there is such a `Run`. -/
def WillExecute (s : System κ) (record : EventRecord κ) : Prop :=
  (∀ later t, (∀ a ∈ later, Action.Succeeds a) → s.Leads (later ++ [.finishRun]) t →
    record ∈ t.executed) ∧
  ∃ later t, (∀ a ∈ later, Action.Succeeds a) ∧
    s.Leads (later ++ [.finishRun]) t ∧ record ∈ t.executed

/-- At every point of the history outside `DispatchTime`, every bucket has a pending ns-3
callback, every accepted event is executed already or will be, and nothing is pending when
`Run` has just succeeded. -/
def NothingLost (firstSequence : EventSequenceId) (now : ℤ) (h : List (Action κ)) : Prop :=
  ∀ p m, p <+: h → Runs firstSequence now p m → m.OutsideDispatch →
    m.Registered ∧
    (∀ r ∈ m.accepted, r ∈ m.executed ∨ m.WillExecute r) ∧
    ((∃ q, p = q ++ [.finishRun]) → m.RunSucceeded →
      m.kernel.dispatcher.pendingEventCount = 0)

/-! ### Histories without a failure -/

/-- Nothing has failed: only the bucket being dispatched is without a callback. -/
structure Healthy (s : System κ) : Prop where
  error : s.kernel.dispatcher.executionError = none
  running : s.kernel.simulator.stopped = false
  registered : ∀ b ∈ s.kernel.dispatcher.buckets,
    (∃ e ∈ s.kernel.simulator.events, e.time = b.time) ∨
      s.control = .dispatching b.time ∨ ∃ r, s.control = .calling b.time r

lemma healthy_init (firstSequence : EventSequenceId) (now : ℤ) :
    Healthy (init (κ := κ) firstSequence now) :=
  ⟨rfl, rfl, by simp [init, EventDispatcher.create]⟩

lemma Healthy.registered_of_outside {s : System κ} (h : s.Healthy) (ho : s.OutsideDispatch) :
    s.Registered := by
  intro b hb
  rcases h.registered b hb with he | hc | ⟨r, hc⟩
  · exact he
  · rcases ho with ho | ho <;> rw [hc] at ho <;> cases ho
  · rcases ho with ho | ho <;> rw [hc] at ho <;> cases ho

lemma Healthy.scheduleAt {s : System κ} (hinv : s.Inv) (h : s.Healthy) (time : SimTime)
    (phase : EventPhase) (callback : Option κ) :
    (s.scheduleAt time phase callback).2.Healthy := by
  rcases scheduleAt_cases hinv.queue.readable time phase callback with
    ⟨⟨e, he⟩, -⟩ | ⟨cb, next, exhausted, -, -, -, -, -, hok⟩
  · rw [he]; exact h
  rw [hok]
  have hasc := hinv.buckets.ascending
  rcases hb : s.kernel.dispatcher.findBucket time with _ | bucket
  · -- a new bucket comes with its own callback
    have hevents : ∀ record : EventRecord κ, record.key.time = time →
        (s.kernel.accept next exhausted record).simulator =
        { s.kernel.simulator with
          events := s.kernel.simulator.events ++ [⟨time.nanoseconds, time⟩] } := by
      intro record ht
      simp [Kernel.accept, ht, hb]
    refine ⟨h.error, by rw [hevents _ rfl]; exact h.running, fun b hb' => ?_⟩
    rw [hevents _ rfl]
    rcases (mem_setRecords hasc).mp hb' with rfl | ⟨hb', -⟩
    · exact Or.inl ⟨⟨time.nanoseconds, time⟩, by simp, rfl⟩
    · refine (h.registered b hb').imp_left ?_
      rintro ⟨e, he, het⟩
      exact ⟨e, List.mem_append_left _ he, het⟩
  · have hsim : ∀ record : EventRecord κ, record.key.time = time →
        (s.kernel.accept next exhausted record).simulator = s.kernel.simulator := by
      intro record ht
      simp [Kernel.accept, ht, hb]
    refine ⟨h.error, by rw [hsim _ rfl]; exact h.running, fun b hb' => ?_⟩
    rw [hsim _ rfl]
    rcases (mem_setRecords hasc).mp hb' with rfl | ⟨hb', -⟩
    · obtain ⟨hmem, ht⟩ := (lookup_eq_some hasc).mp hb
      have := h.registered bucket hmem
      rwa [ht] at this
    · exact h.registered b hb'

lemma Healthy.step {s t : System κ} {a : Action κ} (hinv : s.Inv) (h : s.Healthy)
    (ha : a.Succeeds) (hstep : s.step a = some t) : t.Healthy := by
  have hasc := hinv.buckets.ascending
  cases step_sound hstep with
  | scheduleAt time phase callback hc => exact h.scheduleAt hinv time phase callback
  | run hc =>
    refine ⟨rfl, rfl, fun b hb => Or.inl ?_⟩
    exact h.registered_of_outside (Or.inl hc) b hb
  | fire event hc hf =>
    refine ⟨h.error, h.running, fun b hb => ?_⟩
    obtain ⟨e, he, het⟩ := h.registered_of_outside (Or.inr hc) b hb
    by_cases heq : e = event
    · subst heq
      exact Or.inr (Or.inl (by rw [het]))
    · exact Or.inl ⟨e, (List.mem_erase_of_ne heq).mpr he, het⟩
  | leave time kernel hc hn =>
    rcases nextRecord_cases hasc time with ⟨herr, -⟩ | ⟨-, -, he⟩ | ⟨-, m, rest, -, -, he⟩
    · rw [h.error] at herr; simp at herr
    · rw [he] at hn; cases hn
      refine ⟨h.error, h.running, fun b hb => Or.inl ?_⟩
      obtain ⟨hb, hbt⟩ := (mem_eraseKey hasc).mp hb
      rcases h.registered b hb with he | hd | ⟨r, hd⟩
      · exact he
      · rw [hc] at hd; cases hd; exact absurd rfl hbt
      · rw [hc] at hd; cases hd
    · rw [he] at hn; cases hn
  | call time kernel record hc hn =>
    rcases nextRecord_cases hasc time with ⟨-, he⟩ | ⟨-, -, he⟩ | ⟨-, m, rest, -, -, he⟩ <;>
      rw [he] at hn <;> cases hn
    refine ⟨h.error, h.running, fun b hb => ?_⟩
    rcases (mem_setRecords hasc).mp hb with rfl | ⟨hb, -⟩
    · exact Or.inr (Or.inr ⟨record, rfl⟩)
    · rcases h.registered b hb with he | hd | ⟨r, hd⟩
      · exact Or.inl he
      · rw [hc] at hd; cases hd; exact Or.inr (Or.inr ⟨record, rfl⟩)
      · rw [hc] at hd; cases hd
  | finish status time record hc =>
    rcases status with e | u
    · simp [Action.Succeeds] at ha
    · refine ⟨h.error, h.running, fun b hb => ?_⟩
      rcases h.registered b hb with he | hd | ⟨r, hd⟩
      · exact Or.inl he
      · rw [hc] at hd; cases hd
      · rw [hc] at hd; cases hd; exact Or.inr (Or.inl rfl)
  | finishRun hc hr =>
    exact ⟨h.error, h.running, fun b hb =>
      Or.inl (h.registered_of_outside (Or.inr hc) b hb)⟩

lemma Healthy.run {s t : System κ} (hinv : s.Inv) (h : s.Healthy) {later : List (Action κ)}
    (hok : ∀ a ∈ later, Action.Succeeds a) (hr : s.Leads later t) :
    t.Inv ∧ t.Healthy :=
  run_invariant (P := fun s => s.Inv ∧ s.Healthy) (A := Action.Succeeds)
    (fun _ _ _ hs ha hstep => ⟨hs.1.step hstep, hs.2.step hs.1 ha hstep⟩) ⟨hinv, h⟩ hok hr

lemma Healthy.finishRun {s t : System κ} (h : s.Healthy)
    (hstep : s.step .finishRun = some t) :
    t.kernel.dispatcher.buckets = [] ∧ t.executed = s.executed ∧ t.accepted = s.accepted := by
  cases step_sound hstep with
  | finishRun hc hr =>
    refine ⟨List.eq_nil_iff_forall_not_mem.mpr fun b hb => ?_, rfl, rfl⟩
    have hevents : s.kernel.simulator.events = [] := hr.resolve_left (by simp [h.running])
    obtain ⟨e, he, -⟩ := h.registered_of_outside (Or.inr hc) b hb
    simp [hevents] at he

lemma step_accepted {s t : System κ} {a : Action κ} (hinv : s.Inv)
    (hstep : s.step a = some t) : s.accepted ⊆ t.accepted := by
  cases step_sound hstep with
  | scheduleAt time phase callback hc =>
    rcases scheduleAt_cases hinv.queue.readable time phase callback with
      ⟨⟨e, he⟩, -⟩ | ⟨cb, next, exhausted, -, -, -, -, -, hok⟩
    · rw [he]; exact List.Subset.refl _
    · rw [hok]; exact List.subset_append_left _ _
  | _ => exact List.Subset.refl _

lemma run_accepted {s t : System κ} (hinv : s.Inv) {later : List (Action κ)}
    (hr : s.Leads later t) : s.accepted ⊆ t.accepted :=
  (run_invariant (P := fun m => m.Inv ∧ s.accepted ⊆ m.accepted) (A := fun _ => True)
    (fun _ _ _ hm _ hstep =>
      ⟨hm.1.step hstep, List.Subset.trans hm.2 (step_accepted hm.1 hstep)⟩)
    ⟨hinv, List.Subset.refl _⟩ (fun _ _ => trivial) hr).2

lemma pendingEventCount_eq (d : EventDispatcher κ) :
    d.pendingEventCount = d.pendingRecords.length := by
  have hfold : ∀ (buckets : List (TimeBucket κ)) (n : ℕ),
      buckets.foldl (fun count bucket => count + bucket.records.length) n =
        n + (buckets.flatMap TimeBucket.records).length := by
    intro buckets
    induction buckets with
    | nil => simp
    | cons b buckets ih => intro n; simp [ih, Nat.add_assoc]
  exact (hfold d.buckets 0).trans (Nat.zero_add _)

lemma Healthy.executed_all {s t : System κ} (hinv : s.Inv) (h : s.Healthy)
    {later : List (Action κ)} (hok : ∀ a ∈ later, Action.Succeeds a)
    (hr : s.Leads (later ++ [.finishRun]) t) :
    ∀ r ∈ s.accepted, r ∈ t.executed := by
  intro r hmem
  have hacc := run_accepted hinv hr hmem
  obtain ⟨m, hm, hstep⟩ := run_concat_eq_some.mp hr
  obtain ⟨hminv, hmok⟩ := Healthy.run hinv h hok hm
  obtain ⟨hempty, -, -⟩ := hmok.finishRun hstep
  have hperm := (hminv.step hstep).conserved.mem_iff.mp hacc
  simpa [EventDispatcher.pendingRecords, hempty] using hperm

/-! ### A `Run` that returns -/

lemma Healthy.dispatch_drains {s : System κ} (hinv : s.Inv) (h : s.Healthy) {time : SimTime}
    (hc : s.control = .dispatching time) :
    ∃ later t, (∀ a ∈ later, Action.Succeeds a) ∧ s.Leads later t ∧
      t.control = .running ∧ t.kernel.simulator.events = s.kernel.simulator.events := by
  induction hn : (recordsAt time s.kernel.dispatcher.buckets).length generalizing s with
  | zero =>
    rcases nextRecord_cases hinv.buckets.ascending time with
      ⟨herr, -⟩ | ⟨-, -, he⟩ | ⟨-, m, rest, hp, -, -⟩
    · rw [h.error] at herr; simp at herr
    · exact ⟨[.next], _, by simp [Action.Succeeds],
        run_cons_eq_some.mpr ⟨_, step_iff.mpr (.leave time _ hc he), rfl⟩, rfl, rfl⟩
    · rw [hp.length_eq] at hn; simp at hn
  | succ n ih =>
    rcases nextRecord_cases hinv.buckets.ascending time with
      ⟨herr, -⟩ | ⟨-, hemp, -⟩ | ⟨-, record, rest, hp, -, he⟩
    · rw [h.error] at herr; simp at herr
    · rw [hemp] at hn; simp at hn
    have hrun : ∃ m, s.Leads [.next, .finish (.ok ())] m ∧
        m.control = .dispatching time ∧
        m.kernel.simulator.events = s.kernel.simulator.events ∧
        recordsAt time m.kernel.dispatcher.buckets = rest := by
      refine ⟨_, run_cons_eq_some.mpr ⟨_, step_iff.mpr (.call time _ record hc he),
        run_cons_eq_some.mpr ⟨_, step_iff.mpr (.finish _ time record rfl), rfl⟩⟩, rfl, rfl, ?_⟩
      have := lookup_upsert_self hinv.buckets.ascending (⟨time, rest⟩ : TimeBucket κ)
      simp [Kernel.finishCallback, recordsAt, setRecords, this]
    obtain ⟨m, hm, hmc, hme, hmr⟩ := hrun
    obtain ⟨hminv, hmok⟩ := Healthy.run hinv h (by simp [Action.Succeeds]) hm
    have hlen : (recordsAt time m.kernel.dispatcher.buckets).length = n := by
      have := hp.length_eq
      rw [hmr]; simp only [List.length_cons] at this; omega
    obtain ⟨later, t, hok, ht, htc, hte⟩ := ih hminv hmok hmc hlen
    refine ⟨[.next, .finish (.ok ())] ++ later, t, ?_, run_append_eq_some.mpr ⟨m, hm, ht⟩, htc,
      hte.trans hme⟩
    intro a ha
    rcases List.mem_append.mp ha with ha | ha
    · rcases List.mem_cons.mp ha with rfl | ha
      · trivial
      · rw [List.mem_singleton.mp ha]; rfl
    · exact hok a ha

lemma Healthy.run_returns {s : System κ} (hinv : s.Inv) (h : s.Healthy)
    (hc : s.control = .running) :
    ∃ later t, (∀ a ∈ later, Action.Succeeds a) ∧
      s.Leads (later ++ [.finishRun]) t := by
  induction hn : s.kernel.simulator.events.length generalizing s with
  | zero =>
    have hnil := List.length_eq_zero_iff.mp hn
    exact ⟨[], _, by simp,
      run_cons_eq_some.mpr ⟨_, step_iff.mpr (.finishRun hc (Or.inr hnil)), rfl⟩⟩
  | succ n ih =>
    -- ns-3 takes a callback that fires earliest
    obtain ⟨event, hf⟩ := Simulator.exists_canFire h.running (List.ne_nil_of_length_eq_add_one hn)
    have hmem := hf.2.1
    have hfire : ∃ m, s.step (.fire event) = some m ∧ m.control = .dispatching event.time ∧
        m.kernel.simulator.events = s.kernel.simulator.events.erase event :=
      ⟨_, step_iff.mpr (.fire event hc hf), rfl, rfl⟩
    obtain ⟨m, hm, hmc, hme⟩ := hfire
    have hminv := hinv.step hm
    have hmok := h.step (a := .fire event) hinv trivial hm
    obtain ⟨dispatch, t, hdok, hdt, htc, hte⟩ := hmok.dispatch_drains hminv hmc
    obtain ⟨htinv, htok⟩ := Healthy.run hminv hmok hdok hdt
    have hlen : t.kernel.simulator.events.length = n := by
      rw [hte, hme, List.length_erase_of_mem hmem, hn]; rfl
    obtain ⟨later, u, hlok, hu⟩ := ih htinv htok htc hlen
    refine ⟨.fire event :: dispatch ++ later, u, ?_, ?_⟩
    · intro a ha
      rcases List.mem_append.mp ha with ha | ha
      · rcases List.mem_cons.mp ha with rfl | ha
        · trivial
        · exact hdok a ha
      · exact hlok a ha
    · rw [List.cons_append, List.cons_append, List.append_assoc]
      exact run_cons_eq_some.mpr ⟨m, hm, run_append_eq_some.mpr ⟨t, hdt, hu⟩⟩

lemma Healthy.willExecute {s : System κ} (hinv : s.Inv) (h : s.Healthy)
    (ho : s.OutsideDispatch) {record : EventRecord κ} (hr : record ∈ s.accepted) :
    s.WillExecute record := by
  refine ⟨fun later t hok ht => h.executed_all hinv hok ht record hr, ?_⟩
  obtain ⟨later, t, hok, ht⟩ : ∃ later t, (∀ a ∈ later, Action.Succeeds a) ∧
      s.Leads (later ++ [.finishRun]) t := by
    rcases ho with ho | ho
    · have hbegin : ∃ m, s.step .run = some m ∧ m.control = .running :=
        ⟨_, step_iff.mpr (.run ho), rfl⟩
      obtain ⟨m, hm, hmc⟩ := hbegin
      obtain ⟨later, t, hok, ht⟩ :=
        (h.step (a := .run) hinv trivial hm).run_returns (hinv.step hm) hmc
      refine ⟨.run :: later, t, ?_, run_cons_eq_some.mpr ⟨m, hm, ht⟩⟩
      intro a ha
      rcases List.mem_cons.mp ha with rfl | ha
      · trivial
      · exact hok a ha
    · exact h.run_returns hinv ho
  exact ⟨later, t, hok, ht, h.executed_all hinv hok ht record hr⟩

/-! ### After a failure -/

lemma Inv.not_registered {s m : System κ} (hinv : s.Inv) {e : Error}
    (hr : s.Leads [.finish (.error e), .next] m) :
    m.OutsideDispatch ∧ ¬ m.Registered := by
  obtain ⟨u, hu, hr⟩ := run_cons_eq_some.mp hr
  obtain ⟨m', hm, hr⟩ := run_cons_eq_some.mp hr
  obtain rfl : m' = m := Option.some.inj hr
  cases step_sound hu with
  | finish status time record hc =>
    have hctl := hinv.control
    rw [ControlInv, hc] at hctl
    obtain ⟨hd, -⟩ := hctl
    have hnext : m'.kernel.dispatcher.buckets = s.kernel.dispatcher.buckets ∧
        m'.kernel.simulator.events = s.kernel.simulator.events ∧ m'.control = .running := by
      cases step_sound hm with
      | leave t kernel hc' hn =>
        simp only [Kernel.nextRecord, Kernel.finishCallback, Option.isSome_some, if_true,
          Prod.mk.injEq, true_and] at hn
        subst hn
        exact ⟨rfl, rfl, rfl⟩
      | call t kernel r hc' hn => simp [Kernel.nextRecord, Kernel.finishCallback] at hn
    obtain ⟨hb, hev, hmc⟩ := hnext
    refine ⟨Or.inr hmc, fun hreg => ?_⟩
    obtain ⟨b, hbm, hbt⟩ := hd.bucket
    obtain ⟨ev, hevm, hevt⟩ := hreg b (hb ▸ hbm)
    exact hd.unqueued ev (hev ▸ hevm) (hevt.trans hbt)

lemma next_of_failed {s t : System κ} {e : Error} {b : Action κ} {after : List (Action κ)}
    (hr : s.Leads (.finish (.error e) :: b :: after) t) :
    ∃ v, s.Leads [.finish (.error e), .next] v ∧ b = .next := by
  obtain ⟨u, hu, hafter⟩ := run_cons_eq_some.mp hr
  have hdispatching : ∃ time, u.control = .dispatching time := by
    cases step_sound hu with
    | finish status time record hc => exact ⟨time, rfl⟩
  obtain ⟨time, hdispatching⟩ := hdispatching
  obtain ⟨v, hv, -⟩ := run_cons_eq_some.mp hafter
  have hb : b = .next := by
    cases b <;> simp_all [step]
  subst hb
  exact ⟨v, run_cons_eq_some.mpr ⟨u, hu, by simp [run_cons, hv]⟩, rfl⟩

lemma NothingLost.succeeds {firstSequence : EventSequenceId} {now : ℤ}
    (hnow : 0 ≤ now ∧ now ≤ kMax) {h : List (Action κ)} {s : System κ}
    (hr : Runs firstSequence now h s) (ho : s.OutsideDispatch)
    (hkeep : NothingLost firstSequence now h) : ∀ a ∈ h, ∀ e, a ≠ .finish (.error e) := by
  intro a ha e heq
  subst heq
  obtain ⟨before, after, rfl⟩ := List.append_of_mem ha
  obtain ⟨m, hm, hm'⟩ := run_append_eq_some.mp hr
  have hminv : m.Inv := Runs.inv hnow hm
  rcases after with _ | ⟨b, after⟩
  · -- the history cannot end at the failure, which is inside `DispatchTime`
    obtain ⟨u, hu, hafter⟩ := run_cons_eq_some.mp hm'
    rw [run_nil, Option.some.injEq] at hafter
    subst hafter
    cases step_sound hu with
    | finish status time record hc => rcases ho with ho | ho <;> cases ho
  · obtain ⟨v, hv, rfl⟩ := next_of_failed hm'
    obtain ⟨hvo, hvr⟩ := hminv.not_registered hv
    refine hvr (hkeep (before ++ [.finish (.error e), .next]) v ?_
      (run_append_eq_some.mpr ⟨m, hm, hv⟩) hvo).1
    exact ⟨after, by simp⟩

lemma nothingLost_of_succeeds {firstSequence : EventSequenceId} {now : ℤ}
    (hnow : 0 ≤ now ∧ now ≤ kMax) {h : List (Action κ)}
    (hok : ∀ a ∈ h, ∀ e, a ≠ .finish (.error e)) : NothingLost firstSequence now h := by
  intro p m hp hpm hmo
  have hpok : ∀ a ∈ p, Action.Succeeds a := by
    intro a ha
    cases a with
    | finish status =>
      rcases status with e | u
      · exact absurd rfl (hok _ (hp.subset ha) e)
      · rfl
    | _ => trivial
  obtain ⟨hinv, hhealthy⟩ := Healthy.run (inv_init firstSequence hnow)
    (healthy_init firstSequence now) hpok hpm
  refine ⟨hhealthy.registered_of_outside hmo, fun r hr => Or.inr
    (hhealthy.willExecute hinv hmo hr), ?_⟩
  rintro ⟨q, rfl⟩ -
  obtain ⟨u, hu, hstep⟩ := run_concat_eq_some.mp hpm
  obtain ⟨-, huok⟩ := Healthy.run (inv_init firstSequence hnow)
    (healthy_init firstSequence now) (fun a ha => hpok a (by simp [ha])) hu
  rw [pendingEventCount_eq, EventDispatcher.pendingRecords, (huok.finishRun hstep).1]
  rfl

/-- **No accepted event is lost, exactly as long as no callback fails.** -/
theorem nothingLost_iff {firstSequence : EventSequenceId} {now : ℤ}
    (hnow : 0 ≤ now ∧ now ≤ kMax) {h : List (Action κ)} {s : System κ}
    (hr : Runs firstSequence now h s) (ho : s.OutsideDispatch) :
    NothingLost firstSequence now h ↔ ∀ a ∈ h, ∀ e, a ≠ .finish (.error e) :=
  ⟨fun hkeep => hkeep.succeeds hnow hr ho, fun hok => nothingLost_of_succeeds hnow hok⟩

lemma outsideDispatch_of_finishRun {firstSequence : EventSequenceId} {now : ℤ}
    (h : List (Action κ)) {s : System κ} (hr : Runs firstSequence now (h ++ [.finishRun]) s) :
    s.OutsideDispatch := by
  obtain ⟨m, -, hstep⟩ := run_concat_eq_some.mp hr
  cases step_sound hstep with
  | finishRun hc hreturn => exact Or.inl rfl

/-- Two events of one timestamp, executed by one `Run`. -/
def keptHistory : List (Action Unit) :=
  let time : SimTime := .ofUInt32 0
  [.scheduleAt time .kInputReady (some ()), .scheduleAt time .kTxStart (some ()), .run,
    .fire ⟨0, time⟩, .next, .finish (.ok ()), .next, .finish (.ok ()), .next, .finishRun]

theorem nothingLost_kept : NothingLost ⟨0⟩ 0 keptHistory := by
  obtain ⟨s, hs⟩ : ∃ s, Runs ⟨0⟩ 0 keptHistory s :=
    Option.isSome_iff_exists.mp (by decide +kernel)
  have ho : s.OutsideDispatch := outsideDispatch_of_finishRun keptHistory.dropLast hs
  exact (nothingLost_iff (by decide) hs ho).mpr (by simp [keptHistory])

/-- The first of two events of one timestamp fails, a third is scheduled for it, and `Run` is
called again. -/
def failedHistory : List (Action Unit) :=
  let time : SimTime := .ofUInt32 0
  [.scheduleAt time .kInputReady (some ()), .scheduleAt time .kTxStart (some ()), .run,
    .fire ⟨0, time⟩, .next, .finish (.error ⟨.kInternal, "callback failed"⟩), .next, .finishRun,
    .scheduleAt time .kCycleClose (some ()), .run, .finishRun]

/-- The second `Run` succeeds with two of the three accepted events pending, and ns-3 has no
callback left to run them. -/
theorem failedHistory_loses :
    ∃ s, Runs ⟨0⟩ 0 failedHistory s ∧ s.RunSucceeded ∧
      s.kernel.dispatcher.pendingEventCount = 2 ∧ s.accepted.length = 3 ∧
      s.executed.length = 1 ∧ s.kernel.simulator.events = [] ∧
      ¬ NothingLost ⟨0⟩ 0 failedHistory := by
  have hrun : (run step (init ⟨0⟩ 0) failedHistory).map (fun s =>
      (s.runs.getLast?.map fun r => Result.succeeded r.result,
        s.kernel.dispatcher.pendingEventCount, s.accepted.length, s.executed.length,
        s.kernel.simulator.events)) = some (some true, 2, 3, 1, []) := by
    decide +kernel
  obtain ⟨s, hs, hval⟩ := Option.map_eq_some_iff.mp hrun
  simp only [Prod.mk.injEq, Option.map_eq_some_iff] at hval
  obtain ⟨⟨r, hlast, hr⟩, hpending, haccepted, hexecuted, hevents⟩ := hval
  have hsucc : s.RunSucceeded := by
    rcases hres : r.result with e | u
    · simp [hres] at hr
    · exact ⟨r, hlast, hres⟩
  have ho : s.OutsideDispatch := outsideDispatch_of_finishRun failedHistory.dropLast hs
  refine ⟨s, hs, hsucc, hpending, haccepted, hexecuted, hevents, fun hkeep => ?_⟩
  have := (hkeep failedHistory s (List.prefix_refl _) hs ho).2.2
    ⟨failedHistory.dropLast, rfl⟩ hsucc
  rw [hpending] at this
  exact absurd this (by decide)

end System

end Ns3Factory
