import Ns3Factory.DispatchOrder
import Ns3Factory.FinishedEvents
import Ns3Factory.RunTermination

/-!
The fate of an accepted event, in histories with failures.

A callback that fails leaves the bucket of its time behind without an ns-3 callback, and no
later call brings one back: what waits there, or is filed there later, is never executed.
Every other bucket keeps its ns-3 callback, so whatever else is pending is executed by the next
`Run` whose callbacks succeed.
-/

namespace Ns3Factory.System

open StdAlgorithm Transition

variable {κ : Type*}

/-- The callbacks that have returned, in order, with what they returned. -/
def returned (s : System κ) : List (EventKey × Status) :=
  s.runs.flatMap RunRecord.returned ++
    match s.control with
    | .idle => []
    | _ => s.current

/-- The callback of an event at this time has returned an error. -/
def FailedAt (s : System κ) (time : SimTime) : Prop :=
  ∃ key e, (key, .error e) ∈ s.returned ∧ key.time = time

lemma returned_of_step {s t : System κ} {a : Action κ} (hinv : s.Inv)
    (hstep : s.step a = some t) :
    ((∀ status, a ≠ .finish status) ∧ t.returned = s.returned) ∨
    ∃ status time record, a = .finish status ∧ s.control = .calling time record ∧
      t.returned = s.returned ++ [(record.key, status)] := by
  cases step_sound hstep with
  | scheduleAt time phase callback hc =>
    refine Or.inl ⟨by simp, ?_⟩
    rcases scheduleAt_cases hinv.queue.readable time phase callback with
      ⟨⟨e, he⟩, -⟩ | ⟨cb, next, exhausted, -, -, -, -, -, hok⟩
    · rw [he]
    · rw [hok]; rfl
  | run hc => exact Or.inl ⟨by simp, by simp [returned, hc]⟩
  | fire event hc hf => exact Or.inl ⟨by simp, by simp [returned, hc]⟩
  | leave time kernel hc hn => exact Or.inl ⟨by simp, by simp [returned, hc]⟩
  | call time kernel record hc hn => exact Or.inl ⟨by simp, by simp [returned, hc]⟩
  | finish status time record hc =>
    exact Or.inr ⟨status, time, record, rfl, hc, by simp [returned, hc]⟩
  | finishRun hc hr => exact Or.inl ⟨by simp, by simp [returned, hc]⟩

lemma failedAt_of_step {s t : System κ} {a : Action κ} (hinv : s.Inv)
    (hstep : s.step a = some t) {time : SimTime} :
    t.FailedAt time ↔ s.FailedAt time ∨ ∃ e at' record, a = .finish (.error e) ∧
      s.control = .calling at' record ∧ record.key.time = time := by
  rcases returned_of_step hinv hstep with ⟨hno, hkeep⟩ | ⟨status, at', record, rfl, hc, hmore⟩
  · unfold FailedAt
    rw [hkeep]
    refine ⟨Or.inl, fun h => h.resolve_right ?_⟩
    rintro ⟨e, at', record, ha, -⟩
    exact hno _ ha
  · unfold FailedAt
    simp only [hmore, List.mem_append, List.mem_singleton, Prod.mk.injEq]
    constructor
    · rintro ⟨key, e, hmem | ⟨rfl, rfl⟩, htime⟩
      · exact Or.inl ⟨key, e, hmem, htime⟩
      · exact Or.inr ⟨e, at', record, rfl, hc, htime⟩
    · rintro (⟨key, e, hmem, htime⟩ | ⟨e, at'', record', ha, hc', htime⟩)
      · exact ⟨key, e, Or.inl hmem, htime⟩
      · rw [hc] at hc'
        cases hc'
        exact ⟨record.key, e, Or.inr ⟨rfl, (Action.finish.inj ha).symm⟩, htime⟩

lemma FailedAt.step {s t : System κ} {a : Action κ} {time : SimTime} (h : s.FailedAt time)
    (hinv : s.Inv) (hstep : s.step a = some t) : t.FailedAt time :=
  (failedAt_of_step hinv hstep).mpr (Or.inl h)

/-! ### Times that are served and times that are dead -/

/-- ns-3 has a callback for the time, or it is being dispatched. -/
def Served (s : System κ) (time : SimTime) : Prop :=
  (∃ e ∈ s.kernel.simulator.events, e.time = time) ∨ s.control = .dispatching time ∨
    ∃ record, s.control = .calling time record

/-- A bucket that no ns-3 callback serves any more. -/
structure Dead (s : System κ) (time : SimTime) : Prop where
  bucket : ∃ b ∈ s.kernel.dispatcher.buckets, b.time = time
  unqueued : ∀ e ∈ s.kernel.simulator.events, e.time ≠ time
  notCalling : ∀ record, s.control ≠ .calling time record
  leaving : s.control = .dispatching time → s.kernel.dispatcher.executionError.isSome

/-- Buckets are served unless a callback has failed at their time, and then they are dead. -/
structure FateInv (s : System κ) : Prop where
  halted : s.kernel.dispatcher.executionError.isSome → s.kernel.simulator.stopped = true
  failing : ∀ time, s.control = .dispatching time →
    s.kernel.dispatcher.executionError.isSome → s.FailedAt time
  served : ∀ b ∈ s.kernel.dispatcher.buckets, s.Served b.time ∨ s.FailedAt b.time
  dead : ∀ time, s.FailedAt time → s.Dead time

lemma fateInv_init (firstSequence : EventSequenceId) (now : ℤ) :
    FateInv (init (κ := κ) firstSequence now) where
  halted := by simp [init, EventDispatcher.create]
  failing := by simp [init]
  served := by simp [init, EventDispatcher.create]
  dead := by simp [FailedAt, returned, init]

lemma mem_events_accept {k : Kernel κ} {next : IdentityValue} {exhausted : Bool}
    {record : EventRecord κ} {e : Ns3Event} :
    e ∈ (k.accept next exhausted record).simulator.events ↔ e ∈ k.simulator.events ∨
      k.dispatcher.findBucket record.key.time = none ∧
        e = ⟨record.key.time.nanoseconds, record.key.time⟩ := by
  rcases hb : k.dispatcher.findBucket record.key.time with _ | bucket
  · simp [Kernel.accept, hb]
  · rw [k.accept_simulator next exhausted hb]
    simp

lemma Served.accept {s : System κ} {time : SimTime} (h : s.Served time) (next : IdentityValue)
    (exhausted : Bool) (record : EventRecord κ) (accepted : List (EventRecord κ)) :
    Served { s with kernel := s.kernel.accept next exhausted record, accepted := accepted }
      time := by
  refine h.imp_left ?_
  rintro ⟨e, he, htime⟩
  exact ⟨e, mem_events_accept.mpr (Or.inl he), htime⟩

lemma Dead.accept {s : System κ} {time : SimTime} (hinv : s.Inv) (h : s.Dead time)
    (next : IdentityValue) (exhausted : Bool) (record : EventRecord κ)
    (accepted : List (EventRecord κ)) :
    Dead { s with kernel := s.kernel.accept next exhausted record, accepted := accepted }
      time := by
  have hasc := hinv.buckets.ascending
  refine ⟨exists_setRecords hasc (Or.inr h.bucket), fun e he => ?_, h.notCalling, h.leaving⟩
  rcases mem_events_accept.mp he with he | ⟨hnone, rfl⟩
  · exact h.unqueued e he
  · obtain ⟨b, hb, hbt⟩ := h.bucket
    rw [← hbt]
    exact ((lookup_eq_none hasc).mp hnone b hb).symm

lemma FateInv.scheduleAt {s : System κ} (hinv : s.Inv) (h : s.FateInv) (time : SimTime)
    (phase : EventPhase) (callback : Option κ) :
    (s.scheduleAt time phase callback).2.FateInv := by
  rcases scheduleAt_cases hinv.queue.readable time phase callback with
    ⟨⟨e, he⟩, -⟩ | ⟨cb, next, exhausted, -, -, -, -, -, hok⟩
  · rw [he]; exact h
  rw [hok]
  have hasc := hinv.buckets.ascending
  refine ⟨fun herr => ?_, h.failing, fun b hb => ?_,
    fun at' hfail => (h.dead at' hfail).accept hinv next exhausted _ _⟩
  · have hstopped := h.halted herr
    simp only [Kernel.accept]
    split_ifs
    · exact hstopped
    · exact hstopped
  · rcases (mem_setRecords hasc).mp hb with rfl | ⟨hb, -⟩
    · rcases hfind : s.kernel.dispatcher.findBucket time with _ | bucket
      · exact Or.inl (Or.inl ⟨_, mem_events_accept.mpr (Or.inr ⟨hfind, rfl⟩), rfl⟩)
      · obtain ⟨hmem, htime⟩ := (lookup_eq_some hasc).mp hfind
        have hserved := h.served bucket hmem
        rw [htime] at hserved
        exact hserved.imp_left fun hs => hs.accept next exhausted _ _
    · exact (h.served b hb).imp_left fun hs => hs.accept next exhausted _ _

lemma Served.queued {s : System κ} {time : SimTime} (h : s.Served time) (ho : s.OutsideDispatch) :
    ∃ e ∈ s.kernel.simulator.events, e.time = time := by
  rcases h with he | hc | ⟨r, hc⟩
  · exact he
  · rcases ho with ho | ho <;> rw [hc] at ho <;> cases ho
  · rcases ho with ho | ho <;> rw [hc] at ho <;> cases ho

lemma FateInv.fire {s : System κ} (h : s.FateInv) {event : Ns3Event}
    (hc : s.control = .running) (hf : s.kernel.simulator.CanFire event)
    {t : System κ} (hstep : s.step (.fire event) = some t)
    (hfailed : ∀ time, t.FailedAt time ↔ s.FailedAt time) : t.FateInv := by
  have herr : ¬ s.kernel.dispatcher.executionError.isSome := fun hsome => by
    have hstopped := h.halted hsome
    rw [hf.1] at hstopped
    cases hstopped
  cases step_sound hstep with
  | fire _ _ _ =>
    refine ⟨fun hsome => absurd hsome herr, fun _ _ hsome => absurd hsome herr, fun b hb => ?_,
      fun time hfail => ?_⟩
    · refine (h.served b hb).imp (fun hs => ?_) (hfailed b.time).mpr
      obtain ⟨e, he, htime⟩ := hs.queued (Or.inr hc)
      by_cases heq : e = event
      · rw [← htime, heq]
        exact Or.inr (Or.inl rfl)
      · exact Or.inl ⟨e, (List.mem_erase_of_ne heq).mpr he, htime⟩
    · have hdead := h.dead time ((hfailed time).mp hfail)
      refine ⟨hdead.bucket, fun e he => hdead.unqueued e (List.mem_of_mem_erase he),
        fun r hr => (by cases hr), fun hdispatch => ?_⟩
      -- ns-3 had no callback for a dead time
      exact absurd (Control.dispatching.inj hdispatch) (hdead.unqueued event hf.2.1)

lemma FateInv.leave {s t : System κ} (hinv : s.Inv) (h : s.FateInv) {time : SimTime}
    {kernel : Kernel κ} (hc : s.control = .dispatching time)
    (hn : s.kernel.nextRecord time = (none, kernel))
    (ht : t = { s with kernel := kernel.leaveDispatchTime, control := .running })
    (hfailed : ∀ time, t.FailedAt time ↔ s.FailedAt time) : t.FateInv := by
  have hasc := hinv.buckets.ascending
  have hserved : ∀ at', s.Served at' → at' ≠ time → (∃ e ∈ s.kernel.simulator.events,
      e.time = at') := by
    rintro at' (he | hd | ⟨r, hd⟩) hne
    · exact he
    · rw [hc] at hd
      exact absurd (Control.dispatching.inj hd).symm hne
    · rw [hc] at hd
      cases hd
  subst ht
  rcases nextRecord_cases hasc time with ⟨herr, he⟩ | ⟨hnone, -, he⟩ | ⟨-, m, rest, -, -, he⟩ <;>
    rw [he] at hn <;> cases hn
  · have hfail : s.FailedAt time := h.failing time hc herr
    refine ⟨h.halted, fun _ hd => (by cases hd), fun b hb => ?_, fun at' hfail' => ?_⟩
    · by_cases htime : b.time = time
      · exact Or.inr ((hfailed b.time).mpr (htime ▸ hfail))
      · exact (h.served b hb).imp (fun hs => Or.inl (hserved b.time hs htime))
          (hfailed b.time).mpr
    · have hdead := h.dead at' ((hfailed at').mp hfail')
      exact ⟨hdead.bucket, hdead.unqueued, fun _ hr => (by cases hr), fun hd => (by cases hd)⟩
  · refine ⟨h.halted, fun _ hd => (by cases hd), fun b hb => ?_, fun at' hfail' => ?_⟩
    · obtain ⟨hb, htime⟩ := (mem_eraseKey hasc).mp hb
      exact (h.served b hb).imp (fun hs => Or.inl (hserved b.time hs htime))
        (hfailed b.time).mpr
    · have hdead := h.dead at' ((hfailed at').mp hfail')
      obtain ⟨b, hb, hbt⟩ := hdead.bucket
      refine ⟨⟨b, (mem_eraseKey hasc).mpr ⟨hb, fun htime => ?_⟩, hbt⟩, hdead.unqueued,
        fun _ hr => (by cases hr), fun hd => (by cases hd)⟩
      -- the loop leaves a dead time with the error only
      have hsome := hdead.leaving (by rw [hc, ← hbt, htime])
      rw [hnone] at hsome
      cases hsome

lemma FateInv.call {s t : System κ} (hinv : s.Inv) (h : s.FateInv) {time : SimTime}
    {kernel : Kernel κ} {record : EventRecord κ} (hc : s.control = .dispatching time)
    (hn : s.kernel.nextRecord time = (some record, kernel))
    (ht : t = { s with
      kernel := kernel
      control := .calling time record
      executed := s.executed ++ [record] })
    (hfailed : ∀ time, t.FailedAt time ↔ s.FailedAt time) : t.FateInv := by
  have hasc := hinv.buckets.ascending
  subst ht
  rcases nextRecord_cases hasc time with ⟨-, he⟩ | ⟨-, -, he⟩ | ⟨hnone, m, rest, -, -, he⟩ <;>
    rw [he] at hn <;> cases hn
  refine ⟨h.halted, fun _ hd => (by cases hd), fun b hb => ?_, fun at' hfail' => ?_⟩
  · rcases (mem_setRecords hasc).mp hb with rfl | ⟨hb, -⟩
    · exact Or.inl (Or.inr (Or.inr ⟨record, rfl⟩))
    · refine (h.served b hb).imp (fun hs => ?_) (hfailed b.time).mpr
      rcases hs with he | hd | ⟨r, hd⟩
      · exact Or.inl he
      · rw [hc] at hd
        rw [← Control.dispatching.inj hd]
        exact Or.inr (Or.inr ⟨record, rfl⟩)
      · rw [hc] at hd
        cases hd
  · have hdead := h.dead at' ((hfailed at').mp hfail')
    refine ⟨exists_setRecords hasc (Or.inr hdead.bucket), hdead.unqueued, fun r hr => ?_,
      fun hd => (by cases hd)⟩
    -- at a dead time the loop takes no record any more
    have hsome := hdead.leaving (by rw [hc, (Control.calling.inj hr).1])
    rw [hnone] at hsome
    cases hsome

lemma FateInv.finish {s t : System κ} (hsound : s.Sound) (h : s.FateInv) {time : SimTime}
    {record : EventRecord κ} {status : Status} (hc : s.control = .calling time record)
    (ht : t = { s with
      kernel := s.kernel.finishCallback status
      control := .dispatching time
      current := s.current ++ [(record.key, status)] })
    (hfailed : ∀ time, t.FailedAt time ↔ s.FailedAt time ∨ ∃ e at' record,
      (Action.finish status : Action κ) = .finish (.error e) ∧ s.control = .calling at' record ∧
        record.key.time = time) : t.FateInv := by
  have htime : record.key.time = time := (hsound.calling time record hc).2
  have hctl := hsound.inv.control
  rw [ControlInv, hc] at hctl
  obtain ⟨hd, hnone, -⟩ := hctl
  have hserved : ∀ at', s.Served at' → t.Served at' := by
    subst ht
    rintro at' (he | hcall | ⟨r, hcall⟩)
    · refine Or.inl ?_
      rcases status with e | u <;> exact he
    · rw [hc] at hcall
      cases hcall
    · rw [hc] at hcall
      rw [(Control.calling.inj hcall).1]
      exact Or.inr (Or.inl rfl)
  have hold : ∀ b ∈ s.kernel.dispatcher.buckets, t.Served b.time ∨ t.FailedAt b.time :=
    fun b hb => (h.served b hb).imp (hserved b.time) fun hfail =>
      (hfailed b.time).mpr (Or.inl hfail)
  subst ht
  rcases status with e | u
  · refine ⟨fun _ => rfl, fun at' hcall _ => ?_, hold, fun at' hfail => ?_⟩
    · rw [← Control.dispatching.inj hcall]
      exact (hfailed time).mpr (Or.inr ⟨e, time, record, rfl, hc, htime⟩)
    · refine ⟨?_, ?_, fun _ hr => (by cases hr), fun _ => rfl⟩
      all_goals rcases (hfailed at').mp hfail with hfail | ⟨-, at'', record', -, hc', rfl⟩
      · exact (h.dead at' hfail).bucket
      · rw [hc] at hc'
        cases hc'
        exact htime ▸ hd.bucket
      · exact (h.dead at' hfail).unqueued
      · rw [hc] at hc'
        cases hc'
        exact htime ▸ hd.unqueued
  · refine ⟨h.halted, fun at' _ hsome => ?_, hold, fun at' hfail => ?_⟩
    · have hsome' : s.kernel.dispatcher.executionError.isSome := hsome
      rw [hnone] at hsome'
      cases hsome'
    · rcases (hfailed at').mp hfail with hfail | ⟨e, -, -, herr, -⟩
      · have hdead := h.dead at' hfail
        refine ⟨hdead.bucket, hdead.unqueued, fun _ hr => (by cases hr), fun hcall => ?_⟩
        rw [← Control.dispatching.inj hcall] at hdead
        exact absurd hc (hdead.notCalling record)
      · cases herr

theorem FateInv.step {s t : System κ} {a : Action κ} (hsound : s.Sound) (h : s.FateInv)
    (hstep : s.step a = some t) : t.FateInv := by
  have hinv := hsound.inv
  have hfailed : ∀ time, t.FailedAt time ↔ s.FailedAt time ∨ ∃ e at' record,
      a = .finish (.error e) ∧ s.control = .calling at' record ∧ record.key.time = time :=
    fun _ => failedAt_of_step hinv hstep
  cases step_sound hstep with
  | scheduleAt time phase callback hc => exact h.scheduleAt hinv time phase callback
  | run hc =>
    have hkeep : ∀ time, FailedAt { s with
        kernel := s.kernel.beginRun, control := .running, current := [] } time ↔
          s.FailedAt time := by simpa using hfailed
    refine ⟨fun hsome => (by cases hsome), fun _ hd => (by cases hd), fun b hb => ?_,
      fun time hfail => ?_⟩
    · exact (h.served b hb).imp (fun hs => Or.inl (hs.queued (Or.inl hc))) (hkeep b.time).mpr
    · have hdead := h.dead time ((hkeep time).mp hfail)
      exact ⟨hdead.bucket, hdead.unqueued, fun _ hr => (by cases hr), fun hd => (by cases hd)⟩
  | fire event hc hf => exact h.fire hc hf hstep (by simpa using hfailed)
  | leave time kernel hc hn => exact h.leave hinv hc hn rfl (by simpa using hfailed)
  | call time kernel record hc hn => exact h.call hinv hc hn rfl (by simpa using hfailed)
  | finish status time record hc => exact h.finish hsound hc rfl hfailed
  | finishRun hc hr =>
    have hkeep : ∀ time, FailedAt { s with
        control := .idle, runs := s.runs ++ [⟨s.current, s.kernel.runStatus⟩] } time ↔
          s.FailedAt time := by simpa using hfailed
    refine ⟨h.halted, fun _ hd => (by cases hd), fun b hb => ?_, fun time hfail => ?_⟩
    · exact (h.served b hb).imp (fun hs => Or.inl (hs.queued (Or.inr hc))) (hkeep b.time).mpr
    · have hdead := h.dead time ((hkeep time).mp hfail)
      exact ⟨hdead.bucket, hdead.unqueued, fun _ hr => (by cases hr), fun hd => (by cases hd)⟩

lemma FateInv.leads {s t : System κ} (hsound : s.Sound) (h : s.FateInv) {later : List (Action κ)}
    (hr : s.Leads later t) : t.Sound ∧ t.FateInv :=
  run_invariant (P := fun s => s.Sound ∧ s.FateInv) (A := fun _ => True)
    (fun _ _ _ hs _ hstep => ⟨hs.1.step hstep, hs.2.step hs.1 hstep⟩) ⟨hsound, h⟩
    (fun _ _ => trivial) hr

/-! ### Events at a time where a callback has failed -/

lemma FailedAt.not_called {s t : System κ} {a : Action κ} (hsound : s.Sound) (h : s.FateInv)
    {record : EventRecord κ} (hfail : s.FailedAt record.key.time) (hno : record ∉ s.executed)
    (hstep : s.step a = some t) : record ∉ t.executed := by
  have htsound := hsound.step hstep
  cases step_sound hstep with
  | scheduleAt time phase callback hc =>
    rcases scheduleAt_cases hsound.inv.queue.readable time phase callback with
      ⟨⟨e, he⟩, -⟩ | ⟨cb, next, exhausted, -, -, -, -, -, hok⟩
    · rw [he]; exact hno
    · rw [hok]; exact hno
  | call time kernel called hc hn =>
    intro hmem
    rcases List.mem_append.mp hmem with hmem | hmem
    · exact hno hmem
    · -- the loop of a dead time takes nothing: it holds an error
      rw [List.mem_singleton.mp hmem] at hfail
      have htime := (htsound.calling time called rfl).2
      have herr := (h.dead called.key.time hfail).leaving (by rw [hc, htime])
      simp [Kernel.nextRecord, herr] at hn
  | _ => exact hno

lemma FailedAt.never {s t : System κ} (hsound : s.Sound) (h : s.FateInv)
    {record : EventRecord κ} (hfail : s.FailedAt record.key.time) (hno : record ∉ s.executed)
    {later : List (Action κ)} (hr : s.Leads later t) : record ∉ t.executed :=
  (run_invariant (A := fun _ => True)
    (P := fun s => s.Sound ∧ s.FateInv ∧ s.FailedAt record.key.time ∧ record ∉ s.executed)
    (fun _ _ _ hs _ hstep => ⟨hs.1.step hstep, hs.2.1.step hs.1 hstep,
      hs.2.2.1.step hs.1.inv hstep, hs.2.2.1.not_called hs.1 hs.2.1 hs.2.2.2 hstep⟩)
    ⟨hsound, h, hfail, hno⟩ (fun _ _ => trivial) hr).2.2.2

/-! ### Events at the other times -/

/-- ns-3 is not stopped inside a `Run` whose callbacks have succeeded. -/
def Undisturbed (s : System κ) : Prop := s.control ≠ .idle → s.kernel.simulator.stopped = false

lemma Undisturbed.step {s t : System κ} {a : Action κ} (hinv : s.Inv) (h : s.Undisturbed)
    (ha : a.Succeeds) (hstep : s.step a = some t) : t.Undisturbed := by
  cases step_sound hstep with
  | scheduleAt time phase callback hc =>
    rcases scheduleAt_cases hinv.queue.readable time phase callback with
      ⟨⟨e, he⟩, -⟩ | ⟨cb, next, exhausted, -, -, -, -, -, hok⟩
    · rw [he]; exact h
    · rw [hok]
      intro hne
      have hstopped := h hne
      simp only [Kernel.accept]
      split_ifs
      · exact hstopped
      · exact hstopped
  | run hc => exact fun _ => rfl
  | fire event hc hf => exact fun _ => hf.1
  | leave time kernel hc hn =>
    intro _
    have hsim := (pending_leave hinv hn).1
    have hstopped := h (by simp [hc])
    rwa [← hsim] at hstopped
  | call time kernel record hc hn =>
    intro _
    have hsim := (pending_call hinv hn).1
    have hstopped := h (by simp [hc])
    rwa [← hsim] at hstopped
  | finish status time record hc =>
    intro _
    rcases status with e | u
    · cases ha
    · exact h (by simp [hc])
  | finishRun hc hr => exact fun hne => absurd rfl hne

lemma FailedAt.of_step {s t : System κ} {a : Action κ} (hinv : s.Inv) (ha : a.Succeeds)
    (hstep : s.step a = some t) {time : SimTime} (h : t.FailedAt time) : s.FailedAt time := by
  rcases (failedAt_of_step hinv hstep).mp h with h | ⟨e, -, -, rfl, -⟩
  · exact h
  · cases ha

/-- What holds of a pending event until a `Run` has returned. -/
structure Due (record : EventRecord κ) (s : System κ) : Prop where
  sound : s.Sound
  fate : s.FateInv
  undisturbed : s.Undisturbed
  unfailed : ¬ s.FailedAt record.key.time
  accepted : record ∈ s.accepted

lemma Due.step {record : EventRecord κ} {s t : System κ} {a : Action κ} (h : Due record s)
    (ha : a.Succeeds) (hstep : s.step a = some t) : Due record t where
  sound := h.sound.step hstep
  fate := h.fate.step h.sound hstep
  undisturbed := h.undisturbed.step h.sound.inv ha hstep
  unfailed := fun hfail => h.unfailed (hfail.of_step h.sound.inv ha hstep)
  accepted := step_accepted h.sound.inv hstep h.accepted

lemma Due.executed {record : EventRecord κ} {s t : System κ} (h : Due record s)
    (hstep : s.step .finishRun = some t) : record ∈ t.executed := by
  cases step_sound hstep with
  | finishRun hc hr =>
    have hempty : s.kernel.simulator.events = [] :=
      hr.resolve_left (by simp [h.undisturbed (by simp [hc])])
    have hmem := h.sound.inv.conserved.mem_iff.mp h.accepted
    refine (List.mem_append.mp hmem).resolve_right fun hpending => ?_
    -- its bucket would still have an ns-3 callback
    obtain ⟨b, hb, hrec⟩ := List.mem_flatMap.mp hpending
    have htime := h.sound.inv.buckets.keyed b hb record hrec
    rcases h.fate.served b hb with hserved | hfail
    · obtain ⟨e, he, -⟩ := hserved.queued (Or.inr hc)
      rw [hempty] at he
      cases he
    · exact h.unfailed (htime ▸ hfail)

lemma FateInv.willExecute {s : System κ} (hsound : s.Sound) (h : s.FateInv)
    (hidle : s.control = .idle) {record : EventRecord κ} (hmem : record ∈ s.accepted)
    (hok : ¬ s.FailedAt record.key.time) : s.WillExecute record := by
  have hdue : Due record s := ⟨hsound, h, fun hne => absurd hidle hne, hok, hmem⟩
  have hexec : ∀ later t, (∀ a ∈ later, Action.Succeeds a) → s.Leads (later ++ [.finishRun]) t →
      record ∈ t.executed := by
    intro later t hlater ht
    obtain ⟨m, hm, hstep⟩ := run_concat_eq_some.mp ht
    exact (run_invariant (fun _ _ _ hs ha hstep => hs.step ha hstep) hdue hlater hm :
      Due record m).executed hstep
  refine ⟨hexec, ?_⟩
  have hbegin : ∃ m, s.step .run = some m ∧ m.control ≠ .idle :=
    ⟨_, step_iff.mpr (.run hidle), by simp⟩
  obtain ⟨m, hm, hmc⟩ := hbegin
  obtain ⟨later, t, hlater, -, ht⟩ := (hsound.inv.step hm).returns hmc
  have hall : ∀ a ∈ (.run :: later : List (Action κ)), Action.Succeeds a :=
    List.forall_mem_cons.mpr ⟨trivial, fun a ha => (hlater a ha).2⟩
  have hleads : s.Leads ((.run :: later) ++ [.finishRun]) t := run_cons_eq_some.mpr ⟨m, hm, ht⟩
  exact ⟨.run :: later, t, hall, hleads, hexec _ t hall hleads⟩

/-- **The fate of an event.** Outside `Run`, an accepted event that has not been executed is
either at a time where a callback has failed, and then no later calls make the dispatcher
execute it; or at another time, and then the next `Run` whose callbacks succeed executes it. -/
theorem event_fate {firstSequence : EventSequenceId} {now : ℤ}
    (hnow : 0 ≤ now ∧ now ≤ kMax) {h : List (Action κ)} {s : System κ}
    (hr : Runs firstSequence now h s) (hidle : s.control = .idle) {record : EventRecord κ}
    (hmem : record ∈ s.accepted) (hno : record ∉ s.executed) :
    (s.FailedAt record.key.time ∧ ∀ later t, s.Leads later t →
      record ∉ t.executed ∧ record ∈ t.kernel.dispatcher.pendingRecords) ∨
    (¬ s.FailedAt record.key.time ∧ s.WillExecute record) := by
  obtain ⟨hsound, hfate⟩ :=
    (fateInv_init firstSequence now).leads (sound_init firstSequence hnow) hr
  by_cases hfail : s.FailedAt record.key.time
  · refine Or.inl ⟨hfail, fun later t ht => ?_⟩
    have hnever := hfail.never hsound hfate hno ht
    have hkept := run_accepted hsound.inv ht hmem
    have hsplit := (hsound.leads ht).inv.conserved.mem_iff.mp hkept
    exact ⟨hnever, (List.mem_append.mp hsplit).resolve_left hnever⟩
  · exact Or.inr ⟨hfail, hfate.willExecute hsound hidle hmem hfail⟩

/-- The first of two events at time 0 fails; the event at time 1 waits for the next `Run`. -/
def halfFailedHistory : List (Action Unit) :=
  let time : SimTime := .ofUInt32 0
  [.scheduleAt time .kInputReady (some ()), .scheduleAt time .kTxStart (some ()),
    .scheduleAt (.ofUInt32 1) .kInputReady (some ()), .run, .fire ⟨0, time⟩, .next,
    .finish (.error ⟨.kInternal, "callback failed"⟩), .next, .finishRun]

theorem event_fate_halfFailed :
    ∃ s : System Unit, Runs ⟨0⟩ 0 halfFailedHistory s ∧
      (∀ later t, s.Leads later t → ⟨⟨.ofUInt32 0, .kTxStart, ⟨1⟩⟩, ()⟩ ∉ t.executed) ∧
      s.WillExecute ⟨⟨.ofUInt32 1, .kInputReady, ⟨2⟩⟩, ()⟩ := by
  have hrun : (run step (init ⟨0⟩ 0) halfFailedHistory).map (fun s : System Unit =>
      (s.accepted.map EventRecord.key, s.executed.map EventRecord.key,
        s.returned.map fun p => (p.1, Result.succeeded p.2))) =
      some ([⟨.ofUInt32 0, .kInputReady, ⟨0⟩⟩, ⟨.ofUInt32 0, .kTxStart, ⟨1⟩⟩,
        ⟨.ofUInt32 1, .kInputReady, ⟨2⟩⟩], [⟨.ofUInt32 0, .kInputReady, ⟨0⟩⟩],
        [(⟨.ofUInt32 0, .kInputReady, ⟨0⟩⟩, false)]) := by
    decide +kernel
  obtain ⟨s, hs, hval⟩ := Option.map_eq_some_iff.mp hrun
  simp only [Prod.mk.injEq] at hval
  obtain ⟨haccepted, hexecuted, hreturned⟩ := hval
  have hidle : s.control = .idle := by
    have hlast : Runs ⟨0⟩ 0 (halfFailedHistory.dropLast ++ [.finishRun]) s := hs
    obtain ⟨m, -, hstep⟩ := run_concat_eq_some.mp hlast
    cases step_sound hstep with
    | finishRun hc hr => rfl
  have hmem : ∀ key, key ∈ s.accepted.map EventRecord.key → ⟨key, ()⟩ ∈ s.accepted := by
    intro key hkey
    obtain ⟨r, hr, rfl⟩ := List.mem_map.mp hkey
    exact hr
  have hno : ∀ key, key ∉ s.executed.map EventRecord.key → ⟨key, ()⟩ ∉ s.executed :=
    fun key hkey hr => hkey (List.mem_map_of_mem hr)
  have hfailed : ∀ time, s.FailedAt time ↔ time = .ofUInt32 0 := by
    intro time
    constructor
    · rintro ⟨key, e, hr, rfl⟩
      have hkey := List.mem_map_of_mem (f := fun p => (p.1, Result.succeeded p.2)) hr
      rw [hreturned, List.mem_singleton] at hkey
      exact congrArg EventKey.time (Prod.mk.inj hkey).1
    · rintro rfl
      have hkey : (⟨.ofUInt32 0, .kInputReady, ⟨0⟩⟩, false) ∈
          s.returned.map fun p => (p.1, Result.succeeded p.2) := by simp [hreturned]
      obtain ⟨⟨key, status⟩, hr, heq⟩ := List.mem_map.mp hkey
      obtain ⟨rfl, hstatus⟩ := Prod.mk.inj heq
      rcases status with e | u
      · exact ⟨_, e, hr, rfl⟩
      · cases hstatus
  refine ⟨s, hs, fun later t ht => ?_, ?_⟩
  · rcases event_fate (by decide) hs hidle
      (hmem ⟨.ofUInt32 0, .kTxStart, ⟨1⟩⟩ (by simp [haccepted]))
      (hno _ (by simp [hexecuted, EventPhase.kTxStart, EventPhase.kInputReady])) with
      ⟨-, hnever⟩ | ⟨hok, -⟩
    · exact (hnever later t ht).1
    · exact absurd ((hfailed _).mpr rfl) hok
  · rcases event_fate (by decide) hs hidle (hmem ⟨.ofUInt32 1, .kInputReady, ⟨2⟩⟩
      (by simp [haccepted])) (hno _ (by simp [hexecuted])) with ⟨hfail, -⟩ | ⟨-, hwill⟩
    · exact absurd ((hfailed _).mp hfail) (by decide)
    · exact hwill

end Ns3Factory.System
