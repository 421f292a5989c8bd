import Ns3Factory.SignalLifecycle

/-!
A `Run` over events scheduled before it.

When all arrivals, finalizes and closes are scheduled before `Run`, their callbacks schedule
nothing more. `Run` then calls the handlers one after another in the order of time and phase,
up to the first that fails: it is a replay of the events, and always returns.
-/

namespace Ns3Factory

open StdAlgorithm Transition

/-- The state after a success. -/
def nextOf {σ : Type*} : Status × σ → Option σ
  | (.ok _, next) => some next
  | (.error _, _) => none

/-- The handler of an event scheduled for a time, when it succeeds. -/
def CycleSignalRuntime.handle [DoubleArithmetic] (providers : Providers) (r : CycleSignalRuntime) :
    SimTime × CycleEvent → Option CycleSignalRuntime
  | (time, .signalArrival signal) => nextOf (r.handleSignalArrival time signal)
  | (time, .sessionFinalize desiredSignal) =>
    nextOf (r.handleSessionFinalize providers time desiredSignal)
  | (time, .cycleClose) => nextOf (r.handleCycleClose time)
  | (_, .txStart _) | (_, .other _) => none

/-- The events of which the callback schedules nothing. -/
def CycleEvent.isHandled : CycleEvent → Bool
  | signalArrival _ | sessionFinalize _ | cycleClose => true
  | txStart _ | other _ => false

/-- An event and the time it is scheduled for. -/
def EventRecord.timed (record : EventRecord CycleEvent) : SimTime × CycleEvent :=
  (record.key.time, record.callback)

/-- What of the key is known before the event is scheduled. -/
def slot (e : SimTime × CycleEvent) : SimTime ×ₗ EventPhase := toLex (e.1, e.2.phase)

/-- The comparison of slots. -/
def slotLess (lhs rhs : SimTime × CycleEvent) : Bool := slot lhs < slot rhs

lemma slotLess_iff (lhs rhs : SimTime × CycleEvent) :
    slotLess lhs rhs = true ↔ slot lhs < slot rhs := by
  simp [slotLess]

lemma slot_le_of_lt {r r' : EventRecord CycleEvent} (h : r.key.phase = r.callback.phase)
    (h' : r'.key.phase = r'.callback.phase) (hlt : r.key < r'.key) :
    slot r.timed ≤ slot r'.timed := by
  unfold slot EventRecord.timed
  rw [Prod.Lex.toLex_le_toLex, ← h, ← h']
  rcases EventKey.lt_iff.mp hlt with ht | ⟨ht, hp⟩
  · exact Or.inl ht
  · exact Or.inr ⟨ht, hp.elim le_of_lt fun hs => hs.1.le⟩

/-- A move of the dispatcher inside `Run`. -/
def Move.isDispatch : Move → Bool
  | .fire _ | .next | .callback => true
  | _ => false

namespace SignalLifecycle

variable [DoubleArithmetic] {providers : Providers}

/-- A fresh dispatcher with events of the cycle scheduled, before `Run`. -/
structure Preset (c : SignalLifecycle) : Prop where
  sound : c.system.Sound
  idle : c.system.control = .idle
  unexecuted : c.system.executed = []
  runs : c.system.runs = []
  phase : ∀ record ∈ c.system.accepted, record.key.phase = record.callback.phase
  handled : ∀ record ∈ c.system.accepted, record.callback.isHandled = true

/-- One call of `Run`, from its beginning to its return. -/
def RunsTo (providers : Providers) (c : SignalLifecycle) (run : RunRecord)
    (c' : SignalLifecycle) : Prop :=
  ∃ moves : List Move, (∀ m ∈ moves, m.isDispatch = true) ∧
    Leads providers c (.run :: moves ++ [.finishRun]) c' ∧ c'.system.runs = c.system.runs ++ [run]

lemma call_of_isHandled (providers : Providers) (c : SignalLifecycle) (time : SimTime)
    {event : CycleEvent}
    (h : event.isHandled = true) :
    ∃ status next, c.call providers time event = some (status, { c with runtime := next }) ∧
      (status = .ok () ∧ c.runtime.handle providers (time, event) = some next ∨
        (∃ e, status = .error e) ∧ c.runtime.handle providers (time, event) = none) := by
  have hend : ∀ outcome : Status × CycleSignalRuntime,
      outcome.1 = .ok () ∧ nextOf outcome = some outcome.2 ∨
        (∃ e, outcome.1 = .error e) ∧ nextOf outcome = none := by
    rintro ⟨e | u, next⟩
    · exact Or.inr ⟨⟨e, rfl⟩, rfl⟩
    · exact Or.inl ⟨rfl, rfl⟩
  cases event with
  | signalArrival signal => exact ⟨_, _, rfl, hend (c.runtime.handleSignalArrival time signal)⟩
  | sessionFinalize desiredSignal =>
    exact ⟨_, _, rfl, hend (c.runtime.handleSessionFinalize providers time desiredSignal)⟩
  | cycleClose => exact ⟨_, _, rfl, hend (c.runtime.handleCycleClose time)⟩
  | txStart request => cases h
  | other phase => cases h

end SignalLifecycle

/-! ### The order of the events -/

namespace System

variable {κ : Type*}

lemma Healthy.pending_after {s : System κ} (h : s.Healthy) (hinv : s.Inv)
    {record earlier : EventRecord κ} (hr : record ∈ s.kernel.dispatcher.pendingRecords)
    (he : earlier ∈ s.executed) : earlier.key < record.key := by
  obtain ⟨bucket, hb, hr⟩ := List.mem_flatMap.mp hr
  have hctl := hinv.control
  unfold ControlInv at hctl
  have hnow : s.kernel.simulator.now ≤ bucket.time.nanoseconds := by
    rcases h.registered bucket hb with ⟨event, hevent, htime⟩ | hc | ⟨r, hc⟩
    · obtain ⟨hat, hle⟩ := hinv.queue.queued event hevent
      rwa [hat, htime] at hle
    · rw [hc] at hctl
      exact hctl.now.ge
    · rw [hc] at hctl
      exact hctl.1.now.ge
  exact hinv.ahead bucket hb hnow record hr earlier he

lemma dispatch_cases {s t : System κ} {a : Action κ} (hinv : s.Inv)
    (ha : (∃ event, a = .fire event) ∨ a = .next) (hstep : s.step a = some t) :
    t.kernel.dispatcher.executionError = s.kernel.dispatcher.executionError ∧
      t.runs = s.runs ∧ t.control ≠ .idle ∧ t.finished = s.finished ∧
      t.accepted = s.accepted := by
  have hdrives : Drives a := by rcases ha with ⟨event, rfl⟩ | rfl <;> trivial
  obtain ⟨hfin, hacc⟩ := finished_of_drives hdrives hstep
  cases step_sound hstep with
  | fire event hc hf => exact ⟨rfl, rfl, by simp, hfin, hacc⟩
  | leave time kernel hc hn =>
    have hkeep := nextRecord_executionError hinv.buckets.ascending hn
    exact ⟨hkeep, rfl, by simp, hfin, hacc⟩
  | call time kernel record hc hn =>
    have hkeep := nextRecord_executionError hinv.buckets.ascending hn
    exact ⟨hkeep, rfl, by simp, hfin, hacc⟩
  | scheduleAt | run | finish | finishRun => rcases ha with ⟨event, ha⟩ | ha <;> cases ha

lemma finish_cases {s t : System κ} {status : Status} (hinv : s.Inv)
    (hstep : s.step (.finish status) = some t) :
    t.runs = s.runs ∧ t.control ≠ .idle ∧ s.kernel.dispatcher.executionError = none ∧
      t.kernel.dispatcher.executionError =
        match status with
        | .ok _ => none
        | .error e => some e := by
  cases step_sound hstep with
  | finish status time record hc =>
    have hctl := hinv.control
    rw [ControlInv, hc] at hctl
    refine ⟨rfl, by simp, hctl.2.1, ?_⟩
    rcases status with e | u
    · rfl
    · exact hctl.2.1

lemma finishRun_cases {s t : System κ} (hstep : s.step .finishRun = some t) :
    t.runs = s.runs ++ [⟨s.current, s.kernel.runStatus⟩] ∧ t.control = .idle ∧
      t.executed = s.executed := by
  cases step_sound hstep with
  | finishRun hc hr => exact ⟨rfl, rfl, rfl⟩

lemma not_failed_of_executionError {s : System κ} (hruns : s.runs = [])
    (herr : s.kernel.dispatcher.executionError = none) : ¬ s.Failed := by
  rintro (⟨r, hr, -⟩ | ⟨-, hsome⟩)
  · rw [hruns] at hr; cases hr
  · rw [herr] at hsome; cases hsome

end System

namespace SignalLifecycle

variable [DoubleArithmetic] {providers : Providers}

/-- A `Run` that has begun at `start`: the runtime is what the handlers of the finished events
make of it; once one has failed, some order of all events fails. -/
structure Replaying (providers : Providers) (start c : SignalLifecycle) : Prop where
  sound : c.system.Sound
  inRun : c.system.control ≠ .idle
  runs : c.system.runs = []
  accepted : c.system.accepted = start.system.accepted
  ongoing : c.system.kernel.dispatcher.executionError = none →
    Transition.run (CycleSignalRuntime.handle providers) start.runtime
      (c.system.finished.map EventRecord.timed) = some c.runtime
  failed : ∀ e, c.system.kernel.dispatcher.executionError = some e →
    ∃ order, order.Perm (start.system.accepted.map EventRecord.timed) ∧
      order.Pairwise (fun a b => slot a ≤ slot b) ∧
      Transition.run (CycleSignalRuntime.handle providers) start.runtime order = none

lemma Replaying.order {start c : SignalLifecycle} (hstart : start.Preset)
    (h : Replaying providers start c)
    (herr : c.system.kernel.dispatcher.executionError = none) :
    ∃ rest, (c.system.executed.map EventRecord.timed ++ rest).Perm
        (start.system.accepted.map EventRecord.timed) ∧
      (c.system.executed.map EventRecord.timed ++ rest).Pairwise
        fun a b => slot a ≤ slot b := by
  have hinv := h.sound.inv
  have hhealthy := h.sound.healthy (System.not_failed_of_executionError h.runs herr)
  have hconserved := hinv.conserved
  rw [h.accepted] at hconserved
  have hphase : ∀ record, record ∈ c.system.executed ∨
      record ∈ c.system.kernel.dispatcher.pendingRecords →
      record.key.phase = record.callback.phase := fun record hr =>
    hstart.phase record (hconserved.mem_iff.mpr (List.mem_append.mpr hr))
  refine ⟨sort slotLess (c.system.kernel.dispatcher.pendingRecords.map EventRecord.timed),
    ?_, ?_⟩
  · refine ((sort_perm _ _).append_left _).trans ?_
    rw [← List.map_append]
    exact (hconserved.map _).symm
  · refine List.pairwise_append.mpr ⟨?_, sort_pairwise slotLess_iff _, ?_⟩
    · refine List.pairwise_map.mpr (hinv.increasing.imp_of_mem fun {r r'} hr hr' hlt => ?_)
      exact slot_le_of_lt (hphase r (Or.inl hr)) (hphase r' (Or.inl hr')) hlt
    · intro x hx y hy
      obtain ⟨r, hr, rfl⟩ := List.mem_map.mp hx
      obtain ⟨r', hr', rfl⟩ := List.mem_map.mp (mem_sort.mp hy)
      exact slot_le_of_lt (hphase r (Or.inl hr)) (hphase r' (Or.inr hr'))
        (hhealthy.pending_after hinv hr' hr)

lemma Replaying.callback {start c c' : SignalLifecycle} (hstart : start.Preset)
    (h : Replaying providers start c) (hsound : c'.system.Sound)
    (hstep : c.step providers .callback = some c') : Replaying providers start c' := by
  simp only [SignalLifecycle.step] at hstep
  split at hstep
  swap
  · cases hstep
  next time record hc =>
  obtain ⟨hmem, rfl, -⟩ := h.sound.calling_spec hc
  rw [h.accepted] at hmem
  obtain ⟨status, next, hcall, hend⟩ :=
    call_of_isHandled providers c record.key.time (hstart.handled record hmem)
  rw [hcall, Option.bind_some] at hstep
  obtain ⟨system, hs, rfl⟩ := drive_eq_some hstep
  obtain ⟨hruns, hctl, herr, herr'⟩ := System.finish_cases h.sound.inv hs
  obtain ⟨time, record', hc', hfin, hacc, -⟩ := h.sound.finish hs
  rw [hc] at hc'
  cases hc'
  have hrun : Transition.run (CycleSignalRuntime.handle providers) start.runtime
      ((c.system.finished ++ [record]).map EventRecord.timed) =
        c.runtime.handle providers record.timed := by
    rw [List.map_append]
    exact run_concat (h.ongoing herr) _
  refine ⟨hsound, hctl, hruns.trans h.runs, hacc.trans h.accepted, fun hnone => ?_,
    fun e he => ?_⟩
  · rcases hend with ⟨-, hnext⟩ | ⟨⟨e, rfl⟩, -⟩
    · rw [hfin, hrun]
      exact hnext
    · have := herr'.symm.trans hnone
      cases this
  · rcases hend with ⟨rfl, -⟩ | ⟨-, hnone⟩
    · have := herr'.symm.trans he
      cases this
    · obtain ⟨rest, hperm, hsorted⟩ := h.order hstart herr
      refine ⟨_, hperm, hsorted, ?_⟩
      rw [(h.sound.calling _ record hc).1]
      exact run_append_eq_none (hrun.trans hnone) _

lemma Replaying.step {start c c' : SignalLifecycle} {m : Move} (hstart : start.Preset)
    (h : Replaying providers start c) (hm : m.isDispatch = true)
    (hstep : c.step providers m = some c') : Replaying providers start c' := by
  obtain ⟨actions, hleads⟩ := step_leads h.sound hstep
  have hsound : c'.system.Sound := h.sound.leads hleads
  have hdrive : ∀ action : Action CycleEvent, (∃ event, action = .fire event) ∨ action = .next →
      c.drive action = some c' → Replaying providers start c' := by
    intro action ha hd
    obtain ⟨system, hs, rfl⟩ := drive_eq_some hd
    obtain ⟨herr, hruns, hctl, hfin, hacc⟩ := System.dispatch_cases h.sound.inv ha hs
    refine ⟨hsound, hctl, hruns.trans h.runs, hacc.trans h.accepted, fun hnone => ?_,
      fun e he => ?_⟩
    · rw [hfin]
      exact h.ongoing (herr ▸ hnone)
    · exact h.failed e (herr ▸ he)
  cases m with
  | fire event => exact hdrive _ (Or.inl ⟨event, rfl⟩) hstep
  | next => exact hdrive _ (Or.inr rfl) hstep
  | callback => exact h.callback hstart hsound hstep
  | schedule | change | run | finish | finishRun => cases hm

lemma Preset.begin {start c : SignalLifecycle} (hstart : start.Preset)
    (hstep : start.step providers .run = some c) : Replaying providers start c := by
  obtain ⟨system, hs, rfl⟩ := drive_eq_some hstep
  have hsound : system.Sound := hstart.sound.step hs
  cases System.step_sound hs with
  | run hc =>
    refine ⟨hsound, by simp, hstart.runs, rfl, fun _ => ?_, fun e he => by cases he⟩
    simp only [System.finished, hstart.unexecuted]
    rfl

lemma Replaying.finish {start c c' : SignalLifecycle} (hstart : start.Preset)
    (h : Replaying providers start c)
    (hstep : c.step providers .finishRun = some c') :
    ∃ run order, c'.system.runs = [run] ∧
      order.Perm (start.system.accepted.map EventRecord.timed) ∧
      order.Pairwise (fun a b => slot a ≤ slot b) ∧
      (run.result = .ok () ∧
          Transition.run (CycleSignalRuntime.handle providers) start.runtime order =
            some c'.runtime ∨
        (∃ e, run.result = .error e) ∧
          Transition.run (CycleSignalRuntime.handle providers) start.runtime order = none) := by
  obtain ⟨system, hs, rfl⟩ := drive_eq_some hstep
  obtain ⟨hruns, hctl, hexec⟩ := System.finishRun_cases hs
  rw [h.runs, List.nil_append] at hruns
  rcases herr : c.system.kernel.dispatcher.executionError with _ | e
  · have hok : c.system.kernel.runStatus = .ok () := by simp only [Kernel.runStatus, herr]
    have hnot : ¬ system.Failed := by
      rintro (⟨r, hr, hfail⟩ | ⟨hne, -⟩)
      · rw [hruns, List.mem_singleton] at hr
        rw [hr, hok] at hfail
        cases hfail
      · exact hne hctl
    obtain ⟨hfin, hperm⟩ := h.sound.finishRun hnot hs
    obtain ⟨hkeep, hacc⟩ :=
      System.finished_of_drives (show System.Drives .finishRun from trivial) hs
    obtain ⟨rest, hall, hsorted⟩ := h.order hstart herr
    -- nothing is left behind the executed events
    have hlen := hall.length_eq
    rw [← h.accepted, ← hacc, List.length_append, List.length_map, List.length_map,
      hperm.length_eq, hfin, hexec] at hlen
    obtain rfl : rest = [] := List.length_eq_zero_iff.mp (by omega)
    rw [List.append_nil] at hall hsorted
    refine ⟨_, _, hruns, hall, hsorted, Or.inl ⟨hok, ?_⟩⟩
    rw [← hexec, ← hfin, hkeep]
    exact h.ongoing herr
  · obtain ⟨order, hperm, hsorted, hnone⟩ := h.failed e herr
    refine ⟨_, order, hruns, hperm, hsorted, Or.inr ⟨⟨e, ?_⟩, hnone⟩⟩
    simp only [Kernel.runStatus, herr]

/-- **`Run` is a replay**: it calls the handlers of the events in some order of their slots, and
succeeds when all of them do. -/
theorem Preset.replay {start c' : SignalLifecycle} {run : RunRecord} (hstart : start.Preset)
    (hrun : RunsTo providers start run c') :
    ∃ order, order.Perm (start.system.accepted.map EventRecord.timed) ∧
      order.Pairwise (fun a b => slot a ≤ slot b) ∧
      (run.result = .ok () ∧
          Transition.run (CycleSignalRuntime.handle providers) start.runtime order =
            some c'.runtime ∨
        (∃ e, run.result = .error e) ∧
          Transition.run (CycleSignalRuntime.handle providers) start.runtime order = none) := by
  obtain ⟨moves, hmoves, hleads, hruns⟩ := hrun
  obtain ⟨c, hbegin, hleads⟩ := run_cons_eq_some.mp hleads
  obtain ⟨m, hm, hfinish⟩ := run_concat_eq_some.mp hleads
  have hreplaying : Replaying providers start m :=
    run_invariant (fun _ _ _ h hm hs => Replaying.step hstart h hm hs) (hstart.begin hbegin)
      hmoves hm
  obtain ⟨run', order, hruns', hperm, hsorted, hend⟩ := Replaying.finish hstart hreplaying hfinish
  rw [hruns', hstart.runs, List.nil_append, List.cons.injEq] at hruns
  exact ⟨order, hperm, hsorted, hruns.1 ▸ hend⟩

end SignalLifecycle

/-! ### `Run` returns -/

namespace System

variable {κ : Type*}

/-- What a `Run` still has to do: callbacks of ns-3, events, and the way back out of them. -/
def workLeft (s : System κ) : ℕ :=
  3 * s.kernel.simulator.events.length + 3 * (s.accepted.length - s.executed.length) +
    match s.control with
    | .idle | .running => 0
    | .dispatching _ => 1
    | .calling _ _ => 2

lemma finish_workLeft {s t : System κ} {status : Status}
    (hstep : s.step (.finish status) = some t) : t.workLeft < s.workLeft := by
  cases step_sound hstep with
  | finish status time record hc =>
    have hevents : (s.kernel.finishCallback status).simulator.events =
        s.kernel.simulator.events := by rcases status with e | u <;> rfl
    simp only [workLeft, hc, hevents]
    omega

lemma next_workLeft {s t : System κ} (hinv : s.Inv) (hstep : s.step .next = some t) :
    t.workLeft < s.workLeft := by
  have hlen := (hinv.step hstep).conserved.length_eq
  have hasc := hinv.buckets.ascending
  cases step_sound hstep with
  | leave time kernel hc hn =>
    have hsim : kernel.simulator = s.kernel.simulator := by
      rcases nextRecord_cases hasc time with ⟨-, he⟩ | ⟨-, -, he⟩ | ⟨-, m, rest, -, -, he⟩ <;>
        rw [he] at hn <;> cases hn <;> rfl
    simp only [workLeft, hc, Kernel.leaveDispatchTime, hsim]
    omega
  | call time kernel record hc hn =>
    have hsim : kernel.simulator = s.kernel.simulator := by
      rcases nextRecord_cases hasc time with ⟨-, he⟩ | ⟨-, -, he⟩ | ⟨-, m, rest, -, -, he⟩ <;>
        rw [he] at hn <;> cases hn
      rfl
    -- the record was one of the accepted that had not been executed
    simp only [List.length_append, List.length_singleton] at hlen
    simp only [workLeft, hc, hsim, List.length_append, List.length_singleton]
    omega

lemma Inv.progress {s : System κ} (hinv : s.Inv) (hc : s.control ≠ .idle) :
    (∃ t, s.step .finishRun = some t) ∨
    (∃ event t, s.step (.fire event) = some t ∧ t.workLeft < s.workLeft) ∨
    (∃ t, s.step .next = some t ∧ t.workLeft < s.workLeft) ∨
    ∃ time record, s.control = .calling time record := by
  rcases hctl : s.control with _ | _ | time | ⟨time, record⟩
  · exact absurd hctl hc
  · by_cases hreturn : s.kernel.simulator.CanReturn
    · exact Or.inl ⟨_, step_iff.mpr (.finishRun hctl hreturn)⟩
    obtain ⟨hrunning, hevents⟩ := not_or.mp hreturn
    obtain ⟨event, hf⟩ := Simulator.exists_canFire (Bool.eq_false_iff.mpr hrunning) hevents
    refine Or.inr (Or.inl ⟨event, _, step_iff.mpr (.fire event hctl hf), ?_⟩)
    have hlen := List.length_erase_of_mem hf.2.1
    have hpos := List.length_pos_of_mem hf.2.1
    simp only [workLeft, hctl, Kernel.enterDispatchTime, Simulator.fire, hlen]
    omega
  · rcases hn : s.kernel.nextRecord time with ⟨_ | record, kernel⟩
    · have hstep := step_iff.mpr (.leave time kernel hctl hn)
      exact Or.inr (Or.inr (Or.inl ⟨_, hstep, next_workLeft hinv hstep⟩))
    · have hstep := step_iff.mpr (.call time kernel record hctl hn)
      exact Or.inr (Or.inr (Or.inl ⟨_, hstep, next_workLeft hinv hstep⟩))
  · exact Or.inr (Or.inr (Or.inr ⟨time, record, rfl⟩))

end System

namespace SignalLifecycle

variable [DoubleArithmetic] {providers : Providers}

omit [DoubleArithmetic] in
lemma drive_of_step {c : SignalLifecycle} {action : Action CycleEvent}
    {system : System CycleEvent} (h : c.system.step action = some system) :
    c.drive action = some { c with system := system } := by
  simp only [drive, h, Option.map_some]

lemma Replaying.progress {start c : SignalLifecycle} (hstart : start.Preset)
    (h : Replaying providers start c) :
    (∃ c', c.step providers .finishRun = some c') ∨
    ∃ m c', m.isDispatch = true ∧ c.step providers m = some c' ∧
      c'.system.workLeft < c.system.workLeft := by
  rcases h.sound.inv.progress h.inRun with
    ⟨t, ht⟩ | ⟨event, t, ht, hlt⟩ | ⟨t, ht, hlt⟩ | ⟨time, record, hc⟩
  · exact Or.inl ⟨_, drive_of_step ht⟩
  · exact Or.inr ⟨.fire event, _, rfl, drive_of_step ht, hlt⟩
  · exact Or.inr ⟨.next, _, rfl, drive_of_step ht, hlt⟩
  · obtain ⟨hmem, -, -⟩ := h.sound.calling_spec hc
    rw [h.accepted] at hmem
    obtain ⟨status, next, hcall, -⟩ :=
      call_of_isHandled providers c time (hstart.handled record hmem)
    obtain ⟨system, hs⟩ : ∃ system, c.system.step (.finish status) = some system :=
      ⟨_, System.step_iff.mpr (.finish status time record hc)⟩
    have hstep : c.step providers .callback =
        some { c with runtime := next, system := system } := by
      simp only [SignalLifecycle.step, hc, hcall, Option.bind_some]
      exact drive_of_step hs
    exact Or.inr ⟨.callback, _, rfl, hstep, System.finish_workLeft hs⟩

theorem Preset.returns (providers : Providers) {start : SignalLifecycle}
    (hstart : start.Preset) : ∃ run c', RunsTo providers start run c' := by
  have hreturns : ∀ c, Replaying providers start c → ∃ moves c' run,
      (∀ m ∈ moves, m.isDispatch = true) ∧ Leads providers c (moves ++ [.finishRun]) c' ∧
        c'.system.runs = [run] := by
    intro c
    induction hwork : c.system.workLeft using Nat.strong_induction_on generalizing c with
    | _ n ih =>
      intro h
      rcases h.progress hstart with ⟨c', hfinish⟩ | ⟨m, c', hm, hs, hlt⟩
      · obtain ⟨run, -, hruns, -⟩ := Replaying.finish hstart h hfinish
        exact ⟨[], c', run, by simp, run_cons_eq_some.mpr ⟨c', hfinish, rfl⟩, hruns⟩
      · obtain ⟨moves, last, run, hmoves, hleads, hruns⟩ :=
          ih _ (hwork ▸ hlt) c' rfl (h.step hstart hm hs)
        refine ⟨m :: moves, last, run, ?_, run_cons_eq_some.mpr ⟨c', hs, hleads⟩, hruns⟩
        exact List.forall_mem_cons.mpr ⟨hm, hmoves⟩
  have hs := drive_of_step (System.step_iff.mpr (.run hstart.idle))
  obtain ⟨moves, c', run, hmoves, hleads, hruns⟩ := hreturns _ (hstart.begin hs)
  refine ⟨run, c', moves, hmoves, run_cons_eq_some.mpr ⟨_, hs, hleads⟩, ?_⟩
  rw [hstart.runs, hruns, List.nil_append]

end SignalLifecycle

end Ns3Factory
