import Ns3Factory.EventFate
import Ns3Factory.PriorityQueue

/-!
The dispatcher refines a priority queue.

The queue holds the events whose time has not passed. An accepted `ScheduleAt` puts one in, a
turn of the dispatch loop takes out one with the smallest key, and where ns-3 passes a time at
which a callback has failed, what waits there is dropped. Nothing else touches the queue. So a
`Run` whose callbacks schedule nothing executes what was served in sorted order.
-/

namespace Ns3Factory.System

open StdAlgorithm Transition PriorityQueue

variable {κ : Type*}

/-- The pending events whose time has not passed. -/
def waiting (s : System κ) : List (EventRecord κ) :=
  s.kernel.dispatcher.pendingRecords.filter fun r => s.kernel.simulator.now ≤ r.key.time.nanoseconds

/-- The pending events whose time has passed. -/
def past (s : System κ) : List (EventRecord κ) :=
  s.kernel.dispatcher.pendingRecords.filter fun r =>
    !decide (s.kernel.simulator.now ≤ r.key.time.nanoseconds)

lemma waiting_past (s : System κ) :
    (s.kernel.dispatcher.pendingRecords : Multiset (EventRecord κ)) = s.waiting + s.past :=
  Multiset.coe_eq_coe.mpr (List.filter_append_perm _ _).symm

lemma mem_waiting {s : System κ} {r : EventRecord κ} :
    r ∈ s.waiting ↔ r ∈ s.kernel.dispatcher.pendingRecords ∧
      s.kernel.simulator.now ≤ r.key.time.nanoseconds := by
  simp [waiting]

lemma Inv.bucket_of_pending {s : System κ} (hinv : s.Inv) {r : EventRecord κ}
    (hr : r ∈ s.kernel.dispatcher.pendingRecords) :
    ∃ b ∈ s.kernel.dispatcher.buckets, b.time = r.key.time ∧ r ∈ b.records := by
  obtain ⟨b, hb, hr⟩ := List.mem_flatMap.mp hr
  exact ⟨b, hb, (hinv.buckets.keyed b hb r hr).symm, hr⟩

/-- The operations on the queue that lead from one state to another. -/
structure Follows (s t : System κ) (ops : List (Op (EventRecord κ))) : Prop where
  runs : PriorityQueue.Runs EventRecord.key (s.waiting : Multiset (EventRecord κ)) ops t.waiting
  accepted : t.accepted = s.accepted ++ putIn ops
  executed : t.executed = s.executed ++ taken ops
  past : (t.past : Multiset (EventRecord κ)) = s.past + dropped ops
  failed : ∀ r ∈ dropped ops, t.FailedAt r.key.time
  late : Late EventRecord.key s.executed ops

lemma Follows.trans {s t u : System κ} {ops ops' : List (Op (EventRecord κ))}
    (h : Follows s t ops) (h' : Follows t u ops')
    (hfailed : ∀ time, t.FailedAt time → u.FailedAt time) : Follows s u (ops ++ ops') where
  runs := h.runs.append h'.runs
  accepted := by rw [h'.accepted, h.accepted, putIn_append, List.append_assoc]
  executed := by rw [h'.executed, h.executed, taken_append, List.append_assoc]
  past := by rw [h'.past, h.past, dropped_append, ← Multiset.coe_add, add_assoc]
  failed := by
    intro r hr
    rw [dropped_append] at hr
    rcases List.mem_append.mp hr with hr | hr
    · exact hfailed _ (h.failed r hr)
    · exact h'.failed r hr
  late := late_append.mpr ⟨h.late, h.executed ▸ h'.late⟩

lemma Follows.idle {s t : System κ}
    (hpending : t.kernel.dispatcher.pendingRecords = s.kernel.dispatcher.pendingRecords)
    (hnow : t.kernel.simulator.now = s.kernel.simulator.now)
    (haccepted : t.accepted = s.accepted) (hexecuted : t.executed = s.executed) :
    Follows s t [] where
  runs := by
    have hwaiting : t.waiting = s.waiting := by unfold waiting; rw [hpending, hnow]
    rw [hwaiting]
    exact .nil _
  accepted := by simp [haccepted, putIn]
  executed := by simp [hexecuted, taken]
  past := by
    have hpast : t.past = s.past := by unfold System.past; rw [hpending, hnow]
    simp [hpast, dropped]
  failed := by simp [dropped]
  late := trivial

lemma Follows.accept {s : System κ} (hinv : s.Inv) (hc : s.CanSchedule) {time : SimTime}
    {phase : EventPhase} (htime : s.kernel.simulator.now ≤ time.nanoseconds)
    (hadm : s.kernel.dispatcher.Admits time phase) (next : IdentityValue) (exhausted : Bool)
    (sequence : EventSequenceId) (callback : κ) :
    let record : EventRecord κ := ⟨⟨time, phase, sequence⟩, callback⟩
    Follows s { s with
        kernel := s.kernel.accept next exhausted record
        accepted := s.accepted ++ [record] } [.put record] := by
  intro record
  have hpending := s.kernel.pendingRecords_accept next exhausted record
  have hnow := s.kernel.accept_now next exhausted record
  refine ⟨?_, rfl, ?_, ?_, by simp, ?_, trivial⟩
  · have hperm : (waiting { s with
        kernel := s.kernel.accept next exhausted record
        accepted := s.accepted ++ [record] }).Perm (record :: s.waiting) := by
      unfold waiting
      rw [hnow]
      refine (hpending.filter _).trans ?_
      have hkeep : decide (s.kernel.simulator.now ≤ record.key.time.nanoseconds) = true :=
        decide_eq_true htime
      rw [List.filter_append, List.filter_singleton, hkeep]
      exact List.perm_append_singleton record _
    have hrun : PriorityQueue.Runs EventRecord.key (s.waiting : Multiset (EventRecord κ))
        ([] ++ [.put record]) (record ::ₘ (s.waiting : Multiset (EventRecord κ))) :=
      (PriorityQueue.Runs.nil _).put record
    rwa [Multiset.cons_coe, ← Multiset.coe_eq_coe.mpr hperm] at hrun
  · simp
  · have hperm : (System.past { s with
        kernel := s.kernel.accept next exhausted record
        accepted := s.accepted ++ [record] }).Perm s.past := by
      unfold System.past
      rw [hnow]
      refine (hpending.filter _).trans ?_
      have hkeep : decide (s.kernel.simulator.now ≤ record.key.time.nanoseconds) = true :=
        decide_eq_true htime
      rw [List.filter_append, List.filter_singleton, hkeep]
      simp
    simpa using Multiset.coe_eq_coe.mpr hperm
  · exact fun x hx => (hinv.executed_lt hc htime hadm sequence x hx).le

lemma FateInv.passed {s : System κ} (hinv : s.Inv) (h : s.FateInv) {event : Ns3Event}
    (hc : s.control = .running) (hf : s.kernel.simulator.CanFire event) {r : EventRecord κ}
    (hr : r ∈ s.kernel.dispatcher.pendingRecords)
    (hbefore : r.key.time.nanoseconds < event.fireAt) : s.FailedAt r.key.time := by
  obtain ⟨b, hb, hbt, -⟩ := hinv.bucket_of_pending hr
  rcases h.served b hb with hserved | hfail
  · obtain ⟨e, he, het⟩ := hserved.queued (Or.inr hc)
    have hle := hf.2.2 e he
    have hat := (hinv.queue.queued e he).1
    rw [hat, het, hbt] at hle
    omega
  · rwa [hbt] at hfail

lemma Follows.fire {s : System κ} (hinv : s.Inv) (h : s.FateInv) {event : Ns3Event}
    (hc : s.control = .running) (hf : s.kernel.simulator.CanFire event) {t : System κ}
    (hstep : s.step (.fire event) = some t) :
    ∃ items : List (EventRecord κ), Follows s t (items.map .drop) := by
  have hnow : s.kernel.simulator.now ≤ event.fireAt := (hinv.queue.queued event hf.2.1).2
  have hfailed : ∀ time, s.FailedAt time → t.FailedAt time := fun _ hfail => hfail.step hinv hstep
  have hpending : t.kernel.dispatcher.pendingRecords = s.kernel.dispatcher.pendingRecords ∧
      t.kernel.simulator.now = event.fireAt ∧ t.accepted = s.accepted ∧
      t.executed = s.executed := by
    cases step_sound hstep with
    | fire => exact ⟨rfl, rfl, rfl, rfl⟩
  obtain ⟨hpending, htnow, haccepted, hexecuted⟩ := hpending
  let items := s.waiting.filter fun r => !decide (event.fireAt ≤ r.key.time.nanoseconds)
  have hwaiting : t.waiting = s.waiting.filter fun r => event.fireAt ≤ r.key.time.nanoseconds := by
    unfold waiting
    rw [hpending, htnow, List.filter_filter]
    refine List.filter_congr fun r _ => ?_
    rw [← Bool.decide_and, decide_eq_decide]
    omega
  have hpast : (t.past : Multiset (EventRecord κ)) = s.past + items := by
    have hsplit := (waiting_past t).symm.trans ((congrArg _ hpending).trans (waiting_past s))
    have hitems : (s.waiting : Multiset (EventRecord κ)) = t.waiting + items := by
      rw [hwaiting]
      exact Multiset.coe_eq_coe.mpr (List.filter_append_perm _ _).symm
    rw [hitems, add_assoc] at hsplit
    rw [add_left_cancel hsplit, add_comm]
  refine ⟨items, ?_, by simp [haccepted], by simp [hexecuted], by simpa using hpast, ?_, by simp⟩
  · have hrun : PriorityQueue.Runs EventRecord.key (s.waiting : Multiset (EventRecord κ))
        ([] ++ items.map .drop) t.waiting := by
      refine .drop ?_
      have hitems : (items : Multiset (EventRecord κ)) + t.waiting = s.waiting := by
        rw [hwaiting, add_comm]
        exact Multiset.coe_eq_coe.mpr (List.filter_append_perm _ _)
      rw [hitems]
      exact .nil _
    simpa using hrun
  · intro r hr
    rw [dropped_drops] at hr
    obtain ⟨hmem, hbefore⟩ := List.mem_filter.mp hr
    exact hfailed _ (h.passed hinv hc hf (mem_waiting.mp hmem).1 (by simpa using hbefore))

lemma Inv.call_least {s : System κ} (hinv : s.Inv) {time : SimTime} {kernel : Kernel κ}
    {record : EventRecord κ} (hc : s.control = .dispatching time)
    (hn : s.kernel.nextRecord time = (some record, kernel)) :
    record.key.time = time ∧ ∀ r ∈ s.waiting, record.key ≤ r.key := by
  have hctl := hinv.control
  rw [ControlInv, hc] at hctl
  rcases nextRecord_cases hinv.buckets.ascending time with
    ⟨-, he⟩ | ⟨-, -, he⟩ | ⟨-, m, rest, hperm, hle, he⟩ <;> rw [he] at hn <;> cases hn
  have hrec : record.key.time = time :=
    hinv.buckets.keyed_recordsAt (hperm.mem_iff.mpr List.mem_cons_self)
  refine ⟨hrec, fun r hr => ?_⟩
  obtain ⟨hmem, hnow⟩ := mem_waiting.mp hr
  obtain ⟨b, hb, hbt, hr⟩ := hinv.bucket_of_pending hmem
  have htime : time ≤ r.key.time := SimTime.le_iff.mpr (hctl.now.trans_le hnow)
  rcases htime.lt_or_eq with hlt | heq
  · exact (EventKey.lt_iff.mpr (Or.inl (hrec ▸ hlt))).le
  · have hrecords : recordsAt time s.kernel.dispatcher.buckets = b.records := by
      have hfind := (lookup_eq_some hinv.buckets.ascending (k := time)).mpr
        ⟨hb, hbt.trans heq.symm⟩
      simp [recordsAt, hfind]
    rcases List.mem_cons.mp (hperm.mem_iff.mp (hrecords ▸ hr)) with rfl | hr
    · exact le_rfl
    · exact hle r hr

lemma Follows.call {s : System κ} (hinv : s.Inv) {time : SimTime} {kernel : Kernel κ}
    {record : EventRecord κ} (hc : s.control = .dispatching time)
    (hn : s.kernel.nextRecord time = (some record, kernel)) :
    Follows s { s with
      kernel := kernel
      control := .calling time record
      executed := s.executed ++ [record] } [.take record] := by
  have hctl := hinv.control
  rw [ControlInv, hc] at hctl
  obtain ⟨hsim, hpending⟩ := pending_call hinv hn
  obtain ⟨hrec, hleast⟩ := hinv.call_least hc hn
  have hnow : kernel.simulator.now = s.kernel.simulator.now := by rw [hsim]
  have hkeep : decide (s.kernel.simulator.now ≤ record.key.time.nanoseconds) = true := by
    rw [hrec, hctl.now]
    exact decide_eq_true le_rfl
  let t : System κ := { s with
    kernel := kernel
    control := .calling time record
    executed := s.executed ++ [record] }
  have hwaiting : s.waiting.Perm (record :: t.waiting) := by
    have hfilter := hpending.filter fun r => s.kernel.simulator.now ≤ r.key.time.nanoseconds
    rw [List.filter_cons_of_pos (by exact hkeep)] at hfilter
    unfold waiting
    rw [hnow]
    exact hfilter
  have hpast : t.past.Perm s.past := by
    have hfilter := hpending.filter fun r =>
      !decide (s.kernel.simulator.now ≤ r.key.time.nanoseconds)
    rw [List.filter_cons_of_neg (by simp [hkeep])] at hfilter
    unfold System.past
    rw [hnow]
    exact hfilter.symm
  refine ⟨?_, by simp, rfl, ?_, by simp, trivial⟩
  · have hrun : PriorityQueue.Runs EventRecord.key (s.waiting : Multiset (EventRecord κ))
        ([] ++ [.take record]) t.waiting := by
      refine .take ?_ fun r hr => hleast r (hwaiting.mem_iff.mpr (List.mem_cons_of_mem _ hr))
      rw [Multiset.cons_coe, ← Multiset.coe_eq_coe.mpr hwaiting]
      exact .nil _
    exact hrun
  · simpa using Multiset.coe_eq_coe.mpr hpast

lemma FateInv.follows {s t : System κ} {a : Action κ} (hinv : s.Inv) (h : s.FateInv)
    (hstep : s.step a = some t) : ∃ ops, Follows s t ops := by
  cases step_sound hstep with
  | scheduleAt time phase callback hc =>
    rcases scheduleAt_cases hinv.queue.readable time phase callback with
      ⟨⟨e, he⟩, -⟩ | ⟨cb, next, exhausted, -, htime, hadm, -, -, hok⟩
    · rw [he]; exact ⟨[], .idle rfl rfl rfl rfl⟩
    · rw [hok]; exact ⟨_, .accept hinv hc htime hadm next exhausted _ cb⟩
  | run hc => exact ⟨[], .idle rfl rfl rfl rfl⟩
  | fire event hc hf =>
    obtain ⟨items, hfollows⟩ := Follows.fire hinv h hc hf hstep
    exact ⟨_, hfollows⟩
  | leave time kernel hc hn =>
    obtain ⟨hsim, hpending⟩ := pending_leave hinv hn
    exact ⟨[], .idle hpending (congrArg Simulator.now hsim) rfl rfl⟩
  | call time kernel record hc hn => exact ⟨_, .call hinv hc hn⟩
  | finish status time record hc =>
    refine ⟨[], .idle ?_ ?_ rfl rfl⟩
    · rcases status with e | u <;> rfl
    · rcases status with e | u <;> rfl
  | finishRun hc hr => exact ⟨[], .idle rfl rfl rfl rfl⟩

lemma FateInv.leads_follows {s t : System κ} (hsound : s.Sound) (h : s.FateInv)
    {later : List (Action κ)} (hr : s.Leads later t) : ∃ ops, Follows s t ops := by
  have hrefl : Follows s s [] := .idle rfl rfl rfl rfl
  refine (run_invariant (A := fun _ => True)
    (P := fun m => m.Sound ∧ m.FateInv ∧ ∃ ops, Follows s m ops) ?_ ⟨hsound, h, [], hrefl⟩
    (fun _ _ => trivial) hr).2.2
  rintro m a u ⟨hm, hfate, ops, hops⟩ - hstep
  obtain ⟨ops', hops'⟩ := hfate.follows hm.inv hstep
  exact ⟨hm.step hstep, hfate.step hm hstep, ops ++ ops',
    hops.trans hops' fun _ hfail => hfail.step hm.inv hstep⟩

/-- **Refinement.** In every history the accepted events are what is put into a priority queue,
in order, and the executed ones what is taken out, in order. The pending events are those in
the queue, whose time has not passed, and those dropped from it, at a time that has passed and
at which a callback has failed. -/
theorem dispatcher_refines_queue {firstSequence : EventSequenceId} {now : ℤ}
    (hnow : 0 ≤ now ∧ now ≤ kMax) {h : List (Action κ)} {s : System κ}
    (hr : Runs firstSequence now h s) :
    ∃ (ops : List (Op (EventRecord κ))) (bag : Multiset (EventRecord κ)),
      PriorityQueue.Runs EventRecord.key 0 ops bag ∧
      putIn ops = s.accepted ∧ taken ops = s.executed ∧ Late EventRecord.key [] ops ∧
      (s.kernel.dispatcher.pendingRecords : Multiset (EventRecord κ)) = bag + dropped ops ∧
      (∀ r ∈ bag, s.kernel.simulator.now ≤ r.key.time.nanoseconds) ∧
      ∀ r ∈ dropped ops, r.key.time.nanoseconds < s.kernel.simulator.now ∧
        s.FailedAt r.key.time := by
  obtain ⟨ops, hops⟩ := (fateInv_init firstSequence now).leads_follows
    (sound_init firstSequence hnow) hr
  have hpast : (s.past : Multiset (EventRecord κ)) = dropped ops := by
    have hempty : (init (κ := κ) firstSequence now).past = [] := rfl
    simpa [hempty] using hops.past
  refine ⟨ops, s.waiting, hops.runs, hops.accepted.symm, hops.executed.symm, hops.late,
    hpast ▸ s.waiting_past, fun r hr => (mem_waiting.mp hr).2, fun r hr => ⟨?_, hops.failed r hr⟩⟩
  have hmem : r ∈ s.past := by
    rw [← Multiset.mem_coe, hpast]
    exact hr
  simpa using (List.mem_filter.mp hmem).2

theorem dispatcher_refines_queue_halfFailed :
    ∃ (s : System Unit) (ops : List (Op (EventRecord Unit))) (bag : Multiset (EventRecord Unit)),
      Runs ⟨0⟩ 0 halfFailedHistory s ∧ PriorityQueue.Runs EventRecord.key 0 ops bag ∧
      putIn ops = s.accepted ∧ taken ops = s.executed := by
  obtain ⟨s, hs⟩ : ∃ s, Runs ⟨0⟩ 0 halfFailedHistory s :=
    Option.isSome_iff_exists.mp (by decide +kernel)
  obtain ⟨ops, bag, hruns, hput, htaken, -⟩ := dispatcher_refines_queue (by decide) hs
  exact ⟨s, ops, bag, hs, hruns, hput, htaken⟩

/-! ### A `Run` whose callbacks schedule nothing -/

/-- ns-3 has a callback for the time of the event. -/
def Queued (s : System κ) (r : EventRecord κ) : Prop :=
  ∃ e ∈ s.kernel.simulator.events, e.time = r.key.time

instance (s : System κ) : DecidablePred s.Queued := fun r =>
  inferInstanceAs (Decidable (∃ e ∈ s.kernel.simulator.events, e.time = r.key.time))

lemma FateInv.queued_iff {s : System κ} (hinv : s.Inv) (h : s.FateInv) (ho : s.OutsideDispatch)
    {r : EventRecord κ} (hr : r ∈ s.kernel.dispatcher.pendingRecords) :
    s.Queued r ↔ ¬ s.FailedAt r.key.time := by
  constructor
  · rintro ⟨e, he, htime⟩ hfail
    exact (h.dead _ hfail).unqueued e he htime
  · intro hok
    obtain ⟨b, hb, hbt, -⟩ := hinv.bucket_of_pending hr
    have hserved := (h.served b hb).resolve_right (by rwa [hbt])
    obtain ⟨e, he, htime⟩ := hserved.queued ho
    exact ⟨e, he, htime.trans hbt⟩

/-- A `Run` started from `s` has got to `m`, with these operations on the queue. -/
structure Draining (s m : System κ) (ops : List (Op (EventRecord κ))) : Prop where
  sound : m.Sound
  fate : m.FateInv
  follows : Follows s m ops
  accepted : m.accepted = s.accepted
  failed_mono : ∀ time, s.FailedAt time → m.FailedAt time
  failed : m.kernel.simulator.stopped = false → ∀ time, m.FailedAt time → s.FailedAt time
  halted : m.kernel.simulator.stopped = true → m.kernel.dispatcher.executionError.isSome
  dropped : ∀ r ∈ dropped ops, s.FailedAt r.key.time
  taken : ∀ r ∈ taken ops, ¬ s.FailedAt r.key.time

lemma Draining.step {s m u : System κ} {ops : List (Op (EventRecord κ))} {a : Action κ}
    (h : Draining s m ops) (ha : a.dispatches = true) (hstep : m.step a = some u) :
    ∃ ops', Draining s u ops' := by
  have hinv := h.sound.inv
  have hsound := h.sound.step hstep
  have hfate := h.fate.step h.sound hstep
  have hmono : ∀ time, m.FailedAt time → u.FailedAt time := fun _ hfail => hfail.step hinv hstep
  have haccepted := (dispatch_stepsLeft hinv ha hstep).2.trans h.accepted
  have hkeep : ∀ time, s.FailedAt time → u.FailedAt time :=
    fun time hfail => hmono time (h.failed_mono time hfail)
  have hback : a.Succeeds → ∀ time, u.FailedAt time → m.FailedAt time :=
    fun hok time hfail => hfail.of_step hinv hok hstep
  cases step_sound hstep with
  | scheduleAt time phase callback hc => cases ha
  | run hc => cases ha
  | finishRun hc hr => cases ha
  | fire event hc hf =>
    obtain ⟨items, hitems⟩ := Follows.fire hinv h.fate hc hf hstep
    have hnew : ∀ r ∈ items, s.FailedAt r.key.time := by
      intro r hr
      have hfail := hitems.failed r (by rwa [dropped_drops])
      exact h.failed hf.1 _ (hback trivial _ hfail)
    refine ⟨_, hsound, hfate, h.follows.trans hitems hmono, haccepted, hkeep,
      fun hstopped time hfail => h.failed hstopped time (hback trivial time hfail), h.halted,
      fun r hr => ?_, fun r hr => ?_⟩
    · rw [dropped_append, dropped_drops] at hr
      exact (List.mem_append.mp hr).elim (h.dropped r) (hnew r)
    · rw [taken_append, taken_drops, List.append_nil] at hr
      exact h.taken r hr
  | leave time kernel hc hn =>
    obtain ⟨hsim, hpending⟩ := pending_leave hinv hn
    have herror := nextRecord_executionError hinv.buckets.ascending hn
    refine ⟨_, hsound, hfate,
      h.follows.trans (.idle hpending (congrArg Simulator.now hsim) rfl rfl) hmono, haccepted,
      hkeep, fun hstopped time hfail => ?_, fun hstopped => ?_, by simpa [PriorityQueue.dropped]
        using h.dropped, by simpa [PriorityQueue.taken] using h.taken⟩
    · exact h.failed (hsim ▸ hstopped) time (hback trivial time hfail)
    · have hsome := h.halted (hsim ▸ hstopped)
      rwa [← herror] at hsome
  | call time kernel record hc hn =>
    obtain ⟨hsim, -⟩ := pending_call hinv hn
    have herror := nextRecord_executionError hinv.buckets.ascending hn
    have hcall := Follows.call hinv hc hn
    have hok : ¬ s.FailedAt record.key.time := fun hfail => by
      have htime := (hinv.call_least hc hn).1
      have hsome := (h.fate.dead _ (h.failed_mono _ hfail)).leaving (by rw [hc, htime])
      simp [Kernel.nextRecord, hsome] at hn
    refine ⟨_, hsound, hfate, h.follows.trans hcall hmono, haccepted, hkeep,
      fun hstopped time hfail => ?_, fun hstopped => ?_, by simpa using h.dropped, ?_⟩
    · exact h.failed (hsim ▸ hstopped) time (hback trivial time hfail)
    · have hsome := h.halted (hsim ▸ hstopped)
      rwa [← herror] at hsome
    · intro r hr
      rw [taken_append, taken_take] at hr
      rcases List.mem_append.mp hr with hr | hr
      · exact h.taken r hr
      · rwa [List.mem_singleton.mp hr]
  | finish status time record hc =>
    have hidle : Follows m { m with
        kernel := m.kernel.finishCallback status
        control := .dispatching time
        current := m.current ++ [(record.key, status)] } [] := by
      refine .idle ?_ ?_ rfl rfl
      · rcases status with e | u <;> rfl
      · rcases status with e | u <;> rfl
    refine ⟨_, hsound, hfate, h.follows.trans hidle hmono, haccepted, hkeep, ?_, ?_,
      by simpa [PriorityQueue.dropped] using h.dropped,
      by simpa [PriorityQueue.taken] using h.taken⟩
    · rcases status with e | u
      · intro hstopped
        cases hstopped
      · exact fun hstopped time hfail => h.failed hstopped time (hback rfl time hfail)
    · rcases status with e | u
      · exact fun _ => rfl
      · exact h.halted

lemma Draining.leads {s m u : System κ} {ops : List (Op (EventRecord κ))}
    (h : Draining s m ops) {middle : List (Action κ)}
    (hmiddle : ∀ a ∈ middle, a.dispatches = true) (hr : m.Leads middle u) :
    ∃ ops', Draining s u ops' :=
  run_invariant (P := fun u => ∃ ops, Draining s u ops) (A := fun a => a.dispatches = true)
    (fun _ _ _ ⟨_, hd⟩ ha hstep => hd.step ha hstep) ⟨ops, h⟩ hmiddle hr

lemma Inv.pending_distinct {s : System κ} (hinv : s.Inv) :
    s.kernel.dispatcher.pendingRecords.Pairwise fun r r' => r.key ≠ r'.key := by
  refine List.pairwise_flatMap.mpr ⟨hinv.buckets.distinct, ?_⟩
  have hasc := hinv.buckets.ascending
  refine hasc.imp_of_mem fun {b b'} hb hb' hlt r hr r' hr' hkey => ?_
  rw [← hinv.buckets.keyed b hb r hr, ← hinv.buckets.keyed b' hb' r' hr', hkey] at hlt
  exact lt_irrefl _ hlt

/-- The events ns-3 has a callback for, in the order of their keys. -/
def schedule (s : System κ) : List (EventRecord κ) :=
  sort (fun r r' => r.key < r'.key) (s.kernel.dispatcher.pendingRecords.filter fun r => s.Queued r)

lemma Inv.eq_schedule {s : System κ} (hinv : s.Inv) {events : List (EventRecord κ)}
    (hbag : (events : Multiset (EventRecord κ)) =
      (s.waiting : Multiset (EventRecord κ)).filter s.Queued)
    (hsorted : events.Pairwise fun r r' => r.key ≤ r'.key) : s.schedule = events := by
  -- nothing whose time has passed has a callback
  have hpast : (s.past : Multiset (EventRecord κ)).filter s.Queued = 0 := by
    refine Multiset.filter_eq_nil.mpr fun r hr => ?_
    rintro ⟨e, he, htime⟩
    obtain ⟨hat, hle⟩ := hinv.queue.queued e he
    have hbefore := (List.mem_filter.mp hr).2
    rw [hat, htime] at hle
    simp [hle] at hbefore
  have hperm : events.Perm
      (s.kernel.dispatcher.pendingRecords.filter fun r => s.Queued r) := by
    rw [← Multiset.coe_eq_coe, hbag, ← Multiset.filter_coe, waiting_past, Multiset.filter_add,
      hpast, add_zero]
  have hkeys : ((s.kernel.dispatcher.pendingRecords.filter fun r => s.Queued r).map
      EventRecord.key).Nodup :=
    List.pairwise_map.mpr (hinv.pending_distinct.sublist List.filter_sublist)
  have hless : ∀ r r' : EventRecord κ, decide (r.key < r'.key) = true ↔ r.key < r'.key :=
    fun r r' => decide_eq_true_iff
  refine (eq_sort_of_perm hless (fun r hr r' hr' => List.inj_on_of_nodup_map hkeys hr hr') hperm
    (hsorted.imp fun {r r'} hle => (less_eq_false hless r r').mpr hle)).symm

lemma FateInv.draining {s m : System κ} (hsound : s.Sound) (h : s.FateInv)
    (hstep : s.step .run = some m) : Draining s m [] := by
  have hmono : ∀ time, s.FailedAt time → m.FailedAt time :=
    fun _ hfail => hfail.step hsound.inv hstep
  have hback : ∀ time, m.FailedAt time → s.FailedAt time :=
    fun _ hfail => hfail.of_step hsound.inv (a := .run) trivial hstep
  have hmsound := hsound.step hstep
  have hmfate := h.step hsound hstep
  cases step_sound hstep with
  | run hc =>
    exact ⟨hmsound, hmfate, .idle rfl rfl rfl rfl, rfl, hmono, fun _ => hback,
      fun hstopped => (by cases hstopped), by simp [PriorityQueue.dropped],
      by simp [PriorityQueue.taken]⟩

lemma Draining.drained {s m t : System κ} {ops : List (Op (EventRecord κ))}
    (h : Draining s m ops) (hsinv : s.Inv) (hsfate : s.FateInv) (hidle : s.control = .idle)
    (hfrom : ∀ r ∈ m.waiting, r ∈ s.waiting) (hstep : m.step .finishRun = some t)
    (hok : t.RunSucceeded) : (m.waiting : Multiset (EventRecord κ)).filter s.Queued = 0 := by
  cases step_sound hstep with
  | finishRun hc hr =>
    have herror : m.kernel.dispatcher.executionError = none := by
      obtain ⟨run, hlast, hresult⟩ := hok
      simp only [List.getLast?_append, List.getLast?_singleton, Option.some_or,
        Option.some.injEq] at hlast
      subst hlast
      rcases herr : m.kernel.dispatcher.executionError with _ | e
      · rfl
      · simp [Kernel.runStatus, herr] at hresult
    have hstopped : m.kernel.simulator.stopped = false := by
      rcases hstop : m.kernel.simulator.stopped with _ | _
      · rfl
      · have hsome := h.halted hstop
        simp [herror] at hsome
    have hempty : m.kernel.simulator.events = [] := hr.resolve_left (by simp [hstopped])
    refine Multiset.filter_eq_nil.mpr fun r hr hqueued => ?_
    have hpending := (mem_waiting.mp (hfrom r hr)).1
    have hunfailed := (hsfate.queued_iff hsinv (Or.inl hidle) hpending).mp hqueued
    have hunfailed' : ¬ m.FailedAt r.key.time := fun hfail => hunfailed (h.failed hstopped _ hfail)
    obtain ⟨e, he, -⟩ := (h.fate.queued_iff h.sound.inv (Or.inr hc) (mem_waiting.mp hr).1).mpr
      hunfailed'
    rw [hempty] at he
    cases he

/-- **`Run` executes the schedule it starts with.** When its callbacks schedule nothing, a `Run`
executes a prefix of the events that had an ns-3 callback, sorted by time, phase and sequence
id; and when it returns success, all of them. -/
theorem run_executes_schedule {firstSequence : EventSequenceId} {now : ℤ}
    (hnow : 0 ≤ now ∧ now ≤ kMax) {h : List (Action κ)} {s t : System κ}
    (hr : Runs firstSequence now h s) {middle : List (Action κ)}
    (hmiddle : ∀ a ∈ middle, a.dispatches = true)
    (ht : s.Leads (.run :: middle ++ [.finishRun]) t) :
    ∃ executed rest, t.executed = s.executed ++ executed ∧ s.schedule = executed ++ rest ∧
      (t.RunSucceeded → rest = []) := by
  obtain ⟨hsound, hfate⟩ :=
    (fateInv_init firstSequence now).leads (sound_init firstSequence hnow) hr
  obtain ⟨m, hm, hfinish⟩ := run_concat_eq_some.mp ht
  obtain ⟨m₀, hm₀, hmid⟩ := run_cons_eq_some.mp hm
  have hidle : s.control = .idle := by
    cases step_sound hm₀ with
    | run hc => exact hc
  obtain ⟨ops, hd⟩ := (hfate.draining hsound hm₀).leads hmiddle hmid
  have hput : putIn ops = [] :=
    List.append_cancel_left ((hd.follows.accepted.symm.trans hd.accepted).trans
      (List.append_nil _).symm)
  have hconserved := hd.follows.runs.conserved
  rw [hput, Multiset.coe_nil, add_zero] at hconserved
  have hfrom : ∀ r ∈ m.waiting, r ∈ s.waiting := fun r hr => by
    rw [← Multiset.mem_coe, hconserved]
    exact Multiset.mem_add.mpr (Or.inr hr)
  have hdrop : ∀ r ∈ dropped ops, ¬ s.Queued r := fun r hr ⟨e, he, htime⟩ =>
    (hfate.dead _ (hd.dropped r hr)).unqueued e he htime
  have htake : ∀ r ∈ taken ops, s.Queued r := fun r hr => by
    have hmem : r ∈ s.waiting := by
      rw [← Multiset.mem_coe, hconserved]
      exact Multiset.mem_add.mpr (Or.inl (Multiset.mem_add.mpr (Or.inl hr)))
    exact (hfate.queued_iff hsound.inv (Or.inl hidle) (mem_waiting.mp hmem).1).mpr (hd.taken r hr)
  let rest := sort (fun r r' : EventRecord κ => r.key < r'.key)
    (m.waiting.filter fun r => s.Queued r)
  have hrest : (rest : Multiset (EventRecord κ)) =
      (m.waiting : Multiset (EventRecord κ)).filter s.Queued := by
    rw [Multiset.filter_coe]
    exact Multiset.coe_eq_coe.mpr (sort_perm _ _)
  obtain ⟨hbag, hsorted⟩ := hd.follows.runs.drains hput hdrop htake hrest
    (sort_pairwise (fun r r' => decide_eq_true_iff) _)
  refine ⟨taken ops, rest, ?_, hsound.inv.eq_schedule hbag hsorted, fun hok => ?_⟩
  · have hexecuted : t.executed = m.executed := by
      cases step_sound hfinish with
      | finishRun hc hreturn => rfl
    rw [hexecuted, hd.follows.executed]
  · have hnone := hd.drained hsound.inv hfate hidle hfrom hfinish hok
    rw [hnone] at hrest
    exact Multiset.coe_eq_zero rest |>.mp hrest

/-- Three events, the earliest filed last. -/
def unsortedHistory : List (Action Unit) :=
  [.scheduleAt (.ofUInt32 1) .kInputReady (some ()), .scheduleAt (.ofUInt32 0) .kTxStart (some ()),
    .scheduleAt (.ofUInt32 0) .kInputReady (some ())]

/-- The steps of the `Run` that executes them. -/
def sortingSteps : List (Action Unit) :=
  [.fire ⟨0, .ofUInt32 0⟩, .next, .finish (.ok ()), .next, .finish (.ok ()), .next,
    .fire ⟨1, .ofUInt32 1⟩, .next, .finish (.ok ()), .next]

theorem run_executes_schedule_unsorted :
    ∃ s t : System Unit, Runs ⟨0⟩ 0 unsortedHistory s ∧
      s.Leads (.run :: sortingSteps ++ [.finishRun]) t ∧ t.executed = s.schedule := by
  have hrun : (run step (init ⟨0⟩ 0) unsortedHistory).bind (fun s =>
      (run step s (.run :: sortingSteps ++ [.finishRun])).map fun t =>
        (s.executed.length, t.runs.map fun r => Result.succeeded r.result)) =
      some (0, [true]) := by
    decide +kernel
  obtain ⟨s, hs, hval⟩ := Option.bind_eq_some_iff.mp hrun
  obtain ⟨t, ht, hval⟩ := Option.map_eq_some_iff.mp hval
  obtain ⟨hnone, hruns⟩ := Prod.mk.inj hval
  obtain ⟨run, hrun, hresult⟩ : ∃ run, t.runs = [run] ∧ Result.succeeded run.result = true := by
    rcases hr : t.runs with _ | ⟨run, _ | ⟨run', runs⟩⟩ <;> rw [hr] at hruns <;> simp at hruns
    exact ⟨run, rfl, hruns⟩
  have hok : t.RunSucceeded := by
    rcases hres : run.result with e | u
    · simp [hres] at hresult
    · exact ⟨run, by simp [hrun], hres⟩
  obtain ⟨executed, rest, hexecuted, hschedule, hrest⟩ :=
    run_executes_schedule (by decide) hs (by decide) ht
  rw [List.length_eq_zero_iff.mp hnone, List.nil_append] at hexecuted
  exact ⟨s, t, hs, ht, by rw [hexecuted, hschedule, hrest hok, List.append_nil]⟩

end Ns3Factory.System
