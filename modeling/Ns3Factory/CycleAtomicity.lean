import Ns3Factory.EventFate
import Ns3Factory.SendConservation

/-!
A cycle is committed as a whole or not at all.

A handler that fails stops the `Run`, so the close, which comes last, is reached only after all
other events have succeeded. Until then the store is the one the cycle started from. So the
`Run` of a cycle returns success exactly when the cycle is committed, and after an error the
store is as before.
-/

namespace Ns3Factory

open StdAlgorithm Transition

namespace System

lemma scheduleAt_returned {κ : Type*} {s : System κ} (hinv : s.Inv) (time : SimTime)
    (phase : EventPhase) (callback : Option κ) :
    (s.scheduleAt time phase callback).2.returned = s.returned := by
  rcases scheduleAt_cases hinv.queue.readable time phase callback with
    ⟨⟨e, he⟩, -⟩ | ⟨cb, next, exhausted, -, -, -, -, -, hok⟩
  · rw [he]
  · rw [hok]; rfl

/-- The event is an arrival or a finalize of the signal, filed as such. -/
def FiledFor (record : EventRecord CycleEvent) (signal : ReceivedSignal) : Prop :=
  record.Fits ∧
    (record.callback = .signalArrival signal ∨ record.callback = .sessionFinalize signal)

lemma scheduleSignals_files {s : System CycleEvent} (h : s.Sound) (hc : s.CanSchedule)
    (signals : List ReceivedSignal) :
    ∃ status t records,
      scheduleSignals .signalArrival .sessionFinalize signals s = (status, t) ∧ t.Sound ∧
      t.control = s.control ∧ t.returned = s.returned ∧ t.accepted = s.accepted ++ records ∧
      ∀ record ∈ records, ∃ signal ∈ signals, FiledFor record signal := by
  induction signals generalizing s with
  | nil => exact ⟨.ok (), s, [], rfl, h, rfl, rfl, by simp, by simp⟩
  | cons signal rest ih =>
    have harrival := scheduleAt_returned h.inv signal.firstArrivalAt .kSignalArrival
      (some (.signalArrival signal : CycleEvent))
    rcases h.scheduleAt_cases hc signal.firstArrivalAt .kSignalArrival (.signalArrival signal)
      with ⟨e, he⟩ | ⟨key, m, hm, hmstep, hmt, hmp, hma, hmc, -⟩
    · exact ⟨.error e, s, [], by simp only [scheduleSignals, scheduleSignalArrival, he], h, rfl,
        rfl, by simp, by simp⟩
    rw [hm] at harrival
    have hm' := h.step hmstep
    have hcan : m.CanSchedule := by unfold CanSchedule; rw [hmc]; exact hc
    have hfirst : FiledFor ⟨key, .signalArrival signal⟩ signal := by
      refine ⟨⟨hmp, ?_, ?_⟩, Or.inl rfl⟩
      all_goals simp [CycleEvent.arrived, CycleEvent.finalized, hmt]
    have hfinalize := scheduleAt_returned hm'.inv signal.lastEffectEndAt .kSessionFinalize
      (some (.sessionFinalize signal : CycleEvent))
    rcases hm'.scheduleAt_cases hcan signal.lastEffectEndAt .kSessionFinalize
      (.sessionFinalize signal) with ⟨e, he⟩ | ⟨key', n, hn, hnstep, hnt, hnp, hna, hnc, -⟩
    · exact ⟨.error e, m, [⟨key, .signalArrival signal⟩],
        by simp only [scheduleSignals, scheduleSignalArrival, scheduleSessionFinalize, hm, he],
        hm', hmc, harrival, hma, List.forall_mem_singleton.mpr ⟨signal, by simp, hfirst⟩⟩
    rw [hn] at hfinalize
    have hcan' : n.CanSchedule := by unfold CanSchedule; rw [hnc]; exact hcan
    have hsecond : FiledFor ⟨key', .sessionFinalize signal⟩ signal := by
      refine ⟨⟨hnp, ?_, ?_⟩, Or.inr rfl⟩
      all_goals simp [CycleEvent.arrived, CycleEvent.finalized, hnt]
    obtain ⟨status, t, records, ht, htsound, htc, htr, hta, hfiled⟩ := ih (hm'.step hnstep) hcan'
    refine ⟨status, t, ⟨key, .signalArrival signal⟩ :: ⟨key', .sessionFinalize signal⟩ :: records,
      by simp only [scheduleSignals, scheduleSignalArrival, scheduleSessionFinalize, hm, hn, ht],
      htsound, htc.trans (hnc.trans hmc), htr.trans (hfinalize.trans harrival),
      by simp [hta, hna, hma], ?_⟩
    simp only [List.forall_mem_cons]
    refine ⟨⟨signal, by simp, hfirst⟩, ⟨signal, by simp, hsecond⟩, fun record hrecord => ?_⟩
    obtain ⟨other, hother, hfor⟩ := hfiled record hrecord
    exact ⟨other, List.mem_cons_of_mem _ hother, hfor⟩

end System

namespace SignalLifecycle

variable {providers : Providers}

/-- The store is the initial one until a close has returned success, and no event of a signal is
filed as late as the close. -/
structure Contained (store : WorldStateStore) (cycleCloseTime : SimTime) (c : SignalLifecycle) :
    Prop where
  closeTime : c.runtime.cycleCloseTime = cycleCloseTime
  store : c.runtime.committed = false → c.runtime.store = store
  closed : c.runtime.committed = true → ∃ key, (key, .ok ()) ∈ c.system.returned ∧
    ⟨key, .cycleClose⟩ ∈ c.system.accepted
  reached : ∀ record ∈ c.system.finished, record.callback = .cycleClose →
    c.runtime.committed = true ∨ c.system.Failed
  phase : ∀ record ∈ c.system.accepted, record.callback = .cycleClose →
    record.key.phase = .kCycleClose
  signals : ∀ record ∈ c.system.accepted, record.callback.isOpen = false →
    record.key.time ≤ cycleCloseTime ∧ record.key.phase < .kCycleClose

lemma Contained.keep {store : WorldStateStore} {cycleCloseTime : SimTime} {c : SignalLifecycle}
    (h : Contained store cycleCloseTime c) {system : System CycleEvent}
    {records finished : List (EventRecord CycleEvent)}
    (hreturned : ∃ more, system.returned = c.system.returned ++ more)
    (hfailed : c.system.Failed → system.Failed)
    (hfinished : system.finished = c.system.finished ++ finished)
    (hother : ∀ record ∈ finished, record.callback ≠ .cycleClose)
    (haccepted : system.accepted = c.system.accepted ++ records)
    (hopen : ∀ record ∈ records, record.callback.isOpen = true ∧
      record.key.phase = record.callback.phase) :
    Contained store cycleCloseTime { c with system := system } where
  closeTime := h.closeTime
  store := h.store
  closed := by
    intro hcommitted
    obtain ⟨key, hkey, hmem⟩ := h.closed hcommitted
    obtain ⟨more, hmore⟩ := hreturned
    exact ⟨key, by rw [hmore]; exact List.mem_append_left _ hkey,
      by rw [haccepted]; exact List.mem_append_left _ hmem⟩
  reached := by
    intro record hrecord hclose
    rw [hfinished] at hrecord
    rcases List.mem_append.mp hrecord with hrecord | hrecord
    · exact (h.reached record hrecord hclose).imp_right hfailed
    · exact absurd hclose (hother record hrecord)
  phase := by
    intro record hrecord hclose
    rw [haccepted] at hrecord
    rcases List.mem_append.mp hrecord with hrecord | hrecord
    · exact h.phase record hrecord hclose
    · rw [(hopen record hrecord).2, hclose]
      rfl
  signals := by
    intro record hrecord hnot
    rw [haccepted] at hrecord
    rcases List.mem_append.mp hrecord with hrecord | hrecord
    · exact h.signals record hrecord hnot
    · rw [(hopen record hrecord).1] at hnot
      cases hnot

lemma early_of_filedFor {record : EventRecord CycleEvent} {signal : ReceivedSignal}
    {cycleCloseTime : SimTime} (h : System.FiledFor record signal)
    (hends : signal.lastEffectEndAt ≤ cycleCloseTime) :
    record.key.time ≤ cycleCloseTime ∧ record.key.phase < .kCycleClose := by
  obtain ⟨⟨hphase, harrival, hfinalize⟩, hcall | hcall⟩ := h
  · rw [hphase, harrival signal (by rw [hcall]; rfl), hcall]
    exact ⟨signal.firstArrivalAt_le_lastEffectEndAt.trans hends,
      (by decide : EventPhase.kSignalArrival < .kCycleClose)⟩
  · rw [hphase, hfinalize signal (by rw [hcall]; rfl), hcall]
    exact ⟨hends, (by decide : EventPhase.kSessionFinalize < .kCycleClose)⟩

section

variable [DoubleArithmetic]

lemma call_contained {c next : SignalLifecycle} {time : SimTime} {event : CycleEvent}
    {status : Status} (h : c.system.Sound) (hc : c.system.CanSchedule)
    (hcall : c.call providers time event = some (status, next)) :
    next.system.Sound ∧ next.system.control = c.system.control ∧
      next.system.returned = c.system.returned ∧
      next.runtime.cycleCloseTime = c.runtime.cycleCloseTime ∧
      (∃ records, next.system.accepted = c.system.accepted ++ records ∧
        ∀ record ∈ records, record.key.time ≤ c.runtime.cycleCloseTime ∧
          record.key.phase < .kCycleClose ∧ record.callback.isOpen = false) ∧
      (next.runtime.committed = c.runtime.committed ∧ next.runtime.store = c.runtime.store ∧
          ¬ (event = .cycleClose ∧ status = .ok ()) ∨
        event = .cycleClose ∧ status = .ok () ∧ next.runtime.committed = true) := by
  cases event with
  | txStart request =>
    have hsnd := c.runtime.handleTxStart_snd providers time request
    simp only [call] at hcall
    rcases hstart : c.runtime.handleTxStart providers time request with ⟨e | session, runtime⟩
    · simp only [hstart] at hcall hsnd
      cases hcall
      rw [hsnd]
      exact ⟨h, rfl, rfl, rfl, ⟨[], by simp, by simp⟩, Or.inl ⟨rfl, rfl, by simp⟩⟩
    · obtain ⟨-, -, hends, hruntime⟩ := CycleSignalRuntime.handleTxStart_ok hstart
      obtain ⟨status', t, records, ht, htsound, htc, htr, hta, hfiled⟩ :=
        System.scheduleSignals_files h hc session.receivedSignals
      simp only [hstart, ht] at hcall
      cases hcall
      rw [hruntime]
      refine ⟨htsound, htc, htr, rfl, ⟨records, hta, fun record hrecord => ?_⟩,
        Or.inl ⟨rfl, rfl, by simp⟩⟩
      obtain ⟨signal, hsignal, hfor⟩ := hfiled record hrecord
      obtain ⟨htime, hphase⟩ := early_of_filedFor hfor (hends signal hsignal)
      refine ⟨htime, hphase, ?_⟩
      rcases hfor.2 with hcb | hcb <;> rw [hcb] <;> rfl
  | signalArrival signal =>
    simp only [call] at hcall
    rcases c.runtime.handleSignalArrival_cases time signal with
      ⟨-, -, ledger, hok, -⟩ | ⟨-, e, herr⟩
    · rw [hok] at hcall
      cases hcall
      exact ⟨h, rfl, rfl, rfl, ⟨[], by simp, by simp⟩, Or.inl ⟨rfl, rfl, by simp⟩⟩
    · rw [herr] at hcall
      cases hcall
      exact ⟨h, rfl, rfl, rfl, ⟨[], by simp, by simp⟩, Or.inl ⟨rfl, rfl, by simp⟩⟩
  | sessionFinalize desiredSignal =>
    simp only [call] at hcall
    rcases c.runtime.handleSessionFinalize_cases providers time desiredSignal with
      ⟨session, services, hok, -, -⟩ | ⟨e, services, herr⟩
    · rw [hok] at hcall
      cases hcall
      exact ⟨h, rfl, rfl, rfl, ⟨[], by simp, by simp⟩, Or.inl ⟨rfl, rfl, by simp⟩⟩
    · rw [herr] at hcall
      cases hcall
      exact ⟨h, rfl, rfl, rfl, ⟨[], by simp, by simp⟩, Or.inl ⟨rfl, rfl, by simp⟩⟩
  | cycleClose =>
    simp only [call] at hcall
    rcases c.runtime.handleCycleClose_cases time with
      ⟨delta, store, -, -, -, -, -, hok⟩ | ⟨e, herr⟩
    · rw [hok] at hcall
      cases hcall
      exact ⟨h, rfl, rfl, rfl, ⟨[], by simp, by simp⟩, Or.inr ⟨rfl, rfl, rfl⟩⟩
    · rw [herr] at hcall
      cases hcall
      exact ⟨h, rfl, rfl, rfl, ⟨[], by simp, by simp⟩, Or.inl ⟨rfl, rfl, by simp⟩⟩
  | other phase => cases hcall

lemma Contained.callback {store : WorldStateStore} {cycleCloseTime : SimTime}
    {c next : SignalLifecycle} {time : SimTime} {record : EventRecord CycleEvent}
    {status : Status} {system : System CycleEvent} (h : Contained store cycleCloseTime c)
    (hsound : c.system.Sound) (hc : c.system.control = .calling time record)
    (hcall : c.call providers time record.callback = some (status, next))
    (hs : next.system.step (.finish status) = some system) :
    Contained store cycleCloseTime { next with system := system } := by
  have hcan : c.system.CanSchedule := Or.inr ⟨time, record, hc⟩
  obtain ⟨hnsound, hnc, hnr, hclose, ⟨records, hna, hrecords⟩, hstore⟩ :=
    call_contained hsound hcan hcall
  obtain ⟨actions, hleads, -, hexec⟩ := call_leads hsound hcan hcall
  have hfailed : c.system.Failed → system.Failed := fun hfail =>
    (hfail.leads hsound hleads).step hnsound.inv hs
  obtain ⟨_, record', hc', hfinished, haccepted, -⟩ := hnsound.finish hs
  rw [hnc, hc] at hc'
  cases hc'
  rw [System.finished_congr hnc hexec] at hfinished
  have hreturned : system.returned = c.system.returned ++ [(record.key, status)] := by
    rcases System.returned_of_step hnsound.inv hs with ⟨hno, -⟩ |
      ⟨status', time', record', heq, hc', hreturned⟩
    · exact absurd rfl (hno status)
    · rw [hnc, hc] at hc'
      cases hc'
      rw [hreturned, hnr, ← Action.finish.inj heq]
  have haccepted' : system.accepted = c.system.accepted ++ records := haccepted.trans hna
  have hcommitted : c.runtime.committed = true → next.runtime.committed = true := fun hc => by
    rcases hstore with ⟨hkeep, -⟩ | ⟨-, -, hdone⟩
    · exact hkeep.trans hc
    · exact hdone
  refine ⟨hclose.trans h.closeTime, fun hopen => ?_, fun hcommitted => ?_, fun added hadded => ?_,
    fun added hadded => ?_, fun added hadded => ?_⟩
  · rcases hstore with ⟨hkeep, hsame, -⟩ | ⟨-, -, hcommitted⟩
    · exact hsame.trans (h.store (hkeep.symm.trans hopen))
    · rw [hcommitted] at hopen
      cases hopen
  · rcases hstore with ⟨hkeep, -⟩ | ⟨hevent, rfl, -⟩
    · obtain ⟨key, hkey, hmem⟩ := h.closed (hkeep.symm.trans hcommitted)
      exact ⟨key, by rw [hreturned]; exact List.mem_append_left _ hkey,
        by rw [haccepted']; exact List.mem_append_left _ hmem⟩
    · -- the close that has just returned success
      obtain ⟨hmem, -, -⟩ := hsound.calling_spec hc
      refine ⟨record.key, by simp [hreturned], ?_⟩
      rw [haccepted', ← hevent]
      exact List.mem_append_left _ hmem
  · intro hevent
    rw [hfinished] at hadded
    rcases List.mem_append.mp hadded with hadded | hadded
    · exact (h.reached added hadded hevent).imp hcommitted hfailed
    · rw [List.mem_singleton.mp hadded] at hevent
      rcases status with e | u
      · exact Or.inr (System.failed_of_finish hs)
      · rcases hstore with ⟨-, -, hnot⟩ | ⟨-, -, hdone⟩
        · exact absurd ⟨hevent, rfl⟩ hnot
        · exact Or.inl hdone
  · intro hevent
    rw [haccepted'] at hadded
    rcases List.mem_append.mp hadded with hadded | hadded
    · exact h.phase added hadded hevent
    · have hnot := (hrecords added hadded).2.2
      rw [hevent] at hnot
      cases hnot
  · intro hnot
    rw [haccepted'] at hadded
    rcases List.mem_append.mp hadded with hadded | hadded
    · exact h.signals added hadded hnot
    · obtain ⟨htime, hphase, -⟩ := hrecords added hadded
      exact ⟨h.closeTime ▸ htime, hphase⟩

lemma Contained.step {store : WorldStateStore} {cycleCloseTime : SimTime}
    {c c' : SignalLifecycle} {m : Move} (h : Contained store cycleCloseTime c)
    (hsound : c.system.Sound) (hm : m.isChange = false)
    (hstep : c.step providers m = some c') : Contained store cycleCloseTime c' := by
  cases step_sound hstep with
  | schedule time event system hc ho hs =>
    obtain ⟨hfinished, hfiled⟩ := hsound.scheduled hs
    have hfailed := fun hfail : c.system.Failed => hfail.step hsound.inv hs
    rcases System.returned_of_step hsound.inv hs with ⟨-, hreturned⟩ | ⟨_, _, _, ha, -⟩
    swap
    · cases ha
    rcases hfiled with haccepted | ⟨key, -, hphase, haccepted⟩
    · exact h.keep ⟨[], by simp [hreturned]⟩ hfailed (by simp [hfinished] : _ = _ ++ []) (by simp)
        (by simp [haccepted] : _ = _ ++ []) (by simp)
    · exact h.keep ⟨[], by simp [hreturned]⟩ hfailed (by simp [hfinished] : _ = _ ++ []) (by simp)
        haccepted (List.forall_mem_singleton.mpr ⟨ho, hphase⟩)
  | change services workingState store hc => cases hm
  | drive move action system ha hs hmove =>
    obtain ⟨hfinished, haccepted⟩ := System.finished_of_drives ha hs
    rcases System.returned_of_step hsound.inv hs with ⟨-, hreturned⟩ | ⟨_, _, _, rfl, -⟩
    · exact h.keep ⟨[], by simp [hreturned]⟩ (fun hfail => hfail.step hsound.inv hs)
        (by simp [hfinished] : _ = _ ++ []) (by simp) (by simp [haccepted] : _ = _ ++ [])
        (by simp)
    · exact ha.elim
  | finish status time key phase system hc hs =>
    obtain ⟨_, record, hc', hfinished, haccepted, -⟩ := hsound.finish hs
    rw [hc] at hc'
    cases hc'
    rcases System.returned_of_step hsound.inv hs with ⟨hno, -⟩ | ⟨_, _, _, -, -, hreturned⟩
    · exact absurd rfl (hno status)
    · exact h.keep ⟨_, hreturned⟩ (fun hfail => hfail.step hsound.inv hs) hfinished
        (List.forall_mem_singleton.mpr (by simp)) (by simp [haccepted] : _ = _ ++ []) (by simp)
  | callback time record status next system hc hcall hs =>
    exact h.callback hsound hc hcall hs

end

lemma contained_init (firstSequence : EventSequenceId) (now : ℤ) (services : Services)
    (workingState : CycleWorkingState) (store : WorldStateStore)
    (expectedVersion : SnapshotVersion) (cycleCloseTime : SimTime) :
    Contained store cycleCloseTime
      (init firstSequence now services workingState store expectedVersion cycleCloseTime) where
  closeTime := rfl
  store := fun _ => rfl
  closed := fun h => (by cases h)
  reached := by simp [init, System.init, System.finished]
  phase := by simp [init, System.init]
  signals := by simp [init, System.init]

lemma Contained.leads [DoubleArithmetic] {store : WorldStateStore} {cycleCloseTime : SimTime}
    {c c' : SignalLifecycle} {moves : List Move} (h : Contained store cycleCloseTime c)
    (hsound : c.system.Sound) (hmoves : ∀ m ∈ moves, m.isChange = false)
    (hr : Leads providers c moves c') :
    c'.system.Sound ∧ Contained store cycleCloseTime c' := by
  refine run_invariant (P := fun c => c.system.Sound ∧ Contained store cycleCloseTime c)
    (A := fun m => m.isChange = false) (fun c m c' hc hm hstep => ?_) ⟨hsound, h⟩ hmoves hr
  obtain ⟨actions, hleads⟩ := step_leads hc.1 hstep
  exact ⟨hc.1.leads hleads, hc.2.step hc.1 hm hstep⟩

/-! ### One `Run` -/

/-- The platform has filed one close, for the close time of the cycle, and no other event of its
own after it. -/
structure ClosesLast (cycleCloseTime : SimTime) (accepted : List (EventRecord CycleEvent))
    (close : EventRecord CycleEvent) : Prop where
  mem : close ∈ accepted
  event : close.callback = .cycleClose
  time : close.key.time = cycleCloseTime
  only : ∀ record ∈ accepted, record.callback = .cycleClose → record = close
  last : ∀ record ∈ accepted, record.callback.isOpen = true → record.key ≤ close.key

lemma ClosesLast.le {cycleCloseTime : SimTime} {c : SignalLifecycle}
    {close : EventRecord CycleEvent} {store : WorldStateStore}
    (h : ClosesLast cycleCloseTime c.system.accepted close)
    (hcontained : Contained store cycleCloseTime c) {record : EventRecord CycleEvent}
    (hrecord : record ∈ c.system.accepted) : record.key ≤ close.key := by
  rcases hopen : record.callback.isOpen with _ | _
  · obtain ⟨htime, hphase⟩ := hcontained.signals record hrecord hopen
    refine (EventKey.lt_iff.mpr ?_).le
    rw [h.time, hcontained.phase close h.mem h.event]
    rcases htime.lt_or_eq with hlt | heq
    · exact Or.inl hlt
    · exact Or.inr ⟨heq, Or.inl hphase⟩
  · exact h.last record hrecord hopen

lemma Contained.succeeded {store : WorldStateStore} {cycleCloseTime : SimTime}
    {c : SignalLifecycle} {run : RunRecord} {close : EventRecord CycleEvent}
    (h : Contained store cycleCloseTime c) (hsound : c.system.Sound)
    (hrun : c.system.RunInv) (hidle : c.system.control = .idle)
    (hsingle : c.system.runs = [run]) (hlast : ClosesLast cycleCloseTime c.system.accepted close)
    (hcommitted : c.runtime.committed = true) : run.result = .ok () := by
  have hkeys : run.returned.map Prod.fst = c.system.executed.map EventRecord.key := by
    have hrecorded := hrun.recorded
    rw [System.recordedKeys, hidle, hsingle] at hrecorded
    simpa using hrecorded
  obtain ⟨key, hreturned, hmem⟩ := h.closed hcommitted
  have hclose : (close.key, .ok ()) ∈ run.returned := by
    have hkey : key = close.key := congrArg EventRecord.key (hlast.only _ hmem rfl)
    simpa [System.returned, hidle, hsingle, hkey] using hreturned
  obtain ⟨hstop, hok⟩ := hrun.failStop run (by simp [hsingle])
  refine hok fun p hp => ?_
  obtain ⟨key', e | u⟩ := p
  swap
  · rfl
  -- a failure is the last callback, so it comes after the close
  obtain ⟨before, after, hsplit⟩ := List.append_of_mem hp
  obtain ⟨rfl, -⟩ := hstop before key' e after hsplit
  have hbefore : (close.key, .ok ()) ∈ before := by
    rw [hsplit] at hclose
    simpa using hclose
  have hinc : (run.returned.map Prod.fst).Pairwise (· < ·) := by
    rw [hkeys]
    exact List.pairwise_map.mpr hsound.inv.increasing
  rw [hsplit, List.map_append, List.pairwise_append] at hinc
  have hlt : close.key < key' :=
    hinc.2.2 close.key (List.mem_map_of_mem hbefore) key' (by simp)
  have hexecuted : key' ∈ c.system.executed.map EventRecord.key := by
    rw [← hkeys]
    exact List.mem_map_of_mem hp
  obtain ⟨record, hrecord, rfl⟩ := List.mem_map.mp hexecuted
  have haccepted : record ∈ c.system.accepted :=
    hsound.inv.conserved.mem_iff.mpr (List.mem_append_left _ hrecord)
  exact absurd (hlast.le h haccepted) (not_le.mpr hlt)

/-- **All or nothing.** Where the close is filed last, the only `Run` of a cycle returns success
exactly when the cycle is committed. Then every accepted event has been executed, the ledger is
empty and the store one version on; otherwise the store is as it was. -/
theorem cycle_all_or_nothing [DoubleArithmetic] {firstSequence : EventSequenceId} {now : ℤ}
    (hnow : 0 ≤ now ∧ now ≤ kMax) {services : Services} {workingState : CycleWorkingState}
    {store : WorldStateStore} {expectedVersion : SnapshotVersion} {cycleCloseTime : SimTime}
    {moves : List Move} {run : RunRecord} {c : SignalLifecycle}
    (h : Leads providers
      (init firstSequence now services workingState store expectedVersion cycleCloseTime)
      (moves ++ [.finishRun]) c)
    (hsingle : c.system.runs = [run]) (hmoves : ∀ m ∈ moves, m.isChange = false)
    {close : EventRecord CycleEvent}
    (hlast : ClosesLast cycleCloseTime c.system.accepted close) :
    (run.result = .ok () ↔ c.runtime.committed = true) ∧
    (c.runtime.committed = true → c.system.accepted.Perm c.system.executed ∧
      c.runtime.ledger.signals = [] ∧ c.runtime.store.currentSnapshot.version.value.val =
        store.currentSnapshot.version.value.val + 1) ∧
    (c.runtime.committed = false → c.runtime.store = store) := by
  have hinit := System.sound_init (κ := CycleEvent) firstSequence hnow
  have hall : ∀ m ∈ moves ++ [.finishRun], m.isChange = false :=
    List.forall_mem_append.mpr ⟨hmoves, List.forall_mem_singleton.mpr rfl⟩
  obtain ⟨hsound, hcontained⟩ := (contained_init firstSequence now services workingState store
    expectedVersion cycleCloseTime).leads hinit hall h
  have hidle : c.system.control = .idle := by
    obtain ⟨m, -, hstep⟩ := run_concat_eq_some.mp h
    obtain ⟨system, hs, rfl⟩ := drive_eq_some hstep
    cases System.step_sound hs with
    | finishRun hc hr => rfl
  obtain ⟨actions, hleads⟩ := leads_system hinit h
  have hrun : c.system.RunInv := System.Runs.runInv hnow hleads
  have hcompletes : run.result = .ok () → Completes providers (init firstSequence now services
      workingState store expectedVersion cycleCloseTime) moves run c :=
    fun hok => ⟨h, hsingle, hok⟩
  have hended : ∀ hok : run.result = .ok (), c.system.finished = c.system.executed ∧
      c.system.accepted.Perm c.system.executed := by
    intro hok
    obtain ⟨m, hm, hlaststep⟩ := run_concat_eq_some.mp h
    obtain ⟨system, hs, rfl⟩ := drive_eq_some hlaststep
    obtain ⟨actions, hleads⟩ := leads_system hinit hm
    obtain ⟨hfin, hperm⟩ := (hinit.leads hleads).finishRun (hcompletes hok).not_failed hs
    exact ⟨hfin, hfin ▸ hperm⟩
  have hback := hcontained.succeeded hsound hrun hidle hsingle hlast
  refine ⟨⟨fun hok => ?_, hback⟩, fun hcommitted => ?_, hcontained.store⟩
  · obtain ⟨hfin, hperm⟩ := hended hok
    have hmem : close ∈ c.system.finished := by
      rw [hfin]
      exact hperm.mem_iff.mp hlast.mem
    exact (hcontained.reached close hmem hlast.event).resolve_right (hcompletes hok).not_failed
  · have hok := hback hcommitted
    obtain ⟨-, -, ht, hstored, -⟩ := (hcompletes hok).invariant
      (P := Stored store) (A := fun m => m.isChange = false)
      (fun c m c' hsound hw ht hP hm hok hstep => hP.step hsound hm hok hstep) hinit
      (wired_init firstSequence services workingState store expectedVersion cycleCloseTime)
      (tracked_init firstSequence services workingState store expectedVersion cycleCloseTime)
      ⟨fun _ => rfl, fun h => (by cases h)⟩ hall
    exact ⟨(hended hok).2, (ht.closed hcommitted).1, hstored.after hcommitted⟩

open ReceiverProcessor

/-- The event closes the cycle. -/
def isClose : CycleEvent → Bool
  | .cycleClose => true
  | _ => false

lemma isClose_iff {event : CycleEvent} : isClose event = true ↔ event = .cycleClose := by
  cases event <;> simp [isClose]

theorem cycle_all_or_nothing_pair :
    ∃ run c, Leads (bandProviders 1000 100) pairInit (pairMoves ++ [.finishRun]) c ∧
      c.system.runs = [run] ∧ (run.result = .ok () ↔ c.runtime.committed = true) ∧
      c.runtime.committed = true := by
  let closeKey : EventKey := ⟨.ofUInt32 9, .kCycleClose, ⟨0⟩⟩
  have hrun : (run (step (bandProviders 1000 100)) pairInit (pairMoves ++ [.finishRun])).map
      (fun c => (c.system.runs.length, c.runtime.committed,
        c.system.accepted.any fun r => isClose r.callback,
        c.system.accepted.all fun r => if isClose r.callback then r.key = closeKey else
          !r.callback.isOpen || r.key ≤ closeKey)) = some (1, true, true, true) := by
    decide +kernel
  obtain ⟨c, hc, hval⟩ := Option.map_eq_some_iff.mp hrun
  simp only [Prod.mk.injEq, List.any_eq_true, List.all_eq_true] at hval
  obtain ⟨hruns, hcommitted, ⟨close, hmem, hclose⟩, hall⟩ := hval
  obtain ⟨run, hsingle⟩ := List.length_eq_one_iff.mp hruns
  have hkey : ∀ record ∈ c.system.accepted, record.callback = .cycleClose →
      record.key = closeKey := by
    intro record hrecord hevent
    have hcheck := hall record hrecord
    rw [if_pos (isClose_iff.mpr hevent)] at hcheck
    exact of_decide_eq_true hcheck
  have hevent := isClose_iff.mp hclose
  have hlast : ClosesLast (.ofUInt32 9) c.system.accepted close := by
    refine ⟨hmem, hevent, congrArg EventKey.time (hkey close hmem hevent), ?_, ?_⟩
    · rintro ⟨key, event⟩ hrecord rfl
      obtain ⟨key', event'⟩ := close
      cases hevent
      rw [show key = closeKey from hkey _ hrecord rfl, show key' = closeKey from hkey _ hmem rfl]
    · intro record hrecord hopen
      rw [hkey close hmem hevent]
      have hcheck := hall record hrecord
      split_ifs at hcheck with hc
      · exact (of_decide_eq_true hcheck).le
      · simpa [hopen] using hcheck
  exact ⟨run, c, hc, hsingle, (cycle_all_or_nothing (by decide) hc hsingle
    (by simp [pairMoves, Move.isChange]) hlast).1, hcommitted⟩

end SignalLifecycle

end Ns3Factory
