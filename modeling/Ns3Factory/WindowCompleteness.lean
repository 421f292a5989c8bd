import Ns3Factory.SignalTracking

/-!
The windows of the sessions of a cycle.

A signal is finalized when its influence ends, and sees the signals that have arrived by then.
An arrival executed later is not before that end, so it does not overlap the signal: the
window found in the ledger lists what overlaps among all signals of the cycle.
-/

namespace Ns3Factory.SignalLifecycle

open StdAlgorithm Transition

variable {providers : Providers}

/-- The window of every session lists the other signals arrived so far that overlap its own. -/
def Windows (c : SignalLifecycle) : Prop :=
  ∀ session ∈ c.runtime.results.sessions,
    session.receiverWindow.desiredSignal = session.desiredSignal ∧
    ∀ signal, signal ∈ session.receiverWindow.overlappingSignals ↔
      signal ∈ arrivedOf c.system.finished ∧ signal ≠ session.desiredSignal ∧
        Overlaps session.desiredSignal signal

lemma not_overlaps_of_calling {c : SignalLifecycle} (hsound : c.system.Sound) (hw : c.Wired)
    {time : SimTime} {key : EventKey} {signal earlier : ReceivedSignal}
    (hc : c.system.control = .calling time ⟨key, .signalArrival signal⟩)
    (hearlier : earlier ∈ finalizedOf c.system.finished) : ¬ Overlaps earlier signal := by
  intro hover
  obtain ⟨finalize, hmem, hfinalize⟩ := mem_finalizedOf.mp hearlier
  obtain ⟨hacc, -, hlt⟩ := hsound.calling_spec hc
  have hle : finalize.key.time ≤ key.time := EventKey.time_le_of_lt (hlt finalize hmem)
  have hat : key.time = signal.firstArrivalAt := (hw.fits _ hacc).arrival signal rfl
  rw [hat, (hw.fits finalize (hsound.accepted_of_finished hmem)).finalize earlier hfinalize] at hle
  exact absurd hover.lt_end (not_lt.mpr hle)

lemma Windows.congr {c c' : SignalLifecycle} (h : c.Windows)
    (harrived : arrivedOf c'.system.finished = arrivedOf c.system.finished)
    (hresults : c'.runtime.results = c.runtime.results) : c'.Windows := by
  unfold Windows
  rw [harrived, hresults]
  exact h

lemma Windows.step [DoubleArithmetic] {c c' : SignalLifecycle} {m : Move} (hsound : c.system.Sound)
    (hw : c.Wired) (ht : c.Tracked) (h : c.Windows) (hok : ¬ c'.system.Failed)
    (hstep : c.step providers m = some c') : c'.Windows := by
  cases step_outcome hsound hok hstep with
  | quiet hq => exact h.congr hq.arrived (by rw [hq.runtime])
  | txStart hr hexec hends => exact h.congr (hr.arrived.trans (List.append_nil _)) rfl
  | @signalArrival key signal ledger system hr hledger =>
    intro session hsession
    obtain ⟨hdesired, hwindow⟩ := h session hsession
    refine ⟨hdesired, fun s => ?_⟩
    rw [hwindow s, hr.arrived, List.mem_append]
    refine ⟨fun hs => ⟨Or.inl hs.1, hs.2⟩, ?_⟩
    rintro ⟨hs | hs, hne, hover⟩
    · exact ⟨hs, hne, hover⟩
    · -- the window of an earlier session needs no signal that arrives now
      obtain rfl := List.mem_singleton.mp hs
      have hearlier : session.desiredSignal ∈ finalizedOf c.system.finished :=
        ht.results.mem_iff.mp (List.mem_map_of_mem hsession)
      exact absurd hover (not_overlaps_of_calling hsound hw hr.calling hearlier)
  | @sessionFinalize key signal session services system hr hproc =>
    have hopen := ht.open_of_mem hproc.inLedger
    have harrived : arrivedOf system.finished = arrivedOf c.system.finished :=
      hr.arrived.trans (List.append_nil _)
    intro added hadded
    rw [harrived]
    rcases List.mem_cons.mp ((c.runtime.results.append_perm session).mem_iff.mp hadded) with
      rfl | hadded
    · obtain ⟨window, hbuild, hdesired, -, hwindow⟩ :=
        ReceiverWindowBuilder.build_of_mem hproc.inLedger
      rw [hproc.window] at hbuild
      cases hbuild
      rw [hproc.desired]
      refine ⟨hdesired, fun s => ?_⟩
      rw [hwindow s, (ht.ledger hopen).mem_iff]
    · exact h added hadded
  | cycleClose hr hopen htime hcommit => exact h.congr (hr.arrived.trans (List.append_nil _)) rfl

/-- **The windows of a cycle are complete.** When the only `Run` of a cycle succeeds, the
window of each session lists, in the order of arrival, exactly the other signals produced in
the whole cycle that overlap its own. -/
theorem window_complete [DoubleArithmetic] {providers : Providers}
    {firstSequence : EventSequenceId} {now : ℤ} (hnow : 0 ≤ now ∧ now ≤ kMax)
    {services : Services} {workingState : CycleWorkingState}
    {store : WorldStateStore} {expectedVersion : SnapshotVersion} {cycleCloseTime : SimTime}
    {moves : List Move} {run : RunRecord} {c : SignalLifecycle}
    (h : Completes providers
      (init firstSequence now services workingState store expectedVersion cycleCloseTime) moves
      run c) :
    ∀ session ∈ c.runtime.results.sessions,
      session.desiredSignal ∈ c.produced ∧
      session.receiverWindow.desiredSignal = session.desiredSignal ∧
      Ascending windowOrder session.receiverWindow.overlappingSignals ∧
      ∀ signal, signal ∈ session.receiverWindow.overlappingSignals ↔
        signal ∈ c.produced ∧ signal ≠ session.desiredSignal ∧
          Overlaps session.desiredSignal signal := by
  obtain ⟨-, -, ht, hwindows, hfinished, harrived, hfinalized⟩ := h.invariant
    (P := Windows) (A := fun _ => True)
    (fun c m c' hsound hw ht hP _ hok hstep => hP.step hsound hw ht hok hstep)
    (System.sound_init firstSequence hnow)
    (wired_init firstSequence services workingState store expectedVersion cycleCloseTime)
    (tracked_init firstSequence services workingState store expectedVersion cycleCloseTime)
    (by intro session hsession; cases hsession) (fun _ _ => trivial)
  intro session hsession
  obtain ⟨hdesired, hwindow⟩ := hwindows session hsession
  refine ⟨?_, hdesired, session.receiverWindow.ascending, fun signal => ?_⟩
  · have hmem := ht.results.mem_iff.mp (List.mem_map_of_mem hsession)
    rw [hfinished] at hmem
    exact hfinalized.mem_iff.mp hmem
  · rw [hwindow signal, hfinished, harrived.mem_iff]

theorem window_complete_pair :
    ∃ run c, Completes (ReceiverProcessor.bandProviders 1000 100) pairInit pairMoves run c ∧
      c.runtime.results.sessions.length = 2 ∧
      ∀ session ∈ c.runtime.results.sessions, ∀ signal,
        signal ∈ session.receiverWindow.overlappingSignals ↔
          signal ∈ c.produced ∧ signal ≠ session.desiredSignal ∧
            Overlaps session.desiredSignal signal := by
  obtain ⟨run, c, h, -, hsessions⟩ := pairMoves_completes
  refine ⟨run, c, h, by simpa using congrArg List.length hsessions, fun session hsession => ?_⟩
  exact (window_complete (by decide) h session hsession).2.2.2

end Ns3Factory.SignalLifecycle
