import Ns3Factory.QueueRefinement
import Ns3Factory.SendConservation

/-!
The phases of a signal.

A signal is on its way until its arrival has been executed. Then it is in the ledger, and in
flight until its finalize has been executed, which makes one session of it. As long as nothing
has failed every signal is in exactly one of these phases, whatever the dispatcher is doing, and
the clock agrees with it.
-/

namespace Ns3Factory

open StdAlgorithm Transition

namespace System

variable {κ : Type*} {s : System κ}

lemma Inv.executed_le (h : s.Inv) {r : EventRecord κ} (hr : r ∈ s.executed) :
    r.key.time.nanoseconds ≤ s.kernel.simulator.now := by
  have hlast := h.last
  unfold LastInv at hlast
  rcases hl : s.executed.getLast? with _ | last
  · rw [List.getLast?_eq_none_iff] at hl
    rw [hl] at hr
    cases hr
  · rw [hl] at hlast
    have hle : r.key.time ≤ last.key.time := by
      rcases (h.le_last hl hr).lt_or_eq with hlt | heq
      · exact EventKey.time_le_of_lt hlt
      · rw [heq]
    exact (SimTime.le_iff.mp hle).trans hlast.2.2

lemma finished_prefix (s : System κ) : s.finished <+: s.executed := by
  unfold finished
  split
  · exact List.dropLast_prefix _
  · exact List.prefix_refl _

lemma Sound.awaited (h : s.Sound) (hok : ¬ s.Failed) {r : EventRecord κ} (hr : r ∈ s.accepted)
    (hno : r ∉ s.finished) :
    s.kernel.simulator.now ≤ r.key.time.nanoseconds ∧ ∀ x ∈ s.finished, x.key < r.key := by
  rcases List.mem_append.mp (h.inv.conserved.mem_iff.mp hr) with hexec | hpending
  · -- its callback is running
    have hcalling : ∃ time, s.control = .calling time r := by
      unfold finished at hno
      split at hno
      next time record hc =>
        obtain ⟨hexecuted, -⟩ := h.calling time record hc
        rw [hexecuted] at hexec
        rcases List.mem_append.mp hexec with hfinished | hrecord
        · rw [finished, hc] at hfinished
          exact absurd hfinished hno
        · rw [List.mem_singleton.mp hrecord]
          exact ⟨time, hc⟩
      · exact absurd hexec hno
    obtain ⟨time, hc⟩ := hcalling
    obtain ⟨-, htime, hlt⟩ := h.calling_spec hc
    have hcontrol := h.inv.control
    rw [ControlInv, hc] at hcontrol
    exact ⟨by rw [htime, hcontrol.1.now], hlt⟩
  · obtain ⟨b, hb, htime, hmem⟩ := h.inv.bucket_of_pending hpending
    have hahead : s.kernel.simulator.now ≤ b.time.nanoseconds := by
      have hcontrol := h.inv.control
      rcases (h.healthy hok).registered b hb with ⟨e, he, hat⟩ | hc | ⟨record, hc⟩
      · obtain ⟨hfire, hnow⟩ := h.inv.queue.queued e he
        rw [← hat, ← hfire]
        exact hnow
      · rw [ControlInv, hc] at hcontrol
        exact hcontrol.now.ge
      · rw [ControlInv, hc] at hcontrol
        exact hcontrol.1.now.ge
    refine ⟨by rw [← htime]; exact hahead, fun x hx => ?_⟩
    exact h.inv.ahead b hb hahead r hmem x (s.finished_prefix.subset hx)

end System

inductive SignalPhase
  | inTransit
  | inFlight
  | received

namespace SignalLifecycle

variable {providers : Providers}

/-- The signals that have been received, each as often as it was. -/
def receivedSignals (c : SignalLifecycle) : List ReceivedSignal :=
  c.runtime.results.sessions.map ReceptionSession.desiredSignal

/-- The ledger and the results hold what they do of a signal in its phase, and the clock is
where the phase says. -/
def InPhase (c : SignalLifecycle) (signal : ReceivedSignal) : SignalPhase → Prop
  | .inTransit =>
    signal ∉ c.runtime.ledger.signals ∧ signal ∉ c.receivedSignals ∧
      c.system.kernel.simulator.now ≤ signal.firstArrivalAt.nanoseconds
  | .inFlight =>
    signal ∈ c.runtime.ledger.signals ∧ signal ∉ c.receivedSignals ∧
      signal.firstArrivalAt.nanoseconds ≤ c.system.kernel.simulator.now ∧
      c.system.kernel.simulator.now ≤ signal.lastEffectEndAt.nanoseconds
  | .received =>
    c.receivedSignals.count signal = 1 ∧
      signal.lastEffectEndAt.nanoseconds ≤ c.system.kernel.simulator.now ∧
      (c.runtime.committed = false → signal ∈ c.runtime.ledger.signals)

lemma InPhase.unique {c : SignalLifecycle} {signal : ReceivedSignal} {phase phase' : SignalPhase}
    (h : c.InPhase signal phase) (h' : c.InPhase signal phase') : phase = phase' := by
  have hcount : ∀ {signal}, c.InPhase signal .received → signal ∈ c.receivedSignals := by
    intro signal hreceived
    exact List.count_pos_iff.mp (by rw [hreceived.1]; exact Nat.one_pos)
  cases phase <;> cases phase'
  case inTransit.inTransit | inFlight.inFlight | received.received => rfl
  case inTransit.inFlight => exact absurd h'.1 h.1
  case inFlight.inTransit => exact absurd h.1 h'.1
  case inTransit.received | inFlight.received => exact absurd (hcount h') h.2.1
  case received.inTransit | received.inFlight => exact absurd (hcount h) h'.2.1

lemma Wired.events {c : SignalLifecycle} (h : c.Wired) {signal : ReceivedSignal}
    (hsignal : signal ∈ c.produced) :
    (∃ arrival ∈ c.system.accepted, arrival.callback.arrived = some signal ∧
      arrival.key.time = signal.firstArrivalAt) ∧
    ∃ finalize ∈ c.system.accepted, finalize.callback.finalized = some signal ∧
      finalize.key.time = signal.lastEffectEndAt ∧ finalize.key.phase = .kSessionFinalize := by
  constructor
  · rw [← h.arrivals] at hsignal
    obtain ⟨arrival, hmem, harrived⟩ := mem_arrivedOf.mp hsignal
    exact ⟨arrival, hmem, harrived, (h.fits arrival hmem).arrival signal harrived⟩
  · rw [← h.finalizes] at hsignal
    obtain ⟨finalize, hmem, hfinalized⟩ := mem_finalizedOf.mp hsignal
    refine ⟨finalize, hmem, hfinalized, (h.fits finalize hmem).finalize signal hfinalized, ?_⟩
    rw [(h.fits finalize hmem).phase]
    rcases hcallback : finalize.callback with _ | _ | _ | _ | _ <;> rw [hcallback] at hfinalized <;>
      cases hfinalized
    rfl

section Phases

variable {c : SignalLifecycle} {signal : ReceivedSignal}

lemma inPhase_received (hsound : c.system.Sound) (hw : c.Wired) (ht : c.Tracked)
    (hok : ¬ c.system.Failed) (hnodup : c.produced.Nodup) (hsignal : signal ∈ c.produced)
    (hfinalized : signal ∈ finalizedOf c.system.finished) : c.InPhase signal .received := by
  obtain ⟨finalize, hfinished, hfinalize⟩ := mem_finalizedOf.mp hfinalized
  have hacc := hsound.accepted_of_finished hfinished
  have hat := (hw.fits finalize hacc).finalize signal hfinalize
  refine ⟨?_, ?_, fun hopen => ?_⟩
  · have hsub : (finalizedOf c.system.finished).Subperm (finalizedOf c.system.accepted) := by
      have hfront := c.system.finished_prefix.sublist.trans
        (List.sublist_append_left c.system.executed c.system.kernel.dispatcher.pendingRecords)
      exact (hfront.filterMap _).subperm.trans
        (hsound.inv.conserved.symm.filterMap _).subperm
    rw [hw.finalizes] at hsub
    have honce : (finalizedOf c.system.finished).Nodup := by
      obtain ⟨signals, hperm, hsublist⟩ := hsub
      exact hperm.nodup_iff.mp (hnodup.sublist hsublist)
    rw [receivedSignals, ht.results.count_eq]
    exact List.count_eq_one_of_mem honce hfinalized
  · rw [← hat]
    exact hsound.inv.executed_le (c.system.finished_prefix.subset hfinished)
  · rw [(ht.ledger hopen).mem_iff]
    by_contra hnot
    -- the arrival would be still to come, but it is before the finalize
    obtain ⟨⟨arrival, harr, harrived, htime⟩, -⟩ := hw.events hsignal
    have hno : arrival ∉ c.system.finished := fun hin =>
      hnot (mem_arrivedOf.mpr ⟨arrival, hin, harrived⟩)
    have hlt := (hsound.awaited hok harr hno).2 finalize hfinished
    have hle := EventKey.time_le_of_lt hlt
    rw [hat, htime] at hle
    exact absurd (hw.bounds signal hsignal).1 (not_lt.mpr hle)

lemma finalized_of_committed (hsound : c.system.Sound) (hw : c.Wired) (ht : c.Tracked)
    (hok : ¬ c.system.Failed) (hsignal : signal ∈ c.produced)
    (hcommitted : c.runtime.committed = true) : signal ∈ finalizedOf c.system.finished := by
  obtain ⟨-, close, hclose, hevent, hat⟩ := ht.closed hcommitted
  obtain ⟨-, finalize, hacc, hfinalize, htime, hphase⟩ := hw.events hsignal
  by_contra hnot
  have hno : finalize ∉ c.system.finished := fun hin =>
    hnot (mem_finalizedOf.mpr ⟨finalize, hin, hfinalize⟩)
  -- a finalize that is still to come would be before the close, by its time or its phase
  have hlt := (hsound.awaited hok hacc hno).2 close hclose
  have hclosePhase : close.key.phase = .kCycleClose := by
    rw [(hw.fits close (hsound.accepted_of_finished hclose)).phase, hevent]
    rfl
  have hends := (hw.bounds signal hsignal).2
  rw [EventKey.lt_iff, hat, htime, hclosePhase, hphase] at hlt
  rcases hlt with hlate | ⟨-, hphases | ⟨hphases, -⟩⟩
  · exact absurd hends (not_le.mpr hlate)
  · exact absurd hphases (by decide)
  · cases hphases

lemma exists_inPhase (hsound : c.system.Sound) (hw : c.Wired) (ht : c.Tracked)
    (hok : ¬ c.system.Failed) (hnodup : c.produced.Nodup) (hsignal : signal ∈ c.produced) :
    ∃ phase, c.InPhase signal phase := by
  by_cases hfinalized : signal ∈ finalizedOf c.system.finished
  · exact ⟨.received, inPhase_received hsound hw ht hok hnodup hsignal hfinalized⟩
  have hunreceived : signal ∉ c.receivedSignals := by
    rw [receivedSignals, ht.results.mem_iff]
    exact hfinalized
  have hopen : c.runtime.committed = false := by
    rw [Bool.eq_false_iff]
    exact fun hcommitted =>
      hfinalized (finalized_of_committed hsound hw ht hok hsignal hcommitted)
  obtain ⟨⟨arrival, harr, harrived, hat⟩, finalize, hacc, hfinalize, hend, -⟩ :=
    hw.events hsignal
  by_cases hin : signal ∈ arrivedOf c.system.finished
  · obtain ⟨arrival', hfinished, harrived'⟩ := mem_arrivedOf.mp hin
    have hat' := (hw.fits arrival' (hsound.accepted_of_finished hfinished)).arrival signal harrived'
    have hno : finalize ∉ c.system.finished := fun hmem =>
      hfinalized (mem_finalizedOf.mpr ⟨finalize, hmem, hfinalize⟩)
    refine ⟨.inFlight, (ht.ledger hopen).mem_iff.mpr hin, hunreceived, ?_, ?_⟩
    · rw [← hat']
      exact hsound.inv.executed_le (c.system.finished_prefix.subset hfinished)
    · rw [← hend]
      exact (hsound.awaited hok hacc hno).1
  · have hno : arrival ∉ c.system.finished := fun hmem =>
      hin (mem_arrivedOf.mpr ⟨arrival, hmem, harrived⟩)
    refine ⟨.inTransit, fun hmem => hin ((ht.ledger hopen).mem_iff.mp hmem), hunreceived, ?_⟩
    rw [← hat]
    exact (hsound.awaited hok harr hno).1

lemma produced_of_held (hsound : c.system.Sound) (hw : c.Wired) (ht : c.Tracked) :
    (∀ signal ∈ c.runtime.ledger.signals, signal ∈ c.produced) ∧
      ∀ signal ∈ c.receivedSignals, signal ∈ c.produced := by
  constructor
  · intro signal hsignal
    rw [(ht.ledger (ht.open_of_mem hsignal)).mem_iff, mem_arrivedOf] at hsignal
    obtain ⟨record, hfinished, harrived⟩ := hsignal
    rw [← hw.arrivals]
    exact mem_arrivedOf.mpr ⟨record, hsound.accepted_of_finished hfinished, harrived⟩
  · intro signal hsignal
    rw [receivedSignals, ht.results.mem_iff, mem_finalizedOf] at hsignal
    obtain ⟨record, hfinished, hfinalized⟩ := hsignal
    rw [← hw.finalizes]
    exact mem_finalizedOf.mpr ⟨record, hsound.accepted_of_finished hfinished, hfinalized⟩

end Phases

/-- **The phases of a signal.** Wherever the moves of a cycle lead without a failure, every
signal produced is in exactly one phase, the ledger and the results hold no other signal, and
after the close every signal has been received. -/
theorem signal_phases [DoubleArithmetic] {firstSequence : EventSequenceId} {now : ℤ}
    (hnow : 0 ≤ now ∧ now ≤ kMax) {services : Services} {workingState : CycleWorkingState}
    {store : WorldStateStore} {expectedVersion : SnapshotVersion} {cycleCloseTime : SimTime}
    {moves : List Move} {c : SignalLifecycle} (hmoves : ∀ m ∈ moves, m.isChange = false)
    (h : Leads providers
      (init firstSequence now services workingState store expectedVersion cycleCloseTime) moves c)
    (hok : ¬ c.system.Failed) :
    (∀ signal ∈ c.produced, ∃! phase, c.InPhase signal phase) ∧
    (∀ signal ∈ c.runtime.ledger.signals, signal ∈ c.produced) ∧
    (∀ signal ∈ c.receivedSignals, signal ∈ c.produced) ∧
    (c.runtime.committed = true → ∀ signal ∈ c.produced, c.InPhase signal .received) := by
  obtain ⟨hsound, hw, ht, hsent⟩ := leads_invariant (P := Sent services)
    (A := fun m => m.isChange = false)
    (fun c m c' hsound hw ht hsent hm hok hstep => hsent.step hsound hm hok hstep)
    (System.sound_init firstSequence hnow)
    (wired_init firstSequence services workingState store expectedVersion cycleCloseTime)
    (tracked_init firstSequence services workingState store expectedVersion cycleCloseTime)
    (sent_init firstSequence now services workingState store expectedVersion cycleCloseTime)
    hmoves h hok
  have hnodup : c.produced.Nodup :=
    List.Nodup.of_map pair (hsent.produced_perm.nodup_iff.mpr hsent.nodup_pairs)
  obtain ⟨hledger, hreceived⟩ := produced_of_held hsound hw ht
  refine ⟨fun signal hsignal => ?_, hledger, hreceived, fun hcommitted signal hsignal => ?_⟩
  · obtain ⟨phase, hphase⟩ := exists_inPhase hsound hw ht hok hnodup hsignal
    exact ⟨phase, hphase, fun phase' hphase' => hphase'.unique hphase⟩
  · exact inPhase_received hsound hw ht hok hnodup hsignal
      (finalized_of_committed hsound hw ht hok hsignal hcommitted)

/-- The first of two signals has arrived, and the second is about to. -/
theorem signal_phases_pair :
    ∃ c, Leads (ReceiverProcessor.bandProviders 1000 100) pairInit (pairMoves.take 13) c ∧
      c.produced.length = 2 ∧ c.runtime.ledger.signals.length = 1 ∧
      ∀ signal ∈ c.produced, ∃! phase, c.InPhase signal phase := by
  have hrun : (run (step (ReceiverProcessor.bandProviders 1000 100)) pairInit
      (pairMoves.take 13)).map (fun c => (c.produced.length, c.runtime.ledger.signals.length,
        c.system.runs.length, c.system.kernel.dispatcher.executionError.isSome)) =
          some (2, 1, 0, false) := by
    decide +kernel
  obtain ⟨c, hc, hval⟩ := Option.map_eq_some_iff.mp hrun
  simp only [Prod.mk.injEq] at hval
  obtain ⟨hproduced, hledger, hruns, herror⟩ := hval
  have hok : ¬ c.system.Failed := by
    rintro (⟨r, hr, -⟩ | ⟨-, hfailed⟩)
    · rw [List.length_eq_zero_iff.mp hruns] at hr
      cases hr
    · rw [herror] at hfailed
      cases hfailed
  exact ⟨c, hc, hproduced, hledger,
    (signal_phases (by decide) (by simp [pairMoves, Move.isChange]) hc hok).1⟩

end SignalLifecycle

end Ns3Factory
