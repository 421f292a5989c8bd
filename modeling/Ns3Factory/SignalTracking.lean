import Ns3Factory.SignalLifecycle

/-!
The signals of a cycle, from the accepted events to the ledger and the results.

The arrivals and finalizes among the accepted events are those of the signals produced. Until
the close the ledger holds the signals whose arrival has been executed, and the results a
session for each finalize executed. No signal outlasts the cycle, so the close comes after all
arrivals.
-/

namespace Ns3Factory

open StdAlgorithm Transition
open scoped List

namespace SignalLifecycle

variable {providers : Providers}

/-- The accepted arrivals and finalizes are those of the signals produced, which end by the
close of the cycle. -/
structure Wired (c : SignalLifecycle) : Prop where
  fits : ∀ record ∈ c.system.accepted, record.Fits
  arrivals : arrivedOf c.system.accepted = c.produced
  finalizes : finalizedOf c.system.accepted = c.produced
  bounds : ∀ signal ∈ c.produced, signal.firstArrivalAt < signal.lastEffectEndAt ∧
    signal.lastEffectEndAt ≤ c.runtime.cycleCloseTime

lemma Wired.files {c c' : SignalLifecycle} (h : c.Wired) {signals : List ReceivedSignal}
    (hfiles : Files signals c.system c'.system)
    (hproduced : c'.produced = c.produced ++ signals)
    (hclose : c'.runtime.cycleCloseTime = c.runtime.cycleCloseTime)
    (hbounds : ∀ signal ∈ signals, signal.firstArrivalAt < signal.lastEffectEndAt ∧
      signal.lastEffectEndAt ≤ c.runtime.cycleCloseTime) : c'.Wired := by
  obtain ⟨records, hacc, hplanned⟩ := hfiles
  refine ⟨?_, ?_, ?_, ?_⟩
  · simp only [hacc, List.forall_mem_append]
    exact ⟨h.fits, hplanned.fits⟩
  · rw [hacc, hproduced, arrivedOf, List.filterMap_append]
    exact congrArg₂ _ h.arrivals hplanned.arrived
  · rw [hacc, hproduced, finalizedOf, List.filterMap_append]
    exact congrArg₂ _ h.finalizes hplanned.finalized
  · rw [hproduced, hclose, List.forall_mem_append]
    exact ⟨h.bounds, hbounds⟩

lemma Wired.step [DoubleArithmetic] {c c' : SignalLifecycle} {m : Move}
    (hsound : c.system.Sound) (h : c.Wired)
    (hok : ¬ c'.system.Failed) (hstep : c.step providers m = some c') : c'.Wired := by
  cases step_outcome hsound hok hstep with
  | quiet hq =>
    exact h.files hq.files (by simp [produced, hq.sessions]) (by rw [hq.runtime]) (by simp)
  | txStart hr hexec hends =>
    refine h.files hr.files (by simp [produced]) rfl fun signal hsignal => ⟨?_, hends _ hsignal⟩
    -- an emission takes time, so its signals do
    exact ReceivedSignal.firstArrivalAt_lt_lastEffectEndAt
      (hexec.emission signal hsignal ▸ hexec.duration)
  | signalArrival hr hledger => exact h.files hr.files (by simp [produced]) rfl (by simp)
  | sessionFinalize hr hproc => exact h.files hr.files (by simp [produced]) rfl (by simp)
  | cycleClose hr hopen htime hcommit => exact h.files hr.files (by simp [produced]) rfl (by simp)

/-- The ledger holds the arrived signals until the close, and the results a session for each
signal finalized. -/
structure Tracked (c : SignalLifecycle) : Prop where
  ledger : c.runtime.committed = false →
    c.runtime.ledger.signals.Perm (arrivedOf c.system.finished)
  closed : c.runtime.committed = true → c.runtime.ledger.signals = [] ∧
    ∃ record ∈ c.system.finished, record.callback = .cycleClose ∧
      record.key.time = c.runtime.cycleCloseTime
  results : (c.runtime.results.sessions.map ReceptionSession.desiredSignal).Perm
    (finalizedOf c.system.finished)

lemma Tracked.congr {c c' : SignalLifecycle} (h : c.Tracked)
    (harrived : arrivedOf c'.system.finished = arrivedOf c.system.finished)
    (hfinalized : finalizedOf c'.system.finished = finalizedOf c.system.finished)
    (hsub : c.system.finished ⊆ c'.system.finished)
    (hruntime : c'.runtime = { c.runtime with
      services := c'.runtime.services
      workingState := c'.runtime.workingState
      store := c'.runtime.store }) : c'.Tracked := by
  refine ⟨?_, ?_, ?_⟩
  · rw [harrived, hruntime]
    exact h.ledger
  · rw [hruntime]
    intro hc
    obtain ⟨hempty, record, hr, hclosed⟩ := h.closed hc
    exact ⟨hempty, record, hsub hr, hclosed⟩
  · rw [hfinalized, hruntime]
    exact h.results

lemma Tracked.open_of_mem {c : SignalLifecycle} (h : c.Tracked) {signal : ReceivedSignal}
    (hmem : signal ∈ c.runtime.ledger.signals) : c.runtime.committed = false := by
  rw [Bool.eq_false_iff]
  intro hcommitted
  rw [(h.closed hcommitted).1] at hmem
  cases hmem

lemma Tracked.open_of_calling {c : SignalLifecycle} (h : c.Tracked) (hsound : c.system.Sound)
    (hw : c.Wired) {time : SimTime} {key : EventKey} {signal : ReceivedSignal}
    (hc : c.system.control = .calling time ⟨key, .signalArrival signal⟩) :
    c.runtime.committed = false := by
  rw [Bool.eq_false_iff]
  intro hcommitted
  obtain ⟨-, close, hclose, -, htime⟩ := h.closed hcommitted
  obtain ⟨hacc, -, hlt⟩ := hsound.calling_spec hc
  have hmem : signal ∈ c.produced := by
    rw [← hw.arrivals]; exact mem_arrivedOf.mpr ⟨_, hacc, rfl⟩
  obtain ⟨hwidth, hend⟩ := hw.bounds signal hmem
  have hle : close.key.time ≤ key.time := EventKey.time_le_of_lt (hlt close hclose)
  have hat : key.time = signal.firstArrivalAt := (hw.fits _ hacc).arrival signal rfl
  rw [htime, hat] at hle
  exact absurd (hwidth.trans_le hend) (not_lt.mpr hle)

lemma Tracked.step [DoubleArithmetic] {c c' : SignalLifecycle} {m : Move} (hsound : c.system.Sound)
    (hw : c.Wired) (h : c.Tracked) (hok : ¬ c'.system.Failed)
    (hstep : c.step providers m = some c') : c'.Tracked := by
  cases step_outcome hsound hok hstep with
  | quiet hq =>
    obtain ⟨records, hfin, -⟩ := hq.finished
    exact h.congr hq.arrived hq.finalized (by simp [hfin]) hq.runtime
  | txStart hr hexec hends =>
    exact h.congr (hr.arrived.trans (List.append_nil _)) (hr.finalized.trans (List.append_nil _))
      (by simp [hr.finished]) rfl
  | @signalArrival key signal ledger system hr hledger =>
    have hopen := h.open_of_calling hsound hw hr.calling
    refine ⟨fun _ => ?_, fun hcommitted => ?_, ?_⟩
    · rw [hr.arrived]
      calc ledger.signals
          _ ~ signal :: c.runtime.ledger.signals := hledger
          _ ~ signal :: arrivedOf c.system.finished := (h.ledger hopen).cons signal
          _ ~ arrivedOf c.system.finished ++ [signal] := (List.perm_append_singleton _ _).symm
    · rw [hopen] at hcommitted; cases hcommitted
    · rw [hr.finalized]
      exact h.results.trans (List.Perm.of_eq (List.append_nil _).symm)
  | @sessionFinalize key signal session services system hr hproc =>
    have hopen := h.open_of_mem hproc.inLedger
    refine ⟨fun _ => ?_, fun hcommitted => ?_, ?_⟩
    · rw [hr.arrived]
      exact (h.ledger hopen).trans (List.Perm.of_eq (List.append_nil _).symm)
    · rw [hopen] at hcommitted; cases hcommitted
    · rw [hr.finalized]
      have hp := c.runtime.results.append_desired session
      rw [hproc.desired] at hp
      exact hp.trans (h.results.append_right [signal])
  | @cycleClose key delta store system hr hopen htime hcommit =>
    have hmem : ⟨key, .cycleClose⟩ ∈ system.finished := by simp [hr.finished]
    refine ⟨fun hcommitted => ?_, fun _ => ⟨rfl, ⟨key, .cycleClose⟩, hmem, rfl, htime⟩, ?_⟩
    · cases hcommitted
    · rw [hr.finalized]
      exact h.results.trans (List.Perm.of_eq (List.append_nil _).symm)

/-! ### Whole cycles -/

section Init

variable (firstSequence : EventSequenceId) {now : ℤ} (services : Services)
  (workingState : CycleWorkingState) (store : WorldStateStore)
  (expectedVersion : SnapshotVersion) (cycleCloseTime : SimTime)

lemma wired_init :
    (init firstSequence now services workingState store expectedVersion cycleCloseTime).Wired where
  fits := by simp [init, System.init]
  arrivals := rfl
  finalizes := rfl
  bounds := by simp [init, produced]

lemma tracked_init :
    (init firstSequence now services workingState store expectedVersion
      cycleCloseTime).Tracked where
  ledger := fun _ => List.Perm.refl _
  closed := fun h => by cases h
  results := List.Perm.refl _

end Init

section

variable [DoubleArithmetic]

/-- **The invariant rule of a cycle.** What an admitted move keeps, as long as nothing has
failed, holds at the end of all admitted moves after which nothing has. -/
lemma leads_invariant {P : SignalLifecycle → Prop} {A : Move → Prop}
    (hstep : ∀ c m c', c.system.Sound → c.Wired → c.Tracked → P c → A m →
      ¬ c'.system.Failed → c.step providers m = some c' → P c')
    {c c' : SignalLifecycle} {moves : List Move} (hsound : c.system.Sound) (hw : c.Wired)
    (ht : c.Tracked) (hP : P c) (hmoves : ∀ m ∈ moves, A m)
    (hr : Leads providers c moves c') (hok : ¬ c'.system.Failed) :
    c'.system.Sound ∧ c'.Wired ∧ c'.Tracked ∧ P c' := by
  have hrun := run_invariant
    (P := fun c => c.system.Sound ∧ (¬ c.system.Failed → c.Wired ∧ c.Tracked ∧ P c))
    (A := A) (fun c m c' hc hm hs => by
      obtain ⟨hsound, hkeep⟩ := hc
      obtain ⟨actions, hleads⟩ := step_leads hsound hs
      refine ⟨hsound.leads hleads, fun hok => ?_⟩
      obtain ⟨hw, ht, hP⟩ := hkeep fun hfail => hok (hfail.leads hsound hleads)
      exact ⟨hw.step hsound hok hs, ht.step hsound hw hok hs,
        hstep c m c' hsound hw ht hP hm hok hs⟩)
    ⟨hsound, fun _ => ⟨hw, ht, hP⟩⟩ hmoves hr
  exact ⟨hrun.1, hrun.2 hok⟩

/-- The moves are those of a cycle whose only `Run` has returned success. -/
structure Completes (providers : Providers) (c : SignalLifecycle) (moves : List Move)
    (run : RunRecord) (c' : SignalLifecycle) : Prop where
  leads : Leads providers c (moves ++ [.finishRun]) c'
  single : c'.system.runs = [run]
  succeeded : run.result = .ok ()

lemma Completes.idle {c c' : SignalLifecycle} {moves : List Move} {run : RunRecord}
    (h : Completes providers c moves run c') : c'.system.control = .idle := by
  obtain ⟨m, -, hstep⟩ := run_concat_eq_some.mp h.leads
  obtain ⟨system, hs, rfl⟩ := drive_eq_some hstep
  cases System.step_sound hs with
  | finishRun hc hr => rfl

lemma Completes.not_failed {c c' : SignalLifecycle} {moves : List Move} {run : RunRecord}
    (h : Completes providers c moves run c') : ¬ c'.system.Failed := by
  rintro (⟨r, hr, hfail⟩ | ⟨hne, -⟩)
  · rw [h.single, List.mem_singleton] at hr
    rw [hr, h.succeeded] at hfail
    cases hfail
  · exact hne h.idle

/-- Every signal produced has arrived and was finalized, once. -/
structure AllFinished (c : SignalLifecycle) : Prop where
  finished : c.system.finished = c.system.executed
  arrived : (arrivedOf c.system.executed).Perm c.produced
  finalized : (finalizedOf c.system.executed).Perm c.produced

/-- **The end of a cycle.** All that holds along a cycle holds there, and every signal
produced has arrived and was finalized. -/
lemma Completes.invariant {P : SignalLifecycle → Prop} {A : Move → Prop}
    (hstep : ∀ c m c', c.system.Sound → c.Wired → c.Tracked → P c → A m →
      ¬ c'.system.Failed → c.step providers m = some c' → P c')
    {c c' : SignalLifecycle} {moves : List Move} {run : RunRecord} (hsound : c.system.Sound)
    (hw : c.Wired) (ht : c.Tracked) (hP : P c) (hmoves : ∀ m ∈ moves ++ [.finishRun], A m)
    (h : Completes providers c moves run c') :
    c'.system.Sound ∧ c'.Wired ∧ c'.Tracked ∧ P c' ∧ c'.AllFinished := by
  have hok := h.not_failed
  obtain ⟨hsound', hw', ht', hP'⟩ := leads_invariant hstep hsound hw ht hP hmoves h.leads hok
  obtain ⟨m, hm, hlast⟩ := run_concat_eq_some.mp h.leads
  obtain ⟨system, hs, rfl⟩ := drive_eq_some hlast
  obtain ⟨actions, hleads⟩ := leads_system hsound hm
  have hmsound := hsound.leads hleads
  obtain ⟨hfin, hperm⟩ := hmsound.finishRun hok hs
  refine ⟨hsound', hw', ht', hP', hfin, ?_, ?_⟩
  · rw [← hw'.arrivals, ← hfin]
    exact (hperm.filterMap _).symm
  · rw [← hw'.finalizes, ← hfin]
    exact (hperm.filterMap _).symm

/-! ### Two transmissions that overlap -/

end

open ReceiverProcessor

/-- Node 0 sends twice at time 0, and both signals arrive at time 1 and end at time 2. -/
def pairMoves : List Move :=
  let at0 : SimTime := .ofUInt32 0
  let twoCallbacks := [.next, .callback, .next, .callback, .next]
  [.schedule (.ofUInt32 9) .cycleClose, .schedule at0 (.txStart pairRequest),
    .schedule at0 (.txStart pairRequest), .run, .fire ⟨0, at0⟩] ++ twoCallbacks ++
    .fire ⟨1, .ofUInt32 1⟩ :: twoCallbacks ++ .fire ⟨2, .ofUInt32 2⟩ :: twoCallbacks ++
    [.fire ⟨9, .ofUInt32 9⟩, .next, .callback, .next]

lemma pairMoves_completes :
    ∃ run c, Completes (bandProviders 1000 100) pairInit pairMoves run c ∧
      c.runtime.committed = true ∧
      (c.runtime.results.sessions.map fun session =>
        session.receiverWindow.overlappingSignals.length) = [1, 1] := by
  have hrun : (run (step (bandProviders 1000 100)) pairInit (pairMoves ++ [.finishRun])).map
      (fun c => (c.system.runs.map fun run => Result.succeeded run.result, c.runtime.committed,
        c.runtime.results.sessions.map fun session =>
          session.receiverWindow.overlappingSignals.length)) = some ([true], true, [1, 1]) := by
    decide +kernel
  obtain ⟨c, hc, hval⟩ := Option.map_eq_some_iff.mp hrun
  simp only [Prod.mk.injEq] at hval
  obtain ⟨hruns, hcommitted, hsessions⟩ := hval
  obtain ⟨run, hsingle, hsucceeded⟩ := List.map_eq_singleton_iff.mp hruns
  refine ⟨run, c, ⟨hc, hsingle, ?_⟩, hcommitted, hsessions⟩
  rcases hres : run.result with e | u
  · rw [hres] at hsucceeded; cases hsucceeded
  · rfl

end SignalLifecycle

end Ns3Factory
