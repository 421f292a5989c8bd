import Ns3Factory.KernelInvariant
import Ns3Factory.ReceiverAdmission

/-!
Scheduling the events of a transmission from the callback of its start.

A `TxStart` callback schedules an arrival and a finalize event for each signal of the session.
The finalize events come later than the callback and are always taken. An arrival is taken
when it comes later; one at the time of the transmission is in an earlier phase, which the
dispatcher refuses.
-/

namespace Ns3Factory

open StdAlgorithm Transition

variable {κ : Type*}

namespace System

/-- `EventDispatcher::Schedule` of a `SignalArrivalEvent`. -/
def scheduleSignalArrival (s : System κ) (firstArrivalAt : SimTime) (callback : κ) :
    Result EventKey × System κ :=
  s.scheduleAt firstArrivalAt .kSignalArrival (some callback)

/-- `EventDispatcher::Schedule` of a `SessionFinalizeEvent`. -/
def scheduleSessionFinalize (s : System κ) (lastEffectEndAt : SimTime) (callback : κ) :
    Result EventKey × System κ :=
  s.scheduleAt lastEffectEndAt .kSessionFinalize (some callback)

/-- The loop of a `TxStart` callback over the signals of its session. -/
def scheduleSignals (onArrival onFinalize : ReceivedSignal → κ) :
    List ReceivedSignal → System κ → Status × System κ
  | [], s => (.ok (), s)
  | signal :: rest, s =>
    match s.scheduleSignalArrival signal.firstArrivalAt (onArrival signal) with
    | (.error e, s) => (.error e, s)
    | (.ok _, s) =>
      match s.scheduleSessionFinalize signal.lastEffectEndAt (onFinalize signal) with
      | (.error e, s) => (.error e, s)
      | (.ok _, s) => scheduleSignals onArrival onFinalize rest s

end System

/-- The time and the phase of the event whose callback is running. -/
def Control.callingAt : Control κ → Option (SimTime × EventPhase)
  | .calling time record => some (time, record.key.phase)
  | _ => none

lemma Control.callingAt_eq_some {control : Control κ} {time : SimTime} {phase : EventPhase}
    (h : control.callingAt = some (time, phase)) :
    ∃ record, control = .calling time record ∧ record.key.phase = phase := by
  unfold Control.callingAt at h
  split at h
  · cases h; exact ⟨_, rfl, rfl⟩
  · cases h

/-- How many sequence ids are left. -/
def EventDispatcher.sequenceIdsLeft (d : EventDispatcher κ) : ℕ :=
  if d.sequenceExhausted then 0 else maxIdentity.val + 1 - d.nextSequence.val

namespace System

lemma sequenceIdsLeft_pos {d : EventDispatcher κ} :
    0 < d.sequenceIdsLeft ↔ d.sequenceExhausted = false := by
  have hmax : (maxIdentity : IdentityValue).val = 2 ^ 64 - 1 := rfl
  have hlt := d.nextSequence.isLt
  unfold EventDispatcher.sequenceIdsLeft
  cases d.sequenceExhausted
  · simp only [Bool.false_eq_true, if_false, hmax, iff_true]
    omega
  · simp

lemma scheduleAt_admitted {s : System κ} (hinv : s.Inv) (hcan : s.CanSchedule) (time : SimTime)
    (phase : EventPhase) (hphase : isValidPhase phase = true) (callback : κ) :
    ((s.kernel.simulator.now ≤ time.nanoseconds ∧ s.kernel.dispatcher.Admits time phase ∧
        0 < s.kernel.dispatcher.sequenceIdsLeft) ∧
      ∃ key next, s.scheduleAt time phase (some callback) = (.ok key, next) ∧ next.Inv ∧
        next.control = s.control ∧ next.executed = s.executed ∧
        next.kernel.simulator.now = s.kernel.simulator.now ∧
        next.kernel.dispatcher.sequenceIdsLeft + 1 = s.kernel.dispatcher.sequenceIdsLeft) ∨
    (¬ (s.kernel.simulator.now ≤ time.nanoseconds ∧ s.kernel.dispatcher.Admits time phase ∧
        0 < s.kernel.dispatcher.sequenceIdsLeft) ∧
      ∃ e, s.scheduleAt time phase (some callback) = (.error e, s)) := by
  have hnext := hinv.scheduleAt hcan time phase (some callback)
  rcases scheduleAt_cases hinv.queue.readable time phase (some callback) with
    ⟨herr, hnot⟩ | ⟨cb, next, exhausted, -, hnow, hadm, hx, hn, hok⟩
  · refine Or.inr ⟨fun ⟨hnow, hadm, hids⟩ => hnot ?_, herr⟩
    exact ⟨hphase, rfl, hnow, hadm, sequenceIdsLeft_pos.mp hids⟩
  have hids := sequenceIdsLeft_pos.mpr hx
  rw [hok] at hnext
  refine Or.inl ⟨⟨hnow, hadm, hids⟩, _, _, hok, hnext, rfl, rfl, Kernel.accept_now .., ?_⟩
  have hmax := s.kernel.dispatcher.nextSequence.isLt
  rcases hn with ⟨rfl, hn⟩ | ⟨rfl, hn⟩
  · simp only [EventDispatcher.sequenceIdsLeft, Kernel.accept, hx, hn, if_true,
      Bool.false_eq_true, if_false, Nat.add_sub_cancel_left]
  · simp only [EventDispatcher.sequenceIdsLeft, Kernel.accept, hx, hn, Bool.false_eq_true,
      if_false] at hids ⊢
    omega

lemma scheduleAt_of_lt {s : System κ} (hinv : s.Inv) {time t : SimTime}
    {record : EventRecord κ} (hc : s.control = .calling t record) (ht : t < time)
    (phase : EventPhase) (hphase : isValidPhase phase = true) (callback : κ)
    (hids : 0 < s.kernel.dispatcher.sequenceIdsLeft) :
    ∃ key next, s.scheduleAt time phase (some callback) = (.ok key, next) ∧ next.Inv ∧
      next.control = s.control ∧
      next.kernel.dispatcher.sequenceIdsLeft + 1 = s.kernel.dispatcher.sequenceIdsLeft := by
  have hcan : s.CanSchedule := Or.inr ⟨t, record, hc⟩
  have hctl := hinv.control
  rw [ControlInv, hc] at hctl
  have hadm : s.kernel.dispatcher.Admits time phase := by
    intro floor hfloor
    rw [hinv.phaseFloor_eq hcan, hctl.2.2.2.1, if_neg] at hfloor
    · cases hfloor
    · exact fun heq => ht.ne (Option.some.inj heq)
  have hnow : s.kernel.simulator.now ≤ time.nanoseconds := by
    rw [← hctl.1.now]
    exact (SimTime.lt_iff.mp ht).le
  rcases scheduleAt_admitted hinv hcan time phase hphase callback with
    ⟨-, key, next, hok, hnext, hctl', -, -, hleft⟩ | ⟨hnot, -⟩
  · exact ⟨key, next, hok, hnext, hctl', hleft⟩
  · exact absurd ⟨hnow, hadm, hids⟩ hnot

/-- What `ScheduleAt` returns for an event whose phase is not later than the current one. -/
def samePhaseError : Error :=
  ⟨.kFailedPrecondition, "Same-time dynamic event must use a later phase"⟩

lemma scheduleSignalArrival_now {s : System κ} (hinv : s.Inv) {t : SimTime}
    {record : EventRecord κ} (hc : s.control = .calling t record)
    (hphase : record.key.phase = .kTxStart) (callback : κ) :
    s.scheduleSignalArrival t callback = (.error samePhaseError, s) := by
  have hctl := hinv.control
  rw [ControlInv, hc] at hctl
  obtain ⟨hd, -, hcurrent, -, -⟩ := hctl
  obtain ⟨now, hnow, hns⟩ := hinv.queue.readable.platformNow
  have hpast : ¬ t < now := by rw [SimTime.lt_iff, hns, hd.now]; exact lt_irrefl _
  have hfloor : s.kernel.dispatcher.phaseFloor t = some .kTxStart := by
    rw [EventDispatcher.phaseFloor, hd.flag, hd.dispatchTime, hcurrent, hphase]
    simp
  have hlater : ((some EventPhase.kTxStart).any fun floor =>
      EventPhase.kSignalArrival.value ≤ floor.value) = true := by decide
  have hvalid : isValidPhase .kSignalArrival = true := by decide
  simp only [scheduleSignalArrival, scheduleAt, Kernel.scheduleAt, hvalid, hnow, hpast, hfloor,
    hlater, if_true, if_false, samePhaseError]

lemma scheduleSignals_eq {s : System κ} (hinv : s.Inv) {t : SimTime}
    {record : EventRecord κ} (hc : s.control = .calling t record)
    (hphase : record.key.phase = .kTxStart) (onArrival onFinalize : ReceivedSignal → κ)
    {signals : List ReceivedSignal}
    (hsignals : ∀ signal ∈ signals, t ≤ signal.firstArrivalAt ∧ t < signal.lastEffectEndAt)
    (hids : 2 * signals.length ≤ s.kernel.dispatcher.sequenceIdsLeft) :
    (scheduleSignals onArrival onFinalize signals s).1 =
      if ∀ signal ∈ signals, t < signal.firstArrivalAt then .ok ()
      else .error samePhaseError := by
  induction signals generalizing s with
  | nil => simp [scheduleSignals]
  | cons signal rest ih =>
    rw [List.length_cons] at hids
    obtain ⟨hle, hend⟩ := hsignals signal (by simp)
    rcases hle.eq_or_lt with heq | hlt
    · have hnow := scheduleSignalArrival_now hinv hc hphase (onArrival signal)
      rw [heq] at hnow
      simp [scheduleSignals, hnow, heq]
    obtain ⟨key, m, hm, hminv, hmc, hmids⟩ := scheduleAt_of_lt hinv hc hlt
      .kSignalArrival (by decide) (onArrival signal) (by omega)
    obtain ⟨key', n, hn, hninv, hnc, hnids⟩ := scheduleAt_of_lt hminv (hmc.trans hc) hend
      .kSessionFinalize (by decide) (onFinalize signal) (by omega)
    have hrest := ih hninv (hnc.trans (hmc.trans hc)) (fun x hx => hsignals x (by simp [hx]))
      (by omega)
    simp only [scheduleSignals, scheduleSignalArrival, scheduleSessionFinalize, hm, hn, hrest,
      List.forall_mem_cons, hlt, true_and]

/-- **What the kernel accepts of a session.** Of the events of a session that `HandleTxStart`
has returned in a `TxStart` callback, every finalize is accepted, and an arrival when it is
later than the callback; an arrival at the time of the callback is refused by the phase rule,
and then the callback that schedules them all fails with that error. -/
theorem scheduleSession_eq [DoubleArithmetic] {firstSequence : EventSequenceId} {now : ℤ}
    (hnow : 0 ≤ now ∧ now ≤ kMax) {h : List (Action κ)} {s : System κ}
    (hr : Runs firstSequence now h s) {t : SimTime} {record : EventRecord κ}
    (hc : s.control = .calling t record) (hphase : record.key.phase = .kTxStart)
    {providers : Providers} {r next : CycleSignalRuntime}
    {request : TransmissionExecutionRequest} {session : TransmissionSession}
    (hstart : r.handleTxStart providers t request = (.ok session, next))
    (onArrival onFinalize : ReceivedSignal → κ)
    (hids : 2 * session.receivedSignals.length ≤ s.kernel.dispatcher.sequenceIdsLeft) :
    (∀ signal ∈ session.receivedSignals,
      Result.succeeded (s.scheduleSessionFinalize signal.lastEffectEndAt (onFinalize signal)).1 ∧
      (t < signal.firstArrivalAt ∧
          Result.succeeded (s.scheduleSignalArrival signal.firstArrivalAt (onArrival signal)).1 ∨
        t = signal.firstArrivalAt ∧
          s.scheduleSignalArrival signal.firstArrivalAt (onArrival signal) =
            (.error samePhaseError, s))) ∧
    (scheduleSignals onArrival onFinalize session.receivedSignals s).1 =
      if ∀ signal ∈ session.receivedSignals, t < signal.firstArrivalAt then .ok ()
      else .error samePhaseError := by
  have hinv := hr.inv hnow
  obtain ⟨htime, hexec, -, -⟩ := CycleSignalRuntime.handleTxStart_ok hstart
  have hsignals : ∀ signal ∈ session.receivedSignals,
      t ≤ signal.firstArrivalAt ∧ t < signal.lastEffectEndAt := by
    intro signal hsignal
    have hem := hexec.emission signal hsignal
    have hle := signal.startedAt_le_firstArrivalAt
    rw [hem, hexec.startedAt, ← htime] at hle
    have hlt := ReceivedSignal.firstArrivalAt_lt_lastEffectEndAt (hem ▸ hexec.duration)
    exact ⟨hle, hle.trans_lt hlt⟩
  refine ⟨fun signal hsignal => ?_,
    scheduleSignals_eq hinv hc hphase onArrival onFinalize hsignals hids⟩
  have hlen := List.length_pos_of_mem hsignal
  obtain ⟨hle, hend⟩ := hsignals signal hsignal
  constructor
  · obtain ⟨key, m, hm, -⟩ := scheduleAt_of_lt hinv hc hend .kSessionFinalize
      (by decide) (onFinalize signal) (by omega)
    rw [scheduleSessionFinalize, hm]
    rfl
  · rcases hle.eq_or_lt with heq | hlt
    · rw [← heq]
      exact Or.inr ⟨rfl, scheduleSignalArrival_now hinv hc hphase _⟩
    · obtain ⟨key, m, hm, -⟩ := scheduleAt_of_lt hinv hc hlt .kSignalArrival
        (by decide) (onArrival signal) (by omega)
      rw [scheduleSignalArrival, hm]
      exact Or.inl ⟨hlt, rfl⟩

/-! ### Two transmissions -/

open ReceiverProcessor

/-- A `TxStart` event at time 0, up to its callback. -/
def startHistory : List (Action Unit) :=
  let time : SimTime := .ofUInt32 0
  [.scheduleAt time .kTxStart (some ()), .run, .fire ⟨0, time⟩, .next]

lemma startHistory_runs :
    ∃ s record, Runs ⟨0⟩ 0 startHistory s ∧ s.control = .calling (.ofUInt32 0) record ∧
      record.key.phase = .kTxStart ∧ 2 ≤ s.kernel.dispatcher.sequenceIdsLeft := by
  have hrun : (run step (init (κ := Unit) ⟨0⟩ 0) startHistory).map (fun s =>
      (s.control.callingAt, decide (2 ≤ s.kernel.dispatcher.sequenceIdsLeft))) =
      some (some (.ofUInt32 0, .kTxStart), true) := by
    decide +kernel
  obtain ⟨s, hs, hval⟩ := Option.map_eq_some_iff.mp hrun
  simp only [Prod.mk.injEq, decide_eq_true_eq] at hval
  obtain ⟨hc, hids⟩ := hval
  obtain ⟨record, hcalling, hphase⟩ := Control.callingAt_eq_some hc
  exact ⟨s, record, hs, hcalling, hphase, hids⟩

/-- The nodes 0 and 1 in one place: signals arrive when they are sent. -/
def nearProviders : Providers where
  encode := (bandProviders 1000 100).encode
  queryChannel _ query :=
    ChannelFieldResponse.create query.transmissionId query.receiverNodeId 0 .zero []
  queryNoise := (bandProviders 1000 100).queryNoise
  decode := (bandProviders 1000 100).decode

lemma handleTxStart_pairCycle (providers : Providers) (arrivesAt : SimTime)
    (h : ((pairCycle.handleTxStart providers (.ofUInt32 0) pairRequest).1.toOption.map
      fun session => session.receivedSignals.map ReceivedSignal.firstArrivalAt) =
        some [arrivesAt]) :
    ∃ session next signal,
      pairCycle.handleTxStart providers (.ofUInt32 0) pairRequest = (.ok session, next) ∧
        session.receivedSignals = [signal] ∧ signal.firstArrivalAt = arrivesAt := by
  rcases he : pairCycle.handleTxStart providers (.ofUInt32 0) pairRequest with
    ⟨e | session, next⟩
  · simp [he, Except.toOption] at h
  · simp only [he, Except.toOption, Option.map_some, Option.some.injEq] at h
    obtain ⟨signal, hsignal, hat⟩ := List.map_eq_singleton_iff.mp h
    exact ⟨session, next, signal, rfl, hsignal, hat⟩

theorem scheduleSession_later :
    ∃ s session next, Runs ⟨0⟩ 0 startHistory s ∧
      pairCycle.handleTxStart (bandProviders 1000 100) (.ofUInt32 0) pairRequest =
        (.ok session, next) ∧
      (scheduleSignals (fun _ => ()) (fun _ => ()) session.receivedSignals s).1 = .ok () := by
  obtain ⟨s, record, hs, hc, hphase, hids⟩ := startHistory_runs
  obtain ⟨session, next, signal, hstart, hsignals, hat⟩ := handleTxStart_pairCycle
    (bandProviders 1000 100) (.ofUInt32 1) (by decide +kernel)
  refine ⟨s, session, next, hs, hstart, ?_⟩
  have heq := (scheduleSession_eq (by decide) hs hc hphase hstart (fun _ => ()) (fun _ => ())
    (by simpa [hsignals] using hids)).2
  rw [heq, if_pos]
  rw [hsignals, List.forall_mem_singleton, hat]
  decide

/-- A session whose signal arrives when it is sent is returned, and its arrival refused. -/
theorem arrival_at_start_refused :
    ¬ ∀ (firstSequence : EventSequenceId) (now : ℤ) (h : List (Action Unit)) (s : System Unit)
      (t : SimTime) (record : EventRecord Unit) (providers : Providers)
      (r next : CycleSignalRuntime) (request : TransmissionExecutionRequest)
      (session : TransmissionSession),
      0 ≤ now ∧ now ≤ kMax → Runs firstSequence now h s → s.control = .calling t record →
      record.key.phase = .kTxStart →
      r.handleTxStart providers t request = (.ok session, next) →
      2 * session.receivedSignals.length ≤ s.kernel.dispatcher.sequenceIdsLeft →
      ∀ signal ∈ session.receivedSignals,
        Result.succeeded (s.scheduleSignalArrival signal.firstArrivalAt ()).1 ∧
          Result.succeeded (s.scheduleSessionFinalize signal.lastEffectEndAt ()).1 := by
  intro hall
  obtain ⟨s, record, hs, hc, hphase, hids⟩ := startHistory_runs
  obtain ⟨session, next, signal, hstart, hsignals, hat⟩ := handleTxStart_pairCycle
    nearProviders (.ofUInt32 0) (by decide +kernel)
  have hok := (hall _ _ _ s _ record _ _ next _ session (by decide) hs hc hphase hstart
    (by simpa [hsignals] using hids) signal (by simp [hsignals])).1
  rw [hat, scheduleSignalArrival_now (hs.inv (by decide)) hc hphase] at hok
  simp at hok

end System

end Ns3Factory
