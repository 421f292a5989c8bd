import Ns3Factory.CycleClose

/-!
What the transmit path admits and the receive path refuses.

Of the checks of the receive path all but one follow from those of the transmit path: the
receiver could be projected at the start of the transmission, so it can at the first arrival,
and a positive duration gives the interval a positive width. Only the lower band edge, which
the noise query wants not to be negative, is nowhere checked before.
-/

namespace Ns3Factory.ReceiverProcessor

open StdAlgorithm TransmissionExecutor

lemma projectNodeState_firstArrival {workingState : CycleWorkingState}
    {request : TransmissionExecutionRequest} {services last : Services}
    {session : TransmissionSession} {signal : ReceivedSignal}
    (h0 : 0 ≤ workingState.baseSnapshot.committedAt.nanoseconds)
    (h : Executed workingState request services session last)
    (hsignal : signal ∈ session.receivedSignals) :
    ∃ receiverState, workingState.projectNodeState signal.receiverNodeId
      signal.firstArrivalAt = .ok receiverState := by
  have hcandidate : signal.receiverNodeId ∈ request.candidateReceivers := by
    have hmem : signal.receiverNodeId ∈ sortedCandidates request := by
      rw [← h.receivers]; exact List.mem_map_of_mem hsignal
    exact mem_sort.mp hmem
  have hle : request.startedAt ≤ signal.firstArrivalAt := by
    have := signal.startedAt_le_firstArrivalAt
    rwa [h.emission signal hsignal, h.startedAt] at this
  obtain ⟨startState, hstart⟩ := h.projected _ hcandidate
  rcases CycleWorkingState.projectNodeState_cases h0 signal.receiverNodeId request.startedAt with
    ⟨state, anchorTime, -, hanchor, hcycle, hat, -, -⟩ | ⟨⟨e, he⟩, -⟩
  swap
  · rw [hstart] at he; cases he
  rcases CycleWorkingState.projectNodeState_cases h0 signal.receiverNodeId
      signal.firstArrivalAt with ⟨-, -, projected, -, -, -, hok, -⟩ | ⟨-, hnot⟩
  · exact ⟨projected, hok⟩
  · exact absurd ⟨hcycle.trans hle, state, anchorTime, hanchor, hat.trans hle⟩ hnot

lemma lowerFrequencyHz_nonneg_iff (signal : ReceivedSignal) :
    0 ≤ signal.lowerFrequencyHz ↔
      signal.emission.bandwidthHz ≤ 2 * signal.emission.centerFrequencyHz := by
  unfold ReceivedSignal.lowerFrequencyHz
  constructor <;> intro h <;> linarith

/-- **What the transmitter admits the receiver can process, exactly when the band does not
reach below zero.** -/
theorem processReceivedSignal_iff {transmitting receiving : Providers}
    {workingState : CycleWorkingState} {request : TransmissionExecutionRequest}
    {services last : Services} {session : TransmissionSession}
    (h0 : 0 ≤ workingState.baseSnapshot.committedAt.nanoseconds)
    (hexec : executeTransmission transmitting workingState request services =
      (.ok session, last))
    {signal : ReceivedSignal} (hsignal : signal ∈ session.receivedSignals)
    {ledger : InFlightSignalLedger} (hledger : signal ∈ ledger.signals)
    (hanswers : Answers receiving) {available : Services} (hids : HasReceptionId available) :
    (∃ reception after, processReceivedSignal receiving signal ledger workingState available =
        (.ok reception, after)) ↔
      session.emission.bandwidthHz ≤ 2 * session.emission.centerFrequencyHz := by
  have hexecuted := executeTransmission_ok hexec
  have hband := lowerFrequencyHz_nonneg_iff signal
  rw [hexecuted.emission signal hsignal] at hband
  have hwidth : signal.firstArrivalAt < signal.lastEffectEndAt := by
    refine ReceivedSignal.firstArrivalAt_lt_lastEffectEndAt ?_
    rw [hexecuted.emission signal hsignal]
    exact hexecuted.duration
  have hprojected := projectNodeState_firstArrival h0 hexecuted hsignal
  rw [← hband]
  rcases processReceivedSignal_cases (w := workingState) hanswers hids hledger with
    ⟨state, reception, after, -, -, haccepts, hok, -⟩ | ⟨hnot, e, herr⟩
  · exact iff_of_true ⟨reception, after, hok⟩ haccepts.lower_nonneg
  · obtain ⟨state, hstate⟩ := hprojected
    refine iff_of_false ?_ fun hlower =>
      hnot ⟨state, hstate, NoiseQuery.accepts_iff.mpr ⟨hwidth, hlower⟩⟩
    rintro ⟨reception, after, hok⟩
    rw [hok] at herr
    cases herr

/-- Node 0 sends to node 1 at time 0. -/
def pairRequest : TransmissionExecutionRequest where
  opportunity := ⟨⟨0⟩, .ofUInt32 0⟩
  selectedPacket := ⟨⟨0⟩, ⟨0⟩, .broadcast, []⟩
  target := .broadcast
  startedAt := .ofUInt32 0
  candidateReceivers := [⟨1⟩]

lemma answers_bandProviders (centerFrequencyHz bandwidthHz : Double) :
    Answers (bandProviders centerFrequencyHz bandwidthHz) where
  noise _ query := by
    simp only [bandProviders, NoiseObservation.create, isfinite_eq, Bool.not_true, Bool.or_self,
      Bool.false_eq_true, if_false, dif_neg (not_le.mpr query.interval),
      dif_neg (not_or.mpr ⟨not_lt.mpr query.lower_nonneg, not_le.mpr query.band⟩)]
    exact ⟨_, rfl, validateNoiseObservationIdentity_ok.mpr ⟨rfl, rfl, rfl, rfl, rfl⟩⟩
  decode _ _ := ⟨_, rfl, validateRxDecodeResultIdentity_ok.mpr ⟨rfl, rfl, rfl⟩⟩

lemma hasReceptionId_freshServices : HasReceptionId CycleSignalRuntime.freshServices :=
  ⟨_, _, rfl⟩

/-- The ledger after the arrival of a signal. -/
def ledgerOf (signal : ReceivedSignal) : InFlightSignalLedger :=
  ⟨[signal], List.pairwise_singleton _ _, List.pairwise_singleton _ _⟩

/-- A transmission of one signal, with the emission it makes. -/
def pairTransmission (centerFrequencyHz bandwidthHz : Double) :
    Result TransmissionSession × Services :=
  executeTransmission (bandProviders centerFrequencyHz bandwidthHz) pairWorkingState pairRequest
    CycleSignalRuntime.freshServices

lemma pairTransmission_cases (centerFrequencyHz bandwidthHz : Double)
    (h : ((pairTransmission centerFrequencyHz bandwidthHz).1.toOption.map fun session =>
      (session.receivedSignals.length, session.emission.centerFrequencyHz,
        session.emission.bandwidthHz)) = some (1, centerFrequencyHz, bandwidthHz)) :
    ∃ session last signal, pairTransmission centerFrequencyHz bandwidthHz = (.ok session, last) ∧
      signal ∈ session.receivedSignals ∧
      session.emission.centerFrequencyHz = centerFrequencyHz ∧
      session.emission.bandwidthHz = bandwidthHz := by
  rcases he : pairTransmission centerFrequencyHz bandwidthHz with ⟨e | session, last⟩
  · simp [he, Except.toOption] at h
  · simp only [he, Except.toOption, Option.map_some, Option.some.injEq, Prod.mk.injEq] at h
    obtain ⟨signal, hsignal⟩ := List.exists_mem_of_length_pos (by omega :
      0 < session.receivedSignals.length)
    exact ⟨session, last, signal, rfl, hsignal, h.2.1, h.2.2⟩

theorem processReceivedSignal_narrowBand :
    ∃ session last, pairTransmission 1000 100 = (.ok session, last) ∧
      ∃ signal ∈ session.receivedSignals, ∃ reception after,
        processReceivedSignal (bandProviders 1000 100) signal (ledgerOf signal) pairWorkingState
          CycleSignalRuntime.freshServices = (.ok reception, after) := by
  obtain ⟨session, last, signal, hexec, hsignal, hcenter, hband⟩ :=
    pairTransmission_cases 1000 100 (by decide +kernel)
  refine ⟨session, last, hexec, signal, hsignal, ?_⟩
  have hmem : signal ∈ (ledgerOf signal).signals := by simp [ledgerOf]
  refine (processReceivedSignal_iff (by decide) hexec hsignal hmem
    (answers_bandProviders 1000 100) hasReceptionId_freshServices).mpr ?_
  rw [hcenter, hband]
  norm_num

/-- A transmission of bandwidth 3000 at 1000 Hz is admitted, and its signal cannot be
processed. -/
theorem wideBand_rejected :
    ¬ ∀ (transmitting receiving : Providers) (workingState : CycleWorkingState)
      (request : TransmissionExecutionRequest) (services last available : Services)
      (session : TransmissionSession),
      0 ≤ workingState.baseSnapshot.committedAt.nanoseconds →
      executeTransmission transmitting workingState request services = (.ok session, last) →
      ∀ signal ∈ session.receivedSignals, ∀ ledger : InFlightSignalLedger,
        signal ∈ ledger.signals → Answers receiving → HasReceptionId available →
        ∃ reception after,
          processReceivedSignal receiving signal ledger workingState available =
            (.ok reception, after) := by
  intro hall
  obtain ⟨session, last, signal, hexec, hsignal, hcenter, hband⟩ :=
    pairTransmission_cases 1000 3000 (by decide +kernel)
  have hmem : signal ∈ (ledgerOf signal).signals := by simp [ledgerOf]
  obtain ⟨reception, after, hok⟩ := hall _ (bandProviders 1000 3000) _ _ _ _ _ _ (by decide)
    hexec signal hsignal _ hmem (answers_bandProviders 1000 3000) hasReceptionId_freshServices
  rcases processReceivedSignal_cases (w := pairWorkingState) (answers_bandProviders 1000 3000)
      hasReceptionId_freshServices hmem with ⟨state, -, -, -, -, haccepts, -⟩ | ⟨-, e, herr⟩
  · have hlower := haccepts.lower_nonneg
    rw [lowerFrequencyHz_nonneg_iff, (executeTransmission_ok hexec).emission signal hsignal,
      hcenter, hband] at hlower
    norm_num at hlower
  · rw [hok] at herr
    cases herr

end Ns3Factory.ReceiverProcessor
