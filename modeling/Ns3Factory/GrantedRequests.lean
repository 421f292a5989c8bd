import Ns3Factory.ReceiverAdmission
import Ns3Factory.SignalEnvelope
import Ns3Factory.SignalScheduling

/-!
When a request is carried out to the end.

A request whose nodes pass the checks, whose packet the PHY encodes, and whose emission the
channel carries to the receivers before the cycle closes, makes a session: no addition on the
way can overflow, since the close time is representable. Its signals are later than its start,
so the dispatcher accepts their events, as long as there are ids.
-/

namespace Ns3Factory

open StdAlgorithm

/-! ### Ids that are left -/

namespace CommunicationIdAllocator

/-- How many transmission ids are left. -/
def transmissionIdsLeft (ids : CommunicationIdAllocator) : ℕ :=
  if ids.transmissionIdsExhausted then 0 else 2 ^ 64 - ids.nextTransmission.val

/-- How many reception ids are left. -/
def receptionIdsLeft (ids : CommunicationIdAllocator) : ℕ :=
  match ids.nextReception with
  | none => 0
  | some next => if ids.receptionIdsExhausted then 0 else 2 ^ 64 - next.val

variable {ids next : CommunicationIdAllocator}

lemma nextTransmissionId_of_left (h : 0 < ids.transmissionIdsLeft) :
    ∃ id next, ids.nextTransmissionId = (.ok id, next) := by
  rcases ids.nextTransmissionId_cases with ⟨hx, -⟩ | ⟨-, id, next, hid, -⟩
  · simp [transmissionIdsLeft, hx] at h
  · exact ⟨id, next, hid⟩

lemma nextReceptionId_of_left (h : 0 < ids.receptionIdsLeft) :
    ∃ id next, ids.nextReceptionId = (.ok id, next) := by
  rcases ids.nextReceptionId_cases with ⟨hnone | hx, -⟩ | ⟨-, -, id, next, hid, -⟩
  · simp [receptionIdsLeft, hnone] at h
  · rcases hn : ids.nextReception with _ | value <;> simp [receptionIdsLeft, hn, hx] at h
  · exact ⟨id, next, hid⟩

lemma nextTransmissionId_left {id : TransmissionId}
    (h : ids.nextTransmissionId = (.ok id, next)) :
    next.transmissionIdsLeft + 1 = ids.transmissionIdsLeft ∧
      next.receptionIdsLeft = ids.receptionIdsLeft := by
  have hlt := ids.nextTransmission.isLt
  unfold nextTransmissionId at h
  split_ifs at h with hx hmax <;> cases h
  · simp [transmissionIdsLeft, receptionIdsLeft, hx, hmax, maxIdentity]
  · have hne : ids.nextTransmission.val ≠ 2 ^ 64 - 1 := fun heq => hmax (Fin.ext heq)
    refine ⟨?_, rfl⟩
    simp only [transmissionIdsLeft, hx, IdentityValue.next, Bool.false_eq_true, if_false]
    omega

lemma nextReceptionId_left {id : ReceptionId} (h : ids.nextReceptionId = (.ok id, next)) :
    next.receptionIdsLeft + 1 = ids.receptionIdsLeft ∧
      next.transmissionIdsLeft = ids.transmissionIdsLeft := by
  unfold nextReceptionId at h
  split at h
  · cases h
  next value hv =>
  have hlt := value.isLt
  split_ifs at h with hx hmax <;> cases h
  · simp [transmissionIdsLeft, receptionIdsLeft, hx, hv, hmax, maxIdentity]
  · have hne : value.val ≠ 2 ^ 64 - 1 := fun heq => hmax (Fin.ext heq)
    refine ⟨?_, rfl⟩
    simp only [receptionIdsLeft, hx, hv, IdentityValue.next, Bool.false_eq_true, if_false]
    omega

end CommunicationIdAllocator

/-! ### The fan-out -/

namespace TransmissionExecutor

/-- The channel carries an emission: whoever it is asked about, the answer is for the query, the
signal arrives later than it is sent, and its influence ends by the close of the cycle. -/
def Reaches (providers : Providers) (emission : TxEmission) (cycleCloseTime : SimTime) : Prop :=
  ∀ calls query, query.transmissionId = emission.transmissionId → ∃ response,
    providers.queryChannel calls query = .ok response ∧
    validateChannelFieldResponseIdentity query response = .ok () ∧
    0 < response.firstArrivalDelay.nanoseconds ∧
    exactEnd emission response ≤ cycleCloseTime.nanoseconds

/-- A signal of an emission that was carried. -/
structure Carried (emission : TxEmission) (cycleCloseTime : SimTime) (signal : ReceivedSignal) :
    Prop where
  later : emission.startedAt < signal.firstArrivalAt
  ends : signal.lastEffectEndAt ≤ cycleCloseTime

lemma carried_of_create {emission : TxEmission} {response : ChannelFieldResponse}
    {cycleCloseTime : SimTime} {signal : ReceivedSignal}
    (h : ReceivedSignal.create emission response = .ok signal)
    (hdelay : 0 < response.firstArrivalDelay.nanoseconds)
    (hend : exactEnd emission response ≤ cycleCloseTime.nanoseconds) :
    Carried emission cycleCloseTime signal := by
  obtain ⟨hemission, hresponse⟩ := ReceivedSignal.create_ok h
  refine ⟨?_, ?_⟩
  · have hfirst := signal.firstArrivalAt_nanoseconds
    rw [hemission, hresponse] at hfirst
    rw [SimTime.lt_iff]
    omega
  · have hlast := signal.lastEffectEndAt_eq_exactEnd
    rw [hemission, hresponse] at hlast
    rw [SimTime.le_iff]
    omega

lemma exists_query (emission : TxEmission) (transmissionId : TransmissionId)
    (senderNodeId receiverNodeId : NodeId) (txPosition rxPosition : Position3d)
    (emittedAt : SimTime) :
    ∃ query, ChannelQuery.create transmissionId senderNodeId receiverNodeId txPosition rxPosition
      emittedAt emission.centerFrequencyHz emission.bandwidthHz = .ok query := by
  have hpos : ¬ (emission.centerFrequencyHz ≤ 0 ∨ emission.bandwidthHz ≤ 0) :=
    not_or.mpr ⟨emission.centerFrequency_pos.not_ge, emission.bandwidth_pos.not_ge⟩
  simp [ChannelQuery.create, hpos]

lemma fanOut_of_reaches {providers : Providers} {emission : TxEmission}
    {cycleCloseTime : SimTime} (h : Reaches providers emission cycleCloseTime)
    (senderNodeId : NodeId) (senderPosition : Position3d) (startedAt : SimTime)
    (states : List NodeCommittedState) (calls : CallLog) :
    ∃ signals last, fanOut providers emission.transmissionId senderNodeId senderPosition
        startedAt emission states calls = (.ok signals, last) ∧
      ∀ signal ∈ signals, Carried emission cycleCloseTime signal := by
  induction states generalizing calls with
  | nil => exact ⟨[], calls, rfl, by simp⟩
  | cons state states ih =>
    obtain ⟨query, hquery⟩ := exists_query emission emission.transmissionId senderNodeId
      state.nodeId senderPosition state.motion.position startedAt
    obtain ⟨htransmission, -⟩ := query_of_create hquery
    obtain ⟨response, hresponse, hident, hdelay, hend⟩ := h calls query htransmission
    have hmax := cycleCloseTime.le_kMax
    obtain ⟨signal, hsignal⟩ := ReceivedSignal.create_succeeds.mpr
      ⟨htransmission.symm.trans (validateChannelFieldResponseIdentity_ok.mp hident).1,
        hend.trans hmax⟩
    obtain ⟨signals, last, hrest, hall⟩ := ih
      { calls with channelQueries := calls.channelQueries ++ [query] }
    refine ⟨signal :: signals, last, ?_, ?_⟩
    · simp only [fanOut, hquery, hresponse, hident, hsignal, hrest]
    · exact List.forall_mem_cons.mpr ⟨carried_of_create hsignal hdelay hend, hall⟩

/-! ### A request that is granted -/

/-- The nodes of a request pass the checks. Whatever the providers were asked before, the PHY
encodes its packet under any id, the emission takes time, its band does not reach below zero,
it ends by the close, and the channel carries it. -/
structure Granted (providers : Providers) (w : CycleWorkingState) (cycleCloseTime : SimTime)
    (request : TransmissionExecutionRequest) : Prop where
  checked : ∃ senderState receiverStates, Checked w request senderState receiverStates
  encodes : ∀ calls transmissionId, ∃ emission,
    providers.encode calls request.selectedPacket (encodeRequest request transmissionId) =
      .ok emission ∧
    validateTxEmissionIdentity request.selectedPacket (encodeRequest request transmissionId)
      emission = .ok () ∧
    0 < emission.duration.nanoseconds ∧
    emission.bandwidthHz ≤ 2 * emission.centerFrequencyHz ∧
    request.startedAt.nanoseconds + emission.duration.nanoseconds ≤
      cycleCloseTime.nanoseconds ∧
    Reaches providers emission cycleCloseTime

/-- A session of a request that is granted. -/
structure Delivers (request : TransmissionExecutionRequest) (cycleCloseTime : SimTime)
    (session : TransmissionSession) : Prop where
  ends : session.transmission.endedAt ≤ cycleCloseTime
  band : session.emission.bandwidthHz ≤ 2 * session.emission.centerFrequencyHz
  carried : ∀ signal ∈ session.receivedSignals,
    Carried session.emission cycleCloseTime signal

lemma Granted.executes {providers : Providers} {w : CycleWorkingState} {cycleCloseTime : SimTime}
    {request : TransmissionExecutionRequest} (h : Granted providers w cycleCloseTime request)
    {services : Services} (hids : 0 < services.ids.transmissionIdsLeft) :
    ∃ session last, executeTransmission providers w request services = (.ok session, last) ∧
      Delivers request cycleCloseTime session := by
  obtain ⟨senderState, receiverStates, hchecked⟩ := h.checked
  rcases executeTransmission_cases providers w request services with
    ⟨senderState, receiverStates, -, htransmit⟩ | ⟨hnot, -⟩
  swap
  · exact absurd ⟨senderState, receiverStates, hchecked⟩ hnot
  obtain ⟨transmissionId, ids, hid⟩ :=
    CommunicationIdAllocator.nextTransmissionId_of_left hids
  obtain ⟨emission, hencode, hident, hduration, hband, hends, hreaches⟩ :=
    h.encodes services.calls transmissionId
  obtain ⟨htransmission, -, -, hstarted⟩ := validateTxEmissionIdentity_ok.mp hident
  have hnonzero : emission.duration ≠ .zero := fun heq => by
    rw [heq] at hduration
    exact lt_irrefl _ hduration
  have hstart : emission.startedAt.nanoseconds = request.startedAt.nanoseconds :=
    congrArg SimTime.nanoseconds hstarted
  have hmax := cycleCloseTime.le_kMax
  obtain ⟨endedAt, hend⟩ := Option.isSome_iff_exists.mp
    ((SimTime.checkedAdd_isSome emission.duration_nonneg).mpr
      (by rw [hstart]; exact hends.trans hmax))
  obtain ⟨signals, last, hfan, hcarried⟩ := fanOut_of_reaches hreaches
    request.opportunity.senderNodeId senderState.motion.position request.startedAt receiverStates
    (encoded services.calls request.selectedPacket (encodeRequest request transmissionId))
  have htransmission' : emission.transmissionId = transmissionId := htransmission
  rw [htransmission'] at hfan
  refine ⟨⟨request.selectedPacket, ⟨transmissionId, request.selectedPacket.packetId,
    request.opportunity.senderNodeId, request.target, request.startedAt, endedAt⟩, emission,
    signals⟩, ⟨ids, last⟩, ?_, ?_, hband, hcarried⟩
  · have hencode' : providers.encode services.calls request.selectedPacket ⟨transmissionId,
        request.opportunity.senderNodeId, request.target, request.startedAt⟩ = .ok emission :=
      hencode
    have hident' : validateTxEmissionIdentity request.selectedPacket ⟨transmissionId,
        request.opportunity.senderNodeId, request.target, request.startedAt⟩ emission =
        .ok () := hident
    have hfan' : fanOut providers transmissionId request.opportunity.senderNodeId
        senderState.motion.position request.startedAt emission receiverStates
        { services.calls with encodes := services.calls.encodes ++ [(request.selectedPacket,
          ⟨transmissionId, request.opportunity.senderNodeId, request.target,
            request.startedAt⟩)] } = (.ok signals, last) := hfan
    simp only [htransmit, transmit, hid, hencode', hident', if_neg hnonzero, hend, hfan']
  · have hexact := SimTime.checkedAdd_eq_some.mp hend
    change endedAt ≤ cycleCloseTime
    rw [SimTime.le_iff]
    omega

end TransmissionExecutor

lemma CycleSignalRuntime.handleTxStart_granted {providers : Providers} {r : CycleSignalRuntime}
    {request : TransmissionExecutionRequest}
    (h : TransmissionExecutor.Granted providers r.workingState r.cycleCloseTime request)
    (hids : 0 < r.services.ids.transmissionIdsLeft) :
    ∃ session services, r.handleTxStart providers request.startedAt request =
        (.ok session, { r with services := services }) ∧
      TransmissionExecutor.Delivers request r.cycleCloseTime session := by
  obtain ⟨session, last, hexec, hdelivers⟩ := h.executes hids
  have hbefore : ¬ session.transmission.endedAt > r.cycleCloseTime := not_lt.mpr hdelivers.ends
  have hsignals : (session.receivedSignals.any fun signal =>
      signal.lastEffectEndAt > r.cycleCloseTime) = false := by
    rw [List.any_eq_false]
    intro signal hsignal
    simpa using (hdelivers.carried signal hsignal).ends
  refine ⟨session, last, ?_, hdelivers⟩
  simp only [handleTxStart, ne_eq, not_true_eq_false, if_false, hexec, hbefore, hsignals,
    Bool.false_eq_true]

/-! ### The events of its signals -/

namespace System

variable {κ : Type*}

lemma runs_of_scheduleAt {s next : System κ} {time : SimTime} {phase : EventPhase}
    {callback : Option κ} {result : Result EventKey}
    (h : s.scheduleAt time phase callback = (result, next)) : next.runs = s.runs := by
  unfold scheduleAt at h
  split at h <;> cases h <;> rfl

lemma scheduleSignals_of_later {s : System κ} (hinv : s.Inv) {t : SimTime}
    {record : EventRecord κ} (hc : s.control = .calling t record)
    (onArrival onFinalize : ReceivedSignal → κ) {signals : List ReceivedSignal}
    (hlater : ∀ signal ∈ signals, t < signal.firstArrivalAt)
    (hids : 2 * signals.length ≤ s.kernel.dispatcher.sequenceIdsLeft) :
    ∃ next, scheduleSignals onArrival onFinalize signals s = (.ok (), next) ∧
      next.runs = s.runs ∧ next.kernel.dispatcher.sequenceIdsLeft + 2 * signals.length =
        s.kernel.dispatcher.sequenceIdsLeft := by
  induction signals generalizing s with
  | nil => exact ⟨s, rfl, rfl, rfl⟩
  | cons signal rest ih =>
    rw [List.length_cons] at hids
    obtain ⟨hfirst, hrest⟩ := List.forall_mem_cons.mp hlater
    have hlast := hfirst.trans_le signal.firstArrivalAt_le_lastEffectEndAt
    obtain ⟨key, m, hm, hminv, hmc, hmids⟩ := scheduleAt_of_lt hinv hc hfirst
      .kSignalArrival (by decide) (onArrival signal) (by omega)
    obtain ⟨key', n, hn, hninv, hnc, hnids⟩ := scheduleAt_of_lt hminv (hmc.trans hc) hlast
      .kSessionFinalize (by decide) (onFinalize signal) (by omega)
    obtain ⟨next, hnext, hruns, hleft⟩ := ih hninv (hnc.trans (hmc.trans hc)) hrest (by omega)
    refine ⟨next, ?_, ?_, ?_⟩
    · simp only [scheduleSignals, scheduleSignalArrival, scheduleSessionFinalize, hm, hn, hnext]
    · rw [hruns, runs_of_scheduleAt hn, runs_of_scheduleAt hm]
    · rw [List.length_cons]
      omega

end System

end Ns3Factory
