import Ns3Factory.TransmissionExecutor

/-!
The fan-out of one transmission.

The candidates are sorted before anything is done with them, so the order of the request does
not matter. A session has one signal for each of them, made of the emission and of what the
channel answered for the positions at the start; its times follow from checked sums.
-/

namespace Ns3Factory.TransmissionExecutor

open StdAlgorithm

lemma sortedCandidates_perm {request : TransmissionExecutionRequest} {candidates : List NodeId}
    (h : candidates.Perm request.candidateReceivers) :
    sortedCandidates { request with candidateReceivers := candidates } =
      sortedCandidates request := by
  have hsorted : ∀ l : List NodeId,
      (sort (fun lhs rhs : NodeId => lhs < rhs) l).Pairwise fun a b => id a ≤ id b :=
    sort_pairwise (by simp)
  refine List.Perm.eq_of_pairwise ?_ (hsorted _) (hsorted _)
    ((sort_perm _ _).trans (h.trans (sort_perm _ _).symm))
  intro a b _ _ hab hba
  exact le_antisymm hab hba

variable [DoubleArithmetic]

lemma executeTransmission_perm (providers : Providers) (w : CycleWorkingState)
    {request : TransmissionExecutionRequest} {candidates : List NodeId}
    (h : candidates.Perm request.candidateReceivers) (services : Services) :
    executeTransmission providers w { request with candidateReceivers := candidates } services =
      executeTransmission providers w request services := by
  simp only [executeTransmission, sortedCandidates_perm h]
  rfl

/-- The signal at a receiver: the emission, with the answer to the query for the positions of
the sender and the receiver at the start. -/
structure Derived (providers : Providers) (w : CycleWorkingState)
    (session : TransmissionSession) (signal : ReceivedSignal) : Prop where
  emission : signal.emission = session.emission
  response : ∃ senderState receiverState query log,
    w.projectNodeState session.transmission.senderNodeId session.transmission.startedAt =
      .ok senderState ∧
    w.projectNodeState signal.receiverNodeId session.transmission.startedAt =
      .ok receiverState ∧
    ChannelQuery.create session.transmission.transmissionId session.transmission.senderNodeId
      signal.receiverNodeId senderState.motion.position receiverState.motion.position
      session.transmission.startedAt session.emission.centerFrequencyHz
      session.emission.bandwidthHz = .ok query ∧
    providers.queryChannel log query = .ok signal.channelResponse

/-- The transmission and the emission of a session are of its packet and of the request. -/
structure Agrees (request : TransmissionExecutionRequest) (session : TransmissionSession) :
    Prop where
  packet : session.packet = request.selectedPacket
  transmissionId : session.emission.transmissionId = session.transmission.transmissionId
  packetId : session.transmission.packetId = request.selectedPacket.packetId ∧
    session.emission.packetId = request.selectedPacket.packetId
  sender : session.transmission.senderNodeId = request.opportunity.senderNodeId ∧
    session.emission.senderNodeId = request.opportunity.senderNodeId
  startedAt : session.transmission.startedAt = request.startedAt ∧
    session.emission.startedAt = request.startedAt

lemma agrees_of_ok {providers : Providers} {w : CycleWorkingState}
    {request : TransmissionExecutionRequest} {services last : Services}
    {session : TransmissionSession}
    (h : executeTransmission providers w request services = (.ok session, last)) :
    Agrees request session := by
  obtain ⟨-, -, -, -, hemitted, hpacket, htransmission, -, -, -⟩ := executeTransmission_parts h
  obtain ⟨hid, hpacketId, hsender, hat⟩ := validateTxEmissionIdentity_ok.mp hemitted.identity
  exact ⟨hpacket, hid, ⟨by rw [htransmission], hpacketId⟩, ⟨by rw [htransmission], hsender⟩,
    ⟨by rw [htransmission], hat⟩⟩

lemma derived_of_ok {providers : Providers} {w : CycleWorkingState}
    {request : TransmissionExecutionRequest} {services last : Services}
    {session : TransmissionSession}
    (h : executeTransmission providers w request services = (.ok session, last))
    {signal : ReceivedSignal} (hsignal : signal ∈ session.receivedSignals) :
    Derived providers w session signal := by
  obtain ⟨senderState, receiverStates, queries, hchecked, -, -, htransmission, hasked, hanswered,
    -⟩ := executeTransmission_parts h
  obtain ⟨query, hquery, log, hans⟩ := exists_of_mem_right hanswered hsignal
  obtain ⟨receiverState, hstate, hcreate⟩ := exists_of_mem_right hasked hquery
  obtain ⟨receiverId, -, hreceives⟩ := exists_of_mem_right hchecked.receivers hstate
  have hid : receiverState.nodeId = receiverId :=
    (CycleWorkingState.projectNodeState_ok hreceives.projected).1
  have hreceiver : signal.receiverNodeId = receiverState.nodeId := by
    rw [ReceivedSignal.receiverNodeId,
      ← (validateChannelFieldResponseIdentity_ok.mp hans.identity).2,
      (query_of_create hcreate).2]
  have hsender : session.transmission.senderNodeId = request.opportunity.senderNodeId := by
    rw [htransmission]
  have hat : session.transmission.startedAt = request.startedAt := by rw [htransmission]
  refine ⟨(ReceivedSignal.create_ok hans.created).1, senderState, receiverState, query, log, ?_, ?_,
    ?_, hans.response⟩
  · rw [hsender, hat]; exact hchecked.sender
  · rw [hat, hreceiver, hid]; exact hreceives.projected
  · rw [hsender, hat, hreceiver]; exact hcreate

lemma times_of_ok {providers : Providers} {w : CycleWorkingState}
    {request : TransmissionExecutionRequest} {services last : Services}
    {session : TransmissionSession}
    (h : executeTransmission providers w request services = (.ok session, last)) :
    session.transmission.startedAt < session.transmission.endedAt ∧
      ∀ signal ∈ session.receivedSignals,
        session.transmission.startedAt ≤ signal.firstArrivalAt ∧
        signal.firstArrivalAt < signal.lastEffectEndAt ∧
        session.transmission.endedAt ≤ signal.lastEffectEndAt := by
  have hexecuted := executeTransmission_ok h
  have hat := (agrees_of_ok h).startedAt.1
  have hend := hexecuted.endedAt
  have hduration := hexecuted.duration
  refine ⟨?_, fun signal hsignal => ?_⟩
  · rw [SimTime.lt_iff, hat]
    omega
  · have hstarted : signal.emission.startedAt = session.transmission.startedAt := by
      rw [hexecuted.emission signal hsignal, hat]
      exact (agrees_of_ok h).startedAt.2
    have hfirst := signal.startedAt_le_firstArrivalAt
    rw [hstarted] at hfirst
    have hlast := signal.lastEffectEndAt_nanoseconds
    have hdelay := latestExcessDelay_nonneg signal.channelResponse.paths
    rw [hexecuted.emission signal hsignal] at hlast
    refine ⟨hfirst, ReceivedSignal.firstArrivalAt_lt_lastEffectEndAt ?_, ?_⟩
    · rw [hexecuted.emission signal hsignal]
      exact hduration
    · rw [SimTime.le_iff, hat] at *
      omega

lemma transmissionId_of_queried {providers : Providers} {w : CycleWorkingState}
    {request : TransmissionExecutionRequest} {services : Services}
    {transmissionId : TransmissionId} {ids : CommunicationIdAllocator} {emission : TxEmission}
    {queries : List ChannelQuery} {query : ChannelQuery}
    (hid : services.ids.nextTransmissionId = (.ok transmissionId, ids))
    (hencode : providers.encode services.calls request.selectedPacket
      (encodeRequest request transmissionId) = .ok emission)
    (hcalls : (executeTransmission providers w request services).2.calls.channelQueries =
      services.calls.channelQueries ++ queries)
    (hquery : query ∈ queries) :
    emission.transmissionId = transmissionId ∧ query.transmissionId = transmissionId := by
  have hnone : ∀ {last : CallLog}, last.channelQueries = services.calls.channelQueries →
      last.channelQueries = services.calls.channelQueries ++ queries → False := by
    intro last hsame hmore
    rw [hsame, List.self_eq_append_right] at hmore
    rw [hmore] at hquery
    cases hquery
  rcases executeTransmission_cases providers w request services with
    ⟨senderState, receiverStates, -, htransmit⟩ | ⟨-, e, herr⟩
  swap
  · rw [herr] at hcalls
    exact absurd hcalls fun h => hnone rfl h
  rw [htransmit] at hcalls
  rcases transmit_cases providers request senderState receiverStates services with
    ⟨-, herr⟩ | ⟨_, _, e, -, herr⟩ | ⟨transmissionId', ids', emission', endedAt, hemitted, hfan⟩
  · rw [herr] at hcalls
    exact absurd hcalls fun h => hnone rfl h
  · rw [herr] at hcalls
    exact absurd hcalls fun h => hnone rfl h
  have hids := hid.symm.trans hemitted.id
  cases hids
  have hemission := hencode.symm.trans hemitted.encode
  cases hemission
  obtain ⟨result, asked, rest, queries', -, hspec, hasked, -, -⟩ :=
    fanOut_spec providers transmissionId request.opportunity.senderNodeId
      senderState.motion.position request.startedAt emission receiverStates
      (encoded services.calls request.selectedPacket (encodeRequest request transmissionId))
  have hqueries : queries' = queries := by
    rw [hfan, hspec] at hcalls
    rcases result with e | signals <;> exact List.append_cancel_left hcalls
  subst hqueries
  obtain ⟨state, -, hcreate⟩ := exists_of_mem_right hasked hquery
  exact ⟨(validateTxEmissionIdentity_ok.mp hemitted.identity).1, (query_of_create hcreate).1⟩

/-- **The identity check of a signal cannot fail**: the emission and the answer were both
checked against the same transmission. -/
lemma identity_of_queried {providers : Providers} {w : CycleWorkingState}
    {request : TransmissionExecutionRequest} {services : Services}
    {transmissionId : TransmissionId} {ids : CommunicationIdAllocator} {emission : TxEmission}
    {queries : List ChannelQuery} {query : ChannelQuery} {response : ChannelFieldResponse}
    (hid : services.ids.nextTransmissionId = (.ok transmissionId, ids))
    (hencode : providers.encode services.calls request.selectedPacket
      (encodeRequest request transmissionId) = .ok emission)
    (hcalls : (executeTransmission providers w request services).2.calls.channelQueries =
      services.calls.channelQueries ++ queries)
    (hquery : query ∈ queries)
    (hanswer : validateChannelFieldResponseIdentity query response = .ok ()) :
    emission.transmissionId = response.transmissionId := by
  obtain ⟨hemission, hasked⟩ := transmissionId_of_queried hid hencode hcalls hquery
  have hresponse := (validateChannelFieldResponseIdentity_ok.mp hanswer).1
  rw [hemission, ← hresponse, hasked]

/-- **The fan-out of one transmission is exact and free of order.** Permuting the candidates
changes nothing. On success the session agrees with the request, and has exactly one signal for
each candidate, in the order of their ids, derived from the channel's answer and no earlier than
the transmission. And wherever a signal is created, its identity check passes. -/
theorem executeTransmission_fanOut (providers : Providers) (w : CycleWorkingState)
    (request : TransmissionExecutionRequest) (services : Services) :
    let outcome := executeTransmission providers w request services
    (∀ candidates : List NodeId, candidates.Perm request.candidateReceivers →
      executeTransmission providers w { request with candidateReceivers := candidates }
        services = outcome) ∧
    (∀ session, outcome.1 = .ok session →
      Agrees request session ∧
      Ascending ReceivedSignal.receiverNodeId session.receivedSignals ∧
      (session.receivedSignals.map ReceivedSignal.receiverNodeId).Perm
        request.candidateReceivers ∧
      (∀ signal ∈ session.receivedSignals, Derived providers w session signal) ∧
      (∀ receiver ∈ request.candidateReceivers, ∃ state,
        Receives w request.opportunity.senderNodeId request.startedAt receiver state) ∧
      session.transmission.startedAt < session.transmission.endedAt ∧
      ∀ signal ∈ session.receivedSignals,
        session.transmission.startedAt ≤ signal.firstArrivalAt ∧
        signal.firstArrivalAt < signal.lastEffectEndAt ∧
        session.transmission.endedAt ≤ signal.lastEffectEndAt) ∧
    ∀ transmissionId ids emission queries query response,
      services.ids.nextTransmissionId = (.ok transmissionId, ids) →
      providers.encode services.calls request.selectedPacket
        (encodeRequest request transmissionId) = .ok emission →
      outcome.2.calls.channelQueries = services.calls.channelQueries ++ queries →
      query ∈ queries → validateChannelFieldResponseIdentity query response = .ok () →
      ReceivedSignal.create emission response ≠
        .error ⟨.kFailedPrecondition,
          "TxEmission identity does not match ChannelFieldResponse"⟩ := by
  intro outcome
  refine ⟨fun candidates hperm => executeTransmission_perm providers w hperm services, ?_, ?_⟩
  · intro session hok
    have h : executeTransmission providers w request services = (.ok session, outcome.2) := by
      rw [← hok]
    have hexecuted := executeTransmission_ok h
    obtain ⟨senderState, receiverStates, -, hchecked, -⟩ := executeTransmission_parts h
    have hperm := sort_perm (fun lhs rhs : NodeId => lhs < rhs) request.candidateReceivers
    refine ⟨agrees_of_ok h, ?_, by rw [hexecuted.receivers]; exact hperm,
      fun signal => derived_of_ok h, fun receiver hmem => ?_, times_of_ok h⟩
    · have hascending : Ascending id (sortedCandidates request) :=
        sort_ascending (by simp) hexecuted.nodup
      rw [← hexecuted.receivers] at hascending
      exact List.pairwise_map.mp hascending
    · obtain ⟨state, -, hstate⟩ := exists_of_mem_left hchecked.receivers (mem_sort.mpr hmem)
      exact ⟨state, hstate⟩
  · intro transmissionId ids emission queries query response hid hencode hcalls hquery hanswer
    have hident := identity_of_queried hid hencode hcalls hquery hanswer
    simp only [ReceivedSignal.create, hident, ne_eq, not_true_eq_false, dite_false]
    split_ifs <;> simp

end Ns3Factory.TransmissionExecutor
