import Ns3Factory.CycleWorkingState
import Ns3Factory.RxPhy

/-!
The provider boundaries, the communication ids, and the execution of a transmission.

Providers are arbitrary: what one answers may depend on every call any of them has answered
before. Executing a transmission checks the request against the working state, takes one
transmission id, encodes once, and queries the channel once for each candidate receiver, in
the order of their ids.
-/

namespace Ns3Factory

open StdAlgorithm

/-! ### Providers and ids -/

/-- The calls made to the providers, each kind in order. -/
structure CallLog where
  encodes : List (DigitalPacket × TxEncodeRequest)
  channelQueries : List ChannelQuery
  noiseQueries : List NoiseQuery
  decodes : List RxDecodeRequest

/-- `ITxPhy`, `IChannelFieldProvider`, `INoiseFieldProvider` and `IRxPhy`. -/
structure Providers where
  encode : CallLog → DigitalPacket → TxEncodeRequest → Result TxEmission
  queryChannel : CallLog → ChannelQuery → Result ChannelFieldResponse
  queryNoise : CallLog → NoiseQuery → Result NoiseObservation
  decode : CallLog → RxDecodeRequest → Result RxDecodeResult

structure CommunicationIdAllocator where
  nextTransmission : IdentityValue
  transmissionIdsExhausted : Bool
  nextReception : Option IdentityValue
  receptionIdsExhausted : Bool

namespace CommunicationIdAllocator

/-- The constructor with both first ids; without a first reception id none is configured. -/
def create (firstTransmissionId : TransmissionId) (firstReceptionId : Option ReceptionId) :
    CommunicationIdAllocator where
  nextTransmission := firstTransmissionId.value
  transmissionIdsExhausted := false
  nextReception := firstReceptionId.map StrongId.value
  receptionIdsExhausted := false

def nextTransmissionId (ids : CommunicationIdAllocator) :
    Result TransmissionId × CommunicationIdAllocator :=
  if ids.transmissionIdsExhausted then
    (.error ⟨.kOverflow, "TransmissionId allocation exhausted"⟩, ids)
  else if h : ids.nextTransmission = maxIdentity then
    (.ok ⟨ids.nextTransmission⟩, { ids with transmissionIdsExhausted := true })
  else
    (.ok ⟨ids.nextTransmission⟩, { ids with nextTransmission := ids.nextTransmission.next h })

def nextReceptionId (ids : CommunicationIdAllocator) :
    Result ReceptionId × CommunicationIdAllocator :=
  match ids.nextReception with
  | none => (.error ⟨.kFailedPrecondition, "ReceptionId allocation was not configured"⟩, ids)
  | some next =>
    if ids.receptionIdsExhausted then
      (.error ⟨.kOverflow, "ReceptionId allocation exhausted"⟩, ids)
    else if h : next = maxIdentity then
      (.ok ⟨next⟩, { ids with receptionIdsExhausted := true })
    else (.ok ⟨next⟩, { ids with nextReception := some (next.next h) })

/-- The transmission ids below this one are taken. -/
def transmissionIdsTaken (ids : CommunicationIdAllocator) : ℕ :=
  if ids.transmissionIdsExhausted then ids.nextTransmission.val + 1
  else ids.nextTransmission.val

/-- The reception ids below this one are taken. -/
def receptionIdsTaken (ids : CommunicationIdAllocator) : ℕ :=
  match ids.nextReception with
  | none => 0
  | some next => if ids.receptionIdsExhausted then next.val + 1 else next.val

lemma nextTransmissionId_cases (ids : CommunicationIdAllocator) :
    (ids.transmissionIdsExhausted = true ∧ ids.nextTransmissionId =
      (.error ⟨.kOverflow, "TransmissionId allocation exhausted"⟩, ids)) ∨
    (ids.transmissionIdsExhausted = false ∧ ∃ id next,
      ids.nextTransmissionId = (.ok id, next) ∧ id.value.val = ids.transmissionIdsTaken ∧
      next.transmissionIdsTaken = ids.transmissionIdsTaken + 1 ∧
      next.nextReception = ids.nextReception ∧
      next.receptionIdsExhausted = ids.receptionIdsExhausted ∧
      (next.transmissionIdsExhausted = true ↔ next.transmissionIdsTaken = 2 ^ 64)) := by
  unfold nextTransmissionId
  rcases hx : ids.transmissionIdsExhausted with _ | _
  swap
  · exact Or.inl ⟨rfl, if_pos rfl⟩
  refine Or.inr ⟨rfl, ?_⟩
  rw [if_neg (by simp)]
  have hlt := ids.nextTransmission.isLt
  by_cases hmax : ids.nextTransmission = maxIdentity
  · refine ⟨_, _, dif_pos hmax, ?_⟩
    simp [transmissionIdsTaken, hx, hmax, maxIdentity]
  · have hne : ids.nextTransmission.val ≠ 2 ^ 64 - 1 := fun h => hmax (Fin.ext h)
    refine ⟨_, _, dif_neg hmax, ?_⟩
    simp only [transmissionIdsTaken, hx, IdentityValue.next, Bool.false_eq_true, if_false,
      false_iff, true_and]
    omega

lemma nextTransmissionId_ok {ids next : CommunicationIdAllocator} {id : TransmissionId}
    (h : ids.nextTransmissionId = (.ok id, next)) :
    id.value.val = ids.transmissionIdsTaken ∧
      next.transmissionIdsTaken = ids.transmissionIdsTaken + 1 ∧
      next.receptionIdsTaken = ids.receptionIdsTaken := by
  unfold nextTransmissionId at h
  split_ifs at h with hx hmax <;> cases h
  · simp [transmissionIdsTaken, receptionIdsTaken, hx]
  · simp [transmissionIdsTaken, receptionIdsTaken, hx, IdentityValue.next]

lemma nextReceptionId_ok {ids next : CommunicationIdAllocator} {id : ReceptionId}
    (h : ids.nextReceptionId = (.ok id, next)) :
    id.value.val = ids.receptionIdsTaken ∧
      next.receptionIdsTaken = ids.receptionIdsTaken + 1 ∧
      next.transmissionIdsTaken = ids.transmissionIdsTaken := by
  unfold nextReceptionId at h
  split at h
  · cases h
  next value hv =>
  split_ifs at h with hx hmax <;> cases h
  · simp [transmissionIdsTaken, receptionIdsTaken, hx, hv]
  · simp [transmissionIdsTaken, receptionIdsTaken, hx, hv, IdentityValue.next]

lemma nextReceptionId_cases (ids : CommunicationIdAllocator) :
    ((ids.nextReception = none ∨ ids.receptionIdsExhausted = true) ∧
      ∃ e, ids.nextReceptionId = (.error e, ids)) ∨
    (ids.nextReception.isSome ∧ ids.receptionIdsExhausted = false ∧ ∃ id next,
      ids.nextReceptionId = (.ok id, next) ∧ id.value.val = ids.receptionIdsTaken ∧
      next.receptionIdsTaken = ids.receptionIdsTaken + 1 ∧ next.nextReception.isSome ∧
      next.nextTransmission = ids.nextTransmission ∧
      next.transmissionIdsExhausted = ids.transmissionIdsExhausted ∧
      (next.receptionIdsExhausted = true ↔ next.receptionIdsTaken = 2 ^ 64)) := by
  unfold nextReceptionId
  rcases hv : ids.nextReception with _ | value
  · exact Or.inl ⟨Or.inl rfl, _, rfl⟩
  rcases hx : ids.receptionIdsExhausted with _ | _
  swap
  · exact Or.inl ⟨Or.inr rfl, _, if_pos rfl⟩
  refine Or.inr ⟨rfl, rfl, ?_⟩
  dsimp only
  rw [if_neg (by simp)]
  have hlt := value.isLt
  by_cases hmax : value = maxIdentity
  · refine ⟨_, _, dif_pos hmax, ?_⟩
    simp [receptionIdsTaken, hx, hv, hmax, maxIdentity]
  · have hne : value.val ≠ 2 ^ 64 - 1 := fun h => hmax (Fin.ext h)
    refine ⟨_, _, dif_neg hmax, ?_⟩
    simp only [receptionIdsTaken, hx, hv, IdentityValue.next, Bool.false_eq_true, if_false,
      false_iff, true_and, Option.isSome_some]
    omega

lemma nextReceptionId_error {ids next : CommunicationIdAllocator} {e : Error}
    (h : ids.nextReceptionId = (.error e, next)) : next = ids := by
  unfold nextReceptionId at h
  split at h
  · exact (Prod.mk.inj h).2.symm
  split_ifs at h <;> cases h
  rfl

end CommunicationIdAllocator

/-- What the executor and the receiver processor share: the ids, and the providers' calls. -/
structure Services where
  ids : CommunicationIdAllocator
  calls : CallLog

/-! ### Executing a transmission -/

structure TransmissionExecutionRequest where
  opportunity : TxOpportunity
  selectedPacket : DigitalPacket
  target : TransmissionTarget
  startedAt : SimTime
  candidateReceivers : List NodeId

structure TransmissionSession where
  packet : DigitalPacket
  transmission : Transmission
  emission : TxEmission
  receivedSignals : List ReceivedSignal

namespace TransmissionExecutor

variable [DoubleArithmetic]

/-- The loop over the candidate receivers. -/
def projectReceivers (workingState : CycleWorkingState) (senderNodeId : NodeId)
    (startedAt : SimTime) : List NodeId → Result (List NodeCommittedState)
  | [] => .ok []
  | receiverId :: rest =>
    if receiverId = senderNodeId then
      .error ⟨.kInvalidArgument, "Transmission sender cannot be a candidate receiver"⟩
    else
      match workingState.projectNodeState receiverId startedAt with
      | .error e => .error e
      | .ok receiverState =>
        if !receiverState.capability.canReceive then
          .error ⟨.kFailedPrecondition, "Transmission candidate cannot receive"⟩
        else
          match projectReceivers workingState senderNodeId startedAt rest with
          | .error e => .error e
          | .ok receiverStates => .ok (receiverState :: receiverStates)

/-- The loop over the receiver states: one channel query and one received signal each. -/
def fanOut (providers : Providers) (transmissionId : TransmissionId) (senderNodeId : NodeId)
    (senderPosition : Position3d) (startedAt : SimTime) (emission : TxEmission) :
    List NodeCommittedState → CallLog → Result (List ReceivedSignal) × CallLog
  | [], calls => (.ok [], calls)
  | receiverState :: rest, calls =>
    match ChannelQuery.create transmissionId senderNodeId receiverState.nodeId senderPosition
        receiverState.motion.position startedAt emission.centerFrequencyHz
        emission.bandwidthHz with
    | .error e => (.error e, calls)
    | .ok query =>
      let queried := { calls with channelQueries := calls.channelQueries ++ [query] }
      match providers.queryChannel calls query with
      | .error e => (.error e, queried)
      | .ok response =>
        match validateChannelFieldResponseIdentity query response with
        | .error e => (.error e, queried)
        | .ok _ =>
          match ReceivedSignal.create emission response with
          | .error e => (.error e, queried)
          | .ok receivedSignal =>
            match fanOut providers transmissionId senderNodeId senderPosition startedAt emission
                rest queried with
            | (.error e, last) => (.error e, last)
            | (.ok receivedSignals, last) => (.ok (receivedSignal :: receivedSignals), last)

/-- `ExecuteTransmission` from the allocation of the transmission id on. -/
def transmit (providers : Providers) (request : TransmissionExecutionRequest)
    (senderState : NodeCommittedState) (receiverStates : List NodeCommittedState)
    (services : Services) : Result TransmissionSession × Services :=
  match services.ids.nextTransmissionId with
  | (.error e, ids) => (.error e, { services with ids := ids })
  | (.ok transmissionId, ids) =>
    let encodeRequest : TxEncodeRequest :=
      ⟨transmissionId, request.opportunity.senderNodeId, request.target, request.startedAt⟩
    let encoded := { services.calls with
      encodes := services.calls.encodes ++ [(request.selectedPacket, encodeRequest)] }
    match providers.encode services.calls request.selectedPacket encodeRequest with
    | .error e => (.error e, ⟨ids, encoded⟩)
    | .ok emission =>
      match validateTxEmissionIdentity request.selectedPacket encodeRequest emission with
      | .error e => (.error e, ⟨ids, encoded⟩)
      | .ok _ =>
        if emission.duration = .zero then
          (.error ⟨.kFailedPrecondition, "Executed transmission duration must be positive"⟩,
            ⟨ids, encoded⟩)
        else
          match emission.startedAt.checkedAdd emission.duration with
          | none =>
            (.error ⟨.kOverflow, "Executed transmission end time overflow"⟩, ⟨ids, encoded⟩)
          | some endedAt =>
            let transmission : Transmission :=
              ⟨transmissionId, request.selectedPacket.packetId,
                request.opportunity.senderNodeId, request.target, request.startedAt, endedAt⟩
            match fanOut providers transmissionId request.opportunity.senderNodeId
                senderState.motion.position request.startedAt emission receiverStates
                encoded with
            | (.error e, calls) => (.error e, ⟨ids, calls⟩)
            | (.ok receivedSignals, calls) =>
              (.ok ⟨request.selectedPacket, transmission, emission, receivedSignals⟩,
                ⟨ids, calls⟩)

/-- The candidates as `ExecuteTransmission` sorts them. -/
def sortedCandidates (request : TransmissionExecutionRequest) : List NodeId :=
  sort (fun lhs rhs => lhs < rhs) request.candidateReceivers

/-- `TransmissionExecutor::ExecuteTransmission`. -/
def executeTransmission (providers : Providers) (workingState : CycleWorkingState)
    (request : TransmissionExecutionRequest) (services : Services) :
    Result TransmissionSession × Services :=
  if request.startedAt < request.opportunity.eligibleAt then
    (.error ⟨.kFailedPrecondition,
      "Transmission started before its opportunity was eligible"⟩, services)
  else if (adjacentFind (fun lhs rhs => lhs = rhs) (sortedCandidates request)).isSome then
    (.error ⟨.kAlreadyExists,
      "Transmission candidate receivers contain a duplicate NodeId"⟩, services)
  else
    match workingState.projectNodeState request.opportunity.senderNodeId request.startedAt with
    | .error e => (.error e, services)
    | .ok senderState =>
      if !senderState.capability.canTransmit then
        (.error ⟨.kFailedPrecondition, "Transmission sender cannot transmit"⟩, services)
      else
        match projectReceivers workingState request.opportunity.senderNodeId request.startedAt
            (sortedCandidates request) with
        | .error e => (.error e, services)
        | .ok receiverStates => transmit providers request senderState receiverStates services

/-! ### The checks before the allocation -/

/-- What a candidate receiver is checked for. -/
structure Receives (w : CycleWorkingState) (senderNodeId : NodeId) (startedAt : SimTime)
    (receiverId : NodeId) (receiverState : NodeCommittedState) : Prop where
  notSender : receiverId ≠ senderNodeId
  projected : w.projectNodeState receiverId startedAt = .ok receiverState
  canReceive : receiverState.capability.canReceive = true

lemma projectReceivers_ok {w : CycleWorkingState} {senderNodeId : NodeId} {startedAt : SimTime}
    {candidates : List NodeId} {states : List NodeCommittedState} :
    projectReceivers w senderNodeId startedAt candidates = .ok states ↔
      List.Forall₂ (Receives w senderNodeId startedAt) candidates states := by
  induction candidates generalizing states with
  | nil => cases states <;> simp [projectReceivers]
  | cons receiverId rest ih =>
    constructor
    · intro h
      simp only [projectReceivers] at h
      split_ifs at h with hsender
      split at h
      · cases h
      next receiverState hp =>
      split_ifs at h with hrec
      split at h
      · cases h
      next receiverStates hrest =>
      cases h
      exact List.Forall₂.cons ⟨hsender, hp, by simpa using hrec⟩ (ih.mp hrest)
    · intro h
      rcases h with _ | ⟨hfirst, hrest⟩
      simp [projectReceivers, hfirst.notSender, hfirst.projected, hfirst.canReceive, ih.mpr hrest]

lemma ids_of_receives {w : CycleWorkingState} {senderNodeId : NodeId} {startedAt : SimTime}
    {candidates : List NodeId} {states : List NodeCommittedState}
    (h : List.Forall₂ (Receives w senderNodeId startedAt) candidates states) :
    states.map NodeCommittedState.nodeId = candidates := by
  induction h with
  | nil => rfl
  | cons hfirst _ ih =>
    rw [List.map_cons, ih, (CycleWorkingState.projectNodeState_ok hfirst.projected).1]

/-- What a request is checked for before an id is allocated. -/
structure Checked (w : CycleWorkingState) (request : TransmissionExecutionRequest)
    (senderState : NodeCommittedState) (receiverStates : List NodeCommittedState) : Prop where
  eligible : request.opportunity.eligibleAt ≤ request.startedAt
  nodup : request.candidateReceivers.Nodup
  sender : w.projectNodeState request.opportunity.senderNodeId request.startedAt =
    .ok senderState
  canTransmit : senderState.capability.canTransmit = true
  receivers : List.Forall₂ (Receives w request.opportunity.senderNodeId request.startedAt)
    (sortedCandidates request) receiverStates

omit [DoubleArithmetic] in
lemma adjacentFind_candidates (request : TransmissionExecutionRequest) :
    (adjacentFind (fun lhs rhs : NodeId => lhs = rhs) (sortedCandidates request)).isSome = false ↔
      request.candidateReceivers.Nodup := by
  have hsorted : (sortedCandidates request).Pairwise fun a b => id a ≤ id b :=
    sort_pairwise (by simp) _
  have hperm := (sort_perm (fun lhs rhs : NodeId => lhs < rhs) request.candidateReceivers).nodup_iff
  rw [Option.isSome_eq_false_iff, Option.isNone_iff_eq_none,
    adjacentFind_eq_none (by simp) hsorted, ← hperm]
  refine ⟨fun h => h.nodup, fun h => ?_⟩
  exact (hsorted.and h).imp fun hab => lt_of_le_of_ne hab.1 hab.2

lemma executeTransmission_cases (providers : Providers) (w : CycleWorkingState)
    (request : TransmissionExecutionRequest) (services : Services) :
    (∃ senderState receiverStates, Checked w request senderState receiverStates ∧
      executeTransmission providers w request services =
        transmit providers request senderState receiverStates services) ∨
    ((¬ ∃ senderState receiverStates, Checked w request senderState receiverStates) ∧
      ∃ e, executeTransmission providers w request services = (.error e, services)) := by
  unfold executeTransmission
  by_cases helig : request.startedAt < request.opportunity.eligibleAt
  · exact Or.inr ⟨fun ⟨_, _, h⟩ => absurd h.eligible (not_le.mpr helig), _, if_pos helig⟩
  rw [if_neg helig]
  rcases hdup : (adjacentFind (fun lhs rhs : NodeId => lhs = rhs)
    (sortedCandidates request)).isSome with _ | _
  swap
  · refine Or.inr ⟨fun ⟨_, _, h⟩ => ?_, _, if_pos rfl⟩
    rw [(adjacentFind_candidates request).mpr h.nodup] at hdup
    cases hdup
  rw [if_neg (by simp)]
  rcases hsender : w.projectNodeState request.opportunity.senderNodeId request.startedAt with
    e | senderState
  · refine Or.inr ⟨fun ⟨_, _, h⟩ => ?_, e, rfl⟩
    have hstate := h.sender
    rw [hsender] at hstate
    cases hstate
  rcases htx : senderState.capability.canTransmit with _ | _
  · refine Or.inr ⟨fun ⟨_, _, h⟩ => ?_, _, by simp only [htx]; rfl⟩
    have hstate := hsender.symm.trans h.sender
    cases hstate
    rw [h.canTransmit] at htx
    cases htx
  rcases hrec : projectReceivers w request.opportunity.senderNodeId request.startedAt
    (sortedCandidates request) with e | receiverStates
  · refine Or.inr ⟨fun ⟨_, _, h⟩ => ?_, e, by simp only [htx]; rfl⟩
    rw [projectReceivers_ok.mpr h.receivers] at hrec
    cases hrec
  · exact Or.inl ⟨senderState, receiverStates, ⟨not_lt.mp helig,
      (adjacentFind_candidates request).mp hdup, hsender, htx, projectReceivers_ok.mp hrec⟩,
      by simp only [htx]; rfl⟩

/-! ### The emission and the fan-out -/

/-- The encode request for an allocated id. -/
def encodeRequest (request : TransmissionExecutionRequest) (transmissionId : TransmissionId) :
    TxEncodeRequest :=
  ⟨transmissionId, request.opportunity.senderNodeId, request.target, request.startedAt⟩

/-- The calls after one more `Encode`. -/
def encoded (calls : CallLog) (packet : DigitalPacket) (request : TxEncodeRequest) : CallLog :=
  { calls with encodes := calls.encodes ++ [(packet, request)] }

/-- The calls after more channel queries. -/
def queried (calls : CallLog) (queries : List ChannelQuery) : CallLog :=
  { calls with channelQueries := calls.channelQueries ++ queries }

omit [DoubleArithmetic] in
lemma queried_cons (calls : CallLog) (query : ChannelQuery) (queries : List ChannelQuery) :
    queried calls (query :: queries) = queried (queried calls [query]) queries := by
  simp [queried]

/-- An id was allocated, and the emission for it is the one asked for and takes time. -/
structure Emitted (providers : Providers) (request : TransmissionExecutionRequest)
    (services : Services) (transmissionId : TransmissionId) (ids : CommunicationIdAllocator)
    (emission : TxEmission) (endedAt : SimTime) : Prop where
  id : services.ids.nextTransmissionId = (.ok transmissionId, ids)
  encode : providers.encode services.calls request.selectedPacket
    (encodeRequest request transmissionId) = .ok emission
  identity : validateTxEmissionIdentity request.selectedPacket
    (encodeRequest request transmissionId) emission = .ok ()
  duration : emission.duration ≠ .zero
  endedAt : emission.startedAt.checkedAdd emission.duration = some endedAt

lemma transmit_cases (providers : Providers) (request : TransmissionExecutionRequest)
    (senderState : NodeCommittedState) (receiverStates : List NodeCommittedState)
    (services : Services) :
    (services.ids.transmissionIdsExhausted = true ∧
      transmit providers request senderState receiverStates services =
        (.error ⟨.kOverflow, "TransmissionId allocation exhausted"⟩, services)) ∨
    (∃ transmissionId ids e, services.ids.nextTransmissionId = (.ok transmissionId, ids) ∧
      transmit providers request senderState receiverStates services =
        (.error e, ⟨ids, encoded services.calls request.selectedPacket
          (encodeRequest request transmissionId)⟩)) ∨
    ∃ transmissionId ids emission endedAt,
      Emitted providers request services transmissionId ids emission endedAt ∧
      transmit providers request senderState receiverStates services =
        match fanOut providers transmissionId request.opportunity.senderNodeId
          senderState.motion.position request.startedAt emission receiverStates
          (encoded services.calls request.selectedPacket
            (encodeRequest request transmissionId)) with
        | (.error e, calls) => (.error e, ⟨ids, calls⟩)
        | (.ok receivedSignals, calls) =>
          (.ok ⟨request.selectedPacket, ⟨transmissionId, request.selectedPacket.packetId,
            request.opportunity.senderNodeId, request.target, request.startedAt, endedAt⟩,
            emission, receivedSignals⟩, ⟨ids, calls⟩) := by
  unfold transmit
  rcases services.ids.nextTransmissionId_cases with ⟨hx, herr⟩ | ⟨-, transmissionId, ids, hid, -⟩
  · exact Or.inl ⟨hx, by simp only [herr]⟩
  refine Or.inr ?_
  rw [hid]
  dsimp only
  rcases hem : providers.encode services.calls request.selectedPacket ⟨transmissionId,
      request.opportunity.senderNodeId, request.target, request.startedAt⟩ with e | emission
  · exact Or.inl ⟨transmissionId, ids, e, rfl, rfl⟩
  dsimp only
  rcases hident : validateTxEmissionIdentity request.selectedPacket ⟨transmissionId,
      request.opportunity.senderNodeId, request.target, request.startedAt⟩ emission with e | u
  · exact Or.inl ⟨transmissionId, ids, e, rfl, rfl⟩
  dsimp only
  by_cases hzero : emission.duration = .zero
  · exact Or.inl ⟨transmissionId, ids, _, rfl, if_pos hzero⟩
  rw [if_neg hzero]
  rcases hend : emission.startedAt.checkedAdd emission.duration with _ | endedAt
  · exact Or.inl ⟨transmissionId, ids, _, rfl, rfl⟩
  · exact Or.inr ⟨transmissionId, ids, emission, endedAt, ⟨hid, hem, hident, hzero, hend⟩, rfl⟩

/-- The channel answered a query, after some calls, with what makes a signal. -/
structure Answered (providers : Providers) (emission : TxEmission) (calls : CallLog)
    (query : ChannelQuery) (signal : ReceivedSignal) : Prop where
  response : providers.queryChannel calls query = .ok signal.channelResponse
  identity : validateChannelFieldResponseIdentity query signal.channelResponse = .ok ()
  created : ReceivedSignal.create emission signal.channelResponse = .ok signal

lemma query_of_create {transmissionId : TransmissionId} {senderNodeId receiverNodeId : NodeId}
    {txPosition rxPosition : Position3d} {emittedAt : SimTime}
    {centerFrequencyHz bandwidthHz : Double} {query : ChannelQuery}
    (h : ChannelQuery.create transmissionId senderNodeId receiverNodeId txPosition rxPosition
      emittedAt centerFrequencyHz bandwidthHz = .ok query) :
    query.transmissionId = transmissionId ∧ query.receiverNodeId = receiverNodeId := by
  unfold ChannelQuery.create at h
  split_ifs at h
  cases h
  exact ⟨rfl, rfl⟩

/-- The query that is made for a receiver. -/
def IsQuery (transmissionId : TransmissionId) (senderNodeId : NodeId)
    (senderPosition : Position3d) (startedAt : SimTime) (emission : TxEmission)
    (receiverState : NodeCommittedState) (query : ChannelQuery) : Prop :=
  ChannelQuery.create transmissionId senderNodeId receiverState.nodeId senderPosition
    receiverState.motion.position startedAt emission.centerFrequencyHz emission.bandwidthHz =
      .ok query

/-- Only the last query may have been answered with what makes no signal. -/
def AnsweredButLast (providers : Providers) (emission : TxEmission) (calls : CallLog)
    (queries : List ChannelQuery) : Prop :=
  ∀ before query after, queries = before ++ query :: after → after ≠ [] →
    ∃ signal, Answered providers emission (queried calls before) query signal

lemma answeredButLast_nil (providers : Providers) (emission : TxEmission) (calls : CallLog) :
    AnsweredButLast providers emission calls [] := by
  intro before query after heq
  simp at heq

lemma answeredButLast_singleton (providers : Providers) (emission : TxEmission)
    (calls : CallLog) (query : ChannelQuery) :
    AnsweredButLast providers emission calls [query] := by
  intro before q after heq hne
  have hlength := congrArg List.length heq
  have hpos := List.length_pos_iff.mpr hne
  simp only [List.length_append, List.length_cons, List.length_nil] at hlength
  omega

lemma AnsweredButLast.cons {providers : Providers} {emission : TxEmission} {calls : CallLog}
    {query : ChannelQuery} {queries : List ChannelQuery} {signal : ReceivedSignal}
    (h : AnsweredButLast providers emission (queried calls [query]) queries)
    (hanswered : Answered providers emission calls query signal) :
    AnsweredButLast providers emission calls (query :: queries) := by
  intro before q after heq hne
  rcases before with _ | ⟨b, before⟩
  · rw [List.nil_append, List.cons.injEq] at heq
    rw [← heq.1]
    exact ⟨signal, by simpa [queried] using hanswered⟩
  · rw [List.cons_append, List.cons.injEq] at heq
    rw [← heq.1, queried_cons]
    exact h before q after heq.2 hne

lemma fanOut_spec (providers : Providers) (transmissionId : TransmissionId)
    (senderNodeId : NodeId) (senderPosition : Position3d) (startedAt : SimTime)
    (emission : TxEmission) (states : List NodeCommittedState) (calls : CallLog) :
    ∃ result asked rest queries, states = asked ++ rest ∧
      fanOut providers transmissionId senderNodeId senderPosition startedAt emission states
        calls = (result, queried calls queries) ∧
      List.Forall₂ (IsQuery transmissionId senderNodeId senderPosition startedAt emission) asked
        queries ∧
      AnsweredButLast providers emission calls queries ∧
      ∀ signals, result = .ok signals → rest = [] ∧
        List.Forall₂ (fun query signal => ∃ log, Answered providers emission log query signal)
          queries signals := by
  induction states generalizing calls with
  | nil =>
    refine ⟨.ok [], [], [], [], rfl, by simp [fanOut, queried], List.Forall₂.nil,
      answeredButLast_nil providers emission calls, ?_⟩
    rintro signals ⟨⟩
    exact ⟨rfl, List.Forall₂.nil⟩
  | cons state states ih =>
    rw [fanOut]
    rcases hq : ChannelQuery.create transmissionId senderNodeId state.nodeId senderPosition
      state.motion.position startedAt emission.centerFrequencyHz emission.bandwidthHz with
      e | query
    · exact ⟨.error e, [], state :: states, [], rfl, by simp [queried], List.Forall₂.nil,
        answeredButLast_nil providers emission calls, by simp⟩
    -- a query that is not answered well is the last
    have hlast := answeredButLast_singleton providers emission calls query
    have hone : List.Forall₂
        (IsQuery transmissionId senderNodeId senderPosition startedAt emission) [state] [query] :=
      List.Forall₂.cons hq List.Forall₂.nil
    dsimp only
    rcases hr : providers.queryChannel calls query with e | response
    · exact ⟨.error e, [state], states, [query], rfl, rfl, hone, hlast, by simp⟩
    dsimp only
    rcases hv : validateChannelFieldResponseIdentity query response with e | u
    · exact ⟨.error e, [state], states, [query], rfl, rfl, hone, hlast, by simp⟩
    dsimp only
    rcases hs : ReceivedSignal.create emission response with e | signal
    · exact ⟨.error e, [state], states, [query], rfl, rfl, hone, hlast, by simp⟩
    have hanswered : Answered providers emission calls query signal := by
      obtain ⟨-, hresponse⟩ := ReceivedSignal.create_ok hs
      exact ⟨by rw [hresponse]; exact hr, by rw [hresponse]; exact hv,
        by rw [hresponse]; exact hs⟩
    obtain ⟨result, asked, rest, queries, rfl, hfan, hasked, hanswers, hsignals⟩ :=
      ih (queried calls [query])
    have hfan' : fanOut providers transmissionId senderNodeId senderPosition startedAt emission
        (asked ++ rest) { calls with channelQueries := calls.channelQueries ++ [query] } =
          (result, queried calls (query :: queries)) := by
      rw [queried_cons]; exact hfan
    have hprefix := hanswers.cons hanswered
    dsimp only
    rw [hfan']
    rcases result with e | signals
    · exact ⟨.error e, state :: asked, rest, query :: queries, rfl, rfl,
        List.Forall₂.cons hq hasked, hprefix, by simp⟩
    · refine ⟨.ok (signal :: signals), state :: asked, rest, query :: queries, rfl, rfl,
        List.Forall₂.cons hq hasked, hprefix, ?_⟩
      rintro signals' ⟨⟩
      obtain ⟨hrest, hall⟩ := hsignals signals rfl
      exact ⟨hrest, List.Forall₂.cons ⟨calls, hanswered⟩ hall⟩

lemma map_query {transmissionId : TransmissionId} {senderNodeId : NodeId}
    {senderPosition : Position3d} {startedAt : SimTime} {emission : TxEmission}
    {states : List NodeCommittedState} {queries : List ChannelQuery}
    (h : List.Forall₂ (IsQuery transmissionId senderNodeId senderPosition startedAt emission)
      states queries) :
    queries.map (fun q => (q.transmissionId, q.receiverNodeId)) =
      states.map fun state => (transmissionId, state.nodeId) := by
  induction h with
  | nil => rfl
  | cons hq _ ih =>
    obtain ⟨htransmission, hreceiver⟩ := query_of_create hq
    rw [List.map_cons, List.map_cons, ih, htransmission, hreceiver]

lemma map_answered {providers : Providers} {emission : TxEmission} {queries : List ChannelQuery}
    {signals : List ReceivedSignal}
    (h : List.Forall₂ (fun query signal => ∃ log, Answered providers emission log query signal)
      queries signals) :
    signals.map ReceivedSignal.receiverNodeId = queries.map ChannelQuery.receiverNodeId ∧
      ∀ s ∈ signals, s.emission = emission := by
  induction h with
  | nil => simp
  | cons hanswered _ ih =>
    obtain ⟨log, hanswered⟩ := hanswered
    obtain ⟨hids, hemission⟩ := ih
    refine ⟨?_, List.forall_mem_cons.mpr ⟨?_, hemission⟩⟩
    · rw [List.map_cons, List.map_cons, hids, ReceivedSignal.receiverNodeId,
        ← (validateChannelFieldResponseIdentity_ok.mp hanswered.identity).2]
    · exact (ReceivedSignal.create_ok hanswered.created).1

/-! ### A transmission that succeeds -/

/-- What a successful execution has checked, called and returned. -/
structure Executed (workingState : CycleWorkingState) (request : TransmissionExecutionRequest)
    (services : Services) (session : TransmissionSession) (last : Services) : Prop where
  nodup : request.candidateReceivers.Nodup
  projected : ∀ r ∈ request.candidateReceivers, ∃ state,
    workingState.projectNodeState r request.startedAt = .ok state
  id : services.ids.nextTransmissionId = (.ok session.transmission.transmissionId, last.ids)
  emissionId : session.emission.transmissionId = session.transmission.transmissionId
  startedAt : session.emission.startedAt = request.startedAt
  duration : 0 < session.emission.duration.nanoseconds
  endedAt : session.transmission.endedAt.nanoseconds =
    request.startedAt.nanoseconds + session.emission.duration.nanoseconds
  receivers : session.receivedSignals.map ReceivedSignal.receiverNodeId =
    sortedCandidates request
  emission : ∀ s ∈ session.receivedSignals, s.emission = session.emission
  calls : ∃ encodeRequest queries,
    encodeRequest.transmissionId = session.transmission.transmissionId ∧
    queries.map (fun q => (q.transmissionId, q.receiverNodeId)) =
      (sortedCandidates request).map (fun r => (session.transmission.transmissionId, r)) ∧
    last.calls = { services.calls with
      encodes := services.calls.encodes ++ [(request.selectedPacket, encodeRequest)]
      channelQueries := services.calls.channelQueries ++ queries }

lemma executeTransmission_parts {providers : Providers} {w : CycleWorkingState}
    {request : TransmissionExecutionRequest} {services last : Services}
    {session : TransmissionSession}
    (h : executeTransmission providers w request services = (.ok session, last)) :
    ∃ senderState receiverStates queries,
      Checked w request senderState receiverStates ∧
      Emitted providers request services session.transmission.transmissionId last.ids
        session.emission session.transmission.endedAt ∧
      session.packet = request.selectedPacket ∧
      session.transmission = ⟨session.transmission.transmissionId,
        request.selectedPacket.packetId, request.opportunity.senderNodeId, request.target,
        request.startedAt, session.transmission.endedAt⟩ ∧
      List.Forall₂ (IsQuery session.transmission.transmissionId
        request.opportunity.senderNodeId senderState.motion.position request.startedAt
        session.emission) receiverStates queries ∧
      List.Forall₂ (fun query signal => ∃ log,
        Answered providers session.emission log query signal) queries
        session.receivedSignals ∧
      last.calls = queried (encoded services.calls request.selectedPacket
        (encodeRequest request session.transmission.transmissionId)) queries := by
  rcases executeTransmission_cases providers w request services with
    ⟨senderState, receiverStates, hchecked, htransmit⟩ | ⟨-, e, herr⟩
  swap
  · rw [h] at herr; cases herr
  rw [htransmit] at h
  rcases transmit_cases providers request senderState receiverStates services with
    ⟨-, herr⟩ | ⟨_, _, e, -, herr⟩ | ⟨transmissionId, ids, emission, endedAt, hemitted, hfan⟩
  · rw [h] at herr; cases herr
  · rw [h] at herr; cases herr
  obtain ⟨result, asked, rest, queries, hstates, hspec, hasked, -, hsignals⟩ :=
    fanOut_spec providers transmissionId request.opportunity.senderNodeId
      senderState.motion.position request.startedAt emission receiverStates
      (encoded services.calls request.selectedPacket (encodeRequest request transmissionId))
  rw [hfan, hspec] at h
  rcases result with e | signals
  · cases h
  cases h
  obtain ⟨rfl, hanswered⟩ := hsignals _ rfl
  rw [List.append_nil] at hstates
  subst hstates
  exact ⟨senderState, receiverStates, queries, hchecked, hemitted, rfl, rfl, hasked, hanswered,
    rfl⟩

omit [DoubleArithmetic] in
lemma Emitted.duration_pos {providers : Providers} {request : TransmissionExecutionRequest}
    {services : Services} {transmissionId : TransmissionId} {ids : CommunicationIdAllocator}
    {emission : TxEmission} {endedAt : SimTime}
    (h : Emitted providers request services transmissionId ids emission endedAt) :
    0 < emission.duration.nanoseconds :=
  lt_of_le_of_ne emission.duration_nonneg fun h0 =>
    h.duration (SimDuration.nanoseconds_inj.mp h0.symm)

lemma executeTransmission_ok {providers : Providers} {w : CycleWorkingState}
    {request : TransmissionExecutionRequest} {services last : Services}
    {session : TransmissionSession}
    (h : executeTransmission providers w request services = (.ok session, last)) :
    Executed w request services session last := by
  obtain ⟨senderState, receiverStates, queries, hchecked, hemitted, -, -, hasked, hanswered,
    hcalls⟩ := executeTransmission_parts h
  have hids := ids_of_receives hchecked.receivers
  obtain ⟨hid, -, -, hat⟩ := validateTxEmissionIdentity_ok.mp hemitted.identity
  have hqueries : queries.map (fun q => (q.transmissionId, q.receiverNodeId)) =
      (sortedCandidates request).map fun r => (session.transmission.transmissionId, r) := by
    rw [← hids, List.map_map]
    exact map_query hasked
  obtain ⟨hreceivers, hemission⟩ := map_answered hanswered
  refine
    { nodup := hchecked.nodup
      projected := fun r hr => ?_
      id := hemitted.id
      emissionId := hid
      startedAt := hat
      duration := hemitted.duration_pos
      endedAt := ?_
      receivers := ?_
      emission := hemission
      calls := ⟨encodeRequest request session.transmission.transmissionId, queries, rfl,
        hqueries, hcalls⟩ }
  · obtain ⟨state, -, hstate⟩ := exists_of_mem_left hchecked.receivers (mem_sort.mpr hr)
    exact ⟨state, hstate.projected⟩
  · rw [← SimTime.checkedAdd_eq_some.mp hemitted.endedAt, hat]
    rfl
  · have hsnd := congrArg (List.map Prod.snd) hqueries
    simp only [List.map_map, Function.comp_def, List.map_id'] at hsnd
    rw [hreceivers]
    exact hsnd

end TransmissionExecutor

end Ns3Factory
