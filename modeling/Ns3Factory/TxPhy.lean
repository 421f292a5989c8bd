import Ns3Factory.Time

/-!
Packets, transmissions, and the boundary to the transmit PHY.

A `TxEmission` exists only with a duration that is not negative and positive frequency and
bandwidth: `Create` refuses anything else, and the fields below carry what it checked.
-/

namespace Ns3Factory

inductive PacketDestination
  | unicast (nodeId : NodeId)
  | broadcast
  deriving DecidableEq

structure DigitalPacket where
  packetId : PacketId
  sourceNodeId : NodeId
  destination : PacketDestination
  payload : List (Fin 256)
  deriving DecidableEq

inductive TransmissionTarget
  | unicast (nodeId : NodeId)
  | broadcast
  deriving DecidableEq

structure TxOpportunity where
  senderNodeId : NodeId
  eligibleAt : SimTime
  deriving DecidableEq

structure Transmission where
  transmissionId : TransmissionId
  packetId : PacketId
  senderNodeId : NodeId
  target : TransmissionTarget
  startedAt : SimTime
  endedAt : SimTime
  deriving DecidableEq

structure TxEncodeRequest where
  transmissionId : TransmissionId
  senderNodeId : NodeId
  target : TransmissionTarget
  startedAt : SimTime
  deriving DecidableEq

@[ext]
structure TxEmission where
  transmissionId : TransmissionId
  packetId : PacketId
  senderNodeId : NodeId
  startedAt : SimTime
  duration : SimDuration
  centerFrequencyHz : Double
  bandwidthHz : Double
  sourceLevelDbRe1upaAt1m : Double
  duration_nonneg : 0 ≤ duration.nanoseconds
  centerFrequency_pos : 0 < centerFrequencyHz
  bandwidth_pos : 0 < bandwidthHz

namespace TxEmission

/-- `operator==` compares all members. -/
instance : DecidableEq TxEmission := fun _ _ => decidable_of_iff' _ TxEmission.ext_iff

lemma frequency_pos {centerFrequencyHz bandwidthHz : Double}
    (h : ¬ (centerFrequencyHz ≤ 0 ∨ bandwidthHz ≤ 0)) : 0 < centerFrequencyHz :=
  not_le.mp (not_or.mp h).1

lemma width_pos {centerFrequencyHz bandwidthHz : Double}
    (h : ¬ (centerFrequencyHz ≤ 0 ∨ bandwidthHz ≤ 0)) : 0 < bandwidthHz :=
  not_le.mp (not_or.mp h).2

end TxEmission

/-- `TxEmission::Create`. -/
def TxEmission.create [DoubleArithmetic] (transmissionId : TransmissionId) (packetId : PacketId)
    (senderNodeId : NodeId) (startedAt : SimTime) (duration : SimDuration)
    (centerFrequencyHz bandwidthHz sourceLevelDbRe1upaAt1m : Double) : Result TxEmission :=
  if hd : duration.nanoseconds < 0 then
    .error ⟨.kOutOfRange, "TxEmission duration must be non-negative"⟩
  else if !isfinite centerFrequencyHz || !isfinite bandwidthHz ||
      !isfinite sourceLevelDbRe1upaAt1m then
    .error ⟨.kInvalidArgument, "TxEmission physical values must be finite"⟩
  else if hf : centerFrequencyHz ≤ 0 ∨ bandwidthHz ≤ 0 then
    .error ⟨.kOutOfRange, "TxEmission frequency and bandwidth must be positive"⟩
  else
    .ok
      { transmissionId, packetId, senderNodeId, startedAt, duration, centerFrequencyHz
        bandwidthHz, sourceLevelDbRe1upaAt1m
        duration_nonneg := SimDuration.nonneg_of_not_lt hd
        centerFrequency_pos := TxEmission.frequency_pos hf
        bandwidth_pos := TxEmission.width_pos hf }

theorem TxEmission.create_self (e : TxEmission) :
    create e.transmissionId e.packetId e.senderNodeId e.startedAt e.duration
      e.centerFrequencyHz e.bandwidthHz e.sourceLevelDbRe1upaAt1m = .ok e := by
  have hd := e.duration_nonneg
  have hf := e.centerFrequency_pos
  have hb := e.bandwidth_pos
  unfold create
  rw [dif_neg (not_lt.mpr hd)]
  simp [hf.not_ge, hb.not_ge]

def validateTxEmissionIdentity (packet : DigitalPacket) (request : TxEncodeRequest)
    (emission : TxEmission) : Status :=
  if emission.transmissionId ≠ request.transmissionId ∨
      emission.packetId ≠ packet.packetId ∨
      emission.senderNodeId ≠ request.senderNodeId ∨
      emission.startedAt ≠ request.startedAt then
    .error ⟨.kFailedPrecondition, "TxEmission identity does not match packet/encode request"⟩
  else .ok ()

lemma validateTxEmissionIdentity_ok {packet : DigitalPacket} {request : TxEncodeRequest}
    {emission : TxEmission} :
    validateTxEmissionIdentity packet request emission = .ok () ↔
      emission.transmissionId = request.transmissionId ∧
      emission.packetId = packet.packetId ∧
      emission.senderNodeId = request.senderNodeId ∧
      emission.startedAt = request.startedAt := by
  unfold validateTxEmissionIdentity
  split_ifs with h
  · simp only [false_iff]; tauto
  · simp only [true_iff]; tauto

end Ns3Factory
