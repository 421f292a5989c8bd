import Ns3Factory.ReceivedSignal

/-!
The boundaries to the noise field and the receive PHY.

A noise query and a noise observation have an interval of positive width and a band
`0 ≤ lower < upper`. A decode request pairs a window with an observation of exactly the
desired signal's interval and band.
-/

namespace Ns3Factory

/-! ### Noise -/

structure NoiseQuery where
  receiverNodeId : NodeId
  receiverPosition : Position3d
  observedFrom : SimTime
  observedUntil : SimTime
  lowerFrequencyHz : Double
  upperFrequencyHz : Double
  interval : observedFrom < observedUntil
  lower_nonneg : 0 ≤ lowerFrequencyHz
  band : lowerFrequencyHz < upperFrequencyHz

/-- `NoiseQuery::Create`. -/
def NoiseQuery.create [DoubleArithmetic] (receiverNodeId : NodeId)
    (receiverPosition : Position3d) (observedFrom observedUntil : SimTime)
    (lowerFrequencyHz upperFrequencyHz : Double) : Result NoiseQuery :=
  if !isfinite receiverPosition.xMeters || !isfinite receiverPosition.yMeters ||
      !isfinite receiverPosition.zMeters || !isfinite lowerFrequencyHz ||
      !isfinite upperFrequencyHz then
    .error ⟨.kInvalidArgument, "NoiseQuery position and frequency boundaries must be finite"⟩
  else if ht : observedUntil ≤ observedFrom then
    .error ⟨.kOutOfRange, "NoiseQuery observation interval must have positive width"⟩
  else if hf : lowerFrequencyHz < 0 ∨ upperFrequencyHz ≤ lowerFrequencyHz then
    .error ⟨.kOutOfRange, "NoiseQuery frequency interval is invalid"⟩
  else
    .ok
      { receiverNodeId, receiverPosition, observedFrom, observedUntil, lowerFrequencyHz
        upperFrequencyHz
        interval := not_le.mp ht
        lower_nonneg := not_lt.mp fun h => hf (Or.inl h)
        band := not_le.mp fun h => hf (Or.inr h) }

structure NoiseObservation where
  receiverNodeId : NodeId
  observedFrom : SimTime
  observedUntil : SimTime
  lowerFrequencyHz : Double
  upperFrequencyHz : Double
  equivalentNoisePowerDbRe1upa2 : Double
  interval : observedFrom < observedUntil
  lower_nonneg : 0 ≤ lowerFrequencyHz
  band : lowerFrequencyHz < upperFrequencyHz

/-- `NoiseObservation::Create`. -/
def NoiseObservation.create [DoubleArithmetic] (receiverNodeId : NodeId)
    (observedFrom observedUntil : SimTime)
    (lowerFrequencyHz upperFrequencyHz equivalentNoisePowerDbRe1upa2 : Double) :
    Result NoiseObservation :=
  if !isfinite lowerFrequencyHz || !isfinite upperFrequencyHz ||
      !isfinite equivalentNoisePowerDbRe1upa2 then
    .error ⟨.kInvalidArgument, "NoiseObservation frequency and power must be finite"⟩
  else if ht : observedUntil ≤ observedFrom then
    .error ⟨.kOutOfRange, "NoiseObservation interval must have positive width"⟩
  else if hf : lowerFrequencyHz < 0 ∨ upperFrequencyHz ≤ lowerFrequencyHz then
    .error ⟨.kOutOfRange, "NoiseObservation frequency interval is invalid"⟩
  else
    .ok
      { receiverNodeId, observedFrom, observedUntil, lowerFrequencyHz, upperFrequencyHz
        equivalentNoisePowerDbRe1upa2
        interval := not_le.mp ht
        lower_nonneg := not_lt.mp fun h => hf (Or.inl h)
        band := not_le.mp fun h => hf (Or.inr h) }

def validateNoiseObservationIdentity (query : NoiseQuery) (observation : NoiseObservation) :
    Status :=
  if query.receiverNodeId ≠ observation.receiverNodeId ∨
      query.observedFrom ≠ observation.observedFrom ∨
      query.observedUntil ≠ observation.observedUntil ∨
      query.lowerFrequencyHz ≠ observation.lowerFrequencyHz ∨
      query.upperFrequencyHz ≠ observation.upperFrequencyHz then
    .error ⟨.kFailedPrecondition, "NoiseObservation provenance does not match NoiseQuery"⟩
  else .ok ()

lemma validateNoiseObservationIdentity_ok {query : NoiseQuery}
    {observation : NoiseObservation} :
    validateNoiseObservationIdentity query observation = .ok () ↔
      query.receiverNodeId = observation.receiverNodeId ∧
      query.observedFrom = observation.observedFrom ∧
      query.observedUntil = observation.observedUntil ∧
      query.lowerFrequencyHz = observation.lowerFrequencyHz ∧
      query.upperFrequencyHz = observation.upperFrequencyHz := by
  unfold validateNoiseObservationIdentity
  split_ifs with h
  · simp only [false_iff]; tauto
  · simp only [true_iff]; tauto

def createNoiseQueryForDesiredSignal [DoubleArithmetic] (receiverWindow : ReceiverWindow)
    (receiverPosition : Position3d) : Result NoiseQuery :=
  let desired := receiverWindow.desiredSignal
  NoiseQuery.create receiverWindow.receiverNodeId receiverPosition desired.firstArrivalAt
    desired.lastEffectEndAt desired.lowerFrequencyHz desired.upperFrequencyHz

/-- The query is for the desired signal's receiver, interval and band at the position. -/
structure NoiseQuery.IsFor (query : NoiseQuery) (receiverWindow : ReceiverWindow)
    (receiverPosition : Position3d) : Prop where
  receiver : query.receiverNodeId = receiverWindow.receiverNodeId
  position : query.receiverPosition = receiverPosition
  observedFrom : query.observedFrom = receiverWindow.desiredSignal.firstArrivalAt
  observedUntil : query.observedUntil = receiverWindow.desiredSignal.lastEffectEndAt
  lower : query.lowerFrequencyHz = receiverWindow.desiredSignal.lowerFrequencyHz
  upper : query.upperFrequencyHz = receiverWindow.desiredSignal.upperFrequencyHz

/-- The noise of a signal can be queried at a position. -/
structure NoiseQuery.Accepts [DoubleArithmetic] (desired : ReceivedSignal)
    (receiverPosition : Position3d) : Prop where
  position : positionIsFinite receiverPosition = true
  edges : isfinite desired.lowerFrequencyHz = true ∧ isfinite desired.upperFrequencyHz = true
  interval : desired.firstArrivalAt < desired.lastEffectEndAt
  lower_nonneg : 0 ≤ desired.lowerFrequencyHz

lemma NoiseQuery.accepts_iff {desired : ReceivedSignal} {receiverPosition : Position3d} :
    NoiseQuery.Accepts desired receiverPosition ↔
      desired.firstArrivalAt < desired.lastEffectEndAt ∧ 0 ≤ desired.lowerFrequencyHz :=
  ⟨fun h => ⟨h.interval, h.lower_nonneg⟩, fun h => ⟨rfl, ⟨rfl, rfl⟩, h.1, h.2⟩⟩

lemma createNoiseQueryForDesiredSignal_cases [DoubleArithmetic] (receiverWindow : ReceiverWindow)
    (receiverPosition : Position3d) :
    (NoiseQuery.Accepts receiverWindow.desiredSignal receiverPosition ∧
      ∃ query, createNoiseQueryForDesiredSignal receiverWindow receiverPosition = .ok query ∧
        query.IsFor receiverWindow receiverPosition) ∨
    (¬ NoiseQuery.Accepts receiverWindow.desiredSignal receiverPosition ∧
      ∃ e, createNoiseQueryForDesiredSignal receiverWindow receiverPosition = .error e) := by
  unfold createNoiseQueryForDesiredSignal NoiseQuery.create
  have hband := receiverWindow.desiredSignal.lowerFrequencyHz_lt_upperFrequencyHz
  set desired := receiverWindow.desiredSignal
  by_cases hfinite : positionIsFinite receiverPosition = true ∧
      isfinite desired.lowerFrequencyHz = true ∧ isfinite desired.upperFrequencyHz = true
  swap
  · refine Or.inr ⟨fun h => hfinite ⟨h.position, h.edges⟩, _, if_pos ?_⟩
    simp only [positionIsFinite, Bool.and_eq_true] at hfinite
    simp only [Bool.or_eq_true, Bool.not_eq_true']
    grind
  obtain ⟨hposition, hlower, hupper⟩ := hfinite
  have hcoordinates := hposition
  simp only [positionIsFinite, Bool.and_eq_true] at hcoordinates
  rw [if_neg (by simp [hcoordinates, hlower, hupper])]
  by_cases ht : desired.lastEffectEndAt ≤ desired.firstArrivalAt
  · exact Or.inr ⟨fun h => absurd h.interval (not_lt.mpr ht), _, dif_pos ht⟩
  rw [dif_neg ht]
  by_cases hl : desired.lowerFrequencyHz < 0
  · exact Or.inr ⟨fun h => absurd h.lower_nonneg (not_le.mpr hl), _, dif_pos (Or.inl hl)⟩
  · exact Or.inl ⟨⟨hposition, ⟨hlower, hupper⟩, not_le.mp ht, not_lt.mp hl⟩, _,
      dif_neg (not_or.mpr ⟨hl, not_le.mpr hband⟩), rfl, rfl, rfl, rfl, rfl, rfl⟩

lemma createNoiseQueryForDesiredSignal_isFor [DoubleArithmetic] {receiverWindow : ReceiverWindow}
    {receiverPosition : Position3d} {query : NoiseQuery}
    (h : createNoiseQueryForDesiredSignal receiverWindow receiverPosition = .ok query) :
    query.IsFor receiverWindow receiverPosition := by
  rcases createNoiseQueryForDesiredSignal_cases receiverWindow receiverPosition with
    ⟨-, query', hquery, hfor⟩ | ⟨-, e, herr⟩
  · obtain rfl := Except.ok.inj (h.symm.trans hquery)
    exact hfor
  · rw [h] at herr
    cases herr

/-! ### Decoding -/

structure RxDecodeRequest where
  receiverWindow : ReceiverWindow
  noiseObservation : NoiseObservation

/-- `RxDecodeRequest::Create`. -/
def RxDecodeRequest.create (receiverWindow : ReceiverWindow)
    (noiseObservation : NoiseObservation) : Result RxDecodeRequest :=
  let desired := receiverWindow.desiredSignal
  if desired.lastEffectEndAt ≤ desired.firstArrivalAt then
    .error ⟨.kFailedPrecondition, "RxDecodeRequest desired signal interval has zero width"⟩
  else if noiseObservation.receiverNodeId ≠ receiverWindow.receiverNodeId ∨
      noiseObservation.observedFrom ≠ desired.firstArrivalAt ∨
      noiseObservation.observedUntil ≠ desired.lastEffectEndAt ∨
      noiseObservation.lowerFrequencyHz ≠ desired.lowerFrequencyHz ∨
      noiseObservation.upperFrequencyHz ≠ desired.upperFrequencyHz then
    .error ⟨.kFailedPrecondition,
      "RxDecodeRequest noise provenance does not match desired signal"⟩
  else .ok ⟨receiverWindow, noiseObservation⟩

inductive DecodeOutcome
  | kDecoded | kNotDecoded
  deriving DecidableEq

/-- An `RxDecodeResult`; the enumeration leaves `Create` nothing to refuse. -/
structure RxDecodeResult where
  transmissionId : TransmissionId
  packetId : PacketId
  receiverNodeId : NodeId
  outcome : DecodeOutcome
  deriving DecidableEq

def validateRxDecodeResultIdentity (request : RxDecodeRequest) (result : RxDecodeResult) :
    Status :=
  let desired := request.receiverWindow.desiredSignal
  if result.transmissionId ≠ desired.transmissionId ∨
      result.packetId ≠ desired.emission.packetId ∨
      result.receiverNodeId ≠ request.receiverWindow.receiverNodeId then
    .error ⟨.kFailedPrecondition, "RxDecodeResult identity does not match desired signal"⟩
  else .ok ()

lemma validateRxDecodeResultIdentity_ok {request : RxDecodeRequest} {result : RxDecodeResult} :
    validateRxDecodeResultIdentity request result = .ok () ↔
      result.transmissionId = request.receiverWindow.desiredSignal.transmissionId ∧
      result.packetId = request.receiverWindow.desiredSignal.emission.packetId ∧
      result.receiverNodeId = request.receiverWindow.receiverNodeId := by
  unfold validateRxDecodeResultIdentity
  dsimp only
  split_ifs with h
  · simp only [false_iff]; tauto
  · simp only [true_iff]; tauto

lemma RxDecodeRequest.create_of_validated {receiverWindow : ReceiverWindow}
    {receiverPosition : Position3d} {query : NoiseQuery} {observation : NoiseObservation}
    (hq : query.IsFor receiverWindow receiverPosition)
    (hv : validateNoiseObservationIdentity query observation = .ok ()) :
    RxDecodeRequest.create receiverWindow observation = .ok ⟨receiverWindow, observation⟩ := by
  rw [validateNoiseObservationIdentity_ok] at hv
  obtain ⟨h1, h2, h3, h4, h5⟩ := hv
  have hwidth : ¬ receiverWindow.desiredSignal.lastEffectEndAt ≤
      receiverWindow.desiredSignal.firstArrivalAt := by
    rw [← hq.observedFrom, ← hq.observedUntil, not_le]
    exact query.interval
  unfold RxDecodeRequest.create
  dsimp only
  rw [if_neg hwidth, if_neg]
  rw [← h1, ← h2, ← h3, ← h4, ← h5, hq.receiver, hq.observedFrom, hq.observedUntil, hq.lower,
    hq.upper]
  simp

/-- A completed reception, before it becomes part of a session. -/
structure Reception where
  receptionId : ReceptionId
  transmissionId : TransmissionId
  receiverNodeId : NodeId
  arrivalAt : SimTime
  deriving DecidableEq

end Ns3Factory
