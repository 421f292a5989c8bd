import Ns3Factory.State

/-!
The boundary to the channel: propagation paths, channel queries, and field responses.

A response keeps its paths sorted by excess delay, gain and phase, and a response with paths
has one of zero excess delay, the first.
-/

namespace Ns3Factory

open StdAlgorithm

structure PropagationPath where
  excessDelay : SimDuration
  pressureGainLinear : Double
  phaseRadians : Double
  excessDelay_nonneg : 0 ≤ excessDelay.nanoseconds
  pressureGain_nonneg : 0 ≤ pressureGainLinear
  deriving DecidableEq

namespace PropagationPath

/-- `PropagationPath::Create`. -/
def create [DoubleArithmetic] (excessDelay : SimDuration)
    (pressureGainLinear phaseRadians : Double) : Result PropagationPath :=
  if h : excessDelay.nanoseconds < 0 ∨ pressureGainLinear < 0 then
    .error ⟨.kOutOfRange,
      "PropagationPath excess delay and pressure gain must be non-negative"⟩
  else if !isfinite pressureGainLinear || !isfinite phaseRadians then
    .error ⟨.kInvalidArgument, "PropagationPath pressure gain and phase must be finite"⟩
  else
    .ok
      { excessDelay, pressureGainLinear, phaseRadians
        excessDelay_nonneg := not_lt.mp fun h' => h (Or.inl h')
        pressureGain_nonneg := not_lt.mp fun h' => h (Or.inr h') }

/-- The comparator of `ChannelFieldResponse::Create`. -/
def less (lhs rhs : PropagationPath) : Bool :=
  if lhs.excessDelay ≠ rhs.excessDelay then lhs.excessDelay < rhs.excessDelay
  else if lhs.pressureGainLinear ≠ rhs.pressureGainLinear then
    lhs.pressureGainLinear < rhs.pressureGainLinear
  else lhs.phaseRadians < rhs.phaseRadians

/-- What the comparator compares. -/
def order (p : PropagationPath) : SimDuration ×ₗ Double ×ₗ Double :=
  toLex (p.excessDelay, toLex (p.pressureGainLinear, p.phaseRadians))

lemma order_injective : Function.Injective order := by
  rintro ⟨d, g, p, _, _⟩ ⟨d', g', p', _, _⟩ h
  simpa [order] using h

theorem create_self (p : PropagationPath) :
    create p.excessDelay p.pressureGainLinear p.phaseRadians = .ok p := by
  have hd := p.excessDelay_nonneg
  have hg := p.pressureGain_nonneg
  unfold create
  rw [dif_neg (by rw [not_or, not_lt, not_lt]; exact ⟨hd, hg⟩)]
  simp

lemma less_iff (lhs rhs : PropagationPath) :
    less lhs rhs = true ↔ order lhs < order rhs := by
  unfold less order
  rw [Prod.Lex.toLex_lt_toLex, Prod.Lex.toLex_lt_toLex]
  split_ifs with h1 h2
  · simp [h1]
  · rw [not_not] at h1
    simp [h1, h2]
  · rw [not_not] at h1 h2
    simp [h1, h2]

end PropagationPath

structure ChannelQuery where
  transmissionId : TransmissionId
  senderNodeId : NodeId
  receiverNodeId : NodeId
  txPosition : Position3d
  rxPosition : Position3d
  emittedAt : SimTime
  centerFrequencyHz : Double
  bandwidthHz : Double
  centerFrequency_pos : 0 < centerFrequencyHz
  bandwidth_pos : 0 < bandwidthHz
  deriving DecidableEq

def positionIsFinite [DoubleArithmetic] (position : Position3d) : Bool :=
  isfinite position.xMeters && isfinite position.yMeters && isfinite position.zMeters

@[simp] lemma positionIsFinite_eq (position : Position3d) : positionIsFinite position = true :=
  rfl

/-- `ChannelQuery::Create`. -/
def ChannelQuery.create [DoubleArithmetic] (transmissionId : TransmissionId)
    (senderNodeId receiverNodeId : NodeId) (txPosition rxPosition : Position3d)
    (emittedAt : SimTime) (centerFrequencyHz bandwidthHz : Double) : Result ChannelQuery :=
  if !positionIsFinite txPosition || !positionIsFinite rxPosition ||
      !isfinite centerFrequencyHz || !isfinite bandwidthHz then
    .error ⟨.kInvalidArgument, "ChannelQuery positions and physical values must be finite"⟩
  else if h : centerFrequencyHz ≤ 0 ∨ bandwidthHz ≤ 0 then
    .error ⟨.kOutOfRange, "ChannelQuery frequency and bandwidth must be positive"⟩
  else
    .ok
      { transmissionId, senderNodeId, receiverNodeId, txPosition, rxPosition, emittedAt
        centerFrequencyHz, bandwidthHz
        centerFrequency_pos := not_le.mp fun h' => h (Or.inl h')
        bandwidth_pos := not_le.mp fun h' => h (Or.inr h') }

structure ChannelFieldResponse where
  transmissionId : TransmissionId
  receiverNodeId : NodeId
  aggregateTransmissionLossDb : Double
  firstArrivalDelay : SimDuration
  paths : List PropagationPath
  firstArrivalDelay_nonneg : 0 ≤ firstArrivalDelay.nanoseconds
  canonical : paths.Pairwise fun lhs rhs => lhs.order ≤ rhs.order
  zeroExcessDelay : ∀ p ∈ paths.head?, p.excessDelay = .zero
  deriving DecidableEq

/-- `ChannelFieldResponse::Create`. -/
def ChannelFieldResponse.create [DoubleArithmetic] (transmissionId : TransmissionId)
    (receiverNodeId : NodeId) (aggregateTransmissionLossDb : Double)
    (firstArrivalDelay : SimDuration) (paths : List PropagationPath) :
    Result ChannelFieldResponse :=
  if !isfinite aggregateTransmissionLossDb then
    .error ⟨.kInvalidArgument,
      "ChannelFieldResponse aggregate transmission loss must be finite"⟩
  else if hd : firstArrivalDelay.nanoseconds < 0 then
    .error ⟨.kOutOfRange, "ChannelFieldResponse first arrival delay must be non-negative"⟩
  else
    let sorted := sort PropagationPath.less paths
    if hz : sorted.head?.any fun front => front.excessDelay ≠ .zero then
      .error ⟨.kFailedPrecondition,
        "ChannelFieldResponse multipath must contain a zero-excess-delay path"⟩
    else
      .ok
        { transmissionId, receiverNodeId, aggregateTransmissionLossDb, firstArrivalDelay
          paths := sorted
          firstArrivalDelay_nonneg := SimDuration.nonneg_of_not_lt hd
          canonical := sort_pairwise PropagationPath.less_iff paths
          zeroExcessDelay := by
            intro p hp
            simp only [Option.mem_def] at hp
            simpa [hp] using hz }

namespace ChannelFieldResponse

/-- A sorted list of paths starts with a zero excess delay exactly when some path has one: no
path has less. -/
lemma head_sort_zero (paths : List PropagationPath) :
    (¬ (sort PropagationPath.less paths).head?.any fun front => front.excessDelay ≠ .zero) ↔
      paths = [] ∨ ∃ p ∈ paths, p.excessDelay = .zero := by
  have hp := sort_perm PropagationPath.less paths
  have hs := sort_pairwise PropagationPath.less_iff paths
  rcases hl : sort PropagationPath.less paths with _ | ⟨front, rest⟩ <;> rw [hl] at hp hs
  · simp [List.nil_perm.mp hp]
  have hne : paths ≠ [] := by
    rintro rfl
    simp at hp
  simp only [List.head?_cons, Option.any_some, decide_eq_true_eq, not_not, hne, false_or]
  constructor
  · exact fun h => ⟨front, hp.mem_iff.mp (by simp), h⟩
  · rintro ⟨p, hmem, hzero⟩
    have hle : front.excessDelay ≤ p.excessDelay := by
      rcases List.mem_cons.mp (hp.mem_iff.mpr hmem) with rfl | hrest
      · exact le_rfl
      · rcases Prod.Lex.toLex_le_toLex.mp ((List.pairwise_cons.mp hs).1 p hrest) with h | h
        · exact h.le
        · exact h.1.le
    exact le_antisymm (hzero ▸ hle) front.excessDelay_nonneg

variable {transmissionId : TransmissionId} {receiverNodeId : NodeId}
  {aggregateTransmissionLossDb : Double} {firstArrivalDelay : SimDuration}
  {paths : List PropagationPath}

lemma create_succeeds :
    (∃ r, create transmissionId receiverNodeId aggregateTransmissionLossDb firstArrivalDelay
      paths = .ok r) ↔
      0 ≤ firstArrivalDelay.nanoseconds ∧
        (paths = [] ∨ ∃ p ∈ paths, p.excessDelay = .zero) := by
  rw [← head_sort_zero]
  unfold create
  simp only [isfinite_eq, Bool.not_true, Bool.false_eq_true, if_false]
  split_ifs with hd hz
  · simp [hd]
  · simp only [exists_false, false_iff, not_and, not_not]
    exact fun _ => hz
  · exact ⟨fun _ => ⟨not_lt.mp hd, hz⟩, fun _ => ⟨_, rfl⟩⟩

lemma create_ok {r : ChannelFieldResponse}
    (h : create transmissionId receiverNodeId aggregateTransmissionLossDb firstArrivalDelay
      paths = .ok r) :
    r.transmissionId = transmissionId ∧ r.receiverNodeId = receiverNodeId ∧
      r.aggregateTransmissionLossDb = aggregateTransmissionLossDb ∧
      r.firstArrivalDelay = firstArrivalDelay ∧
      r.paths = sort PropagationPath.less paths := by
  unfold create at h
  simp only [isfinite_eq, Bool.not_true, Bool.false_eq_true, if_false] at h
  split_ifs at h
  cases h
  exact ⟨rfl, rfl, rfl, rfl, rfl⟩

lemma eq_of_members {r r' : ChannelFieldResponse} (ht : r.transmissionId = r'.transmissionId)
    (hr : r.receiverNodeId = r'.receiverNodeId)
    (hl : r.aggregateTransmissionLossDb = r'.aggregateTransmissionLossDb)
    (hd : r.firstArrivalDelay = r'.firstArrivalDelay) (hp : r.paths = r'.paths) : r = r' := by
  cases r
  cases r'
  simp_all

lemma create_eq_iff {other : List PropagationPath} {r r' : ChannelFieldResponse}
    (h : create transmissionId receiverNodeId aggregateTransmissionLossDb firstArrivalDelay
      paths = .ok r)
    (h' : create transmissionId receiverNodeId aggregateTransmissionLossDb firstArrivalDelay
      other = .ok r') : r = r' ↔ other.Perm paths := by
  obtain ⟨rfl, rfl, rfl, rfl, hp⟩ := create_ok h
  obtain ⟨ht, hr, hl, hd, hp'⟩ := create_ok h'
  have hlists : r.paths = r'.paths ↔ paths.Perm other := by
    rw [hp, hp', sort_eq_sort_iff PropagationPath.less_iff PropagationPath.order_injective]
  rw [List.perm_comm, ← hlists]
  constructor
  · exact congrArg ChannelFieldResponse.paths
  · exact eq_of_members ht.symm hr.symm hl.symm hd.symm

theorem create_self (r : ChannelFieldResponse) :
    create r.transmissionId r.receiverNodeId r.aggregateTransmissionLossDb r.firstArrivalDelay
      r.paths = .ok r := by
  have hsorted : r.paths = sort PropagationPath.less r.paths := by
    refine eq_sort_of_perm PropagationPath.less_iff
      (fun _ _ _ _ e => PropagationPath.order_injective e) (List.Perm.refl _) ?_
    exact r.canonical.imp fun {p q} hle => (less_eq_false PropagationPath.less_iff p q).mpr hle
  have hzero : r.paths = [] ∨ ∃ p ∈ r.paths, p.excessDelay = .zero := by
    rcases hp : r.paths with _ | ⟨front, rest⟩
    · exact Or.inl rfl
    · exact Or.inr ⟨front, by simp, r.zeroExcessDelay front (by simp [hp])⟩
  obtain ⟨r', hr'⟩ := create_succeeds.mpr ⟨r.firstArrivalDelay_nonneg, hzero⟩
  obtain ⟨ht, hr, hl, hd, hp⟩ := create_ok hr'
  rw [hr', eq_of_members ht hr hl hd (hp.trans hsorted.symm)]

/-- **Multipath responses have a canonical form.** A response is built exactly when the delay
is not negative and the list is empty or has a path of zero excess delay; it keeps the paths in
the order of the comparator, the one list any sorting of them yields, with a path of zero excess
delay first; and it tells two lists apart exactly when neither is a permutation of the other. -/
theorem multipath_canonical (transmissionId : TransmissionId) (receiverNodeId : NodeId)
    (aggregateTransmissionLossDb : Double) (firstArrivalDelay : SimDuration)
    (paths : List PropagationPath) :
    ((∃ r, create transmissionId receiverNodeId aggregateTransmissionLossDb firstArrivalDelay
      paths = .ok r) ↔
      0 ≤ firstArrivalDelay.nanoseconds ∧
        (paths = [] ∨ ∃ p ∈ paths, p.excessDelay = .zero)) ∧
    (∀ r, create transmissionId receiverNodeId aggregateTransmissionLossDb firstArrivalDelay
      paths = .ok r →
      r.paths.Perm paths ∧ r.paths.Pairwise (fun p q => p.order ≤ q.order) ∧
      (∀ p ∈ r.paths.head?, p.excessDelay = .zero) ∧
      ∀ sorted : List PropagationPath, sorted.Perm paths →
        sorted.Pairwise (fun p q => PropagationPath.less q p = false) → sorted = r.paths) ∧
    ∀ (other : List PropagationPath) (r r' : ChannelFieldResponse),
      create transmissionId receiverNodeId aggregateTransmissionLossDb firstArrivalDelay
        paths = .ok r →
      create transmissionId receiverNodeId aggregateTransmissionLossDb firstArrivalDelay
        other = .ok r' → (r = r' ↔ other.Perm paths) := by
  refine ⟨create_succeeds, fun r hr => ?_, fun other r r' => create_eq_iff⟩
  obtain ⟨-, -, -, -, hp⟩ := create_ok hr
  refine ⟨hp ▸ sort_perm _ _, r.canonical, r.zeroExcessDelay, fun sorted hperm hs => ?_⟩
  rw [hp]
  exact eq_sort_of_perm PropagationPath.less_iff
    (fun _ _ _ _ e => PropagationPath.order_injective e) hperm hs

end ChannelFieldResponse

def validateChannelFieldResponseIdentity (query : ChannelQuery)
    (response : ChannelFieldResponse) : Status :=
  if query.transmissionId ≠ response.transmissionId ∨
      query.receiverNodeId ≠ response.receiverNodeId then
    .error ⟨.kFailedPrecondition,
      "ChannelFieldResponse identity does not match ChannelQuery"⟩
  else .ok ()

lemma validateChannelFieldResponseIdentity_ok {query : ChannelQuery}
    {response : ChannelFieldResponse} :
    validateChannelFieldResponseIdentity query response = .ok () ↔
      query.transmissionId = response.transmissionId ∧
      query.receiverNodeId = response.receiverNodeId := by
  unfold validateChannelFieldResponseIdentity
  split_ifs with h
  · simp only [false_iff]; tauto
  · simp only [true_iff]; tauto

end Ns3Factory
