import Ns3Factory.Channel
import Ns3Factory.TxPhy

/-!
One transmission's signal at one receiver, when two signals overlap, and the window of
signals around a desired one.

A signal is an emission with the channel response for a receiver, admitted when the times of
its influence `[firstArrivalAt, lastEffectEndAt)` are representable. A window lists signals
that overlap the desired one at its receiver, in the order of arrival.
-/

namespace Ns3Factory

open StdAlgorithm

/-- The latest excess delay of a path. -/
def latestExcessDelay (paths : List PropagationPath) : SimDuration :=
  paths.foldl (fun latest path => if latest < path.excessDelay then path.excessDelay else latest)
    .zero

/-- The largest excess delay in nanoseconds, 0 without paths. -/
def largestExcess (paths : List PropagationPath) : ℤ :=
  (paths.map fun path => path.excessDelay.nanoseconds).foldr max 0

lemma largestExcess_nonneg (paths : List PropagationPath) : 0 ≤ largestExcess paths := by
  unfold largestExcess
  induction paths with
  | nil => exact le_rfl
  | cons path rest ih => exact le_max_of_le_right ih

lemma foldl_latest (paths : List PropagationPath) (latest : SimDuration)
    (h : 0 ≤ latest.nanoseconds) :
    (paths.foldl (fun latest path =>
      if latest < path.excessDelay then path.excessDelay else latest) latest).nanoseconds =
      max latest.nanoseconds (largestExcess paths) := by
  induction paths generalizing latest with
  | nil => exact (max_eq_left h).symm
  | cons path rest ih =>
    have hstep : (if latest < path.excessDelay then path.excessDelay else latest).nanoseconds =
        max latest.nanoseconds path.excessDelay.nanoseconds := by
      split_ifs with hlt
      · have hle : latest.nanoseconds ≤ path.excessDelay.nanoseconds := hlt.le
        exact (max_eq_right hle).symm
      · have hle : path.excessDelay.nanoseconds ≤ latest.nanoseconds := not_lt.mp hlt
        exact (max_eq_left hle).symm
    rw [List.foldl_cons, ih _ (hstep ▸ le_max_of_le_left h), hstep, max_assoc]
    rfl

lemma latestExcessDelay_nanoseconds (paths : List PropagationPath) :
    (latestExcessDelay paths).nanoseconds = largestExcess paths :=
  (foldl_latest paths .zero le_rfl).trans (max_eq_right (largestExcess_nonneg paths))

lemma latestExcessDelay_nonneg (paths : List PropagationPath) :
    0 ≤ (latestExcessDelay paths).nanoseconds :=
  latestExcessDelay_nanoseconds paths ▸ largestExcess_nonneg paths

/-- When an emission first arrives, if the time is representable. -/
def firstArrivalTime (emission : TxEmission) (channelResponse : ChannelFieldResponse) :
    Option SimTime :=
  emission.startedAt.checkedAdd channelResponse.firstArrivalDelay

/-- When its influence ends, if all times up to that are representable. -/
def lastEffectEndTime (emission : TxEmission) (channelResponse : ChannelFieldResponse) :
    Option SimTime :=
  (firstArrivalTime emission channelResponse).bind fun firstArrivalAt =>
    (firstArrivalAt.checkedAdd (latestExcessDelay channelResponse.paths)).bind
      fun latestPathStart => latestPathStart.checkedAdd emission.duration

structure ReceivedSignal where
  emission : TxEmission
  channelResponse : ChannelFieldResponse
  identity : emission.transmissionId = channelResponse.transmissionId
  firstArrival : (firstArrivalTime emission channelResponse).isSome
  lastEffectEnd : (lastEffectEndTime emission channelResponse).isSome
  deriving DecidableEq

namespace ReceivedSignal

def transmissionId (s : ReceivedSignal) : TransmissionId := s.emission.transmissionId

def receiverNodeId (s : ReceivedSignal) : NodeId := s.channelResponse.receiverNodeId

def firstArrivalAt (s : ReceivedSignal) : SimTime :=
  (firstArrivalTime s.emission s.channelResponse).get s.firstArrival

def lastEffectEndAt (s : ReceivedSignal) : SimTime :=
  (lastEffectEndTime s.emission s.channelResponse).get s.lastEffectEnd

def lowerFrequencyHz (s : ReceivedSignal) : Double :=
  s.emission.centerFrequencyHz - s.emission.bandwidthHz / 2

def upperFrequencyHz (s : ReceivedSignal) : Double :=
  s.emission.centerFrequencyHz + s.emission.bandwidthHz / 2

/-- `ReceivedSignal::Create`. -/
def create [DoubleArithmetic] (emission : TxEmission) (channelResponse : ChannelFieldResponse) :
    Result ReceivedSignal :=
  if hid : emission.transmissionId ≠ channelResponse.transmissionId then
    .error ⟨.kFailedPrecondition, "TxEmission identity does not match ChannelFieldResponse"⟩
  else if hfirst : (firstArrivalTime emission channelResponse).isNone then
    .error ⟨.kOverflow, "ReceivedSignal first arrival time overflow"⟩
  else if hlast : (lastEffectEndTime emission channelResponse).isNone then
    .error ⟨.kOverflow, "ReceivedSignal physical influence time overflow"⟩
  else if !isfinite (emission.centerFrequencyHz - emission.bandwidthHz / 2) ||
      !isfinite (emission.centerFrequencyHz + emission.bandwidthHz / 2) then
    .error ⟨.kOverflow, "ReceivedSignal occupied frequency boundary is not finite"⟩
  else
    .ok
      { emission, channelResponse
        identity := not_not.mp hid
        firstArrival := Option.isSome_iff_ne_none.mpr (by simpa using hfirst)
        lastEffectEnd := Option.isSome_iff_ne_none.mpr (by simpa using hlast) }

lemma create_ok [DoubleArithmetic] {emission : TxEmission}
    {channelResponse : ChannelFieldResponse} {s : ReceivedSignal}
    (h : create emission channelResponse = .ok s) :
    s.emission = emission ∧ s.channelResponse = channelResponse := by
  unfold create at h
  split_ifs at h
  cases h
  exact ⟨rfl, rfl⟩

lemma edges_finite [DoubleArithmetic] {emission : TxEmission}
    {channelResponse : ChannelFieldResponse} {s : ReceivedSignal}
    (h : create emission channelResponse = .ok s) :
    isfinite s.lowerFrequencyHz = true ∧ isfinite s.upperFrequencyHz = true := by
  obtain ⟨rfl, rfl⟩ := create_ok h
  unfold create at h
  split_ifs at h with _ _ _ hfinite
  simpa [lowerFrequencyHz, upperFrequencyHz] using hfinite

lemma firstArrivalTime_eq (s : ReceivedSignal) :
    firstArrivalTime s.emission s.channelResponse = some s.firstArrivalAt :=
  (Option.some_get s.firstArrival).symm

lemma exists_latestPathStart (s : ReceivedSignal) :
    ∃ latestPathStart : SimTime,
      s.firstArrivalAt.checkedAdd (latestExcessDelay s.channelResponse.paths) =
        some latestPathStart ∧
      latestPathStart.checkedAdd s.emission.duration = some s.lastEffectEndAt := by
  have h : lastEffectEndTime s.emission s.channelResponse = some s.lastEffectEndAt :=
    (Option.some_get s.lastEffectEnd).symm
  rw [lastEffectEndTime, s.firstArrivalTime_eq, Option.bind_some] at h
  exact Option.bind_eq_some_iff.mp h

lemma firstArrivalAt_nanoseconds (s : ReceivedSignal) :
    s.firstArrivalAt.nanoseconds =
      s.emission.startedAt.nanoseconds + s.channelResponse.firstArrivalDelay.nanoseconds :=
  (SimTime.checkedAdd_eq_some.mp s.firstArrivalTime_eq).symm

lemma lastEffectEndAt_nanoseconds (s : ReceivedSignal) :
    s.lastEffectEndAt.nanoseconds = s.firstArrivalAt.nanoseconds +
      (latestExcessDelay s.channelResponse.paths).nanoseconds +
      s.emission.duration.nanoseconds := by
  obtain ⟨start, hstart, hend⟩ := s.exists_latestPathStart
  rw [SimTime.checkedAdd_eq_some] at hstart hend
  omega

lemma startedAt_le_firstArrivalAt (s : ReceivedSignal) :
    s.emission.startedAt ≤ s.firstArrivalAt := by
  have h1 := s.firstArrivalAt_nanoseconds
  have h2 := s.channelResponse.firstArrivalDelay_nonneg
  rw [SimTime.le_iff]; omega

lemma firstArrivalAt_lt_lastEffectEndAt {s : ReceivedSignal}
    (h : 0 < s.emission.duration.nanoseconds) : s.firstArrivalAt < s.lastEffectEndAt := by
  have h1 := s.lastEffectEndAt_nanoseconds
  have h2 := latestExcessDelay_nonneg s.channelResponse.paths
  rw [SimTime.lt_iff]; omega

lemma firstArrivalAt_le_lastEffectEndAt (s : ReceivedSignal) :
    s.firstArrivalAt ≤ s.lastEffectEndAt := by
  have h1 := s.lastEffectEndAt_nanoseconds
  have h2 := latestExcessDelay_nonneg s.channelResponse.paths
  have h3 := s.emission.duration_nonneg
  rw [SimTime.le_iff]; omega

lemma lowerFrequencyHz_lt_upperFrequencyHz (s : ReceivedSignal) :
    s.lowerFrequencyHz < s.upperFrequencyHz := by
  have h := s.emission.bandwidth_pos
  unfold lowerFrequencyHz upperFrequencyHz
  linarith

end ReceivedSignal

/-! ### Overlap -/

def hasTemporalOverlap (lhs rhs : ReceivedSignal) : Bool :=
  let overlapStart :=
    if lhs.firstArrivalAt < rhs.firstArrivalAt then rhs.firstArrivalAt else lhs.firstArrivalAt
  let overlapEnd :=
    if lhs.lastEffectEndAt < rhs.lastEffectEndAt then lhs.lastEffectEndAt
    else rhs.lastEffectEndAt
  overlapStart < overlapEnd

def hasSpectralOverlap (lhs rhs : ReceivedSignal) : Bool :=
  let overlapLower :=
    if lhs.lowerFrequencyHz < rhs.lowerFrequencyHz then rhs.lowerFrequencyHz
    else lhs.lowerFrequencyHz
  let overlapUpper :=
    if lhs.upperFrequencyHz < rhs.upperFrequencyHz then lhs.upperFrequencyHz
    else rhs.upperFrequencyHz
  overlapLower < overlapUpper

def hasP0SignalOverlap (lhs rhs : ReceivedSignal) : Bool :=
  lhs.receiverNodeId = rhs.receiverNodeId && hasTemporalOverlap lhs rhs &&
    hasSpectralOverlap lhs rhs

/-- Two signals overlap at one receiver: their influence intervals meet, and their bands meet
in more than a point. -/
structure Overlaps (lhs rhs : ReceivedSignal) : Prop where
  receiver : rhs.receiverNodeId = lhs.receiverNodeId
  temporal : (Set.Ico lhs.firstArrivalAt lhs.lastEffectEndAt ∩
    Set.Ico rhs.firstArrivalAt rhs.lastEffectEndAt).Nonempty
  spectral : (Set.Ioo lhs.lowerFrequencyHz lhs.upperFrequencyHz ∩
    Set.Ioo rhs.lowerFrequencyHz rhs.upperFrequencyHz).Nonempty

private lemma ite_lt_eq_max {α : Type*} [LinearOrder α] (a b : α) :
    (if a < b then b else a) = max a b := by
  split_ifs with h
  · exact (max_eq_right h.le).symm
  · exact (max_eq_left (not_lt.mp h)).symm

private lemma ite_lt_eq_min {α : Type*} [LinearOrder α] (a b : α) :
    (if a < b then a else b) = min a b := by
  split_ifs with h
  · exact (min_eq_left h.le).symm
  · exact (min_eq_right (not_lt.mp h)).symm

lemma hasP0SignalOverlap_iff {lhs rhs : ReceivedSignal} :
    hasP0SignalOverlap lhs rhs = true ↔ Overlaps lhs rhs := by
  have htime : hasTemporalOverlap lhs rhs = true ↔
      (Set.Ico lhs.firstArrivalAt lhs.lastEffectEndAt ∩
        Set.Ico rhs.firstArrivalAt rhs.lastEffectEndAt).Nonempty := by
    rw [Set.Ico_inter_Ico, Set.nonempty_Ico]
    simp only [hasTemporalOverlap, ite_lt_eq_max, ite_lt_eq_min, decide_eq_true_eq]
  have hband : hasSpectralOverlap lhs rhs = true ↔
      (Set.Ioo lhs.lowerFrequencyHz lhs.upperFrequencyHz ∩
        Set.Ioo rhs.lowerFrequencyHz rhs.upperFrequencyHz).Nonempty := by
    rw [Set.Ioo_inter_Ioo, Set.nonempty_Ioo]
    simp only [hasSpectralOverlap, ite_lt_eq_max, ite_lt_eq_min, decide_eq_true_eq]
  simp only [hasP0SignalOverlap, Bool.and_eq_true, decide_eq_true_eq, htime, hband]
  exact ⟨fun h => ⟨h.1.1.symm, h.1.2, h.2⟩, fun h => ⟨⟨h.receiver.symm, h.temporal⟩, h.spectral⟩⟩

lemma Overlaps.lt_end {lhs rhs : ReceivedSignal} (h : Overlaps lhs rhs) :
    rhs.firstArrivalAt < lhs.lastEffectEndAt := by
  obtain ⟨t, ht, ht'⟩ := h.temporal
  exact ht'.1.trans_lt ht.2

/-! ### Receiver windows -/

/-- The comparator of `ReceiverWindow::Create`. -/
def windowLess (lhs rhs : ReceivedSignal) : Bool :=
  if lhs.firstArrivalAt ≠ rhs.firstArrivalAt then lhs.firstArrivalAt < rhs.firstArrivalAt
  else lhs.transmissionId < rhs.transmissionId

/-- What the comparator compares. -/
def windowOrder (s : ReceivedSignal) : SimTime ×ₗ TransmissionId :=
  toLex (s.firstArrivalAt, s.transmissionId)

lemma windowLess_iff (lhs rhs : ReceivedSignal) :
    windowLess lhs rhs = true ↔ windowOrder lhs < windowOrder rhs := by
  unfold windowLess windowOrder
  rw [Prod.Lex.toLex_lt_toLex]
  split_ifs with h
  · simp [h]
  · rw [not_not] at h
    simp [h]

/-- The loop of `ReceiverWindow::Create`, which has passed `earlier`. -/
def checkOverlapping (receiverNodeId : NodeId) (desiredSignal : ReceivedSignal) :
    List ReceivedSignal → List ReceivedSignal → Status
  | _, [] => .ok ()
  | earlier, signal :: rest =>
    if signal.receiverNodeId ≠ receiverNodeId then
      .error ⟨.kFailedPrecondition, "ReceiverWindow overlapping signal has wrong receiver"⟩
    else if signal.transmissionId = desiredSignal.transmissionId then
      .error ⟨.kAlreadyExists, "ReceiverWindow desired TransmissionId appears in overlaps"⟩
    else if !hasP0SignalOverlap desiredSignal signal then
      .error ⟨.kFailedPrecondition, "ReceiverWindow signal does not overlap desired signal"⟩
    else if earlier.any fun e => e.transmissionId = signal.transmissionId then
      .error ⟨.kAlreadyExists, "ReceiverWindow contains duplicate TransmissionId"⟩
    else checkOverlapping receiverNodeId desiredSignal (earlier ++ [signal]) rest

lemma checkOverlapping_ok {receiverNodeId : NodeId} {desiredSignal : ReceivedSignal}
    {earlier signals : List ReceivedSignal} :
    checkOverlapping receiverNodeId desiredSignal earlier signals = .ok () ↔
      (∀ s ∈ signals, s.receiverNodeId = receiverNodeId ∧
        s.transmissionId ≠ desiredSignal.transmissionId ∧
        hasP0SignalOverlap desiredSignal s = true) ∧
      (∀ e ∈ earlier, ∀ s ∈ signals, e.transmissionId ≠ s.transmissionId) ∧
      signals.Pairwise fun s s' => s.transmissionId ≠ s'.transmissionId := by
  induction signals generalizing earlier with
  | nil => simp [checkOverlapping]
  | cons signal rest ih =>
    rw [checkOverlapping]
    split_ifs with h1 h2 h3 h4
    · simp [h1]
    · simp [h2]
    · have h3' : hasP0SignalOverlap desiredSignal signal = false := by simpa using h3
      simp [h3']
    · simp only [List.any_eq_true, decide_eq_true_eq] at h4
      obtain ⟨e, he, heq⟩ := h4
      simp only [false_iff, not_and]
      exact fun _ hne => absurd heq (hne e he signal (by simp))
    · have h4' : ∀ e ∈ earlier, e.transmissionId ≠ signal.transmissionId := by
        simpa using h4
      rw [ih]
      simp only [List.mem_cons, List.mem_append, List.pairwise_cons, forall_eq_or_imp,
        List.not_mem_nil, or_false]
      have h1' := not_not.mp h1
      have h3' : hasP0SignalOverlap desiredSignal signal = true := by simpa using h3
      constructor
      · rintro ⟨ha, hb, hc⟩
        exact ⟨⟨⟨h1', h2, h3'⟩, ha⟩, fun e he => ⟨h4' e he, hb e (Or.inl he)⟩,
          hb signal (Or.inr rfl), hc⟩
      · rintro ⟨⟨-, ha⟩, hb, hd, hc⟩
        refine ⟨ha, ?_, hc⟩
        rintro e (he | rfl)
        · exact (hb e he).2
        · exact hd

structure ReceiverWindow where
  receiverNodeId : NodeId
  desiredSignal : ReceivedSignal
  overlappingSignals : List ReceivedSignal
  receiver : receiverNodeId = desiredSignal.receiverNodeId
  overlaps : ∀ s ∈ overlappingSignals, s.receiverNodeId = receiverNodeId ∧
    s.transmissionId ≠ desiredSignal.transmissionId ∧ hasP0SignalOverlap desiredSignal s = true
  distinct : overlappingSignals.Pairwise fun s s' => s.transmissionId ≠ s'.transmissionId
  ascending : Ascending windowOrder overlappingSignals
  deriving DecidableEq

lemma windowOrder_ne {signals : List ReceivedSignal}
    (h : signals.Pairwise fun s s' => s.transmissionId ≠ s'.transmissionId) :
    signals.Pairwise fun s s' => windowOrder s ≠ windowOrder s' :=
  h.imp fun {a b} hne heq => hne (by simpa [windowOrder] using congrArg (fun k => (ofLex k).2) heq)

/-- `ReceiverWindow::Create`. -/
def ReceiverWindow.create (receiverNodeId : NodeId) (desiredSignal : ReceivedSignal)
    (overlappingSignals : List ReceivedSignal) : Result ReceiverWindow :=
  if hr : receiverNodeId ≠ desiredSignal.receiverNodeId then
    .error ⟨.kFailedPrecondition, "ReceiverWindow receiver does not match desired signal"⟩
  else
    match h : checkOverlapping receiverNodeId desiredSignal [] overlappingSignals with
    | .error e => .error e
    | .ok _ =>
      .ok
        { receiverNodeId, desiredSignal
          overlappingSignals := sort windowLess overlappingSignals
          receiver := not_not.mp hr
          overlaps := fun s hs => (checkOverlapping_ok.mp h).1 s (mem_sort.mp hs)
          distinct := (checkOverlapping_ok.mp h).2.2.perm (sort_perm _ _).symm
            fun {_ _} hne => hne.symm
          ascending := sort_ascending windowLess_iff
            (windowOrder_ne (checkOverlapping_ok.mp h).2.2) }

namespace ReceiverWindow

variable {receiverNodeId : NodeId} {desiredSignal : ReceivedSignal}
  {overlappingSignals : List ReceivedSignal}

lemma checkOverlapping_iff :
    checkOverlapping receiverNodeId desiredSignal [] overlappingSignals = .ok () ↔
      (∀ s ∈ overlappingSignals, s.receiverNodeId = receiverNodeId ∧ Overlaps desiredSignal s) ∧
      ((desiredSignal :: overlappingSignals).map ReceivedSignal.transmissionId).Nodup := by
  rw [checkOverlapping_ok, List.map_cons, List.nodup_cons, List.Nodup, List.pairwise_map]
  simp only [hasP0SignalOverlap_iff, List.mem_map, not_exists, not_and, List.not_mem_nil,
    false_implies, implies_true, true_and]
  constructor
  · rintro ⟨hall, hdistinct⟩
    exact ⟨fun s hs => ⟨(hall s hs).1, (hall s hs).2.2⟩, fun s hs => (hall s hs).2.1, hdistinct⟩
  · rintro ⟨hall, hdesired, hdistinct⟩
    exact ⟨fun s hs => ⟨(hall s hs).1, hdesired s hs, (hall s hs).2⟩, hdistinct⟩

lemma create_succeeds :
    (∃ w, create receiverNodeId desiredSignal overlappingSignals = .ok w) ↔
      desiredSignal.receiverNodeId = receiverNodeId ∧
      (∀ s ∈ overlappingSignals, s.receiverNodeId = receiverNodeId ∧ Overlaps desiredSignal s) ∧
      ((desiredSignal :: overlappingSignals).map ReceivedSignal.transmissionId).Nodup := by
  rw [← checkOverlapping_iff]
  unfold create
  split_ifs with hr
  · simp [Ne.symm hr]
  rw [not_not] at hr
  split
  · next e he => simp [he]
  · next he => exact ⟨fun _ => ⟨hr.symm, he⟩, fun _ => ⟨_, rfl⟩⟩

lemma create_ok {w : ReceiverWindow}
    (h : create receiverNodeId desiredSignal overlappingSignals = .ok w) :
    w.receiverNodeId = receiverNodeId ∧ w.desiredSignal = desiredSignal ∧
      w.overlappingSignals = sort windowLess overlappingSignals := by
  unfold create at h
  split_ifs at h
  split at h
  · cases h
  · cases h
    exact ⟨rfl, rfl, rfl⟩

end ReceiverWindow

end Ns3Factory
