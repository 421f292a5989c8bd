import Ns3Factory.ReceivedSignal

/-!
The ledger of signals in flight, and the windows built from it.

The ledger holds at most one signal for a receiver and a transmission, in the order of
receiver, first arrival and transmission. The window of a signal in the ledger lists the
other signals of the ledger that overlap it.
-/

namespace Ns3Factory

open StdAlgorithm

/-- Both signals are of one transmission at one receiver. -/
def samePair (lhs rhs : ReceivedSignal) : Bool :=
  lhs.receiverNodeId = rhs.receiverNodeId && lhs.transmissionId = rhs.transmissionId

lemma samePair_iff {lhs rhs : ReceivedSignal} :
    samePair lhs rhs = true ↔
      lhs.receiverNodeId = rhs.receiverNodeId ∧ lhs.transmissionId = rhs.transmissionId := by
  simp [samePair]

lemma samePair_symm {lhs rhs : ReceivedSignal} (h : ¬ samePair lhs rhs) :
    ¬ samePair rhs lhs := fun h' => h (samePair_iff.mpr
      ⟨(samePair_iff.mp h').1.symm, (samePair_iff.mp h').2.symm⟩)

/-- `InFlightSignalLedger::CanonicalLess`. -/
def canonicalLess (lhs rhs : ReceivedSignal) : Bool :=
  if lhs.receiverNodeId ≠ rhs.receiverNodeId then lhs.receiverNodeId < rhs.receiverNodeId
  else if lhs.firstArrivalAt ≠ rhs.firstArrivalAt then lhs.firstArrivalAt < rhs.firstArrivalAt
  else lhs.transmissionId < rhs.transmissionId

/-- What the comparator compares. -/
def canonicalOrder (s : ReceivedSignal) : NodeId ×ₗ SimTime ×ₗ TransmissionId :=
  toLex (s.receiverNodeId, toLex (s.firstArrivalAt, s.transmissionId))

lemma canonicalLess_iff (lhs rhs : ReceivedSignal) :
    canonicalLess lhs rhs = true ↔ canonicalOrder lhs < canonicalOrder rhs := by
  unfold canonicalLess canonicalOrder
  rw [Prod.Lex.toLex_lt_toLex, Prod.Lex.toLex_lt_toLex]
  split_ifs with h1 h2
  · simp [h1]
  · rw [not_not] at h1
    simp [h1, h2]
  · rw [not_not] at h1 h2
    simp [h1, h2]

lemma canonicalOrder_ne {signals : List ReceivedSignal}
    (h : signals.Pairwise fun s s' => ¬ samePair s s') :
    signals.Pairwise fun s s' => canonicalOrder s ≠ canonicalOrder s' :=
  h.imp fun {a b} hne heq => hne (by
    have h1 := congrArg (fun k => (ofLex k).1) heq
    have h2 := congrArg (fun k => (ofLex (ofLex k).2).2) heq
    exact samePair_iff.mpr ⟨h1, h2⟩)

structure InFlightSignalLedger where
  signals : List ReceivedSignal
  canonical : Ascending canonicalOrder signals
  distinct : signals.Pairwise fun s s' => ¬ samePair s s'

namespace InFlightSignalLedger

/-- A ledger without signals, as it is created and cleared. -/
def empty : InFlightSignalLedger := ⟨[], List.Pairwise.nil, List.Pairwise.nil⟩

@[simp] lemma signals_empty : empty.signals = [] := rfl

lemma distinct_insert {ledger : InFlightSignalLedger} {signal : ReceivedSignal}
    (h : (ledger.signals.any fun existing => samePair existing signal) = false) :
    (ledger.signals ++ [signal]).Pairwise fun s s' => ¬ samePair s s' := by
  refine List.pairwise_append.mpr ⟨ledger.distinct, by simp, fun s hs s' hs' => ?_⟩
  rw [List.mem_singleton.mp hs']
  simpa using List.any_eq_false.mp h s hs

/-- `InFlightSignalLedger::Insert`. -/
def insert (ledger : InFlightSignalLedger) (signal : ReceivedSignal) :
    Status × InFlightSignalLedger :=
  match h : ledger.signals.any fun existing => samePair existing signal with
  | true =>
    (.error ⟨.kAlreadyExists,
      "InFlightSignalLedger already contains this receiver/TransmissionId"⟩, ledger)
  | false =>
    (.ok (),
      { signals := sort canonicalLess (ledger.signals ++ [signal])
        canonical := sort_ascending canonicalLess_iff (canonicalOrder_ne (distinct_insert h))
        distinct := (distinct_insert h).perm (sort_perm _ _).symm fun {_ _} hne =>
          samePair_symm hne })

/-- `InFlightSignalLedger::SignalsForReceiver`. -/
def signalsForReceiver (ledger : InFlightSignalLedger) (receiverNodeId : NodeId) :
    List ReceivedSignal :=
  let fromFirst := (lowerBound (fun signal => signal.receiverNodeId < receiverNodeId)
    ledger.signals).2
  (upperBound (fun signal => receiverNodeId < signal.receiverNodeId) fromFirst).1

/-- `InFlightSignalLedger::Contains`. -/
def contains (ledger : InFlightSignalLedger) (signal : ReceivedSignal) : Bool :=
  match (ledger.signalsForReceiver signal.receiverNodeId).find? fun existing =>
      existing.transmissionId = signal.transmissionId with
  | some existing => existing = signal
  | none => false

/-- `InFlightSignalLedger::ValidateReadyForCycleClose`. -/
def validateReadyForCycleClose (ledger : InFlightSignalLedger) (closeTime : SimTime) : Status :=
  if ledger.signals.any fun signal => signal.lastEffectEndAt > closeTime then
    .error ⟨.kFailedPrecondition, "In-flight signal extends beyond cycle close"⟩
  else .ok ()

/-- `InFlightSignalLedger::ClearForCycleClose`. -/
def clearForCycleClose (_ : InFlightSignalLedger) : InFlightSignalLedger := empty

lemma insert_cases (ledger : InFlightSignalLedger) (signal : ReceivedSignal) :
    ((∀ s ∈ ledger.signals, ¬ samePair s signal) ∧
      ∃ next, ledger.insert signal = (.ok (), next) ∧
        next.signals.Perm (signal :: ledger.signals)) ∨
    ((∃ s ∈ ledger.signals, samePair s signal) ∧
      ∃ e, ledger.insert signal = (.error e, ledger)) := by
  unfold insert
  split
  · next h => exact Or.inr ⟨List.any_eq_true.mp h, _, rfl⟩
  · next h =>
    refine Or.inl ⟨fun s hs => by simpa using List.any_eq_false.mp h s hs, _, rfl, ?_⟩
    exact (sort_perm _ _).trans (List.perm_append_singleton _ _)

lemma exists_added {ledger : InFlightSignalLedger} {signal : ReceivedSignal}
    (h : ∀ s ∈ ledger.signals, ¬ samePair s signal) :
    ∃ next : InFlightSignalLedger, next.signals.Perm (signal :: ledger.signals) := by
  rcases ledger.insert_cases signal with ⟨-, next, -, hp⟩ | ⟨⟨s, hs, hsame⟩, -⟩
  · exact ⟨next, hp⟩
  · exact absurd hsame (h s hs)

lemma eq_of_perm {ledger ledger' : InFlightSignalLedger}
    (h : ledger.signals.Perm ledger'.signals) : ledger = ledger' := by
  obtain ⟨signals, canonical, distinct⟩ := ledger
  obtain ⟨signals', canonical', distinct'⟩ := ledger'
  obtain rfl : signals = signals' := canonical.eq_of_perm canonical' h
  rfl

lemma signalsForReceiver_eq (ledger : InFlightSignalLedger) (receiverNodeId : NodeId) :
    ledger.signalsForReceiver receiverNodeId =
      ledger.signals.filter fun s => s.receiverNodeId = receiverNodeId := by
  have hsorted : ledger.signals.Pairwise fun s s' => s.receiverNodeId ≤ s'.receiverNodeId := by
    refine ledger.canonical.imp fun {a b} hlt => ?_
    rcases Prod.Lex.toLex_lt_toLex.mp hlt with h | h
    · exact h.le
    · exact h.1.le
  unfold signalsForReceiver
  convert equalRange_eq_filter hsorted receiverNodeId

lemma eq_of_samePair {ledger : InFlightSignalLedger} {s t : ReceivedSignal}
    (hs : s ∈ ledger.signals) (ht : t ∈ ledger.signals)
    (hr : s.receiverNodeId = t.receiverNodeId) (hi : s.transmissionId = t.transmissionId) :
    s = t := by
  by_contra hne
  have : Std.Symm fun s s' : ReceivedSignal => ¬ samePair s s' :=
    ⟨fun _ _ hne => samePair_symm hne⟩
  exact ledger.distinct.forall hs ht hne (samePair_iff.mpr ⟨hr, hi⟩)

lemma contains_iff {ledger : InFlightSignalLedger} {signal : ReceivedSignal} :
    ledger.contains signal = true ↔ signal ∈ ledger.signals := by
  unfold contains
  rw [signalsForReceiver_eq]
  constructor
  · intro h
    split at h
    · next existing hfind =>
      have hmem := List.mem_of_find?_eq_some hfind
      rw [← of_decide_eq_true h]
      exact (List.mem_filter.mp hmem).1
    · cases h
  · intro h
    have hmem : signal ∈ ledger.signals.filter fun s =>
        s.receiverNodeId = signal.receiverNodeId := by simpa using h
    split
    · next existing hfind =>
      obtain ⟨hex, hrec⟩ := List.mem_filter.mp (List.mem_of_find?_eq_some hfind)
      have hid := List.find?_some hfind
      simp only [decide_eq_true_eq] at hrec hid ⊢
      exact eq_of_samePair hex h hrec hid
    · next hfind =>
      have := List.find?_eq_none.mp hfind signal hmem
      simp at this

lemma validateReadyForCycleClose_ok {ledger : InFlightSignalLedger} {closeTime : SimTime} :
    ledger.validateReadyForCycleClose closeTime = .ok () ↔
      ∀ s ∈ ledger.signals, s.lastEffectEndAt ≤ closeTime := by
  unfold validateReadyForCycleClose
  split_ifs with h
  · simp only [List.any_eq_true, decide_eq_true_eq] at h
    obtain ⟨s, hs, hlt⟩ := h
    simp only [false_iff, not_forall]
    exact ⟨s, hs, not_le.mpr hlt⟩
  · simpa using h

end InFlightSignalLedger

/-- `ReceiverWindowBuilder::Build`. -/
def ReceiverWindowBuilder.build (desiredSignal : ReceivedSignal)
    (ledger : InFlightSignalLedger) : Result ReceiverWindow :=
  if !ledger.contains desiredSignal then
    .error ⟨.kNotFound, "Desired signal is not present in the in-flight ledger"⟩
  else
    let overlappingSignals :=
      (ledger.signalsForReceiver desiredSignal.receiverNodeId).filter fun candidate =>
        candidate.transmissionId ≠ desiredSignal.transmissionId &&
          hasP0SignalOverlap desiredSignal candidate
    ReceiverWindow.create desiredSignal.receiverNodeId desiredSignal overlappingSignals

lemma mem_candidates {desiredSignal : ReceivedSignal} {ledger : InFlightSignalLedger}
    (h : desiredSignal ∈ ledger.signals) {t : ReceivedSignal} :
    (t ∈ (ledger.signalsForReceiver desiredSignal.receiverNodeId).filter fun candidate =>
      candidate.transmissionId ≠ desiredSignal.transmissionId &&
        hasP0SignalOverlap desiredSignal candidate) ↔
      t ∈ ledger.signals ∧ t ≠ desiredSignal ∧ Overlaps desiredSignal t := by
  rw [InFlightSignalLedger.signalsForReceiver_eq]
  simp only [List.mem_filter, Bool.and_eq_true, decide_eq_true_eq, hasP0SignalOverlap_iff]
  constructor
  · rintro ⟨⟨ht, -⟩, hid, ho⟩
    exact ⟨ht, fun heq => hid (by rw [heq]), ho⟩
  · rintro ⟨ht, hne, ho⟩
    refine ⟨⟨ht, ho.receiver⟩, fun hid => hne ?_, ho⟩
    exact InFlightSignalLedger.eq_of_samePair ht h ho.receiver hid

lemma ReceiverWindowBuilder.build_of_mem {desiredSignal : ReceivedSignal}
    {ledger : InFlightSignalLedger} (h : desiredSignal ∈ ledger.signals) :
    ∃ w, build desiredSignal ledger = .ok w ∧ w.desiredSignal = desiredSignal ∧
      w.receiverNodeId = desiredSignal.receiverNodeId ∧
      ∀ t, t ∈ w.overlappingSignals ↔
        t ∈ ledger.signals ∧ t ≠ desiredSignal ∧ Overlaps desiredSignal t := by
  have hcontains := InFlightSignalLedger.contains_iff.mpr h
  have hmem := fun t => mem_candidates h (t := t)
  have hnodup : (ledger.signalsForReceiver desiredSignal.receiverNodeId).Nodup := by
    rw [InFlightSignalLedger.signalsForReceiver_eq]
    exact ledger.canonical.nodup.filter _
  simp only [build, hcontains, Bool.not_true, Bool.false_eq_true, if_false]
  have hcandidates := hnodup.filter fun candidate : ReceivedSignal =>
    candidate.transmissionId ≠ desiredSignal.transmissionId &&
      hasP0SignalOverlap desiredSignal candidate
  generalize (ledger.signalsForReceiver desiredSignal.receiverNodeId).filter
    (fun candidate => candidate.transmissionId ≠ desiredSignal.transmissionId &&
      hasP0SignalOverlap desiredSignal candidate) = candidates at hmem hcandidates ⊢
  -- at one receiver the signals of the ledger differ in the transmission
  have hdistinct : ((desiredSignal :: candidates).map ReceivedSignal.transmissionId).Nodup := by
    rw [List.map_cons, List.nodup_cons]
    refine ⟨fun hin => ?_, hcandidates.map_on fun s hs t ht hid => ?_⟩
    · obtain ⟨t, ht, hid⟩ := List.mem_map.mp hin
      obtain ⟨hledger, hne, ho⟩ := (hmem t).mp ht
      exact hne (InFlightSignalLedger.eq_of_samePair hledger h ho.receiver hid)
    · obtain ⟨hs', -, hos⟩ := (hmem s).mp hs
      obtain ⟨ht', -, hot⟩ := (hmem t).mp ht
      exact InFlightSignalLedger.eq_of_samePair hs' ht' (hos.receiver.trans hot.receiver.symm) hid
  obtain ⟨w, hw⟩ := ReceiverWindow.create_succeeds.mpr
    ⟨rfl, fun s hs => ⟨((hmem s).mp hs).2.2.receiver, ((hmem s).mp hs).2.2⟩, hdistinct⟩
  obtain ⟨hr, hd, ho⟩ := ReceiverWindow.create_ok hw
  exact ⟨w, hw, hd, hr, fun t => by rw [ho, mem_sort, hmem]⟩

end Ns3Factory
