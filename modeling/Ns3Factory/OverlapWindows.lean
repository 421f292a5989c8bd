import Ns3Factory.InFlightSignalLedger

/-!
What windows of overlapping signals there are, and which the ledger yields.

`ReceiverWindow::Create` checks every signal against the desired one and against all before
it, so it accepts exactly the lists of overlapping signals with different transmissions, in
whatever order. The ledger holds a pair once, so a window built from it never fails there.
-/

namespace Ns3Factory

open StdAlgorithm

/-! ### Creating a window -/

namespace ReceiverWindow

variable {receiverNodeId : NodeId} {desiredSignal : ReceivedSignal}
  {overlappingSignals : List ReceivedSignal} {w w' : ReceiverWindow}

lemma eq_of_members (hr : w.receiverNodeId = w'.receiverNodeId)
    (hd : w.desiredSignal = w'.desiredSignal)
    (ho : w.overlappingSignals = w'.overlappingSignals) : w = w' := by
  cases w
  cases w'
  simp_all

lemma windowOrder_inj
    (h : ((desiredSignal :: overlappingSignals).map ReceivedSignal.transmissionId).Nodup) :
    ∀ s ∈ overlappingSignals, ∀ t ∈ overlappingSignals, windowOrder s = windowOrder t → s = t := by
  intro s hs t ht heq
  rw [List.map_cons, List.nodup_cons] at h
  exact List.inj_on_of_nodup_map h.2 hs ht
    (by simpa [windowOrder] using congrArg (fun k => (ofLex k).2) heq)

lemma create_perm {permuted : List ReceivedSignal} (hp : permuted.Perm overlappingSignals)
    (h : create receiverNodeId desiredSignal overlappingSignals = .ok w) :
    create receiverNodeId desiredSignal permuted = .ok w := by
  obtain ⟨hdesired, hall, hdistinct⟩ := create_succeeds.mp ⟨w, h⟩
  have hids := (hp.cons desiredSignal).map ReceivedSignal.transmissionId
  obtain ⟨w', hw'⟩ := create_succeeds.mpr
    ⟨hdesired, fun s hs => hall s (hp.mem_iff.mp hs), hids.nodup_iff.mpr hdistinct⟩
  obtain ⟨hr, hd, ho⟩ := create_ok h
  obtain ⟨hr', hd', ho'⟩ := create_ok hw'
  have hsorted : sort windowLess permuted = sort windowLess overlappingSignals :=
    eq_sort_of_perm windowLess_iff (windowOrder_inj hdistinct) ((sort_perm _ _).trans hp)
      (sort_pairwise_less windowLess_iff permuted)
  rw [hw', eq_of_members (hr'.trans hr.symm) (hd'.trans hd.symm)
    (ho'.trans (hsorted.trans ho.symm))]

/-- **Windows are the valid sets of overlaps, in canonical form.** `Create` accepts exactly the
lists of signals at the receiver that overlap the desired one, all of different transmissions;
it keeps them in the one order any sorting yields; and two permutations of a list give the same
window or both none. -/
theorem create_canonical (receiverNodeId : NodeId) (desiredSignal : ReceivedSignal)
    (overlappingSignals : List ReceivedSignal) :
    ((∃ w, create receiverNodeId desiredSignal overlappingSignals = .ok w) ↔
      desiredSignal.receiverNodeId = receiverNodeId ∧
      (∀ s ∈ overlappingSignals, s.receiverNodeId = receiverNodeId ∧ Overlaps desiredSignal s) ∧
      ((desiredSignal :: overlappingSignals).map ReceivedSignal.transmissionId).Nodup) ∧
    (∀ w, create receiverNodeId desiredSignal overlappingSignals = .ok w →
      w.receiverNodeId = receiverNodeId ∧ w.desiredSignal = desiredSignal ∧
      w.overlappingSignals.Perm overlappingSignals ∧
      Ascending windowOrder w.overlappingSignals ∧
      ∀ sorted : List ReceivedSignal, sorted.Perm overlappingSignals →
        sorted.Pairwise (fun s s' => windowLess s' s = false) → sorted = w.overlappingSignals) ∧
    ∀ permuted : List ReceivedSignal, permuted.Perm overlappingSignals →
      (∃ w, create receiverNodeId desiredSignal overlappingSignals = .ok w ∧
        create receiverNodeId desiredSignal permuted = .ok w) ∨
      (∃ e, create receiverNodeId desiredSignal overlappingSignals = .error e) ∧
        ∃ e, create receiverNodeId desiredSignal permuted = .error e := by
  refine ⟨create_succeeds, fun w hw => ?_, fun permuted hp => ?_⟩
  · obtain ⟨hr, hd, ho⟩ := create_ok hw
    obtain ⟨-, -, hdistinct⟩ := create_succeeds.mp ⟨w, hw⟩
    refine ⟨hr, hd, ho ▸ sort_perm _ _, w.ascending, fun sorted hperm hs => ?_⟩
    rw [ho]
    exact eq_sort_of_perm windowLess_iff (windowOrder_inj hdistinct) hperm hs
  · rcases h : create receiverNodeId desiredSignal overlappingSignals with e | w
    · refine Or.inr ⟨⟨e, rfl⟩, ?_⟩
      rcases h' : create receiverNodeId desiredSignal permuted with e' | w'
      · exact ⟨e', rfl⟩
      · rw [create_perm hp.symm h'] at h
        cases h
    · exact Or.inl ⟨w, rfl, create_perm hp h⟩

end ReceiverWindow

/-! ### The windows of a ledger -/

lemma Overlaps.iff_width {lhs rhs : ReceivedSignal} :
    Overlaps lhs rhs ↔ rhs.receiverNodeId = lhs.receiverNodeId ∧
      (∃ instant, instant ∈ Set.Ico lhs.firstArrivalAt lhs.lastEffectEndAt ∧
        instant ∈ Set.Ico rhs.firstArrivalAt rhs.lastEffectEndAt) ∧
      0 < min lhs.upperFrequencyHz rhs.upperFrequencyHz -
        max lhs.lowerFrequencyHz rhs.lowerFrequencyHz := by
  rw [sub_pos, ← Set.nonempty_Ioo, ← Set.Ioo_inter_Ioo]
  exact ⟨fun h => ⟨h.receiver, h.temporal, h.spectral⟩, fun h => ⟨h.1, h.2.1, h.2.2⟩⟩

lemma Overlaps.symm {lhs rhs : ReceivedSignal} (h : Overlaps lhs rhs) : Overlaps rhs lhs where
  receiver := h.receiver.symm
  temporal := Set.inter_comm _ _ ▸ h.temporal
  spectral := Set.inter_comm _ _ ▸ h.spectral

namespace ReceiverWindowBuilder

variable {desiredSignal : ReceivedSignal} {ledger : InFlightSignalLedger}

lemma build_of_not_mem (h : desiredSignal ∉ ledger.signals) :
    build desiredSignal ledger =
      .error ⟨.kNotFound, "Desired signal is not present in the in-flight ledger"⟩ := by
  have hcontains := mt InFlightSignalLedger.contains_iff.mp h
  exact if_pos (by simpa using hcontains)

lemma build_cases (desiredSignal : ReceivedSignal) (ledger : InFlightSignalLedger) :
    (desiredSignal ∈ ledger.signals ∧ ∃ w, build desiredSignal ledger = .ok w ∧
      w.desiredSignal = desiredSignal ∧ w.receiverNodeId = desiredSignal.receiverNodeId ∧
      ∀ t, t ∈ w.overlappingSignals ↔
        t ∈ ledger.signals ∧ t ≠ desiredSignal ∧ Overlaps desiredSignal t) ∨
    (desiredSignal ∉ ledger.signals ∧ build desiredSignal ledger =
      .error ⟨.kNotFound, "Desired signal is not present in the in-flight ledger"⟩) := by
  by_cases h : desiredSignal ∈ ledger.signals
  · exact Or.inl ⟨h, build_of_mem h⟩
  · exact Or.inr ⟨h, build_of_not_mem h⟩

/-- **Windows of a ledger are total, exact and symmetric.** A window is built exactly for the
signals of the ledger, and a failure is never one of `ReceiverWindow::Create`; it lists every
other signal of the ledger at the same receiver that shares an instant and a band of positive
width with the desired one, once, in the order of arrival; and of two signals of the ledger each
is in the window of the other or neither is. -/
theorem build_exact (ledger : InFlightSignalLedger) :
    (∀ desiredSignal,
      ((∃ w, build desiredSignal ledger = .ok w) ↔ desiredSignal ∈ ledger.signals) ∧
      (∀ e, build desiredSignal ledger = .error e →
        e = ⟨.kNotFound, "Desired signal is not present in the in-flight ledger"⟩) ∧
      ∀ w, build desiredSignal ledger = .ok w →
        w.receiverNodeId = desiredSignal.receiverNodeId ∧ w.desiredSignal = desiredSignal ∧
        (∀ t, t ∈ w.overlappingSignals ↔ t ∈ ledger.signals ∧ t ≠ desiredSignal ∧
          t.receiverNodeId = desiredSignal.receiverNodeId ∧
          (∃ instant,
            instant ∈ Set.Ico desiredSignal.firstArrivalAt desiredSignal.lastEffectEndAt ∧
            instant ∈ Set.Ico t.firstArrivalAt t.lastEffectEndAt) ∧
          0 < min desiredSignal.upperFrequencyHz t.upperFrequencyHz -
            max desiredSignal.lowerFrequencyHz t.lowerFrequencyHz) ∧
        w.overlappingSignals.Nodup ∧ Ascending windowOrder w.overlappingSignals) ∧
    ∀ a ∈ ledger.signals, ∀ b ∈ ledger.signals, ∃ wa wb,
      build a ledger = .ok wa ∧ build b ledger = .ok wb ∧
        (a ∈ wb.overlappingSignals ↔ b ∈ wa.overlappingSignals) := by
  refine ⟨fun desiredSignal => ?_, ?_⟩
  · rcases build_cases desiredSignal ledger with ⟨hmem, w, hw, hd, hr, hin⟩ | ⟨hmem, he⟩
    · simp only [hw, hmem, reduceCtorEq, false_implies, implies_true, Except.ok.injEq,
        exists_eq', forall_eq', true_and]
      refine ⟨hr, hd, fun t => ?_, w.ascending.nodup, w.ascending⟩
      rw [hin, Overlaps.iff_width]
    · simp [he, hmem]
  · intro a ha b hb
    obtain ⟨wa, hwa, -, -, hina⟩ := build_of_mem ha
    obtain ⟨wb, hwb, -, -, hinb⟩ := build_of_mem hb
    refine ⟨wa, wb, hwa, hwb, ?_⟩
    rw [hina, hinb]
    exact ⟨fun h => ⟨hb, h.2.1.symm, h.2.2.symm⟩, fun h => ⟨ha, h.2.1.symm, h.2.2.symm⟩⟩

end ReceiverWindowBuilder

end Ns3Factory
