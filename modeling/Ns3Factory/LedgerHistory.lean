import Ns3Factory.InFlightSignalLedger
import Ns3Factory.Transition

/-!
Sequences of `Insert` calls on an empty ledger.

What a ledger holds is what its calls accepted: the trace says it, and the order of the calls
does not. Uniqueness is over the receiver and the transmission, while the list ascends in the
receiver, the first arrival and the transmission.
-/

namespace Ns3Factory

open StdAlgorithm Transition
open scoped List

namespace InFlightSignalLedger

/-- The calls on an empty ledger, what they returned, and the ledger they leave. -/
def insertAll (signals : List ReceivedSignal) :
    List (ReceivedSignal × Status) × InFlightSignalLedger :=
  exec insert empty signals

/-- The signals the calls of a trace accepted, in order. -/
def accepted (trace : List (ReceivedSignal × Status)) : List ReceivedSignal :=
  (trace.filter fun call => Result.succeeded call.2).map Prod.fst

lemma insertAll_concat (signals : List ReceivedSignal) (signal : ReceivedSignal) :
    insertAll (signals ++ [signal]) =
      ((insertAll signals).1 ++ [(signal, ((insertAll signals).2.insert signal).1)],
        ((insertAll signals).2.insert signal).2) := by
  rw [insertAll, exec_append]
  rfl

lemma accepted_append (trace rest : List (ReceivedSignal × Status)) :
    accepted (trace ++ rest) = accepted trace ++ accepted rest := by
  simp [accepted]

lemma accepted_ok (signal : ReceivedSignal) : accepted [(signal, .ok ())] = [signal] := rfl

lemma accepted_error (signal : ReceivedSignal) (e : Error) :
    accepted [(signal, .error e)] = [] := rfl

/-! ### What is held -/

lemma signals_perm_accepted (signals : List ReceivedSignal) :
    (insertAll signals).2.signals.Perm (accepted (insertAll signals).1) := by
  refine exec_invariant insert (A := fun _ => True)
    (P := fun trace ledger => ledger.signals.Perm (accepted trace)) ?_ (List.Perm.refl _)
    fun _ _ => trivial
  intro trace ledger signal h _
  rw [accepted_append]
  rcases ledger.insert_cases signal with ⟨-, next, hok, hp⟩ | ⟨-, e, herr⟩
  · rw [hok, accepted_ok]
    calc next.signals
        _ ~ signal :: ledger.signals := hp
        _ ~ signal :: accepted trace := h.cons signal
        _ ~ accepted trace ++ [signal] := (List.perm_append_singleton _ _).symm
  · rw [herr, accepted_error, List.append_nil]
    exact h

lemma accepted_of_distinct {signals : List ReceivedSignal}
    (h : signals.Pairwise fun s s' => ¬ samePair s s') :
    accepted (insertAll signals).1 = signals := by
  induction signals using List.reverseRecOn with
  | nil => rfl
  | append_singleton signals signal ih =>
    obtain ⟨hinit, -, hlast⟩ := List.pairwise_append.mp h
    have hheld := signals_perm_accepted signals
    rw [ih hinit] at hheld
    rw [insertAll_concat, accepted_append, ih hinit]
    rcases (insertAll signals).2.insert_cases signal with
      ⟨-, next, hok, -⟩ | ⟨⟨s, hs, hsame⟩, -⟩
    · rw [hok, accepted_ok]
    · exact absurd hsame (hlast s (hheld.mem_iff.mp hs) signal (by simp))

lemma signals_perm {signals : List ReceivedSignal}
    (h : signals.Pairwise fun s s' => ¬ samePair s s') :
    (insertAll signals).2.signals ~ signals := by
  have hheld := signals_perm_accepted signals
  rwa [accepted_of_distinct h] at hheld

theorem insertAll_signals (ledger : InFlightSignalLedger) :
    (insertAll ledger.signals).2 = ledger :=
  eq_of_perm (signals_perm ledger.distinct)

lemma signalsForReceiver_ascending (ledger : InFlightSignalLedger) (receiverNodeId : NodeId) :
    Ascending windowOrder (ledger.signalsForReceiver receiverNodeId) := by
  rw [signalsForReceiver_eq]
  refine (ledger.canonical.filter _).imp_of_mem fun {s t} hs ht hlt => ?_
  have hreceiver : s.receiverNodeId = t.receiverNodeId := by
    have hs' := (List.mem_filter.mp hs).2
    have ht' := (List.mem_filter.mp ht).2
    rw [of_decide_eq_true hs', of_decide_eq_true ht']
  rcases Prod.Lex.toLex_lt_toLex.mp hlt with h | h
  · exact absurd hreceiver h.ne
  · exact h.2

/-- **The ledger is an ordered map.** After any sequence of `Insert` calls: the next call is
rejected exactly when a signal of its receiver and transmission was accepted before, and then
changes nothing; the list ascends strictly and holds every accepted signal once; a receiver's
signals are the accepted ones for it, in the order of arrival; a signal is contained exactly
when it was accepted. Distinct signals give one ledger in whatever order they are inserted. -/
theorem ledger_ordered_map (signals : List ReceivedSignal) :
    let ledger := (insertAll signals).2
    let before := accepted (insertAll signals).1
    (∀ signal,
      ((∃ e, (ledger.insert signal).1 = .error e) ↔ ∃ s ∈ before,
        s.receiverNodeId = signal.receiverNodeId ∧ s.transmissionId = signal.transmissionId) ∧
      ∀ e, (ledger.insert signal).1 = .error e → (ledger.insert signal).2 = ledger) ∧
    Ascending canonicalOrder ledger.signals ∧ ledger.signals.Perm before ∧ before.Nodup ∧
    (∀ receiverNodeId,
      (ledger.signalsForReceiver receiverNodeId).Perm
        (before.filter fun s => s.receiverNodeId = receiverNodeId) ∧
      Ascending windowOrder (ledger.signalsForReceiver receiverNodeId)) ∧
    (∀ signal, ledger.contains signal = true ↔ signal ∈ before) ∧
    ∀ permuted : List ReceivedSignal, permuted.Perm signals →
      signals.Pairwise (fun s s' => s.receiverNodeId ≠ s'.receiverNodeId ∨
        s.transmissionId ≠ s'.transmissionId) → (insertAll permuted).2 = ledger := by
  intro ledger before
  have hheld : ledger.signals.Perm before := signals_perm_accepted signals
  refine ⟨fun signal => ?_, ledger.canonical, hheld,
    hheld.nodup_iff.mp ledger.canonical.nodup, fun receiverNodeId => ⟨?_, ?_⟩, fun signal => ?_,
    fun permuted hp hdistinct => ?_⟩
  · simp only [← samePair_iff, ← hheld.mem_iff]
    rcases ledger.insert_cases signal with ⟨hnew, next, hok, -⟩ | ⟨hsame, e, herr⟩
    · rw [hok]
      simpa using hnew
    · rw [herr]
      exact ⟨⟨fun _ => hsame, fun _ => ⟨e, rfl⟩⟩, fun _ _ => rfl⟩
  · rw [signalsForReceiver_eq]
    exact hheld.filter _
  · exact ledger.signalsForReceiver_ascending receiverNodeId
  · rw [contains_iff, hheld.mem_iff]
  · have hpairs : signals.Pairwise fun s s' => ¬ samePair s s' := by
      refine hdistinct.imp fun {s s'} hne hsame => ?_
      obtain ⟨hreceiver, hid⟩ := samePair_iff.mp hsame
      exact hne.elim (fun h => h hreceiver) fun h => h hid
    exact eq_of_perm (calc (insertAll permuted).2.signals
      _ ~ permuted := signals_perm (hpairs.perm hp.symm fun {_ _} hne => samePair_symm hne)
      _ ~ signals := hp
      _ ~ ledger.signals := (signals_perm hpairs).symm)

end InFlightSignalLedger

end Ns3Factory
