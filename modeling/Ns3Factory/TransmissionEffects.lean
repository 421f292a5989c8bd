import Ns3Factory.TransmissionExecutor
import Ns3Factory.Transition

/-!
What sends leave behind, whether they succeed or fail.

A send that is not validated, or finds the ids exhausted, changes nothing. Any other takes the
next transmission id and encodes once; it queries the channel only for a good emission, in the
order of the receivers, and stops at the first answer that makes no signal.
-/

namespace Ns3Factory.TransmissionExecutor

open StdAlgorithm Transition

variable [DoubleArithmetic]

/-- A call of `ExecuteTransmission`. -/
structure Send where
  providers : Providers
  workingState : CycleWorkingState
  request : TransmissionExecutionRequest

def send (services : Services) (s : Send) : Result TransmissionSession × Services :=
  executeTransmission s.providers s.workingState s.request services

/-- All checks before the encoding have passed. -/
def Validated (s : Send) : Prop :=
  ∃ senderState receiverStates, Checked s.workingState s.request senderState receiverStates

/-- What a send does that takes an id. -/
structure Consumes (s : Send) (services : Services) (transmissionId : TransmissionId)
    (queries : List ChannelQuery) (last : Services) : Prop where
  id : services.ids.nextTransmissionId = (.ok transmissionId, last.ids)
  calls : last.calls = queried (encoded services.calls s.request.selectedPacket
    (encodeRequest s.request transmissionId)) queries
  candidates : queries.map ChannelQuery.receiverNodeId <+: sortedCandidates s.request
  ascending : (queries.map ChannelQuery.receiverNodeId).Pairwise (· < ·)
  emitted : queries ≠ [] → ∃ emission endedAt,
    Emitted s.providers s.request services transmissionId last.ids emission endedAt ∧
    ∀ before query after, queries = before ++ query :: after → after ≠ [] →
      ∃ signal, Answered s.providers emission
        (queried (encoded services.calls s.request.selectedPacket
          (encodeRequest s.request transmissionId)) before) query signal

lemma consumes_of_emitted {s : Send} {services : Services} {senderState : NodeCommittedState}
    {receiverStates : List NodeCommittedState} {transmissionId : TransmissionId}
    {ids : CommunicationIdAllocator} {emission : TxEmission} {endedAt : SimTime}
    (hchecked : Checked s.workingState s.request senderState receiverStates)
    (hemitted : Emitted s.providers s.request services transmissionId ids emission endedAt)
    {asked rest : List NodeCommittedState} {queries : List ChannelQuery}
    (hstates : receiverStates = asked ++ rest)
    (hasked : List.Forall₂ (IsQuery transmissionId s.request.opportunity.senderNodeId
      senderState.motion.position s.request.startedAt emission) asked queries)
    (hanswers : ∀ before query after, queries = before ++ query :: after → after ≠ [] →
      ∃ signal, Answered s.providers emission
        (queried (encoded services.calls s.request.selectedPacket
          (encodeRequest s.request transmissionId)) before) query signal) :
    Consumes s services transmissionId queries ⟨ids, queried (encoded services.calls
      s.request.selectedPacket (encodeRequest s.request transmissionId)) queries⟩ := by
  have hids := ids_of_receives hchecked.receivers
  have hsnd := congrArg (List.map Prod.snd) (map_query hasked)
  simp only [List.map_map, Function.comp_def] at hsnd
  have hprefix : queries.map ChannelQuery.receiverNodeId <+: sortedCandidates s.request := by
    rw [← hids, hstates, List.map_append]
    exact ⟨rest.map NodeCommittedState.nodeId, congrArg (· ++ _) hsnd⟩
  have hascending : Ascending id (sortedCandidates s.request) :=
    sort_ascending (by simp) hchecked.nodup
  exact ⟨hemitted.id, rfl, hprefix, List.Pairwise.sublist hprefix.sublist hascending,
    fun _ => ⟨emission, endedAt, hemitted, hanswers⟩⟩

lemma send_cases (services : Services) (s : Send) :
    (¬ Validated s ∧ ∃ e, send services s = (.error e, services)) ∨
    (Validated s ∧ services.ids.transmissionIdsExhausted = true ∧
      send services s =
        (.error ⟨.kOverflow, "TransmissionId allocation exhausted"⟩, services)) ∨
    (Validated s ∧ ∃ transmissionId queries result last, send services s = (result, last) ∧
      Consumes s services transmissionId queries last) := by
  unfold send
  rcases executeTransmission_cases s.providers s.workingState s.request services with
    ⟨senderState, receiverStates, hchecked, htransmit⟩ | ⟨hnot, e, herr⟩
  swap
  · exact Or.inl ⟨hnot, e, herr⟩
  have hvalid : Validated s := ⟨senderState, receiverStates, hchecked⟩
  rw [htransmit]
  rcases transmit_cases s.providers s.request senderState receiverStates services with
    ⟨hx, herr⟩ | ⟨transmissionId, ids, e, hid, herr⟩ |
    ⟨transmissionId, ids, emission, endedAt, hemitted, hfan⟩
  · exact Or.inr (Or.inl ⟨hvalid, hx, herr⟩)
  · refine Or.inr (Or.inr ⟨hvalid, transmissionId, [], _, _, herr, hid, ?_, ?_, ?_, ?_⟩)
    · simp [queried]
    · simp
    · simp
    · simp
  · obtain ⟨result, asked, rest, queries, hstates, hspec, hasked, hanswers, -⟩ :=
      fanOut_spec s.providers transmissionId s.request.opportunity.senderNodeId
        senderState.motion.position s.request.startedAt emission receiverStates
        (encoded services.calls s.request.selectedPacket (encodeRequest s.request transmissionId))
    have hconsumes := consumes_of_emitted hchecked hemitted hstates hasked hanswers
    rw [hspec] at hfan
    refine Or.inr (Or.inr ⟨hvalid, transmissionId, queries, ?_⟩)
    rcases result with e | signals
    · exact ⟨_, _, hfan, hconsumes⟩
    · exact ⟨_, _, hfan, hconsumes⟩

/-- After some sends: as many transmission ids are taken as were encoded, and they are the
first ones; no reception id is. -/
structure Issued (first : TransmissionId) (firstReception : Option ReceptionId) (log : CallLog)
    (services : Services) (encodes : List (DigitalPacket × TxEncodeRequest)) : Prop where
  encoding : services.calls.encodes = log.encodes ++ encodes
  ids : encodes.map (fun e => e.2.transmissionId.value.val) =
    List.range' first.value.val encodes.length
  taken : services.ids.transmissionIdsTaken = first.value.val + encodes.length
  room : first.value.val + encodes.length ≤ 2 ^ 64
  exhausted : services.ids.transmissionIdsExhausted = true ↔
    first.value.val + encodes.length = 2 ^ 64
  reception : services.ids.nextReception = firstReception.map StrongId.value ∧
    services.ids.receptionIdsExhausted = false
  receiving : services.calls.noiseQueries = log.noiseQueries ∧
    services.calls.decodes = log.decodes

omit [DoubleArithmetic] in
lemma issued_create (first : TransmissionId) (firstReception : Option ReceptionId)
    (log : CallLog) : Issued first firstReception log ⟨.create first firstReception, log⟩ [] := by
  have hlt := first.value.isLt
  refine ⟨by simp, rfl, rfl, ?_, ?_, ⟨rfl, rfl⟩, rfl, rfl⟩
  · simp
  · simpa [CommunicationIdAllocator.create] using hlt.ne

lemma Issued.consumes {first : TransmissionId} {firstReception : Option ReceptionId}
    {log : CallLog} {services last : Services}
    {encodes : List (DigitalPacket × TxEncodeRequest)} {s : Send}
    {transmissionId : TransmissionId} {queries : List ChannelQuery}
    (h : Issued first firstReception log services encodes)
    (hconsumes : Consumes s services transmissionId queries last) :
    transmissionId.value.val = first.value.val + encodes.length ∧
      services.ids.transmissionIdsExhausted = false ∧
      Issued first firstReception log last
        (encodes ++ [(s.request.selectedPacket, encodeRequest s.request transmissionId)]) := by
  rcases services.ids.nextTransmissionId_cases with
    ⟨-, herr⟩ | ⟨hx, id, ids, hid, hval, htaken, hreception, hreceptionx, hexhausted⟩
  · rw [hconsumes.id] at herr; cases herr
  have heq := hconsumes.id.symm.trans hid
  simp only [Prod.mk.injEq, Except.ok.injEq] at heq
  obtain ⟨rfl, hlast⟩ := heq
  rw [← hlast] at htaken hreception hreceptionx hexhausted
  have hnext : transmissionId.value.val = first.value.val + encodes.length := hval.trans h.taken
  have hlt := transmissionId.value.isLt
  refine ⟨hnext, hx, ?_, ?_, ?_, ?_, ?_, ?_, ?_⟩
  · rw [hconsumes.calls]
    simp [queried, encoded, h.encoding]
  · rw [List.map_append, h.ids, List.length_append, List.length_singleton, List.range'_concat]
    simp [encodeRequest, hnext]
  · rw [htaken, h.taken, List.length_append, List.length_singleton, Nat.add_assoc]
  · rw [List.length_append, List.length_singleton]
    omega
  · rw [hexhausted, htaken, h.taken, List.length_append, List.length_singleton, Nat.add_assoc]
  · exact ⟨hreception.trans h.reception.1, hreceptionx.trans h.reception.2⟩
  · rw [hconsumes.calls]
    exact h.receiving

lemma issued_exec (first : TransmissionId) (firstReception : Option ReceptionId) (log : CallLog)
    (sends : List Send) :
    ∃ encodes, Issued first firstReception log
      (exec send ⟨.create first firstReception, log⟩ sends).2 encodes := by
  refine exec_invariant send
    (P := fun _ services => ∃ encodes, Issued first firstReception log services encodes)
    (A := fun _ => True) ?_ ⟨[], issued_create first firstReception log⟩ (fun _ _ => trivial)
  rintro - services s ⟨encodes, h⟩ -
  rcases send_cases services s with
    ⟨-, e, herr⟩ | ⟨-, -, herr⟩ | ⟨-, transmissionId, queries, result, last, hsend, hconsumes⟩
  · rw [herr]; exact ⟨encodes, h⟩
  · rw [herr]; exact ⟨encodes, h⟩
  · rw [hsend]; exact ⟨_, (h.consumes hconsumes).2.2⟩

/-- **Failed sends have bounded effect.** After any sends the transmission ids encoded so far
are the first ones in order, and no reception id is taken. The next send then changes nothing
if it is not validated; if it is, it overflows without a call once all ids are taken, and
otherwise takes exactly the next one, encodes once, and queries the channel for a good emission
only, in the order of the candidates, each at most once, up to the first that fails. -/
theorem executeTransmission_effects (first : TransmissionId)
    (firstReception : Option ReceptionId) (log : CallLog) (sends : List Send) :
    let services := (exec send ⟨.create first firstReception, log⟩ sends).2
    ∃ encodes, Issued first firstReception log services encodes ∧
    ∀ s : Send,
      (¬ Validated s → ∃ e, send services s = (.error e, services)) ∧
      (Validated s → first.value.val + encodes.length = 2 ^ 64 → send services s =
        (.error ⟨.kOverflow, "TransmissionId allocation exhausted"⟩, services)) ∧
      (Validated s → first.value.val + encodes.length < 2 ^ 64 →
        ∃ transmissionId queries, transmissionId.value.val = first.value.val + encodes.length ∧
          Consumes s services transmissionId queries (send services s).2) := by
  intro services
  obtain ⟨encodes, h⟩ := issued_exec first firstReception log sends
  refine ⟨encodes, h, fun s => ?_⟩
  rcases send_cases services s with
    ⟨hnot, herr⟩ | ⟨hvalid, hx, herr⟩ | ⟨hvalid, transmissionId, queries, result, last, hsend,
      hconsumes⟩
  · exact ⟨fun _ => herr, fun hv => absurd hv hnot, fun hv => absurd hv hnot⟩
  · refine ⟨fun hnot => absurd hvalid hnot, fun _ _ => herr, fun _ hlt => ?_⟩
    exact absurd (h.exhausted.mp hx) hlt.ne
  · obtain ⟨hid, hx, -⟩ := h.consumes hconsumes
    refine ⟨fun hnot => absurd hvalid hnot, fun _ hfull => ?_, fun _ _ => ?_⟩
    · rw [h.exhausted.mpr hfull] at hx
      cases hx
    · rw [hsend]
      exact ⟨transmissionId, queries, hid, hconsumes⟩

end Ns3Factory.TransmissionExecutor
