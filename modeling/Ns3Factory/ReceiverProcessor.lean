import Ns3Factory.InFlightSignalLedger
import Ns3Factory.TransmissionExecutor

/-!
Processing a received signal into a reception session, and the sessions accumulated.

Processing builds the window of the signal, projects the receiver to its first arrival,
queries the noise, decodes, and takes a reception id last. With providers that answer every
request consistently it depends on the projection and on what the noise query checks.
-/

namespace Ns3Factory

open StdAlgorithm

structure ReceptionSession where
  reception : Reception
  desiredSignal : ReceivedSignal
  receiverWindow : ReceiverWindow
  noiseObservation : NoiseObservation
  decodeResult : RxDecodeResult

namespace ReceiverProcessor

variable [DoubleArithmetic]

/-- `ProcessReceivedSignal` from the decode request on. -/
def decodeObserved (providers : Providers) (desiredSignal : ReceivedSignal)
    (receiverWindow : ReceiverWindow) (noiseObservation : NoiseObservation)
    (services : Services) : Result ReceptionSession × Services :=
  match RxDecodeRequest.create receiverWindow noiseObservation with
  | .error e => (.error e, services)
  | .ok decodeRequest =>
    let decoded := { services.calls with decodes := services.calls.decodes ++ [decodeRequest] }
    match providers.decode services.calls decodeRequest with
    | .error e => (.error e, { services with calls := decoded })
    | .ok decodeResult =>
      match validateRxDecodeResultIdentity decodeRequest decodeResult with
      | .error e => (.error e, { services with calls := decoded })
      | .ok _ =>
        match services.ids.nextReceptionId with
        | (.error e, ids) => (.error e, ⟨ids, decoded⟩)
        | (.ok receptionId, ids) =>
          let reception : Reception :=
            ⟨receptionId, desiredSignal.transmissionId, desiredSignal.receiverNodeId,
              desiredSignal.firstArrivalAt⟩
          (.ok ⟨reception, desiredSignal, receiverWindow, noiseObservation, decodeResult⟩,
            ⟨ids, decoded⟩)

/-- `ReceiverProcessor::ProcessReceivedSignal`. -/
def processReceivedSignal (providers : Providers) (desiredSignal : ReceivedSignal)
    (ledger : InFlightSignalLedger) (workingState : CycleWorkingState) (services : Services) :
    Result ReceptionSession × Services :=
  if !ledger.contains desiredSignal then
    (.error ⟨.kNotFound, "Desired signal is not present in the in-flight ledger"⟩, services)
  else
    match ReceiverWindowBuilder.build desiredSignal ledger with
    | .error e => (.error e, services)
    | .ok receiverWindow =>
      match workingState.projectNodeState desiredSignal.receiverNodeId
          desiredSignal.firstArrivalAt with
      | .error e => (.error e, services)
      | .ok receiverState =>
        match createNoiseQueryForDesiredSignal receiverWindow
            receiverState.motion.position with
        | .error e => (.error e, services)
        | .ok noiseQuery =>
          let queried := { services.calls with
            noiseQueries := services.calls.noiseQueries ++ [noiseQuery] }
          match providers.queryNoise services.calls noiseQuery with
          | .error e => (.error e, { services with calls := queried })
          | .ok noiseObservation =>
            match validateNoiseObservationIdentity noiseQuery noiseObservation with
            | .error e => (.error e, { services with calls := queried })
            | .ok _ =>
              decodeObserved providers desiredSignal receiverWindow noiseObservation
                { services with calls := queried }

/-! ### How processing ends -/

/-- The log after a noise query. -/
def noiseQueried (calls : CallLog) (noiseQuery : NoiseQuery) : CallLog :=
  { calls with noiseQueries := calls.noiseQueries ++ [noiseQuery] }

/-- The log after a decode request. -/
def decodeRequested (calls : CallLog) (decodeRequest : RxDecodeRequest) : CallLog :=
  { calls with decodes := calls.decodes ++ [decodeRequest] }

/-- The noise query of a signal: for its window, where its receiver is at the first arrival. -/
structure Queried (desiredSignal : ReceivedSignal) (ledger : InFlightSignalLedger)
    (w : CycleWorkingState) (receiverWindow : ReceiverWindow)
    (receiverState : NodeCommittedState) (query : NoiseQuery) : Prop where
  inLedger : desiredSignal ∈ ledger.signals
  window : ReceiverWindowBuilder.build desiredSignal ledger = .ok receiverWindow
  state : w.projectNodeState desiredSignal.receiverNodeId desiredSignal.firstArrivalAt =
    .ok receiverState
  created : createNoiseQueryForDesiredSignal receiverWindow receiverState.motion.position =
    .ok query

/-- The noise provider has answered the query of a signal, and the answer is for that query. -/
structure Observed (providers : Providers) (desiredSignal : ReceivedSignal)
    (ledger : InFlightSignalLedger) (w : CycleWorkingState) (calls : CallLog)
    (receiverWindow : ReceiverWindow) (receiverState : NodeCommittedState) (query : NoiseQuery)
    (observation : NoiseObservation) : Prop
    extends Queried desiredSignal ledger w receiverWindow receiverState query where
  answered : providers.queryNoise calls query = .ok observation
  observes : validateNoiseObservationIdentity query observation = .ok ()

/-- All that processing needs, but for the reception id. -/
structure Received (providers : Providers) (desiredSignal : ReceivedSignal)
    (ledger : InFlightSignalLedger) (w : CycleWorkingState) (calls : CallLog)
    (receiverWindow : ReceiverWindow) (receiverState : NodeCommittedState) (query : NoiseQuery)
    (observation : NoiseObservation) (result : RxDecodeResult) : Prop
    extends Observed providers desiredSignal ledger w calls receiverWindow receiverState query
      observation where
  decoded : providers.decode (noiseQueried calls query) ⟨receiverWindow, observation⟩ = .ok result
  decodes : validateRxDecodeResultIdentity ⟨receiverWindow, observation⟩ result = .ok ()

/-- The calls of one processing: none, one noise query, or that and one decode request, which
was validated. -/
inductive Asked (providers : Providers) (desiredSignal : ReceivedSignal)
    (ledger : InFlightSignalLedger) (w : CycleWorkingState) (calls : CallLog) : CallLog → Prop
  | nothing : Asked providers desiredSignal ledger w calls calls
  | noise {receiverWindow receiverState query}
      (h : Queried desiredSignal ledger w receiverWindow receiverState query) :
      Asked providers desiredSignal ledger w calls (noiseQueried calls query)
  | decode {receiverWindow receiverState query observation request}
      (h : Observed providers desiredSignal ledger w calls receiverWindow receiverState query
        observation)
      (hrequest : RxDecodeRequest.create receiverWindow observation = .ok request) :
      Asked providers desiredSignal ledger w calls
        (decodeRequested (noiseQueried calls query) request)

/-- A reception id is available. -/
def HasReceptionId (services : Services) : Prop :=
  ∃ id ids, services.ids.nextReceptionId = (.ok id, ids)

/-- The session of a signal that was received. -/
def sessionOf (desiredSignal : ReceivedSignal) (receiverWindow : ReceiverWindow)
    (observation : NoiseObservation) (result : RxDecodeResult) (receptionId : ReceptionId) :
    ReceptionSession :=
  ⟨⟨receptionId, desiredSignal.transmissionId, desiredSignal.receiverNodeId,
    desiredSignal.firstArrivalAt⟩, desiredSignal, receiverWindow, observation, result⟩

lemma Queried.isFor {desiredSignal : ReceivedSignal} {ledger : InFlightSignalLedger}
    {w : CycleWorkingState} {receiverWindow : ReceiverWindow}
    {receiverState : NodeCommittedState} {query : NoiseQuery}
    (h : Queried desiredSignal ledger w receiverWindow receiverState query) :
    query.IsFor receiverWindow receiverState.motion.position :=
  createNoiseQueryForDesiredSignal_isFor h.created

/-- **An answered query can be decoded**: the decode request checks what was checked. -/
lemma Observed.request {providers : Providers} {desiredSignal : ReceivedSignal}
    {ledger : InFlightSignalLedger} {w : CycleWorkingState} {calls : CallLog}
    {receiverWindow : ReceiverWindow} {receiverState : NodeCommittedState} {query : NoiseQuery}
    {observation : NoiseObservation}
    (h : Observed providers desiredSignal ledger w calls receiverWindow receiverState query
      observation) :
    RxDecodeRequest.create receiverWindow observation = .ok ⟨receiverWindow, observation⟩ :=
  RxDecodeRequest.create_of_validated h.isFor h.observes

omit [DoubleArithmetic] in
lemma decodeObserved_ends (providers : Providers) (desiredSignal : ReceivedSignal)
    {receiverWindow : ReceiverWindow} {observation : NoiseObservation} (services : Services)
    (hrequest : RxDecodeRequest.create receiverWindow observation =
      .ok ⟨receiverWindow, observation⟩) :
    (∃ result id ids,
      providers.decode services.calls ⟨receiverWindow, observation⟩ = .ok result ∧
      validateRxDecodeResultIdentity ⟨receiverWindow, observation⟩ result = .ok () ∧
      services.ids.nextReceptionId = (.ok id, ids) ∧
      decodeObserved providers desiredSignal receiverWindow observation services =
        (.ok (sessionOf desiredSignal receiverWindow observation result id),
          ⟨ids, decodeRequested services.calls ⟨receiverWindow, observation⟩⟩)) ∨
    (¬ (HasReceptionId services ∧ ∃ result,
        providers.decode services.calls ⟨receiverWindow, observation⟩ = .ok result ∧
        validateRxDecodeResultIdentity ⟨receiverWindow, observation⟩ result = .ok ()) ∧
      ∃ e, decodeObserved providers desiredSignal receiverWindow observation services =
        (.error e,
          ⟨services.ids, decodeRequested services.calls ⟨receiverWindow, observation⟩⟩)) := by
  unfold decodeObserved
  simp only [hrequest]
  rcases hdecode : providers.decode services.calls ⟨receiverWindow, observation⟩ with e | result
  · exact Or.inr ⟨by simp, e, rfl⟩
  rcases hident : validateRxDecodeResultIdentity ⟨receiverWindow, observation⟩ result with
    e | u
  · exact Or.inr ⟨by simp [hident], e, by simp only [hident]; rfl⟩
  simp only [hident]
  rcases hid : services.ids.nextReceptionId with ⟨e | id, ids⟩
  · have hkeep := CommunicationIdAllocator.nextReceptionId_error hid
    refine Or.inr ⟨fun h => ?_, e, by rw [← hkeep]; rfl⟩
    obtain ⟨id', ids', hid'⟩ := h.1
    rw [hid] at hid'
    cases hid'
  · exact Or.inl ⟨result, id, ids, rfl, hident, rfl, rfl⟩

lemma Queried.unique {desiredSignal : ReceivedSignal} {ledger : InFlightSignalLedger}
    {w : CycleWorkingState} {receiverWindow receiverWindow' : ReceiverWindow}
    {receiverState receiverState' : NodeCommittedState} {query query' : NoiseQuery}
    (h : Queried desiredSignal ledger w receiverWindow receiverState query)
    (h' : Queried desiredSignal ledger w receiverWindow' receiverState' query') :
    receiverWindow' = receiverWindow ∧ receiverState' = receiverState ∧ query' = query := by
  obtain rfl := Except.ok.inj (h'.window.symm.trans h.window)
  obtain rfl := Except.ok.inj (h'.state.symm.trans h.state)
  exact ⟨rfl, rfl, Except.ok.inj (h'.created.symm.trans h.created)⟩

lemma queried_cases (providers : Providers) (desiredSignal : ReceivedSignal)
    (ledger : InFlightSignalLedger) (w : CycleWorkingState) (services : Services) :
    (∃ receiverWindow receiverState query,
      Queried desiredSignal ledger w receiverWindow receiverState query) ∨
    ((∀ receiverWindow receiverState query,
        ¬ Queried desiredSignal ledger w receiverWindow receiverState query) ∧
      ∃ e, processReceivedSignal providers desiredSignal ledger w services =
        (.error e, services)) := by
  unfold processReceivedSignal
  by_cases hmem : desiredSignal ∈ ledger.signals
  swap
  · have hcontains : ledger.contains desiredSignal = false := by
      rw [Bool.eq_false_iff]
      exact fun h => hmem (InFlightSignalLedger.contains_iff.mp h)
    refine Or.inr ⟨fun _ _ _ h => hmem h.inLedger, ?_⟩
    simp only [hcontains, Bool.not_false, if_true]
    exact ⟨_, rfl⟩
  obtain ⟨window, hwindow, -⟩ := ReceiverWindowBuilder.build_of_mem hmem
  simp only [InFlightSignalLedger.contains_iff.mpr hmem, Bool.not_true, Bool.false_eq_true,
    if_false, hwindow]
  rcases hstate : w.projectNodeState desiredSignal.receiverNodeId desiredSignal.firstArrivalAt
    with e | receiverState
  · refine Or.inr ⟨fun _ _ _ h => ?_, e, rfl⟩
    have := hstate.symm.trans h.state
    cases this
  rcases hquery : createNoiseQueryForDesiredSignal window receiverState.motion.position with
    e | query
  · refine Or.inr ⟨fun window' state' query' h => ?_, e, by simp only [hquery]⟩
    obtain rfl := Except.ok.inj (hwindow.symm.trans h.window)
    obtain rfl := Except.ok.inj (hstate.symm.trans h.state)
    have := hquery.symm.trans h.created
    cases this
  · exact Or.inl ⟨window, receiverState, query, hmem, hwindow, hstate, hquery⟩

lemma Queried.process {desiredSignal : ReceivedSignal} {ledger : InFlightSignalLedger}
    {w : CycleWorkingState} {receiverWindow : ReceiverWindow}
    {receiverState : NodeCommittedState} {query : NoiseQuery}
    (h : Queried desiredSignal ledger w receiverWindow receiverState query)
    (providers : Providers) (services : Services) :
    processReceivedSignal providers desiredSignal ledger w services =
      match providers.queryNoise services.calls query with
      | .error e => (.error e, ⟨services.ids, noiseQueried services.calls query⟩)
      | .ok observation =>
        match validateNoiseObservationIdentity query observation with
        | .error e => (.error e, ⟨services.ids, noiseQueried services.calls query⟩)
        | .ok _ => decodeObserved providers desiredSignal receiverWindow observation
            ⟨services.ids, noiseQueried services.calls query⟩ := by
  unfold processReceivedSignal
  simp only [InFlightSignalLedger.contains_iff.mpr h.inLedger, Bool.not_true, Bool.false_eq_true,
    if_false, h.window, h.state, h.created]
  rfl

lemma processReceivedSignal_ends (providers : Providers) (desiredSignal : ReceivedSignal)
    (ledger : InFlightSignalLedger) (w : CycleWorkingState) (services : Services) :
    (∃ receiverWindow receiverState query observation result id ids,
      Received providers desiredSignal ledger w services.calls receiverWindow receiverState query
        observation result ∧
      services.ids.nextReceptionId = (.ok id, ids) ∧
      processReceivedSignal providers desiredSignal ledger w services =
        (.ok (sessionOf desiredSignal receiverWindow observation result id),
          ⟨ids, decodeRequested (noiseQueried services.calls query)
            ⟨receiverWindow, observation⟩⟩)) ∨
    (¬ (HasReceptionId services ∧ ∃ receiverWindow receiverState query observation result,
        Received providers desiredSignal ledger w services.calls receiverWindow receiverState
          query observation result) ∧
      ∃ e calls, Asked providers desiredSignal ledger w services.calls calls ∧
        processReceivedSignal providers desiredSignal ledger w services =
          (.error e, ⟨services.ids, calls⟩)) := by
  rcases queried_cases providers desiredSignal ledger w services with
    ⟨window, state, query, hquery⟩ | ⟨hnot, e, herr⟩
  swap
  · exact Or.inr ⟨fun ⟨_, _, _, _, _, _, h⟩ => hnot _ _ _ h.toQueried, e, _, .nothing, herr⟩
  rw [hquery.process providers services]
  rcases hobs : providers.queryNoise services.calls query with e | observation
  · refine Or.inr ⟨fun ⟨_, _, _, _, _, _, h⟩ => ?_, e, _, .noise hquery, rfl⟩
    obtain ⟨-, -, rfl⟩ := hquery.unique h.toQueried
    have := hobs.symm.trans h.answered
    cases this
  rcases hident : validateNoiseObservationIdentity query observation with e | u
  · refine Or.inr ⟨fun ⟨_, _, _, _, _, _, h⟩ => ?_, e, _, .noise hquery, by simp only [hident]⟩
    obtain ⟨-, -, rfl⟩ := hquery.unique h.toQueried
    obtain rfl := Except.ok.inj (hobs.symm.trans h.answered)
    have := hident.symm.trans h.observes
    cases this
  have hobserved : Observed providers desiredSignal ledger w services.calls window state query
      observation := ⟨hquery, hobs, hident⟩
  simp only [hident]
  rcases decodeObserved_ends providers desiredSignal
      ⟨services.ids, noiseQueried services.calls query⟩ hobserved.request with
    ⟨result, id, ids, hdecode, hresult, hid, hok⟩ | ⟨hnot, e, herr⟩
  · exact Or.inl ⟨window, state, query, observation, result, id, ids,
      ⟨hobserved, hdecode, hresult⟩, hid, hok⟩
  · refine Or.inr ⟨fun ⟨hids, _, _, _, _, result, h⟩ => hnot ⟨hids, result, ?_⟩, e, _,
      .decode hobserved hobserved.request, herr⟩
    obtain ⟨rfl, rfl, rfl⟩ := hquery.unique h.toQueried
    obtain rfl := Except.ok.inj (hobs.symm.trans h.answered)
    exact ⟨h.decoded, h.decodes⟩

/-- What a successful processing has found and returned. -/
structure Processed (desiredSignal : ReceivedSignal) (ledger : InFlightSignalLedger)
    (services : Services) (session : ReceptionSession) (last : Services) : Prop where
  inLedger : desiredSignal ∈ ledger.signals
  desired : session.desiredSignal = desiredSignal
  window : ReceiverWindowBuilder.build desiredSignal ledger = .ok session.receiverWindow
  transmissionId : session.reception.transmissionId = desiredSignal.transmissionId
  receiverNodeId : session.reception.receiverNodeId = desiredSignal.receiverNodeId
  id : services.ids.nextReceptionId = (.ok session.reception.receptionId, last.ids)
  calls : last.calls.encodes = services.calls.encodes ∧
    last.calls.channelQueries = services.calls.channelQueries

lemma processReceivedSignal_ok {providers : Providers} {desiredSignal : ReceivedSignal}
    {ledger : InFlightSignalLedger} {w : CycleWorkingState} {services last : Services}
    {session : ReceptionSession}
    (h : processReceivedSignal providers desiredSignal ledger w services =
      (.ok session, last)) :
    Processed desiredSignal ledger services session last := by
  rcases processReceivedSignal_ends providers desiredSignal ledger w services with
    ⟨window, state, query, observation, result, id, ids, hreceived, hid, hok⟩ |
    ⟨-, e, calls, -, herr⟩
  · rw [hok] at h
    cases h
    exact ⟨hreceived.inLedger, rfl, hreceived.window, rfl, rfl, hid, rfl, rfl⟩
  · rw [herr] at h
    cases h

/-- The noise provider and the receive PHY answer every request with a success that matches
it. -/
structure Answers (providers : Providers) : Prop where
  noise : ∀ calls query, ∃ observation, providers.queryNoise calls query = .ok observation ∧
    validateNoiseObservationIdentity query observation = .ok ()
  decode : ∀ calls request, ∃ result, providers.decode calls request = .ok result ∧
    validateRxDecodeResultIdentity request result = .ok ()

lemma Queried.received {providers : Providers} (hanswers : Answers providers)
    {desiredSignal : ReceivedSignal} {ledger : InFlightSignalLedger} {w : CycleWorkingState}
    {receiverWindow : ReceiverWindow} {receiverState : NodeCommittedState} {query : NoiseQuery}
    (h : Queried desiredSignal ledger w receiverWindow receiverState query) (calls : CallLog) :
    ∃ observation result, Received providers desiredSignal ledger w calls receiverWindow
      receiverState query observation result := by
  obtain ⟨observation, hobs, hident⟩ := hanswers.noise calls query
  obtain ⟨result, hres, hresident⟩ := hanswers.decode (noiseQueried calls query)
    ⟨receiverWindow, observation⟩
  exact ⟨observation, result, ⟨h, hobs, hident⟩, hres, hresident⟩

lemma processReceivedSignal_cases {providers : Providers} {desiredSignal : ReceivedSignal}
    {ledger : InFlightSignalLedger} {w : CycleWorkingState} {services : Services}
    (hanswers : Answers providers) (hids : HasReceptionId services)
    (hmem : desiredSignal ∈ ledger.signals) :
    (∃ receiverState session last query,
      w.projectNodeState desiredSignal.receiverNodeId desiredSignal.firstArrivalAt =
        .ok receiverState ∧
      NoiseQuery.Accepts desiredSignal receiverState.motion.position ∧
      processReceivedSignal providers desiredSignal ledger w services = (.ok session, last) ∧
      last.calls.noiseQueries = services.calls.noiseQueries ++ [query] ∧
      query.receiverPosition = receiverState.motion.position) ∨
    (¬ (∃ receiverState,
        w.projectNodeState desiredSignal.receiverNodeId desiredSignal.firstArrivalAt =
          .ok receiverState ∧
        NoiseQuery.Accepts desiredSignal receiverState.motion.position) ∧
      ∃ e, (processReceivedSignal providers desiredSignal ledger w services).1 = .error e) := by
  obtain ⟨window, hwindow, hdesired, -⟩ := ReceiverWindowBuilder.build_of_mem hmem
  rcases processReceivedSignal_ends providers desiredSignal ledger w services with
    ⟨window', state, query, observation, result, id, ids, hreceived, -, hok⟩ |
    ⟨hnot, e, calls, -, herr⟩
  · obtain rfl := Except.ok.inj (hwindow.symm.trans hreceived.window)
    refine Or.inl ⟨state, _, _, query, hreceived.state, ?_, hok, rfl, hreceived.isFor.position⟩
    rcases createNoiseQueryForDesiredSignal_cases window state.motion.position with
      ⟨haccepts, -⟩ | ⟨-, e, herr⟩
    · rwa [hdesired] at haccepts
    · have := hreceived.created.symm.trans herr
      cases this
  · refine Or.inr ⟨fun ⟨state, hstate, haccepts⟩ => hnot ⟨hids, ?_⟩, e, by rw [herr]⟩
    rcases createNoiseQueryForDesiredSignal_cases window state.motion.position with
      ⟨-, query, hquery, -⟩ | ⟨hnone, -⟩
    · have hqueried : Queried desiredSignal ledger w window state query :=
        ⟨hmem, hwindow, hstate, hquery⟩
      obtain ⟨observation, result, hreceived⟩ := hqueried.received hanswers services.calls
      exact ⟨window, state, query, observation, result, hreceived⟩
    · rw [hdesired] at hnone
      exact absurd haccepts hnone

end ReceiverProcessor

/-! ### Accumulated sessions -/

/-- What `ReceptionResultAccumulator::CanonicalLess` compares. -/
def sessionOrder (s : ReceptionSession) : SimTime ×ₗ NodeId ×ₗ TransmissionId ×ₗ ReceptionId :=
  toLex (s.reception.arrivalAt, toLex (s.reception.receiverNodeId,
    toLex (s.reception.transmissionId, s.reception.receptionId)))

/-- `ReceptionResultAccumulator::CanonicalLess`. -/
def sessionLess (lhs rhs : ReceptionSession) : Bool :=
  if lhs.reception.arrivalAt ≠ rhs.reception.arrivalAt then
    lhs.reception.arrivalAt < rhs.reception.arrivalAt
  else if lhs.reception.receiverNodeId ≠ rhs.reception.receiverNodeId then
    lhs.reception.receiverNodeId < rhs.reception.receiverNodeId
  else if lhs.reception.transmissionId ≠ rhs.reception.transmissionId then
    lhs.reception.transmissionId < rhs.reception.transmissionId
  else lhs.reception.receptionId < rhs.reception.receptionId

lemma sessionLess_iff (lhs rhs : ReceptionSession) :
    sessionLess lhs rhs = true ↔ sessionOrder lhs < sessionOrder rhs := by
  unfold sessionLess sessionOrder
  rw [Prod.Lex.toLex_lt_toLex, Prod.Lex.toLex_lt_toLex, Prod.Lex.toLex_lt_toLex]
  split_ifs with h1 h2 h3
  · simp [h1]
  · rw [not_not] at h1
    simp [h1, h2]
  · rw [not_not] at h1 h2
    simp [h1, h2, h3]
  · rw [not_not] at h1 h2 h3
    simp [h1, h2, h3]

structure ReceptionResultAccumulator where
  sessions : List ReceptionSession
  canonical : sessions.Pairwise fun lhs rhs => sessionOrder lhs ≤ sessionOrder rhs

namespace ReceptionResultAccumulator

def empty : ReceptionResultAccumulator := ⟨[], List.Pairwise.nil⟩

@[simp] lemma sessions_empty : empty.sessions = [] := rfl

/-- `ReceptionResultAccumulator::Append`. -/
def append (results : ReceptionResultAccumulator) (session : ReceptionSession) :
    ReceptionResultAccumulator :=
  ⟨sort sessionLess (results.sessions ++ [session]), sort_pairwise sessionLess_iff _⟩

lemma append_perm (results : ReceptionResultAccumulator) (session : ReceptionSession) :
    (results.append session).sessions.Perm (session :: results.sessions) :=
  (sort_perm _ _).trans (List.perm_append_singleton _ _)

lemma append_desired (results : ReceptionResultAccumulator) (session : ReceptionSession) :
    ((results.append session).sessions.map ReceptionSession.desiredSignal).Perm
      (results.sessions.map ReceptionSession.desiredSignal ++ [session.desiredSignal]) := by
  have hp := (results.append_perm session).map ReceptionSession.desiredSignal
  exact hp.trans (List.perm_append_singleton _ _).symm

lemma append_append_perm (results : ReceptionResultAccumulator) (first second : ReceptionSession) :
    ((results.append first).append second).sessions.Perm (second :: first :: results.sessions) :=
  ((results.append first).append_perm second).trans ((results.append_perm first).cons second)

end ReceptionResultAccumulator

end Ns3Factory
