import Ns3Factory.CommitService
import Ns3Factory.ReceiverProcessor

/-!
The event handlers of a cycle.

The runtime holds by value what the code shares by reference: the services, the working
state, the store, the ledger and the results. A call is one of its handlers with any
arguments, or a velocity update of the working state made from outside.
-/

namespace Ns3Factory

open StdAlgorithm Transition

structure CycleSignalRuntime where
  services : Services
  workingState : CycleWorkingState
  store : WorldStateStore
  ledger : InFlightSignalLedger
  results : ReceptionResultAccumulator
  expectedVersion : SnapshotVersion
  cycleCloseTime : SimTime
  committed : Bool

namespace CycleSignalRuntime

variable [DoubleArithmetic]

/-- The constructor, over components in any state. -/
def create (services : Services) (workingState : CycleWorkingState) (store : WorldStateStore)
    (ledger : InFlightSignalLedger) (results : ReceptionResultAccumulator)
    (expectedVersion : SnapshotVersion) (cycleCloseTime : SimTime) : CycleSignalRuntime where
  services := services
  workingState := workingState
  store := store
  ledger := ledger
  results := results
  expectedVersion := expectedVersion
  cycleCloseTime := cycleCloseTime
  committed := false

/-- `CycleSignalRuntime::HandleTxStart`. -/
def handleTxStart (providers : Providers) (r : CycleSignalRuntime) (eventTime : SimTime)
    (request : TransmissionExecutionRequest) :
    Result TransmissionSession × CycleSignalRuntime :=
  if eventTime ≠ request.startedAt then
    (.error ⟨.kFailedPrecondition, "TxStart event time does not match request"⟩, r)
  else
    match TransmissionExecutor.executeTransmission providers r.workingState request
        r.services with
    | (.error e, services) => (.error e, { r with services := services })
    | (.ok session, services) =>
      if session.transmission.endedAt > r.cycleCloseTime then
        (.error ⟨.kFailedPrecondition, "Transmission extends beyond cycle close"⟩,
          { r with services := services })
      else if session.receivedSignals.any fun signal =>
          signal.lastEffectEndAt > r.cycleCloseTime then
        (.error ⟨.kFailedPrecondition, "Transmission signal extends beyond cycle close"⟩,
          { r with services := services })
      else (.ok session, { r with services := services })

/-- `CycleSignalRuntime::HandleSignalArrival`. -/
def handleSignalArrival (r : CycleSignalRuntime) (eventTime : SimTime)
    (signal : ReceivedSignal) : Status × CycleSignalRuntime :=
  if eventTime ≠ signal.firstArrivalAt then
    (.error ⟨.kFailedPrecondition, "SignalArrival event time does not match signal"⟩, r)
  else
    let (status, ledger) := r.ledger.insert signal
    (status, { r with ledger := ledger })

/-- `CycleSignalRuntime::HandleSessionFinalize`. -/
def handleSessionFinalize (providers : Providers) (r : CycleSignalRuntime)
    (eventTime : SimTime) (desiredSignal : ReceivedSignal) : Status × CycleSignalRuntime :=
  if eventTime ≠ desiredSignal.lastEffectEndAt then
    (.error ⟨.kFailedPrecondition, "SessionFinalize event time does not match signal"⟩, r)
  else
    match ReceiverProcessor.processReceivedSignal providers desiredSignal r.ledger
        r.workingState r.services with
    | (.error e, services) => (.error e, { r with services := services })
    | (.ok session, services) =>
      (.ok (), { r with services := services, results := r.results.append session })

/-- `CycleSignalRuntime::HandleCycleClose`. -/
def handleCycleClose (r : CycleSignalRuntime) (closeTime : SimTime) :
    Status × CycleSignalRuntime :=
  if r.committed then
    (.error ⟨.kAlreadyExists, "Planning cycle was already committed"⟩, r)
  else if closeTime ≠ r.cycleCloseTime then
    (.error ⟨.kFailedPrecondition, "CycleClose event time does not match cycle policy"⟩, r)
  else
    match r.ledger.validateReadyForCycleClose closeTime with
    | .error e => (.error e, r)
    | .ok _ =>
      match r.workingState.finalizeDeltaSet closeTime with
      | .error e => (.error e, r)
      | .ok delta =>
        match CommitService.commitCycle r.store r.expectedVersion delta with
        | (.error e, store) => (.error e, { r with store := store })
        | (.ok _, store) =>
          (.ok (),
            { r with store := store, ledger := r.ledger.clearForCycleClose, committed := true })

/-! ### What the handlers change -/

lemma handleTxStart_snd (providers : Providers) (r : CycleSignalRuntime) (eventTime : SimTime)
    (request : TransmissionExecutionRequest) :
    (r.handleTxStart providers eventTime request).2 =
      { r with services := (r.handleTxStart providers eventTime request).2.services } := by
  unfold handleTxStart
  split_ifs
  · rfl
  split
  · rfl
  split_ifs <;> rfl

lemma handleTxStart_ok {providers : Providers} {r next : CycleSignalRuntime}
    {eventTime : SimTime} {request : TransmissionExecutionRequest}
    {session : TransmissionSession}
    (h : r.handleTxStart providers eventTime request = (.ok session, next)) :
    eventTime = request.startedAt ∧
      TransmissionExecutor.Executed r.workingState request r.services session next.services ∧
      (∀ s ∈ session.receivedSignals, s.lastEffectEndAt ≤ r.cycleCloseTime) ∧
      next = { r with services := next.services } := by
  unfold handleTxStart at h
  split_ifs at h with htime
  · cases h
  split at h
  · cases h
  next session' services hexec =>
  split_ifs at h with hend hsig
  · cases h
  · cases h
  cases h
  refine ⟨not_not.mp htime, TransmissionExecutor.executeTransmission_ok hexec, ?_, rfl⟩
  simpa using hsig

lemma handleTxStart_executed {providers : Providers} {r next : CycleSignalRuntime} {time : SimTime}
    {request : TransmissionExecutionRequest} {session : TransmissionSession}
    (h : r.handleTxStart providers time request = (.ok session, next)) :
    TransmissionExecutor.executeTransmission providers r.workingState request r.services =
      (.ok session, next.services) := by
  unfold handleTxStart at h
  split_ifs at h
  · cases h
  split at h
  · cases h
  next session' services hexec =>
  split_ifs at h
  · cases h
  · cases h
  cases h
  exact hexec

lemma handleTxStart_services (providers : Providers) (r : CycleSignalRuntime)
    (eventTime : SimTime) (request : TransmissionExecutionRequest) :
    (r.handleTxStart providers eventTime request).2.services = r.services ∨
      eventTime = request.startedAt ∧
        (r.handleTxStart providers eventTime request).2.services =
          (TransmissionExecutor.executeTransmission providers r.workingState request
            r.services).2 := by
  unfold handleTxStart
  by_cases htime : eventTime = request.startedAt
  swap
  · rw [if_pos htime]
    exact Or.inl rfl
  rw [if_neg (not_not.mpr htime)]
  refine Or.inr ⟨htime, ?_⟩
  rcases TransmissionExecutor.executeTransmission providers r.workingState request r.services
    with ⟨e | session, services⟩
  · rfl
  · dsimp only
    split_ifs <;> rfl

omit [DoubleArithmetic] in
lemma handleSignalArrival_cases (r : CycleSignalRuntime) (eventTime : SimTime)
    (signal : ReceivedSignal) :
    (eventTime = signal.firstArrivalAt ∧ (∀ s ∈ r.ledger.signals, ¬ samePair s signal) ∧
      ∃ ledger, r.handleSignalArrival eventTime signal =
          (.ok (), { r with ledger := ledger }) ∧
        ledger.signals.Perm (signal :: r.ledger.signals)) ∨
    (¬ (eventTime = signal.firstArrivalAt ∧ ∀ s ∈ r.ledger.signals, ¬ samePair s signal) ∧
      ∃ e, r.handleSignalArrival eventTime signal = (.error e, r)) := by
  unfold handleSignalArrival
  by_cases htime : eventTime = signal.firstArrivalAt
  swap
  · exact Or.inr ⟨fun h => htime h.1, _, if_pos htime⟩
  rw [if_neg (not_not.mpr htime)]
  rcases r.ledger.insert_cases signal with ⟨hnew, next, hok, hp⟩ | ⟨⟨s, hs, hsame⟩, e, herr⟩
  · exact Or.inl ⟨htime, hnew, next, by simp only [hok], hp⟩
  · exact Or.inr ⟨fun h => h.2 s hs hsame, e, by simp only [herr]⟩

lemma handleSessionFinalize_cases (providers : Providers) (r : CycleSignalRuntime)
    (eventTime : SimTime) (desiredSignal : ReceivedSignal) :
    (∃ session services,
      r.handleSessionFinalize providers eventTime desiredSignal =
        (.ok (), { r with services := services, results := r.results.append session }) ∧
      eventTime = desiredSignal.lastEffectEndAt ∧
      ReceiverProcessor.Processed desiredSignal r.ledger r.services session services) ∨
    ∃ e services, r.handleSessionFinalize providers eventTime desiredSignal =
      (.error e, { r with services := services }) := by
  unfold handleSessionFinalize
  split_ifs with htime
  · exact Or.inr ⟨_, r.services, rfl⟩
  split
  · next e services _ => exact Or.inr ⟨e, services, rfl⟩
  · next session services hok =>
    exact Or.inl ⟨session, services, rfl, not_not.mp htime,
      ReceiverProcessor.processReceivedSignal_ok hok⟩

lemma handleSessionFinalize_services (providers : Providers) (r : CycleSignalRuntime)
    (eventTime : SimTime) (desiredSignal : ReceivedSignal) :
    (r.handleSessionFinalize providers eventTime desiredSignal).2.services = r.services ∨
      eventTime = desiredSignal.lastEffectEndAt ∧
        (r.handleSessionFinalize providers eventTime desiredSignal).2.services =
          (ReceiverProcessor.processReceivedSignal providers desiredSignal r.ledger
            r.workingState r.services).2 := by
  unfold handleSessionFinalize
  by_cases htime : eventTime = desiredSignal.lastEffectEndAt
  swap
  · rw [if_pos htime]
    exact Or.inl rfl
  rw [if_neg (not_not.mpr htime)]
  refine Or.inr ⟨htime, ?_⟩
  rcases ReceiverProcessor.processReceivedSignal providers desiredSignal r.ledger r.workingState
    r.services with ⟨e | session, services⟩ <;> rfl

lemma handleCycleClose_cases (r : CycleSignalRuntime) (closeTime : SimTime) :
    (∃ delta store, r.committed = false ∧ closeTime = r.cycleCloseTime ∧
      (∀ s ∈ r.ledger.signals, s.lastEffectEndAt ≤ closeTime) ∧
      r.workingState.finalizeDeltaSet closeTime = .ok delta ∧
      CommitService.commitCycle r.store r.expectedVersion delta = (.ok (), store) ∧
      r.handleCycleClose closeTime =
        (.ok (), { r with store := store, ledger := .empty, committed := true })) ∨
    ∃ e, r.handleCycleClose closeTime = (.error e, r) := by
  unfold handleCycleClose
  split_ifs with hcommitted htime
  · exact Or.inr ⟨_, rfl⟩
  · exact Or.inr ⟨_, rfl⟩
  rcases hready : r.ledger.validateReadyForCycleClose closeTime with e | u
  · exact Or.inr ⟨e, rfl⟩
  rcases hdelta : r.workingState.finalizeDeltaSet closeTime with e | delta
  · exact Or.inr ⟨e, rfl⟩
  rcases CommitService.commitCycle_cases r.store r.expectedVersion delta with
    ⟨-, store, hok, -⟩ | ⟨-, e, herr⟩
  · exact Or.inl ⟨delta, store, by simpa using hcommitted, not_not.mp htime,
      InFlightSignalLedger.validateReadyForCycleClose_ok.mp hready, rfl, hok, by
        simp only [hok]; rfl⟩
  · exact Or.inr ⟨e, by simp only [herr]⟩

/-! ### Calls -/

inductive HandlerCall
  | txStart (eventTime : SimTime) (request : TransmissionExecutionRequest)
  | signalArrival (eventTime : SimTime) (signal : ReceivedSignal)
  | sessionFinalize (eventTime : SimTime) (desiredSignal : ReceivedSignal)
  | cycleClose (closeTime : SimTime)
  | updateVelocity (nodeId : NodeId) (velocity : Velocity3d) (effectiveAt : SimTime)

/-- A call of the runtime, with the status it returns. -/
def call (providers : Providers) (r : CycleSignalRuntime) :
    HandlerCall → Status × CycleSignalRuntime
  | .txStart eventTime request =>
    let (result, next) := r.handleTxStart providers eventTime request
    (result.map fun _ => (), next)
  | .signalArrival eventTime signal => r.handleSignalArrival eventTime signal
  | .sessionFinalize eventTime desiredSignal =>
    r.handleSessionFinalize providers eventTime desiredSignal
  | .cycleClose closeTime => r.handleCycleClose closeTime
  | .updateVelocity nodeId velocity effectiveAt =>
    let (status, workingState) := r.workingState.updateVelocity nodeId velocity effectiveAt
    (status, { r with workingState := workingState })

/-- What a call can do to the runtime. -/
inductive CallEffect (r : CycleSignalRuntime) : HandlerCall → Status → CycleSignalRuntime → Prop
  | txStart (eventTime request status services) :
      CallEffect r (.txStart eventTime request) status { r with services := services }
  | arrived (signal ledger) (hnew : ∀ s ∈ r.ledger.signals, ¬ samePair s signal)
      (hledger : ledger.signals.Perm (signal :: r.ledger.signals)) :
      CallEffect r (.signalArrival signal.firstArrivalAt signal) (.ok ())
        { r with ledger := ledger }
  | finalized (desiredSignal session services)
      (hproc : ReceiverProcessor.Processed desiredSignal r.ledger r.services session services) :
      CallEffect r (.sessionFinalize desiredSignal.lastEffectEndAt desiredSignal) (.ok ())
        { r with services := services, results := r.results.append session }
  | closed (delta store) (hopen : r.committed = false)
      (hends : ∀ s ∈ r.ledger.signals, s.lastEffectEndAt ≤ r.cycleCloseTime)
      (hdelta : r.workingState.finalizeDeltaSet r.cycleCloseTime = .ok delta)
      (hcommit : CommitService.commitCycle r.store r.expectedVersion delta = (.ok (), store)) :
      CallEffect r (.cycleClose r.cycleCloseTime) (.ok ())
        { r with store := store, ledger := .empty, committed := true }
  | updated (nodeId velocity effectiveAt status workingState)
      (hupdate : r.workingState.updateVelocity nodeId velocity effectiveAt =
        (status, workingState)) :
      CallEffect r (.updateVelocity nodeId velocity effectiveAt) status
        { r with workingState := workingState }
  | refused (c e services) : CallEffect r c (.error e) { r with services := services }

lemma call_effect (providers : Providers) (r : CycleSignalRuntime) (c : HandlerCall) :
    ∃ status next, call providers r c = (status, next) ∧ CallEffect r c status next := by
  cases c with
  | txStart eventTime request =>
    have hsnd := handleTxStart_snd providers r eventTime request
    rcases hstart : r.handleTxStart providers eventTime request with ⟨result, next⟩
    rw [hstart] at hsnd
    have hnext : next = { r with services := next.services } := hsnd
    refine ⟨result.map fun _ => (), next, by simp only [call, hstart], ?_⟩
    rw [hnext]
    exact .txStart eventTime request _ _
  | signalArrival eventTime signal =>
    rcases r.handleSignalArrival_cases eventTime signal with
      ⟨rfl, hnew, ledger, hok, hp⟩ | ⟨-, e, herr⟩
    · exact ⟨_, _, hok, .arrived signal ledger hnew hp⟩
    · exact ⟨_, _, herr, .refused _ e r.services⟩
  | sessionFinalize eventTime desiredSignal =>
    rcases r.handleSessionFinalize_cases providers eventTime desiredSignal with
      ⟨session, services, hok, rfl, hproc⟩ | ⟨e, services, herr⟩
    · exact ⟨_, _, hok, .finalized desiredSignal session services hproc⟩
    · exact ⟨_, _, herr, .refused _ e services⟩
  | cycleClose closeTime =>
    rcases r.handleCycleClose_cases closeTime with
      ⟨delta, store, hopen, rfl, hends, hdelta, hcommit, hok⟩ | ⟨e, herr⟩
    · exact ⟨_, _, hok, .closed delta store hopen hends hdelta hcommit⟩
    · exact ⟨_, _, herr, .refused _ e r.services⟩
  | updateVelocity nodeId velocity effectiveAt =>
    exact ⟨_, _, rfl, .updated nodeId velocity effectiveAt _ _ rfl⟩

end CycleSignalRuntime

end Ns3Factory
