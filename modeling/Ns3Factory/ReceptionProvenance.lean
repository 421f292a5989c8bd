import Ns3Factory.ReceiverProcessor

/-!
Whose the parts of a reception session are, whatever the providers answer.

A session is assembled from the signal, its window, an observation and a decode result. The
window is the signal's own; the observation has passed the check against the window's query
and the result the one against the window. So neither the window nor the decode request can
fail once the check before it has passed.
-/

namespace Ns3Factory.ReceiverProcessor

variable [DoubleArithmetic]

/-- Every part of the session is of the signal. -/
structure Provenance (desiredSignal : ReceivedSignal) (session : ReceptionSession) : Prop where
  desired : session.desiredSignal = desiredSignal
  window : session.receiverWindow.desiredSignal = desiredSignal
  receiver : session.reception.receiverNodeId = desiredSignal.receiverNodeId ∧
    session.receiverWindow.receiverNodeId = desiredSignal.receiverNodeId ∧
    session.noiseObservation.receiverNodeId = desiredSignal.receiverNodeId ∧
    session.decodeResult.receiverNodeId = desiredSignal.receiverNodeId
  transmission : session.reception.transmissionId = desiredSignal.transmissionId ∧
    session.decodeResult.transmissionId = desiredSignal.transmissionId
  packet : session.decodeResult.packetId = desiredSignal.emission.packetId
  interval : session.noiseObservation.observedFrom = desiredSignal.firstArrivalAt ∧
    session.noiseObservation.observedUntil = desiredSignal.lastEffectEndAt
  band : session.noiseObservation.lowerFrequencyHz = desiredSignal.lowerFrequencyHz ∧
    session.noiseObservation.upperFrequencyHz = desiredSignal.upperFrequencyHz
  arrival : session.reception.arrivalAt = desiredSignal.firstArrivalAt

lemma Received.provenance {providers : Providers} {desiredSignal : ReceivedSignal}
    {ledger : InFlightSignalLedger} {w : CycleWorkingState} {calls : CallLog}
    {receiverWindow : ReceiverWindow} {receiverState : NodeCommittedState} {query : NoiseQuery}
    {observation : NoiseObservation} {result : RxDecodeResult}
    (h : Received providers desiredSignal ledger w calls receiverWindow receiverState query
      observation result) (receptionId : ReceptionId) :
    Provenance desiredSignal
      (sessionOf desiredSignal receiverWindow observation result receptionId) := by
  obtain ⟨window, hwindow, hdesired, hreceiver, -⟩ := ReceiverWindowBuilder.build_of_mem h.inLedger
  obtain rfl := Except.ok.inj (hwindow.symm.trans h.window)
  subst hdesired
  have hfor := h.isFor
  obtain ⟨hobsReceiver, hfrom, huntil, hlower, hupper⟩ :=
    validateNoiseObservationIdentity_ok.mp h.observes
  obtain ⟨htransmission, hpacket, hresReceiver⟩ := validateRxDecodeResultIdentity_ok.mp h.decodes
  exact
    { desired := rfl
      window := rfl
      receiver := ⟨rfl, hreceiver, hobsReceiver.symm.trans (hfor.receiver.trans hreceiver),
        hresReceiver.trans hreceiver⟩
      transmission := ⟨rfl, htransmission⟩
      packet := hpacket
      interval := ⟨hfrom.symm.trans hfor.observedFrom, huntil.symm.trans hfor.observedUntil⟩
      band := ⟨hlower.symm.trans hfor.lower, hupper.symm.trans hfor.upper⟩
      arrival := rfl }

/-- **Reception provenance.** A session that is returned is of a signal in the ledger, and so
is every part of it. Processing queries the noise at most once and decodes at most once, with a
request that was validated. The window of a signal in the ledger and the decode request of a
matching observation are always created. -/
theorem processReceivedSignal_provenance (providers : Providers)
    (desiredSignal : ReceivedSignal) (ledger : InFlightSignalLedger) (w : CycleWorkingState)
    (services : Services) :
    let outcome := processReceivedSignal providers desiredSignal ledger w services
    (∀ session, outcome.1 = .ok session →
      desiredSignal ∈ ledger.signals ∧ Provenance desiredSignal session) ∧
    Asked providers desiredSignal ledger w services.calls outcome.2.calls ∧
    (ledger.contains desiredSignal = true →
      ∃ receiverWindow, ReceiverWindowBuilder.build desiredSignal ledger = .ok receiverWindow) ∧
    ∀ receiverWindow receiverPosition query observation,
      createNoiseQueryForDesiredSignal receiverWindow receiverPosition = .ok query →
      validateNoiseObservationIdentity query observation = .ok () →
      ∃ request, RxDecodeRequest.create receiverWindow observation = .ok request := by
  intro outcome
  refine ⟨?_, ?_, fun hcontains => ?_, fun window position query observation hquery hident => ?_⟩
  · intro session hsession
    rcases processReceivedSignal_ends providers desiredSignal ledger w services with
      ⟨window, state, query, observation, result, id, ids, hreceived, -, hok⟩ |
      ⟨-, e, calls, -, herr⟩
    · have heq : outcome.1 = .ok (sessionOf desiredSignal window observation result id) :=
        congrArg Prod.fst hok
      obtain rfl := Except.ok.inj (heq.symm.trans hsession)
      exact ⟨hreceived.inLedger, hreceived.provenance id⟩
    · have heq : outcome.1 = .error e := congrArg Prod.fst herr
      have := heq.symm.trans hsession
      cases this
  · rcases processReceivedSignal_ends providers desiredSignal ledger w services with
      ⟨window, state, query, observation, result, id, ids, hreceived, -, hok⟩ |
      ⟨-, e, calls, hasked, herr⟩
    · have heq := congrArg (fun r => r.2.calls) hok
      exact heq ▸ .decode hreceived.toObserved hreceived.request
    · have heq := congrArg (fun r => r.2.calls) herr
      exact heq ▸ hasked
  · obtain ⟨window, hwindow, -⟩ :=
      ReceiverWindowBuilder.build_of_mem (InFlightSignalLedger.contains_iff.mp hcontains)
    exact ⟨window, hwindow⟩
  · exact ⟨_, RxDecodeRequest.create_of_validated
      (createNoiseQueryForDesiredSignal_isFor hquery) hident⟩

end Ns3Factory.ReceiverProcessor
