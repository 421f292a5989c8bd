import Ns3Factory.HandlerReordering
import Ns3Factory.KeyedLists
import Ns3Factory.TransmissionFanOut

/-!
What a cycle means.

Nothing here has events, a ledger or a clock. Providers that answer by the request alone stand
for a medium. In a medium each request is sent under an id and heard by its receivers, and each
signal is received among all the signals of the cycle. A receiver is not concerned with the
signals of another one, nor with where other nodes are when it receives.
-/

namespace Ns3Factory

open StdAlgorithm

/-! ### The medium -/

/-- What the providers stand for: the PHYs, the channel and the noise. -/
structure Medium where
  encode : DigitalPacket → TxEncodeRequest → Result TxEmission
  queryChannel : ChannelQuery → Result ChannelFieldResponse
  queryNoise : NoiseQuery → Result NoiseObservation
  decode : RxDecodeRequest → Result RxDecodeResult

/-- The providers answer for a medium, whatever they were asked before. -/
structure Providers.Follow (providers : Providers) (medium : Medium) : Prop where
  encode : ∀ calls packet request,
    providers.encode calls packet request = medium.encode packet request
  queryChannel : ∀ calls query, providers.queryChannel calls query = medium.queryChannel query
  queryNoise : ∀ calls query, providers.queryNoise calls query = medium.queryNoise query
  decode : ∀ calls request, providers.decode calls request = medium.decode request

variable [DoubleArithmetic]

namespace Medium

section Sending

variable (medium : Medium) (w : CycleWorkingState) (request : TransmissionExecutionRequest)

/-- What is heard of an emission: the channel's answer for where the sender and the receiver are
when it starts. -/
structure Hears (emission : TxEmission) (signal : ReceivedSignal) : Prop where
  isOf : signal.emission = emission
  response : ∃ senderState receiverState query,
    w.projectNodeState request.opportunity.senderNodeId request.startedAt = .ok senderState ∧
    w.projectNodeState signal.receiverNodeId request.startedAt = .ok receiverState ∧
    ChannelQuery.create emission.transmissionId request.opportunity.senderNodeId
      signal.receiverNodeId senderState.motion.position receiverState.motion.position
      request.startedAt emission.centerFrequencyHz emission.bandwidthHz = .ok query ∧
    medium.queryChannel query = .ok signal.channelResponse

/-- A request is sent: its packet is encoded under the id of the session, and each candidate
receiver hears it. -/
structure Sends (session : TransmissionSession) : Prop where
  packet : session.packet = request.selectedPacket
  encode : medium.encode request.selectedPacket (TransmissionExecutor.encodeRequest request
    session.transmission.transmissionId) = .ok session.emission
  transmission : session.transmission = ⟨session.transmission.transmissionId,
    request.selectedPacket.packetId, request.opportunity.senderNodeId, request.target,
    request.startedAt, session.transmission.endedAt⟩
  endedAt : session.transmission.endedAt.nanoseconds =
    request.startedAt.nanoseconds + session.emission.duration.nanoseconds
  receivers : (session.receivedSignals.map ReceivedSignal.receiverNodeId).Perm
    request.candidateReceivers
  ascending : Ascending ReceivedSignal.receiverNodeId session.receivedSignals
  hears : ∀ signal ∈ session.receivedSignals, Hears medium w request session.emission signal

end Sending

section Receiving

variable (medium : Medium) (w : CycleWorkingState)

/-- A session has the noise at its receiver, and what the receive PHY makes of its window. -/
structure Observes (session : ReceptionSession) : Prop where
  window : session.receiverWindow.desiredSignal = session.desiredSignal
  noise : ∃ receiverState query,
    w.projectNodeState session.desiredSignal.receiverNodeId
      session.desiredSignal.firstArrivalAt = .ok receiverState ∧
    createNoiseQueryForDesiredSignal session.receiverWindow receiverState.motion.position =
      .ok query ∧
    medium.queryNoise query = .ok session.noiseObservation
  decode : medium.decode ⟨session.receiverWindow, session.noiseObservation⟩ =
    .ok session.decodeResult
  reception : session.reception = ⟨session.reception.receptionId,
    session.desiredSignal.transmissionId, session.desiredSignal.receiverNodeId,
    session.desiredSignal.firstArrivalAt⟩

/-- A signal is received among others: those that overlap it are in its window. -/
structure Receives (signals : List ReceivedSignal) (session : ReceptionSession) : Prop
    extends Observes medium w session where
  desired : session.desiredSignal ∈ signals
  overlapping : ∀ signal, signal ∈ session.receiverWindow.overlappingSignals ↔
    signal ∈ signals ∧ signal ≠ session.desiredSignal ∧ Overlaps session.desiredSignal signal

end Receiving

variable {medium : Medium} {w w' : CycleWorkingState} {request : TransmissionExecutionRequest}

lemma Hears.unique {emission : TxEmission} {signal signal' : ReceivedSignal}
    (h : Hears medium w request emission signal) (h' : Hears medium w request emission signal')
    (hreceiver : signal.receiverNodeId = signal'.receiverNodeId) : signal = signal' := by
  obtain ⟨sender, receiver, query, hsender, hstate, hquery, hresponse⟩ := h.response
  obtain ⟨sender', receiver', query', hsender', hstate', hquery', hresponse'⟩ := h'.response
  rw [← hreceiver] at hstate' hquery'
  obtain rfl := Except.ok.inj (hsender.symm.trans hsender')
  obtain rfl := Except.ok.inj (hstate.symm.trans hstate')
  obtain rfl := Except.ok.inj (hquery.symm.trans hquery')
  have hsame := Except.ok.inj (hresponse.symm.trans hresponse')
  have hemission := h.isOf.trans h'.isOf.symm
  obtain ⟨emission, response, _, _, _⟩ := signal
  obtain ⟨emission', response', _, _, _⟩ := signal'
  dsimp only at hsame hemission
  subst hsame hemission
  rfl

lemma Sends.unique {session session' : TransmissionSession}
    (h : Sends medium w request session) (h' : Sends medium w request session')
    (hid : session.transmission.transmissionId = session'.transmission.transmissionId) :
    session = session' := by
  have hemission : session.emission = session'.emission := by
    have hencode := h'.encode
    rw [← hid, h.encode] at hencode
    exact Except.ok.inj hencode
  have hended : session.transmission.endedAt = session'.transmission.endedAt := by
    have hends := h.endedAt
    rw [hemission, ← h'.endedAt] at hends
    exact SimTime.nanoseconds_injective hends
  have hheard : ∀ {a b : TransmissionSession}, Sends medium w request a →
      Sends medium w request b → a.emission = b.emission →
      ∀ signal ∈ a.receivedSignals, signal ∈ b.receivedSignals := by
    intro a b ha hb hab signal hsignal
    have hreceiver : signal.receiverNodeId ∈
        b.receivedSignals.map ReceivedSignal.receiverNodeId :=
      (ha.receivers.trans hb.receivers.symm).mem_iff.mp (List.mem_map_of_mem hsignal)
    obtain ⟨signal', hsignal', heq⟩ := List.mem_map.mp hreceiver
    have hears := ha.hears signal hsignal
    rw [hab] at hears
    rwa [hears.unique (hb.hears signal' hsignal') heq.symm]
  have hsignals : session.receivedSignals = session'.receivedSignals :=
    Ascending.eq_of_mem_iff h.ascending h'.ascending fun signal =>
      ⟨hheard h h' hemission signal, hheard h' h hemission.symm signal⟩
  have htransmission : session.transmission = session'.transmission := by
    rw [h.transmission, h'.transmission, hid, hended]
  have hpacket : session.packet = session'.packet := h.packet.trans h'.packet.symm
  obtain ⟨packet, transmission, emission, signals⟩ := session
  obtain ⟨packet', transmission', emission', signals'⟩ := session'
  dsimp only at hpacket htransmission hemission hsignals
  rw [hpacket, htransmission, hemission, hsignals]

omit [DoubleArithmetic] in
lemma window_eq {window window' : ReceiverWindow}
    (hdesired : window.desiredSignal = window'.desiredSignal)
    (hmem : ∀ signal, signal ∈ window.overlappingSignals ↔
      signal ∈ window'.overlappingSignals) : window = window' := by
  have hoverlapping : window.overlappingSignals = window'.overlappingSignals :=
    Ascending.eq_of_mem_iff window.ascending window'.ascending hmem
  obtain ⟨receiver, desired, overlapping, hreceiver, _, _, _⟩ := window
  obtain ⟨receiver', desired', overlapping', hreceiver', _, _, _⟩ := window'
  dsimp only at hdesired hoverlapping
  subst hdesired hoverlapping hreceiver hreceiver'
  rfl

lemma Receives.eraseId_eq {signals signals' : List ReceivedSignal}
    {session session' : ReceptionSession} (h : Receives medium w signals session)
    (h' : Receives medium w' signals' session')
    (hdesired : session.desiredSignal = session'.desiredSignal)
    (hat : w.projectNodeState session.desiredSignal.receiverNodeId
        session.desiredSignal.firstArrivalAt =
      w'.projectNodeState session.desiredSignal.receiverNodeId
        session.desiredSignal.firstArrivalAt)
    (hsignals : ∀ signal, signal.receiverNodeId = session.desiredSignal.receiverNodeId →
      (signal ∈ signals ↔ signal ∈ signals')) : session.eraseId = session'.eraseId := by
  have hwindow : session.receiverWindow = session'.receiverWindow := by
    refine window_eq ?_ fun signal => ?_
    · rw [h.window, h'.window, hdesired]
    · rw [h.overlapping, h'.overlapping, ← hdesired]
      constructor
      · rintro ⟨hmem, hrest⟩
        exact ⟨(hsignals signal hrest.2.receiver).mp hmem, hrest⟩
      · rintro ⟨hmem, hrest⟩
        exact ⟨(hsignals signal hrest.2.receiver).mpr hmem, hrest⟩
  have hnoise : session.noiseObservation = session'.noiseObservation := by
    obtain ⟨state, query, hstate, hquery, hanswer⟩ := h.noise
    obtain ⟨state', query', hstate', hquery', hanswer'⟩ := h'.noise
    rw [← hdesired, ← hat] at hstate'
    rw [← hwindow] at hquery'
    obtain rfl := Except.ok.inj (hstate.symm.trans hstate')
    obtain rfl := Except.ok.inj (hquery.symm.trans hquery')
    exact Except.ok.inj (hanswer.symm.trans hanswer')
  have hresult : session.decodeResult = session'.decodeResult := by
    have hdecode := h'.decode
    rw [← hwindow, ← hnoise, h.decode] at hdecode
    exact Except.ok.inj hdecode
  have hreception := h.reception
  have hreception' := h'.reception
  obtain ⟨reception, desired, window, observation, result⟩ := session
  obtain ⟨reception', desired', window', observation', result'⟩ := session'
  dsimp only at hdesired hwindow hnoise hresult hreception hreception'
  subst hdesired hwindow hnoise hresult
  simp only [ReceptionSession.eraseId]
  rw [hreception, hreception']

end Medium

/-! ### The meaning of a cycle -/

lemma CycleWorkingState.Projects.unique {w : CycleWorkingState} {queryTime : SimTime}
    {nodes nodes' : List NodeCommittedState} (h : w.Projects queryTime nodes)
    (h' : w.Projects queryTime nodes') : nodes = nodes' := by
  unfold CycleWorkingState.Projects at h h'
  generalize w.baseSnapshot.nodes = baseNodes at h h'
  induction h generalizing nodes' with
  | nil =>
    cases h'
    rfl
  | cons hfirst _ ih =>
    rcases h' with _ | ⟨hfirst', hrest'⟩
    rw [Except.ok.inj (hfirst.symm.trans hfirst'), ih hrest']

/-- What a cycle has made: sessions for its requests, receptions, and a snapshot. -/
structure CycleOutcome where
  sessions : List (TransmissionExecutionRequest × TransmissionSession)
  receptions : List ReceptionSession
  snapshot : WorldSnapshot

namespace CycleOutcome

/-- The signals of all sessions. -/
def signals (outcome : CycleOutcome) : List ReceivedSignal :=
  outcome.sessions.flatMap fun p => p.2.receivedSignals

/-- The receptions at one node. -/
def receptionsAt (outcome : CycleOutcome) (nodeId : NodeId) : List ReceptionSession :=
  outcome.receptions.filter fun session => session.desiredSignal.receiverNodeId = nodeId

/-- The signals at one node. -/
def signalsAt (outcome : CycleOutcome) (nodeId : NodeId) : List ReceivedSignal :=
  outcome.signals.filter fun signal => signal.receiverNodeId = nodeId

/-- The medium makes this of the requests: each is sent under the next id, each signal is
received once, and the nodes are where they are at the close. -/
structure Means (medium : Medium) (w : CycleWorkingState) (firstId : ℕ)
    (requests : List TransmissionExecutionRequest) (closeTime : SimTime)
    (outcome : CycleOutcome) : Prop where
  requests : outcome.sessions.map Prod.fst = requests
  ids : outcome.sessions.map (fun p => p.2.transmission.transmissionId.value.val) =
    List.range' firstId outcome.sessions.length
  sends : ∀ p ∈ outcome.sessions, medium.Sends w p.1 p.2
  desired : (outcome.receptions.map ReceptionSession.desiredSignal).Perm outcome.signals
  receives : ∀ session ∈ outcome.receptions, medium.Receives w outcome.signals session
  version : outcome.snapshot.version.value.val = w.baseSnapshot.version.value.val + 1
  committedAt : outcome.snapshot.committedAt = closeTime
  nodes : w.Projects closeTime outcome.snapshot.nodes

variable {medium : Medium} {w w' : CycleWorkingState} {firstId : ℕ}
  {requests : List TransmissionExecutionRequest} {closeTime : SimTime}
  {outcome outcome' : CycleOutcome}

lemma sessions_eq {ids : List ℕ}
    {sessions sessions' : List (TransmissionExecutionRequest × TransmissionSession)}
    (hsends : ∀ p ∈ sessions, medium.Sends w p.1 p.2)
    (hsends' : ∀ p ∈ sessions', medium.Sends w p.1 p.2)
    (hrequests : sessions.map Prod.fst = sessions'.map Prod.fst)
    (hids : sessions.map (fun p => p.2.transmission.transmissionId.value.val) = ids)
    (hids' : sessions'.map (fun p => p.2.transmission.transmissionId.value.val) = ids) :
    sessions = sessions' := by
  induction sessions generalizing sessions' ids with
  | nil =>
    have hnil : sessions' = [] := by simpa using hrequests.symm
    rw [hnil]
  | cons p rest ih =>
    rcases sessions' with _ | ⟨p', rest'⟩
    · cases hrequests
    subst hids
    simp only [List.map_cons, List.cons.injEq] at hrequests hids'
    obtain ⟨hfirst, hrest⟩ := List.forall_mem_cons.mp hsends
    obtain ⟨hfirst', hrest'⟩ := List.forall_mem_cons.mp hsends'
    rw [← hrequests.1] at hfirst'
    have hid : p'.2.transmission.transmissionId = p.2.transmission.transmissionId :=
      StrongId.value_injective (Fin.ext hids'.1)
    have hsession := hfirst.unique hfirst' hid.symm
    rw [Prod.ext hrequests.1 hsession, ih hrest hrest' hrequests.2 rfl hids'.2]

lemma Means.receptionsAt_perm {firstId' : ℕ} {requests' : List TransmissionExecutionRequest}
    {closeTime' : SimTime} (h : outcome.Means medium w firstId requests closeTime)
    (h' : outcome'.Means medium w' firstId' requests' closeTime') {nodeId : NodeId}
    (hsignals : (outcome.signalsAt nodeId).Perm (outcome'.signalsAt nodeId))
    (hat : ∀ signal ∈ outcome.signalsAt nodeId,
      w.projectNodeState nodeId signal.firstArrivalAt =
        w'.projectNodeState nodeId signal.firstArrivalAt) :
    ((outcome.receptionsAt nodeId).map ReceptionSession.eraseId).Perm
      ((outcome'.receptionsAt nodeId).map ReceptionSession.eraseId) := by
  have hdesired : ∀ {o : CycleOutcome},
      (o.receptions.map ReceptionSession.desiredSignal).Perm o.signals →
      ((o.receptionsAt nodeId).map ReceptionSession.desiredSignal).Perm (o.signalsAt nodeId) := by
    intro o hperm
    have hfilter := hperm.filter fun signal => signal.receiverNodeId = nodeId
    rwa [List.filter_map] at hfilter
  have hmem : ∀ {o : CycleOutcome} {signal : ReceivedSignal},
      signal ∈ o.signalsAt nodeId ↔ signal ∈ o.signals ∧ signal.receiverNodeId = nodeId := by
    simp [signalsAt]
  have hkeys := (hdesired h.desired).trans (hsignals.trans (hdesired h'.desired).symm)
  refine perm_map_of_perm_map hkeys fun session hsession session' hsession' heq => ?_
  obtain ⟨hsession, hnode⟩ := List.mem_filter.mp hsession
  have hreceives := h.receives session hsession
  have hreceives' := h'.receives session' (List.mem_filter.mp hsession').1
  obtain rfl : session.desiredSignal.receiverNodeId = nodeId := of_decide_eq_true hnode
  refine hreceives.eraseId_eq hreceives' heq ?_ fun signal hreceiver => ?_
  · exact hat _ (hmem.mpr ⟨hreceives.desired, rfl⟩)
  · have hiff := hsignals.mem_iff (a := signal)
    rwa [hmem, hmem, and_iff_left hreceiver, and_iff_left hreceiver] at hiff

lemma Means.unique (h : outcome.Means medium w firstId requests closeTime)
    (h' : outcome'.Means medium w firstId requests closeTime) :
    outcome.sessions = outcome'.sessions ∧
      (outcome.receptions.map ReceptionSession.eraseId).Perm
        (outcome'.receptions.map ReceptionSession.eraseId) ∧
      outcome.snapshot = outcome'.snapshot := by
  have hsessions : outcome.sessions = outcome'.sessions := by
    have hrequests := h.requests.trans h'.requests.symm
    have hlength := congrArg List.length hrequests
    rw [List.length_map, List.length_map] at hlength
    exact sessions_eq h.sends h'.sends hrequests h.ids (hlength ▸ h'.ids)
  have hsignals : outcome.signals = outcome'.signals := by simp only [signals, hsessions]
  refine ⟨hsessions, ?_, ?_⟩
  · have hkeys := h.desired.trans ((List.Perm.of_eq hsignals).trans h'.desired.symm)
    refine perm_map_of_perm_map hkeys fun session hsession session' hsession' heq => ?_
    exact (h.receives session hsession).eraseId_eq (h'.receives session' hsession') heq rfl
      fun signal _ => by rw [hsignals]
  · have hversion : outcome.snapshot.version = outcome'.snapshot.version :=
      StrongId.value_injective (Fin.ext (h.version.trans h'.version.symm))
    have hat := h.committedAt.trans h'.committedAt.symm
    have hnodes : outcome.snapshot.nodes = outcome'.snapshot.nodes := h.nodes.unique h'.nodes
    rcases ho : outcome.snapshot with ⟨version, committedAt, nodes, ascending⟩
    rcases ho' : outcome'.snapshot with ⟨version', committedAt', nodes', ascending'⟩
    rw [ho, ho'] at hversion hat hnodes
    dsimp only at hversion hat hnodes
    subst hversion hat hnodes
    rfl

end CycleOutcome

end Ns3Factory
