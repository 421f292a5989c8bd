import Ns3Factory.CallbackEffects
import Ns3Factory.CycleMeaning
import Ns3Factory.SendConservation
import Ns3Factory.WindowCompleteness

/-!
A cycle that completes has the meaning of its requests.

The dispatcher, the ledger and the order of the handlers are how the cycle is run. What it has
made at its end is what the medium makes of the requests in the order they were started, with
the windows taken among all signals of the cycle. So a node receives the same in two cycles that
bring it the same signals, whatever else is sent in them.
-/

namespace Ns3Factory

open StdAlgorithm Transition

variable {providers : Providers} {medium : Medium}

section

variable [DoubleArithmetic]

/-! ### What the handlers make -/

lemma Medium.sends_of_ok (hproviders : providers.Follow medium) {w : CycleWorkingState}
    {request : TransmissionExecutionRequest} {services last : Services}
    {session : TransmissionSession}
    (h : TransmissionExecutor.executeTransmission providers w request services =
      (.ok session, last)) : medium.Sends w request session := by
  obtain ⟨-, -, -, -, hemitted, hpacket, htransmission, -⟩ :=
    TransmissionExecutor.executeTransmission_parts h
  have hexecuted := TransmissionExecutor.executeTransmission_ok h
  have hagrees := TransmissionExecutor.agrees_of_ok h
  have hperm := sort_perm (fun lhs rhs : NodeId => lhs < rhs) request.candidateReceivers
  refine
    { packet := hpacket
      encode := by rw [← hproviders.encode services.calls]; exact hemitted.encode
      transmission := htransmission
      endedAt := ?_
      receivers := by rw [hexecuted.receivers]; exact hperm
      ascending := ?_
      hears := fun signal hsignal => ?_ }
  · exact hexecuted.endedAt
  · have hascending : Ascending id (TransmissionExecutor.sortedCandidates request) :=
      sort_ascending (by simp) hexecuted.nodup
    rw [← hexecuted.receivers] at hascending
    exact List.pairwise_map.mp hascending
  · obtain ⟨hemission, sender, receiver, query, log, hsender, hreceiver, hquery, hanswer⟩ :=
      TransmissionExecutor.derived_of_ok h hsignal
    rw [hagrees.sender.1, hagrees.startedAt.1] at hsender
    rw [hagrees.startedAt.1] at hreceiver
    rw [hagrees.sender.1, hagrees.startedAt.1, ← hagrees.transmissionId] at hquery
    rw [hproviders.queryChannel] at hanswer
    exact ⟨hemission, sender, receiver, query, hsender, hreceiver, hquery, hanswer⟩

lemma Medium.observes_of_received (hproviders : providers.Follow medium)
    {w : CycleWorkingState} {signal : ReceivedSignal} {ledger : InFlightSignalLedger}
    {calls : CallLog} {window : ReceiverWindow} {state : NodeCommittedState}
    {query : NoiseQuery} {observation : NoiseObservation} {result : RxDecodeResult}
    (h : ReceiverProcessor.Received providers signal ledger w calls window state query observation
      result) (receptionId : ReceptionId) :
    medium.Observes w
      (ReceiverProcessor.sessionOf signal window observation result receptionId) := by
  obtain ⟨window', hwindow, hdesired, -⟩ := ReceiverWindowBuilder.build_of_mem h.inLedger
  obtain rfl := Except.ok.inj (hwindow.symm.trans h.window)
  have hanswer := h.answered
  have hdecoded := h.decoded
  rw [hproviders.queryNoise] at hanswer
  rw [hproviders.decode] at hdecoded
  exact ⟨hdesired, ⟨state, query, h.state, h.created, hanswer⟩, hdecoded, rfl⟩

end

namespace SignalLifecycle

section

variable [DoubleArithmetic]

/-- What a cycle has made so far. -/
def outcome (c : SignalLifecycle) : CycleOutcome :=
  ⟨c.sessions, c.runtime.results.sessions, c.runtime.store.currentSnapshot⟩

/-- All that was made so far was made in the medium, over one working state. -/
structure Made (medium : Medium) (w : CycleWorkingState) (r : CycleSignalRuntime)
    (sessions : List (TransmissionExecutionRequest × TransmissionSession)) : Prop where
  workingState : r.workingState = w
  sends : ∀ p ∈ sessions, medium.Sends w p.1 p.2
  observes : ∀ session ∈ r.results.sessions, medium.Observes w session

lemma Made.called (hproviders : providers.Follow medium) {w : CycleWorkingState}
    {r r' : CycleSignalRuntime}
    {sessions sessions' : List (TransmissionExecutionRequest × TransmissionSession)}
    {event : CycleEvent} (h : Made medium w r sessions)
    (hcalled : Called providers r sessions event r' sessions') :
    Made medium w r' sessions' := by
  cases hcalled with
  | refused | unsent | arrived | unprocessed | closed =>
    exact ⟨h.workingState, h.sends, h.observes⟩
  | sent request session last hexec =>
    rw [h.workingState] at hexec
    refine ⟨h.workingState, ?_, h.observes⟩
    rw [List.forall_mem_append, List.forall_mem_singleton]
    exact ⟨h.sends, Medium.sends_of_ok hproviders hexec⟩
  | processed signal session last hproc =>
    rcases ReceiverProcessor.processReceivedSignal_ends providers signal r.ledger r.workingState
        r.services with
      ⟨window, state, query, observation, result, id, ids, hreceived, -, hok⟩ |
      ⟨-, e, calls, -, herr⟩
    swap
    · rw [hproc] at herr
      cases herr
    rw [hproc] at hok
    cases hok
    refine ⟨h.workingState, h.sends, fun added hadded => ?_⟩
    rcases List.mem_cons.mp ((r.results.append_perm _).mem_iff.mp hadded) with rfl | hadded
    · rw [← h.workingState]
      exact Medium.observes_of_received hproviders hreceived id
    · exact h.observes added hadded

/-! ### Completed cycles -/

/-- `c` is the end of a cycle over a working state: its only `Run` has returned success, it was
committed, and nothing it shares with the platform was changed. -/
structure Ended (providers : Providers) (services : Services) (workingState : CycleWorkingState)
    (cycleCloseTime : SimTime) (c : SignalLifecycle) : Prop where
  completes : ∃ firstSequence now store expectedVersion moves run, (0 ≤ now ∧ now ≤ kMax) ∧
    Completes providers
      (init firstSequence now services workingState store expectedVersion cycleCloseTime) moves
      run c ∧
    ∀ m ∈ moves, m.isChange = false
  committed : c.runtime.committed = true

lemma Ended.means (hproviders : providers.Follow medium) {services : Services}
    {workingState : CycleWorkingState} {cycleCloseTime : SimTime} {c : SignalLifecycle}
    (h : Ended providers services workingState cycleCloseTime c) :
    c.outcome.Means medium workingState services.ids.transmissionIdsTaken
      (startedOf c.system.executed) cycleCloseTime := by
  obtain ⟨firstSequence, now, store, expectedVersion, moves, run, hnow, hcompletes, hmoves⟩ :=
    h.completes
  have hall : ∀ m ∈ moves ++ [.finishRun], m.isChange = false :=
    List.forall_mem_append.mpr ⟨hmoves, List.forall_mem_singleton.mpr rfl⟩
  obtain ⟨-, -, htracked, ⟨hsent, hwindows⟩, hfinished, harrived, hfinalized⟩ :=
    hcompletes.invariant (P := fun c => Sent services c ∧ Windows c)
      (A := fun m => m.isChange = false)
      (fun c m c' hsound hw ht hP hm hok hstep => ⟨hP.1.step hsound hm hok hstep,
        hP.2.step hsound hw ht hok hstep⟩)
      (System.sound_init firstSequence hnow)
      (wired_init firstSequence services workingState store expectedVersion cycleCloseTime)
      (tracked_init firstSequence services workingState store expectedVersion cycleCloseTime)
      ⟨sent_init firstSequence now services workingState store expectedVersion cycleCloseTime,
        by intro session hsession; cases hsession⟩ hall
  have hmade := leads_of_called (P := Made medium workingState)
    (fun _ _ _ _ _ h hcalled => h.called hproviders hcalled)
    ⟨rfl, (by simp [init]), by intro session hsession; cases hsession⟩ hall hcompletes.leads
  obtain ⟨delta, hdelta, hcommit⟩ := (stands_of_leads hall hcompletes.leads).after h.committed
  obtain ⟨haccepts, hcommitted⟩ := CommitService.committed_of_ok hcommit
  obtain ⟨-, -, hbase, hat, hproject⟩ := CycleWorkingState.finalizeDeltaSet_ok.mp hdelta
  refine
    { requests := by rw [← hfinished]; exact hsent.started
      ids := hsent.ids
      sends := hmade.sends
      desired := htracked.results.trans (hfinished ▸ hfinalized)
      receives := fun session hsession => ⟨hmade.observes session hsession, ?_, ?_⟩
      version := by rw [← hbase, haccepts.base]; exact hcommitted.version
      committedAt := hcommitted.committedAt.trans hat
      nodes := by rw [← hcommitted.nodes] at hproject; exact hproject }
  · have hmem := htracked.results.mem_iff.mp (List.mem_map_of_mem hsession)
    rw [hfinished] at hmem
    exact hfinalized.mem_iff.mp hmem
  · intro signal
    rw [(hwindows session hsession).2 signal, hfinished, harrived.mem_iff]
    rfl

/-- **A completed cycle has the meaning of its requests**, in the order they were started, and
that has no other outcome but for the reception ids. The providers may stand for any medium. -/
theorem cycle_means (hproviders : providers.Follow medium) {services : Services}
    {workingState : CycleWorkingState} {cycleCloseTime : SimTime} {c : SignalLifecycle}
    (h : Ended providers services workingState cycleCloseTime c) :
    c.outcome.Means medium workingState services.ids.transmissionIdsTaken
        (startedOf c.system.executed) cycleCloseTime ∧
      ∀ outcome : CycleOutcome, outcome.Means medium workingState
          services.ids.transmissionIdsTaken (startedOf c.system.executed) cycleCloseTime →
        outcome.sessions = c.sessions ∧
        (outcome.receptions.map ReceptionSession.eraseId).Perm
          (c.runtime.results.sessions.map ReceptionSession.eraseId) ∧
        outcome.snapshot = c.runtime.store.currentSnapshot :=
  ⟨h.means hproviders, fun _ houtcome => houtcome.unique (h.means hproviders)⟩

end

open ReceiverProcessor

/-- The medium these providers stand for. -/
def bandMedium (centerFrequencyHz bandwidthHz : Double) : Medium :=
  let providers := bandProviders centerFrequencyHz bandwidthHz
  let calls : CallLog := ⟨[], [], [], []⟩
  ⟨providers.encode calls, providers.queryChannel calls, providers.queryNoise calls,
    providers.decode calls⟩

lemma follow_bandProviders (centerFrequencyHz bandwidthHz : Double) :
    (bandProviders centerFrequencyHz bandwidthHz).Follow
      (bandMedium centerFrequencyHz bandwidthHz) :=
  ⟨fun _ _ _ => rfl, fun _ _ => rfl, fun _ _ => rfl, fun _ _ => rfl⟩

theorem cycle_means_pair :
    ∃ c : SignalLifecycle, Ended (bandProviders 1000 100) CycleSignalRuntime.freshServices
        pairWorkingState (.ofUInt32 9) c ∧ c.runtime.results.sessions.length = 2 ∧
      c.outcome.Means (bandMedium 1000 100) pairWorkingState 0 (startedOf c.system.executed)
        (.ofUInt32 9) := by
  obtain ⟨run, c, h, hcommitted, hsessions⟩ := pairMoves_completes
  have hended : Ended (bandProviders 1000 100) CycleSignalRuntime.freshServices
      pairWorkingState (.ofUInt32 9) c :=
    ⟨⟨_, _, _, _, _, run, by decide, h, by simp [pairMoves, Move.isChange]⟩, hcommitted⟩
  exact ⟨c, hended, by simpa using congrArg List.length hsessions,
    (cycle_means (follow_bandProviders 1000 100) hended).1⟩

/-- **Receivers are isolated.** In two completed cycles that bring a node the same signals while
it moves the same way, its receptions are the same but for their ids: it does not matter what is
sent to other nodes, which requests there are, when the cycles close, and in which order the
dispatchers have taken the events. -/
theorem receivers_isolated [DoubleArithmetic] {providers' : Providers}
    (hproviders : providers.Follow medium) (hproviders' : providers'.Follow medium)
    {services services' : Services}
    {workingState workingState' : CycleWorkingState} {cycleCloseTime cycleCloseTime' : SimTime}
    {c c' : SignalLifecycle} (h : Ended providers services workingState cycleCloseTime c)
    (h' : Ended providers' services' workingState' cycleCloseTime' c') {nodeId : NodeId}
    (hsignals : (c.outcome.signalsAt nodeId).Perm (c'.outcome.signalsAt nodeId))
    (hat : ∀ signal ∈ c.outcome.signalsAt nodeId,
      workingState.projectNodeState nodeId signal.firstArrivalAt =
        workingState'.projectNodeState nodeId signal.firstArrivalAt) :
    ((c.outcome.receptionsAt nodeId).map ReceptionSession.eraseId).Perm
      ((c'.outcome.receptionsAt nodeId).map ReceptionSession.eraseId) := by
  have hmeans := h.means hproviders
  have hmeans' := h'.means hproviders'
  exact hmeans.receptionsAt_perm hmeans' hsignals hat

/-- Node 1 sends to node 0 as well. -/
def replyRequest : TransmissionExecutionRequest where
  opportunity := ⟨⟨1⟩, .ofUInt32 0⟩
  selectedPacket := ⟨⟨1⟩, ⟨1⟩, .broadcast, []⟩
  target := .broadcast
  startedAt := .ofUInt32 0
  candidateReceivers := [⟨0⟩]

/-- The two transmissions to node 1, and then the one to node 0. -/
def replyMoves : List Move :=
  let at0 : SimTime := .ofUInt32 0
  let threeCallbacks := [.next, .callback, .next, .callback, .next, .callback, .next]
  [.schedule (.ofUInt32 9) .cycleClose, .schedule at0 (.txStart pairRequest),
    .schedule at0 (.txStart pairRequest), .schedule at0 (.txStart replyRequest), .run,
    .fire ⟨0, at0⟩] ++ threeCallbacks ++
    .fire ⟨1, .ofUInt32 1⟩ :: threeCallbacks ++ .fire ⟨2, .ofUInt32 2⟩ :: threeCallbacks ++
    [.fire ⟨9, .ofUInt32 9⟩, .next, .callback, .next]

lemma replyMoves_completes :
    ∃ c c' : SignalLifecycle,
      Ended (bandProviders 1000 100) CycleSignalRuntime.freshServices pairWorkingState
        (.ofUInt32 9) c ∧
      Ended (bandProviders 1000 100) CycleSignalRuntime.freshServices pairWorkingState
        (.ofUInt32 9) c' ∧
      c.sessions.length = 2 ∧ c'.sessions.length = 3 ∧
      c.outcome.signalsAt ⟨1⟩ = c'.outcome.signalsAt ⟨1⟩ := by
  let last (moves : List Move) : Option SignalLifecycle :=
    run (step (bandProviders 1000 100)) pairInit (moves ++ [.finishRun])
  let seen (c : SignalLifecycle) :=
    (c.system.runs.map fun run => Result.succeeded run.result, c.runtime.committed,
      c.outcome.signalsAt ⟨1⟩)
  have hseen : (last pairMoves).map seen = (last replyMoves).map seen := by decide +kernel
  have hpair : (last pairMoves).map (fun c => ((seen c).1, (seen c).2.1, c.sessions.length)) =
      some ([true], true, 2) := by decide +kernel
  have hreply : (last replyMoves).map (fun c => c.sessions.length) = some 3 := by decide +kernel
  obtain ⟨c, hc, hval⟩ := Option.map_eq_some_iff.mp hpair
  obtain ⟨c', hc', hlength'⟩ := Option.map_eq_some_iff.mp hreply
  rw [hc, hc'] at hseen
  simp only [Option.map_some, Option.some.injEq, seen, Prod.mk.injEq] at hseen hval
  obtain ⟨hruns, hcommitted, hlength⟩ := hval
  obtain ⟨hruns', hcommitted', hsignals⟩ := hseen
  have hended : ∀ {moves : List Move} {c : SignalLifecycle}, last moves = some c →
      (c.system.runs.map fun run => Result.succeeded run.result) = [true] →
      c.runtime.committed = true → (∀ m ∈ moves, m.isChange = false) →
      Ended (bandProviders 1000 100) CycleSignalRuntime.freshServices pairWorkingState
        (.ofUInt32 9) c := by
    intro moves c hc hruns hcommitted hmoves
    obtain ⟨run, hsingle, hsucceeded⟩ := List.map_eq_singleton_iff.mp hruns
    refine ⟨⟨_, _, _, _, moves, run, by decide, ⟨hc, hsingle, ?_⟩, hmoves⟩, hcommitted⟩
    rcases hres : run.result with e | u
    · rw [hres] at hsucceeded; cases hsucceeded
    · rfl
  refine ⟨c, c', hended hc hruns hcommitted (by simp [pairMoves, Move.isChange]),
    hended hc' (hruns'.symm.trans hruns) (hcommitted'.symm.trans hcommitted)
      (by simp [replyMoves, Move.isChange]), hlength, hlength', hsignals⟩

theorem receivers_isolated_reply :
    ∃ c c' : SignalLifecycle, c.sessions.length = 2 ∧ c'.sessions.length = 3 ∧
      ((c.outcome.receptionsAt ⟨1⟩).map ReceptionSession.eraseId).Perm
        ((c'.outcome.receptionsAt ⟨1⟩).map ReceptionSession.eraseId) := by
  obtain ⟨c, c', h, h', hlength, hlength', hsignals⟩ := replyMoves_completes
  exact ⟨c, c', hlength, hlength', receivers_isolated (follow_bandProviders 1000 100)
    (follow_bandProviders 1000 100) h h' (List.Perm.of_eq hsignals) fun _ _ => rfl⟩

end SignalLifecycle

end Ns3Factory
