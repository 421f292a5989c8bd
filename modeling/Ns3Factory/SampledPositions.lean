import Ns3Factory.ClosableCycle
import Ns3Factory.MidSignalMotion

/-!
The places that the providers are asked about.

A channel query has the places of its sender and its receiver when the transmission starts, a
noise query the place of its receiver at the first arrival. Each is on the trajectory its node
has followed so far. Where the calls come in the order of their times, later updates turn the
node no earlier than that, so that it is on the trajectory the node has followed in the end.
-/

namespace Ns3Factory

open StdAlgorithm Transition Trajectory

/-- Where a node is at a time. -/
structure Place where
  nodeId : NodeId
  time : SimTime
  position : Position3d

def ChannelQuery.places (query : ChannelQuery) : List Place :=
  [⟨query.senderNodeId, query.emittedAt, query.txPosition⟩,
    ⟨query.receiverNodeId, query.emittedAt, query.rxPosition⟩]

def NoiseQuery.place (query : NoiseQuery) : Place :=
  ⟨query.receiverNodeId, query.observedFrom, query.receiverPosition⟩

/-- The places in some queries. -/
def placesOf (channelQueries : List ChannelQuery) (noiseQueries : List NoiseQuery) :
    List Place :=
  channelQueries.flatMap ChannelQuery.places ++ noiseQueries.map NoiseQuery.place

lemma mem_placesOf_append {place : Place} {channel channel' : List ChannelQuery}
    {noise noise' : List NoiseQuery} :
    place ∈ placesOf (channel ++ channel') (noise ++ noise') ↔
      place ∈ placesOf channel noise ∨ place ∈ placesOf channel' noise' := by
  simp only [placesOf, List.flatMap_append, List.map_append, List.mem_append]
  tauto

/-- The working state projects the node of the place there. -/
def CycleWorkingState.Places (w : CycleWorkingState) (place : Place) : Prop :=
  ∃ state, w.projectNodeState place.nodeId place.time = .ok state ∧
    state.motion.position = place.position

/-- The calls made between two logs are these queries, for places up to a time that the working
state knows. -/
structure Probes (w : CycleWorkingState) (time : SimTime) (earlier later : CallLog)
    (channelQueries : List ChannelQuery) (noiseQueries : List NoiseQuery) : Prop where
  channel : later.channelQueries = earlier.channelQueries ++ channelQueries
  noise : later.noiseQueries = earlier.noiseQueries ++ noiseQueries
  placed : ∀ place ∈ placesOf channelQueries noiseQueries, place.time ≤ time ∧ w.Places place

lemma probes_nothing (w : CycleWorkingState) (time : SimTime) {earlier later : CallLog}
    (hchannel : later.channelQueries = earlier.channelQueries)
    (hnoise : later.noiseQueries = earlier.noiseQueries) :
    Probes w time earlier later [] [] where
  channel := by rw [hchannel, List.append_nil]
  noise := by rw [hnoise, List.append_nil]
  placed := by simp [placesOf]

/-! ### The queries of a call -/

namespace TransmissionExecutor

lemma IsQuery.places {transmissionId : TransmissionId} {senderNodeId : NodeId}
    {senderPosition : Position3d} {startedAt : SimTime} {emission : TxEmission}
    {receiverState : NodeCommittedState} {query : ChannelQuery}
    (h : IsQuery transmissionId senderNodeId senderPosition startedAt emission receiverState
      query) :
    query.places = [⟨senderNodeId, startedAt, senderPosition⟩,
      ⟨receiverState.nodeId, startedAt, receiverState.motion.position⟩] := by
  unfold IsQuery ChannelQuery.create at h
  split_ifs at h
  cases h
  rfl

lemma executeTransmission_probes (providers : Providers) (w : CycleWorkingState)
    (request : TransmissionExecutionRequest) (services : Services) :
    ∃ queries, Probes w request.startedAt services.calls
      (executeTransmission providers w request services).2.calls queries [] := by
  rcases executeTransmission_cases providers w request services with
    ⟨senderState, receiverStates, hchecked, htransmit⟩ | ⟨-, e, herr⟩
  swap
  · exact ⟨[], by rw [herr]; exact probes_nothing w _ rfl rfl⟩
  rw [htransmit]
  rcases transmit_cases providers request senderState receiverStates services with
    ⟨-, herr⟩ | ⟨transmissionId, ids, e, -, herr⟩ |
    ⟨transmissionId, ids, emission, endedAt, -, hfan⟩
  · exact ⟨[], by rw [herr]; exact probes_nothing w _ rfl rfl⟩
  · exact ⟨[], by rw [herr]; exact probes_nothing w _ rfl rfl⟩
  obtain ⟨result, asked, rest, queries, hstates, hspec, hasked, -, -⟩ :=
    fanOut_spec providers transmissionId request.opportunity.senderNodeId
      senderState.motion.position request.startedAt emission receiverStates
      (encoded services.calls request.selectedPacket (encodeRequest request transmissionId))
  have hlog : (transmit providers request senderState receiverStates services).2.calls =
      queried (encoded services.calls request.selectedPacket
        (encodeRequest request transmissionId)) queries := by
    rw [hfan, hspec]
    rcases result with e | signals <;> rfl
  refine ⟨queries, by rw [hlog]; rfl, by rw [hlog]; simp [queried, encoded], ?_⟩
  intro place hplace
  simp only [placesOf, List.map_nil, List.append_nil, List.mem_flatMap] at hplace
  obtain ⟨query, hquery, hplace⟩ := hplace
  obtain ⟨state, hstate, hcreate⟩ := exists_of_mem_right hasked hquery
  obtain ⟨receiverId, -, hreceives⟩ :=
    exists_of_mem_right hchecked.receivers (hstates ▸ List.mem_append_left rest hstate)
  have hid : state.nodeId = receiverId :=
    (CycleWorkingState.projectNodeState_ok hreceives.projected).1
  rw [hcreate.places, List.mem_cons, List.mem_singleton] at hplace
  rcases hplace with rfl | rfl
  · exact ⟨le_rfl, senderState, hchecked.sender, rfl⟩
  · exact ⟨le_rfl, state, by rw [hid]; exact hreceives.projected, rfl⟩

end TransmissionExecutor

namespace ReceiverProcessor

lemma Queried.probes {desiredSignal : ReceivedSignal} {ledger : InFlightSignalLedger}
    {w : CycleWorkingState} {receiverWindow : ReceiverWindow}
    {receiverState : NodeCommittedState} {query : NoiseQuery}
    (h : Queried desiredSignal ledger w receiverWindow receiverState query)
    {earlier later : CallLog} (hchannel : later.channelQueries = earlier.channelQueries)
    (hnoise : later.noiseQueries = earlier.noiseQueries ++ [query]) :
    Probes w desiredSignal.lastEffectEndAt earlier later [] [query] := by
  refine ⟨by rw [hchannel, List.append_nil], hnoise, fun place hplace => ?_⟩
  have hfor := h.isFor
  obtain ⟨window, hwindow, hdesired, -⟩ := ReceiverWindowBuilder.build_of_mem h.inLedger
  obtain rfl := Except.ok.inj (hwindow.symm.trans h.window)
  have hreceiver : query.receiverNodeId = desiredSignal.receiverNodeId := by
    rw [hfor.receiver, window.receiver, hdesired]
  have hfrom : query.observedFrom = desiredSignal.firstArrivalAt := by
    rw [hfor.observedFrom, hdesired]
  have huntil : query.observedUntil = desiredSignal.lastEffectEndAt := by
    rw [hfor.observedUntil, hdesired]
  simp only [placesOf, List.flatMap_nil, List.nil_append, List.map_cons, List.map_nil,
    List.mem_singleton] at hplace
  rw [hplace]
  refine ⟨?_, receiverState, ?_, hfor.position.symm⟩
  · rw [← huntil]
    exact query.interval.le
  · rw [NoiseQuery.place, hreceiver, hfrom]
    exact h.state

lemma processReceivedSignal_probes (providers : Providers) (desiredSignal : ReceivedSignal)
    (ledger : InFlightSignalLedger) (w : CycleWorkingState) (services : Services) :
    ∃ queries, Probes w desiredSignal.lastEffectEndAt services.calls
      (processReceivedSignal providers desiredSignal ledger w services).2.calls [] queries := by
  rcases processReceivedSignal_ends providers desiredSignal ledger w services with
    ⟨window, state, query, observation, result, id, ids, hreceived, -, hok⟩ |
    ⟨-, e, calls, hasked, herr⟩
  · rw [hok]
    exact ⟨[query], hreceived.toQueried.probes rfl rfl⟩
  · rw [herr]
    cases hasked with
    | nothing => exact ⟨[], probes_nothing w _ rfl rfl⟩
    | noise hquery => exact ⟨_, hquery.probes rfl rfl⟩
    | decode hobserved _ => exact ⟨_, hobserved.toQueried.probes rfl rfl⟩

end ReceiverProcessor

namespace CycleSignalRuntime

variable {providers : Providers}

lemma call_probes (providers : Providers) (r : CycleSignalRuntime) (c : HandlerCall) :
    ∃ channelQueries noiseQueries, Probes r.workingState c.eventTime r.services.calls
      (call providers r c).2.services.calls channelQueries noiseQueries := by
  have hnothing : ∀ {next : CycleSignalRuntime}, next.services = r.services →
      ∃ channelQueries noiseQueries, Probes r.workingState c.eventTime r.services.calls
        next.services.calls channelQueries noiseQueries := by
    intro next hservices
    rw [hservices]
    exact ⟨[], [], probes_nothing r.workingState _ rfl rfl⟩
  cases c with
  | txStart eventTime request =>
    rcases r.handleTxStart_services providers eventTime request with hsame | ⟨rfl, hservices⟩
    · exact hnothing hsame
    obtain ⟨queries, hprobes⟩ := TransmissionExecutor.executeTransmission_probes providers
      r.workingState request r.services
    refine ⟨queries, [], ?_⟩
    rw [← hservices] at hprobes
    exact hprobes
  | signalArrival eventTime signal =>
    rcases r.handleSignalArrival_cases eventTime signal with ⟨-, -, ledger, hok, -⟩ | ⟨-, e, herr⟩
    · exact hnothing (by simp only [call, hok])
    · exact hnothing (by simp only [call, herr])
  | sessionFinalize eventTime desiredSignal =>
    rcases r.handleSessionFinalize_services providers eventTime desiredSignal with
      hsame | ⟨rfl, hservices⟩
    · exact hnothing hsame
    obtain ⟨queries, hprobes⟩ := ReceiverProcessor.processReceivedSignal_probes providers
      desiredSignal r.ledger r.workingState r.services
    refine ⟨[], queries, ?_⟩
    rw [← hservices] at hprobes
    exact hprobes
  | cycleClose closeTime =>
    rcases r.handleCycleClose_cases closeTime with
      ⟨delta, store, -, -, -, -, -, hok⟩ | ⟨e, herr⟩
    · exact hnothing (by simp only [call, hok])
    · exact hnothing (by simp only [call, herr])
  | updateVelocity nodeId velocity effectiveAt => exact hnothing rfl

/-! ### The trajectories of the places -/

/-- The accepted velocity updates of a node. -/
def turns (nodeId : NodeId) (trace : List (HandlerCall × Status)) :
    List (Turn Double (Double × Double × Double)) :=
  trace.filterMap fun
    | (.updateVelocity id velocity effectiveAt, .ok _) =>
      if id = nodeId then some ⟨effectiveAt.seconds, velocity.coordinates⟩ else none
    | _ => none

lemma turns_concat (nodeId : NodeId) (trace : List (HandlerCall × Status))
    (p : HandlerCall × Status) :
    turns nodeId (trace ++ [p]) = turns nodeId trace ++ turns nodeId [p] :=
  List.filterMap_append ..

lemma mem_turns {nodeId : NodeId} {trace : List (HandlerCall × Status)}
    {turn : Turn Double (Double × Double × Double)} (h : turn ∈ turns nodeId trace) :
    ∃ velocity effectiveAt status,
      (.updateVelocity nodeId velocity effectiveAt, status) ∈ trace ∧
        turn = ⟨effectiveAt.seconds, velocity.coordinates⟩ := by
  obtain ⟨p, hmem, hp⟩ := List.mem_filterMap.mp h
  split at hp
  · split_ifs at hp with hid
    cases hp
    rw [← hid]
    exact ⟨_, _, _, hmem, rfl⟩
  · cases hp

lemma turns_of_other {nodeId : NodeId} {c : HandlerCall} {status : Status}
    (hc : ∀ velocity effectiveAt, c ≠ .updateVelocity nodeId velocity effectiveAt) :
    turns nodeId [(c, status)] = [] := by
  rw [List.eq_nil_iff_forall_not_mem]
  intro turn hturn
  obtain ⟨velocity, effectiveAt, status', hmem, -⟩ := mem_turns hturn
  rw [List.mem_singleton] at hmem
  exact hc velocity effectiveAt (congrArg Prod.fst hmem.symm)

/-- A node is at the place on its trajectory of accepted updates. -/
def OnTrajectory (baseSnapshot : WorldSnapshot) (trace : List (HandlerCall × Status))
    (place : Place) : Prop :=
  ∃ baseNode, baseSnapshot.findNode place.nodeId = some baseNode ∧
    place.position.coordinates = positionAt (baseNode.leg baseSnapshot.committedAt)
      (turns place.nodeId trace) place.time.seconds

lemma exec_baseSnapshot (providers : Providers) (r : CycleSignalRuntime)
    (calls : List HandlerCall) :
    (exec (call providers) r calls).2.workingState.baseSnapshot =
      r.workingState.baseSnapshot := by
  refine exec_invariant (call providers) (A := fun _ => True)
    (P := fun _ (next : CycleSignalRuntime) =>
      next.workingState.baseSnapshot = r.workingState.baseSnapshot)
    (fun _ next c hbase _ => ?_) rfl (by simp)
  by_cases hupdate : ∃ id velocity effectiveAt, c = .updateVelocity id velocity effectiveAt
  · obtain ⟨id, velocity, effectiveAt, rfl⟩ := hupdate
    rcases next.workingState.updateVelocity_cases id velocity effectiveAt with
      ⟨-, w', -, hok, hsame, -⟩ | ⟨e, -, herr⟩
    · simp only [call, hok]
      exact hsame.trans hbase
    · simp only [call, herr]
      exact hbase
  · rw [call_workingState providers fun id velocity effectiveAt heq =>
      hupdate ⟨id, velocity, effectiveAt, heq⟩]
    exact hbase

/-- A node of the snapshot has followed its accepted updates, the last of which is its anchor. -/
structure Follows (w : CycleWorkingState) (nodeId : NodeId) (baseNode : NodeCommittedState)
    (trace : List (HandlerCall × Status)) (r : CycleSignalRuntime) : Prop
    extends Anchored w nodeId trace r where
  leg : ∀ state anchorTime, r.workingState.anchor nodeId = some (state, anchorTime) →
    state.leg anchorTime =
      (baseNode.leg w.baseSnapshot.committedAt).follow (turns nodeId trace)

lemma leg_updateVelocity {r : CycleSignalRuntime} {nodeId : NodeId} {state : NodeCommittedState}
    {anchorTime : SimTime} (hanchor : r.workingState.anchor nodeId = some (state, anchorTime))
    {velocity : Velocity3d} {effectiveAt : SimTime} {projected : NodeCommittedState}
    (hproj : r.workingState.projectNodeState nodeId effectiveAt = .ok projected) :
    NodeCommittedState.leg { projected with motion.velocity := velocity } effectiveAt =
      (state.leg anchorTime).turn ⟨effectiveAt.seconds, velocity.coordinates⟩ := by
  rcases r.workingState.projectNodeState_outcome nodeId effectiveAt with
    ⟨state', anchorTime', projected', hanchor', -, -, -, hfrom, hproj'⟩ | ⟨⟨e, he⟩, -⟩
  · rw [hanchor] at hanchor'
    cases hanchor'
    obtain rfl := Except.ok.inj (hproj'.symm.trans hproj)
    rw [Leg.turn, ← StateProjector.projectFromAnchor_position hfrom]
    rfl
  · rw [hproj] at he
    cases he

lemma leg_exec (providers : Providers) {nodeId : NodeId} {baseNode : NodeCommittedState}
    {r : CycleSignalRuntime}
    (hanchor : r.workingState.anchor nodeId =
      some (baseNode, r.workingState.baseSnapshot.committedAt)) (calls : List HandlerCall) :
    ∃ state anchorTime,
      (exec (call providers) r calls).2.workingState.anchor nodeId = some (state, anchorTime) ∧
      state.leg anchorTime = (baseNode.leg r.workingState.baseSnapshot.committedAt).follow
        (turns nodeId (exec (call providers) r calls).1) := by
  induction calls using List.reverseRecOn with
  | nil => exact ⟨baseNode, _, hanchor, rfl⟩
  | append_singleton calls c ih =>
    obtain ⟨state, anchorTime, ha, hleg⟩ := ih
    rw [exec_append]
    simp only [exec_cons, exec_nil]
    set before := (exec (call providers) r calls).2
    by_cases hupdate : ∃ velocity effectiveAt, c = .updateVelocity nodeId velocity effectiveAt
    swap
    · have hother : ∀ velocity effectiveAt, c ≠ .updateVelocity nodeId velocity effectiveAt :=
        fun velocity effectiveAt heq => hupdate ⟨velocity, effectiveAt, heq⟩
      refine ⟨state, anchorTime, (call_sameAnchor providers hother).anchor.trans ha, ?_⟩
      rw [turns_concat, turns_of_other hother, List.append_nil, hleg]
    obtain ⟨velocity, effectiveAt, rfl⟩ := hupdate
    rcases before.workingState.updateVelocity_cases nodeId velocity effectiveAt with
      ⟨projected, w', hproj, hok, -, -, -, hanchor', -⟩ | ⟨e, -, herr⟩
    · have hturn : turns nodeId [(.updateVelocity nodeId velocity effectiveAt, .ok ())] =
          [⟨effectiveAt.seconds, velocity.coordinates⟩] := by simp [turns]
      simp only [call, hok]
      refine ⟨_, effectiveAt, hanchor', ?_⟩
      rw [turns_concat, hturn, Leg.follow_concat, ← hleg]
      exact leg_updateVelocity ha hproj
    · simp only [call, herr]
      refine ⟨state, anchorTime, ha, ?_⟩
      rw [turns_concat, hleg]
      exact congrArg _ (List.append_nil _).symm

lemma follows_exec (providers : Providers) {baseSnapshot : WorldSnapshot}
    {cycleId : PlanningCycleId} {cycleStartedAt : SimTime} {r : CycleSignalRuntime}
    (hcreate : CycleWorkingState.create baseSnapshot cycleId cycleStartedAt =
      .ok r.workingState)
    (h0 : 0 ≤ baseSnapshot.committedAt.nanoseconds) {nodeId : NodeId}
    {baseNode : NodeCommittedState} (hnode : baseSnapshot.findNode nodeId = some baseNode)
    {calls : List HandlerCall} (hc : Chronological calls) :
    Follows r.workingState nodeId baseNode (exec (call providers) r calls).1
      (exec (call providers) r calls).2 := by
  obtain ⟨hbase, -, hanchor⟩ := CycleWorkingState.anchor_create hcreate nodeId
  rw [hnode, Option.map_some, ← hbase] at hanchor
  obtain ⟨state, anchorTime, ha, hleg⟩ := leg_exec providers hanchor calls
  refine ⟨anchored_exec providers hcreate h0 hnode hc, fun state' anchorTime' ha' => ?_⟩
  rw [ha] at ha'
  cases ha'
  exact hleg

lemma Follows.projected {w : CycleWorkingState} {nodeId : NodeId} {baseNode : NodeCommittedState}
    {trace : List (HandlerCall × Status)} {r : CycleSignalRuntime}
    (h : Follows w nodeId baseNode trace r) (h0 : 0 ≤ w.baseSnapshot.committedAt.nanoseconds)
    {queryTime : SimTime} {projected : NodeCommittedState}
    (hproj : r.workingState.projectNodeState nodeId queryTime = .ok projected) :
    projected.motion.position.coordinates =
      positionAt (baseNode.leg w.baseSnapshot.committedAt) (turns nodeId trace)
        queryTime.seconds := by
  obtain ⟨state, anchorTime, hanchor, -, hall⟩ := h.anchor
  have h0' : 0 ≤ r.workingState.baseSnapshot.committedAt.nanoseconds := by rw [h.base]; exact h0
  rcases CycleWorkingState.projectNodeState_cases h0' nodeId queryTime with
    ⟨state', anchorTime', projected', hanchor', hstart, hle, hproj', hfrom⟩ | ⟨⟨e, he⟩, -⟩
  swap
  · rw [hproj] at he
    cases he
  rw [hanchor] at hanchor'
  cases hanchor'
  obtain rfl := Except.ok.inj (hproj'.symm.trans hproj)
  rw [StateProjector.projectFromAnchor_position hfrom, h.leg _ _ hanchor, positionAt_of_le]
  -- an update is up to the anchor, or it was before the cycle start
  intro turn hturn
  obtain ⟨velocity, effectiveAt, status, hmem, rfl⟩ := mem_turns hturn
  apply SimTime.seconds_le.mpr
  rcases le_total w.cycleStartedAt effectiveAt with hin | hbefore
  · exact (hall velocity effectiveAt status hmem hin).trans hle
  · rw [← h.started] at hbefore
    exact hbefore.trans hstart

lemma OnTrajectory.append {baseSnapshot : WorldSnapshot} {trace : List (HandlerCall × Status)}
    {place : Place} (h : OnTrajectory baseSnapshot trace place) {p : HandlerCall × Status}
    (hlater : place.time ≤ p.1.eventTime) :
    OnTrajectory baseSnapshot (trace ++ [p]) place := by
  obtain ⟨baseNode, hnode, hpos⟩ := h
  refine ⟨baseNode, hnode, ?_⟩
  rw [turns_concat, positionAt_append, hpos]
  intro turn hturn
  obtain ⟨velocity, effectiveAt, status, hmem, rfl⟩ := mem_turns hturn
  rw [List.mem_singleton] at hmem
  rw [← hmem] at hlater
  exact SimTime.seconds_le.mpr hlater

/-- **The providers are asked about the places where the nodes are.** In every chronological
sequence of calls, with updates anywhere in between, each position in a query is on the
trajectory the node has followed in the end, at the time the query is for. -/
theorem queries_on_trajectory (providers : Providers) {baseSnapshot : WorldSnapshot}
    {cycleId : PlanningCycleId} {cycleStartedAt : SimTime} {r : CycleSignalRuntime}
    (hcreate : CycleWorkingState.create baseSnapshot cycleId cycleStartedAt =
      .ok r.workingState)
    (h0 : 0 ≤ baseSnapshot.committedAt.nanoseconds)
    {calls : List HandlerCall} (hc : Chronological calls) :
    let outcome := exec (call providers) r calls
    ∃ channelQueries noiseQueries,
      outcome.2.services.calls.channelQueries =
        r.services.calls.channelQueries ++ channelQueries ∧
      outcome.2.services.calls.noiseQueries = r.services.calls.noiseQueries ++ noiseQueries ∧
      ∀ place ∈ placesOf channelQueries noiseQueries,
        OnTrajectory baseSnapshot outcome.1 place := by
  obtain ⟨hbase, -, -⟩ := CycleWorkingState.anchor_create hcreate ⟨0⟩
  -- the places of the calls so far are on the trajectories so far, and not after the last call
  suffices hplaced : ∃ channelQueries noiseQueries,
      (exec (call providers) r calls).2.services.calls.channelQueries =
        r.services.calls.channelQueries ++ channelQueries ∧
      (exec (call providers) r calls).2.services.calls.noiseQueries =
        r.services.calls.noiseQueries ++ noiseQueries ∧
      ∀ place ∈ placesOf channelQueries noiseQueries,
        OnTrajectory baseSnapshot (exec (call providers) r calls).1 place ∧
          ∃ c ∈ calls, place.time ≤ c.eventTime by
    obtain ⟨channelQueries, noiseQueries, hchannel, hnoise, hplaces⟩ := hplaced
    exact ⟨channelQueries, noiseQueries, hchannel, hnoise, fun place hplace =>
      (hplaces place hplace).1⟩
  induction calls using List.reverseRecOn with
  | nil => exact ⟨[], [], by simp, by simp, by simp [placesOf]⟩
  | append_singleton calls c ih =>
    obtain ⟨hcalls, -, hlater⟩ := List.pairwise_append.mp hc
    obtain ⟨channelQueries, noiseQueries, hchannel, hnoise, hplaces⟩ := ih hcalls
    obtain ⟨channelQueries', noiseQueries', hprobes⟩ :=
      call_probes providers (exec (call providers) r calls).2 c
    simp only [exec_append, exec_cons, exec_nil]
    refine ⟨channelQueries ++ channelQueries', noiseQueries ++ noiseQueries', ?_, ?_, ?_⟩
    · rw [hprobes.channel, hchannel, List.append_assoc]
    · rw [hprobes.noise, hnoise, List.append_assoc]
    intro place hplace
    rcases mem_placesOf_append.mp hplace with hplace | hplace
    · obtain ⟨hon, earlier, hmem, hle⟩ := hplaces place hplace
      have hle' := hle.trans (hlater earlier hmem c (by simp))
      exact ⟨hon.append hle', c, by simp, hle'⟩
    · obtain ⟨hle, state, hproj, hposition⟩ := hprobes.placed place hplace
      refine ⟨OnTrajectory.append ?_ hle, c, by simp, hle⟩
      have hsome := (CycleWorkingState.projectNodeState_ok hproj).2.1
      rw [exec_baseSnapshot, hbase] at hsome
      obtain ⟨baseNode, hnode⟩ := Option.isSome_iff_exists.mp hsome
      have hfollows := follows_exec providers hcreate h0 hnode hcalls
      refine ⟨baseNode, hnode, ?_⟩
      rw [← hposition]
      have hpos := hfollows.projected (hbase ▸ h0) hproj
      rw [hbase] at hpos
      exact hpos

/-- The early signal is sent and received while its receiver turns, before and afterwards. -/
def turningReception : List HandlerCall :=
  [.txStart (.ofUInt32 0) ReceiverProcessor.pairRequest, arrival,
    .updateVelocity ⟨1⟩ ⟨1, 0, 0⟩ (.ofUInt32 1), .sessionFinalize (.ofUInt32 5) earlySignal,
    .updateVelocity ⟨1⟩ ⟨0, 1, 0⟩ (.ofUInt32 6)]

theorem queries_on_trajectory_turning :
    let outcome := exec (call earlyProviders) ReceiverProcessor.pairCycle turningReception
    (outcome.2.services.calls.channelQueries.length = 1 ∧
      outcome.2.services.calls.noiseQueries.length = 1) ∧
    ∃ channelQueries noiseQueries,
      outcome.2.services.calls.channelQueries = channelQueries ∧
      outcome.2.services.calls.noiseQueries = noiseQueries ∧
      ∀ place ∈ placesOf channelQueries noiseQueries,
        OnTrajectory ReceiverProcessor.pairWorkingState.baseSnapshot outcome.1 place := by
  have hcreate : CycleWorkingState.create ReceiverProcessor.pairWorkingState.baseSnapshot ⟨0⟩
      (.ofUInt32 0) = .ok ReceiverProcessor.pairCycle.workingState := rfl
  have hchronological : Chronological turningReception := by
    unfold Chronological
    decide +kernel
  have hlengths : (exec (call earlyProviders) ReceiverProcessor.pairCycle
        turningReception).2.services.calls.channelQueries.length = 1 ∧
      (exec (call earlyProviders) ReceiverProcessor.pairCycle
        turningReception).2.services.calls.noiseQueries.length = 1 := by decide +kernel
  exact ⟨hlengths, queries_on_trajectory earlyProviders hcreate (by decide) hchronological⟩

end CycleSignalRuntime

end Ns3Factory
