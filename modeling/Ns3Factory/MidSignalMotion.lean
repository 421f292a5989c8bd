import Ns3Factory.ReceiverAdmission

/-!
Velocity updates while a signal is being received.

In a cycle whose calls come in the order of time every update that is not before the cycle
start is accepted, and moves the one motion anchor of its node. Finalizing a signal asks for
the receiver's position at the first arrival: it is there as long as no update has moved the
anchor past that, and is refused afterwards. So is a position that is not finite, which the
projection yields where its arithmetic overflows.
-/

namespace Ns3Factory.CycleSignalRuntime

open StdAlgorithm Transition DoubleArithmetic

def HandlerCall.eventTime : HandlerCall → SimTime
  | .txStart eventTime _ => eventTime
  | .signalArrival eventTime _ => eventTime
  | .sessionFinalize eventTime _ => eventTime
  | .cycleClose closeTime => closeTime
  | .updateVelocity _ _ effectiveAt => effectiveAt

/-- The calls come in the order of their times. -/
def Chronological (calls : List HandlerCall) : Prop :=
  calls.Pairwise fun c c' => c.eventTime ≤ c'.eventTime

lemma Chronological.lt_of_mem_dropWhile {calls : List HandlerCall} (h : Chronological calls)
    {time : SimTime} {c : HandlerCall}
    (hc : c ∈ calls.dropWhile fun c => c.eventTime ≤ time) : time < c.eventTime := by
  induction calls with
  | nil => cases hc
  | cons first rest ih =>
    obtain ⟨hfirst, hrest⟩ := List.pairwise_cons.mp h
    by_cases hle : first.eventTime ≤ time
    · rw [List.dropWhile_cons_of_pos (by simpa using hle)] at hc
      exact ih hrest hc
    · rw [List.dropWhile_cons_of_neg (by simpa using hle)] at hc
      have hlt := not_le.mp hle
      rcases List.mem_cons.mp hc with rfl | hc
      · exact hlt
      · exact hlt.trans_le (hfirst c hc)

section

variable [DoubleArithmetic] {providers : Providers}

lemma mem_exec_calls {r : CycleSignalRuntime} {calls : List HandlerCall} {c : HandlerCall} :
    (∃ status, (c, status) ∈ (exec (call providers) r calls).1) ↔ c ∈ calls := by
  have hcalls : c ∈ (exec (call providers) r calls).1.map Prod.fst ↔ c ∈ calls := by
    rw [exec_calls]
  rw [← hcalls, List.mem_map]
  constructor
  · rintro ⟨status, hmem⟩
    exact ⟨(c, status), hmem, rfl⟩
  · rintro ⟨⟨c', status⟩, hmem, rfl⟩
    exact ⟨status, hmem⟩

lemma call_workingState (providers : Providers) {r : CycleSignalRuntime} {c : HandlerCall}
    (hc : ∀ nodeId velocity effectiveAt, c ≠ .updateVelocity nodeId velocity effectiveAt) :
    (call providers r c).2.workingState = r.workingState := by
  obtain ⟨status, next, hcall, heffect⟩ := call_effect providers r c
  rw [hcall]
  cases heffect with
  | updated nodeId velocity effectiveAt status workingState hupdate => exact absurd rfl (hc _ _ _)
  | txStart | arrived | finalized | closed | refused => rfl

/-! ### Motion anchors -/

/-- The node moves on from the same anchor in the same cycle. -/
structure SameAnchor (nodeId : NodeId) (w w' : CycleWorkingState) : Prop where
  base : w'.baseSnapshot = w.baseSnapshot
  started : w'.cycleStartedAt = w.cycleStartedAt
  anchor : w'.anchor nodeId = w.anchor nodeId

lemma SameAnchor.project {nodeId : NodeId} {w w' : CycleWorkingState}
    (h : SameAnchor nodeId w w') (queryTime : SimTime) :
    w'.projectNodeState nodeId queryTime = w.projectNodeState nodeId queryTime := by
  rw [CycleWorkingState.projectNodeState_eq, CycleWorkingState.projectNodeState_eq, h.started,
    h.anchor]

lemma call_sameAnchor (providers : Providers) {nodeId : NodeId} {r : CycleSignalRuntime}
    {c : HandlerCall}
    (hc : ∀ velocity effectiveAt, c ≠ .updateVelocity nodeId velocity effectiveAt) :
    SameAnchor nodeId r.workingState (call providers r c).2.workingState := by
  by_cases hupdate : ∃ id velocity effectiveAt, c = .updateVelocity id velocity effectiveAt
  swap
  · rw [call_workingState providers fun id velocity effectiveAt heq =>
      hupdate ⟨id, velocity, effectiveAt, heq⟩]
    exact ⟨rfl, rfl, rfl⟩
  obtain ⟨id, velocity, effectiveAt, rfl⟩ := hupdate
  have hid : nodeId ≠ id := by
    rintro rfl
    exact hc velocity effectiveAt rfl
  rcases r.workingState.updateVelocity_cases id velocity effectiveAt with
    ⟨-, w', -, hok, hbase, -, hstarted, -, hothers⟩ | ⟨e, -, herr⟩
  · simp only [call, hok]
    exact ⟨hbase, hstarted, hothers nodeId hid⟩
  · simp only [call, herr]
    exact ⟨rfl, rfl, rfl⟩

lemma exec_sameAnchor (providers : Providers) {nodeId : NodeId} {r : CycleSignalRuntime}
    {calls : List HandlerCall}
    (hc : ∀ velocity effectiveAt, .updateVelocity nodeId velocity effectiveAt ∉ calls) :
    SameAnchor nodeId r.workingState (exec (call providers) r calls).2.workingState := by
  induction calls generalizing r with
  | nil => exact ⟨rfl, rfl, rfl⟩
  | cons c calls ih =>
    have hfirst := call_sameAnchor providers (r := r) (c := c)
      fun velocity effectiveAt heq => hc velocity effectiveAt (heq ▸ List.mem_cons_self)
    have hrest := ih (r := (call providers r c).2)
      fun velocity effectiveAt hmem => hc velocity effectiveAt (List.mem_cons_of_mem _ hmem)
    exact ⟨hrest.base.trans hfirst.base, hrest.started.trans hfirst.started,
      hrest.anchor.trans hfirst.anchor⟩

/-- The anchor of a node is the last of its updates, unless there was none since the cycle
start. -/
structure Anchored (w : CycleWorkingState) (nodeId : NodeId)
    (trace : List (HandlerCall × Status)) (r : CycleSignalRuntime) : Prop where
  base : r.workingState.baseSnapshot = w.baseSnapshot
  started : r.workingState.cycleStartedAt = w.cycleStartedAt
  anchor : ∃ state anchorTime, r.workingState.anchor nodeId = some (state, anchorTime) ∧
    (anchorTime = w.baseSnapshot.committedAt ∨
      ∃ velocity status, (.updateVelocity nodeId velocity anchorTime, status) ∈ trace) ∧
    ∀ velocity effectiveAt status,
      (.updateVelocity nodeId velocity effectiveAt, status) ∈ trace →
      w.cycleStartedAt ≤ effectiveAt → effectiveAt ≤ anchorTime

variable {w : CycleWorkingState} {nodeId : NodeId}

omit [DoubleArithmetic] in
lemma Anchored.keep {trace : List (HandlerCall × Status)} {r next : CycleSignalRuntime}
    (h : Anchored w nodeId trace r) {p : HandlerCall × Status}
    (hp : ∀ velocity effectiveAt, p.1 = .updateVelocity nodeId velocity effectiveAt →
      ¬ w.cycleStartedAt ≤ effectiveAt)
    (hsame : SameAnchor nodeId r.workingState next.workingState) :
    Anchored w nodeId (trace ++ [p]) next := by
  obtain ⟨state, anchorTime, ha, hlast, hall⟩ := h.anchor
  refine ⟨hsame.base.trans h.base, hsame.started.trans h.started, state, anchorTime,
    hsame.anchor.trans ha, hlast.imp_right ?_, ?_⟩
  · rintro ⟨velocity, status, hmem⟩
    exact ⟨velocity, status, List.mem_append_left _ hmem⟩
  · intro velocity effectiveAt status hmem hstart
    rcases List.mem_append.mp hmem with hmem | hmem
    · exact hall velocity effectiveAt status hmem hstart
    · rw [List.mem_singleton] at hmem
      exact absurd hstart (hp velocity effectiveAt (congrArg Prod.fst hmem.symm))

lemma Anchored.update {trace : List (HandlerCall × Status)} {r : CycleSignalRuntime}
    (h : Anchored w nodeId trace r)
    (h0 : 0 ≤ w.baseSnapshot.committedAt.nanoseconds) (velocity : Velocity3d)
    {effectiveAt : SimTime} (hlater : ∀ p ∈ trace, p.1.eventTime ≤ effectiveAt) :
    Anchored w nodeId
      (trace ++ [(.updateVelocity nodeId velocity effectiveAt,
        (call providers r (.updateVelocity nodeId velocity effectiveAt)).1)])
      (call providers r (.updateVelocity nodeId velocity effectiveAt)).2 := by
  obtain ⟨state, anchorTime, ha, hlast, hall⟩ := h.anchor
  have h0' : 0 ≤ r.workingState.baseSnapshot.committedAt.nanoseconds := by rw [h.base]; exact h0
  simp only [call]
  rcases r.workingState.updateVelocity_cases nodeId velocity effectiveAt with
    ⟨projected, w', -, hok, hbase, -, hstarted, hanchor, -⟩ | ⟨e, hproj, herr⟩
  · rw [hok]
    refine ⟨hbase.trans h.base, hstarted.trans h.started, _, effectiveAt, hanchor,
      Or.inr ⟨velocity, .ok (), by simp⟩, ?_⟩
    intro v t status hmem hstart
    rcases List.mem_append.mp hmem with hmem | hmem
    · exact hlater _ hmem
    · rw [List.mem_singleton] at hmem
      cases hmem
      exact le_rfl
  · -- only an update before the cycle start is refused
    rw [herr]
    have hbefore : ¬ w.cycleStartedAt ≤ effectiveAt := by
      intro hstart
      have hle : anchorTime ≤ effectiveAt := by
        rcases hlast with rfl | ⟨v, status, hmem⟩
        · exact w.committed_le.trans hstart
        · exact hlater _ hmem
      rcases CycleWorkingState.projectNodeState_cases h0' nodeId effectiveAt with
        ⟨-, -, projected, -, -, -, hproj', -⟩ | ⟨-, hnot⟩
      · rw [hproj] at hproj'; cases hproj'
      · exact hnot ⟨by rw [h.started]; exact hstart, state, anchorTime, ha, hle⟩
    refine h.keep (fun v t heq => ?_) ⟨rfl, rfl, rfl⟩
    cases heq
    exact hbefore

lemma anchored_exec (providers : Providers) {baseSnapshot : WorldSnapshot}
    {cycleId : PlanningCycleId} {cycleStartedAt : SimTime} {r : CycleSignalRuntime}
    (hcreate : CycleWorkingState.create baseSnapshot cycleId cycleStartedAt =
      .ok r.workingState)
    (h0 : 0 ≤ baseSnapshot.committedAt.nanoseconds) {baseNode : NodeCommittedState}
    (hnode : baseSnapshot.findNode nodeId = some baseNode)
    {calls : List HandlerCall} (hc : Chronological calls) :
    Anchored r.workingState nodeId (exec (call providers) r calls).1
      (exec (call providers) r calls).2 := by
  obtain ⟨hbase, -, hanchor⟩ := CycleWorkingState.anchor_create hcreate nodeId
  rw [← hbase] at h0 hnode hanchor
  induction calls using List.reverseRecOn with
  | nil =>
    refine ⟨rfl, rfl, baseNode, r.workingState.baseSnapshot.committedAt, ?_, Or.inl rfl, by simp⟩
    rw [exec_nil, hanchor, hnode, Option.map_some]
  | append_singleton calls c ih =>
    obtain ⟨hcalls, -, hlater⟩ := List.pairwise_append.mp hc
    have hanchored := ih hcalls
    rw [exec_append]
    simp only [exec_cons, exec_nil]
    by_cases hupdate : ∃ velocity effectiveAt, c = .updateVelocity nodeId velocity effectiveAt
    · obtain ⟨velocity, effectiveAt, rfl⟩ := hupdate
      refine hanchored.update h0 velocity fun p hp => ?_
      exact hlater p.1 (mem_exec_calls.mp ⟨p.2, hp⟩)
        (.updateVelocity nodeId velocity effectiveAt) (by simp)
    · have hother : ∀ velocity effectiveAt, c ≠ .updateVelocity nodeId velocity effectiveAt :=
        fun velocity effectiveAt heq => hupdate ⟨velocity, effectiveAt, heq⟩
      exact hanchored.keep (fun v t heq => absurd heq (hother v t))
        (call_sameAnchor providers hother)

lemma Anchored.projects_iff {trace : List (HandlerCall × Status)} {r : CycleSignalRuntime}
    (h : Anchored w nodeId trace r) (h0 : 0 ≤ w.baseSnapshot.committedAt.nanoseconds)
    {queryTime : SimTime} (hstart : w.cycleStartedAt ≤ queryTime) :
    (∃ projected, r.workingState.projectNodeState nodeId queryTime = .ok projected) ↔
      ∀ velocity effectiveAt status,
        (.updateVelocity nodeId velocity effectiveAt, status) ∈ trace →
        effectiveAt ≤ queryTime := by
  obtain ⟨state, anchorTime, hanchor, hlast, hall⟩ := h.anchor
  have h0' : 0 ≤ r.workingState.baseSnapshot.committedAt.nanoseconds := by rw [h.base]; exact h0
  have hcases := CycleWorkingState.projectNodeState_cases h0' nodeId queryTime
  constructor
  · rintro ⟨projected, hproj⟩ velocity effectiveAt status hupdate
    by_contra hlate
    -- a later update has moved the anchor past the time
    have hmoved : effectiveAt ≤ anchorTime :=
      hall velocity effectiveAt status hupdate (hstart.trans (not_le.mp hlate).le)
    rcases hcases with ⟨state', anchorTime', -, hanchor', -, hle, -, -⟩ | ⟨⟨e, he⟩, -⟩
    · rw [hanchor] at hanchor'
      cases hanchor'
      exact hlate (hmoved.trans hle)
    · rw [hproj] at he; cases he
  · intro hearly
    have hle : anchorTime ≤ queryTime := by
      rcases hlast with rfl | ⟨velocity, status, hupdate⟩
      · exact w.committed_le.trans hstart
      · exact hearly velocity anchorTime status hupdate
    rcases hcases with ⟨-, -, projected, -, -, -, hproj, -⟩ | ⟨-, hnot⟩
    · exact ⟨projected, hproj⟩
    · refine absurd ⟨?_, state, anchorTime, hanchor, hle⟩ hnot
      rw [h.started]
      exact hstart

/-! ### Finalizing -/

/-- Finalizing the signal succeeds, with a noise query at this position. -/
def SamplesAt (providers : Providers) (r : CycleSignalRuntime) (signal : ReceivedSignal)
    (position : Position3d) : Prop :=
  let outcome := r.handleSessionFinalize providers signal.lastEffectEndAt signal
  outcome.1 = .ok () ∧ ∃ query,
    outcome.2.services.calls.noiseQueries = r.services.calls.noiseQueries ++ [query] ∧
      query.receiverPosition = position

lemma samplesAt_iff {r : CycleSignalRuntime} {signal : ReceivedSignal}
    (hmem : signal ∈ r.ledger.signals)
    (hwidth : signal.firstArrivalAt < signal.lastEffectEndAt)
    (hlower : 0 ≤ signal.lowerFrequencyHz)
    (hedges : isfinite signal.lowerFrequencyHz = true ∧ isfinite signal.upperFrequencyHz = true)
    (hanswers : ReceiverProcessor.Answers providers)
    (hids : ReceiverProcessor.HasReceptionId r.services) (position : Position3d) :
    SamplesAt providers r signal position ↔
      (∃ projected, r.workingState.projectNodeState signal.receiverNodeId
          signal.firstArrivalAt = .ok projected ∧ projected.motion.position = position) ∧
        positionIsFinite position = true := by
  unfold SamplesAt handleSessionFinalize
  rw [if_neg (not_not.mpr rfl)]
  rcases ReceiverProcessor.processReceivedSignal_cases (w := r.workingState) hanswers hids hmem
    with ⟨projected, session, last, query, hproj, haccepts, hok, hqueries, hpos⟩ | ⟨hnot, e, herr⟩
  · simp only [hok, hproj, hqueries, true_and, List.append_cancel_left_eq, List.cons.injEq,
      and_true, exists_eq_left', Except.ok.injEq, hpos]
    constructor
    · rintro rfl
      exact ⟨rfl, haccepts.position⟩
    · exact fun h => h.1
  · refine iff_of_false ?_ fun h => ?_
    · rcases hproc : ReceiverProcessor.processReceivedSignal providers signal r.ledger
          r.workingState r.services with ⟨e' | session, services⟩
      · simp
      · rw [hproc] at herr; cases herr
    · obtain ⟨⟨projected, hproj, rfl⟩, hfinite⟩ := h
      exact hnot ⟨projected, hproj, hfinite, hedges, hwidth, hlower⟩

/-- A chronological cycle that receives a signal: the signal is in the ledger after the calls,
its receiver is a node of the snapshot, and nothing but its motion can fail its processing. -/
structure Receives (providers : Providers) (baseSnapshot : WorldSnapshot)
    (cycleId : PlanningCycleId) (cycleStartedAt : SimTime) (r : CycleSignalRuntime)
    (calls : List HandlerCall) (signal : ReceivedSignal) (baseNode : NodeCommittedState) :
    Prop where
  created : CycleWorkingState.create baseSnapshot cycleId cycleStartedAt = .ok r.workingState
  committedAt_nonneg : 0 ≤ baseSnapshot.committedAt.nanoseconds
  chronological : Chronological (calls ++ [.sessionFinalize signal.lastEffectEndAt signal])
  inLedger : signal ∈ (exec (call providers) r calls).2.ledger.signals
  receiver : baseSnapshot.findNode signal.receiverNodeId = some baseNode
  built : ReceivedSignal.create signal.emission signal.channelResponse = .ok signal
  interval : signal.firstArrivalAt < signal.lastEffectEndAt
  inCycle : cycleStartedAt ≤ signal.firstArrivalAt
  band : 0 ≤ signal.lowerFrequencyHz
  answers : ReceiverProcessor.Answers providers
  receptionId : ReceiverProcessor.HasReceptionId (exec (call providers) r calls).2.services

/-- The calls up to the first arrival of a signal. -/
def callsUntilArrival (calls : List HandlerCall) (signal : ReceivedSignal) : List HandlerCall :=
  calls.takeWhile fun c => c.eventTime ≤ signal.firstArrivalAt

/-- The receiver at the first arrival: what the working state projects it to by then. -/
def stateAtArrival (providers : Providers) (r : CycleSignalRuntime) (calls : List HandlerCall)
    (signal : ReceivedSignal) : Result NodeCommittedState :=
  (exec (call providers) r (callsUntilArrival calls signal)).2.workingState.projectNodeState
    signal.receiverNodeId signal.firstArrivalAt

variable {baseSnapshot : WorldSnapshot} {cycleId : PlanningCycleId} {cycleStartedAt : SimTime}
  {r : CycleSignalRuntime} {calls : List HandlerCall} {signal : ReceivedSignal}
  {baseNode : NodeCommittedState}

lemma Receives.exists_stateAtArrival
    (h : Receives providers baseSnapshot cycleId cycleStartedAt r calls signal baseNode) :
    ∃ state, stateAtArrival providers r calls signal = .ok state := by
  obtain ⟨hbase, hstarted, -⟩ := CycleWorkingState.anchor_create h.created signal.receiverNodeId
  have hc : Chronological (callsUntilArrival calls signal) :=
    (List.pairwise_append.mp h.chronological).1.sublist (List.takeWhile_sublist _)
  have hanchored := anchored_exec providers h.created h.committedAt_nonneg h.receiver hc
  refine (hanchored.projects_iff (hbase ▸ h.committedAt_nonneg)
    (hstarted ▸ h.inCycle)).mpr fun velocity effectiveAt status hmem => ?_
  have hcall := List.mem_takeWhile_imp (mem_exec_calls.mp ⟨status, hmem⟩)
  exact of_decide_eq_true hcall

lemma Receives.project_eq
    (h : Receives providers baseSnapshot cycleId cycleStartedAt r calls signal baseNode)
    (hearly : ∀ velocity effectiveAt,
      .updateVelocity signal.receiverNodeId velocity effectiveAt ∈ calls →
      effectiveAt ≤ signal.firstArrivalAt) :
    (exec (call providers) r calls).2.workingState.projectNodeState signal.receiverNodeId
      signal.firstArrivalAt = stateAtArrival providers r calls signal := by
  have hc : Chronological calls := (List.pairwise_append.mp h.chronological).1
  set later := calls.dropWhile fun c => c.eventTime ≤ signal.firstArrivalAt with hlater
  have hsplit : calls = callsUntilArrival calls signal ++ later :=
    (List.takeWhile_append_dropWhile ..).symm
  have hnone : ∀ velocity effectiveAt,
      .updateVelocity signal.receiverNodeId velocity effectiveAt ∉ later := by
    intro velocity effectiveAt hmem
    have hlate : signal.firstArrivalAt < effectiveAt := hc.lt_of_mem_dropWhile hmem
    exact absurd (hearly velocity effectiveAt (List.dropWhile_subset _ hmem))
      (not_le.mpr hlate)
  conv_lhs => rw [hsplit, exec_append]
  exact (exec_sameAnchor providers hnone).project signal.firstArrivalAt

/-- **Velocity updates while a signal is being received.** In a chronological cycle a signal
of the ledger is finalized, with the noise sampled where the receiver was at the first
arrival, exactly when no update of the receiver took effect after the first arrival and that
position is finite. -/
theorem handleSessionFinalize_iff
    (h : Receives providers baseSnapshot cycleId cycleStartedAt r calls signal baseNode) :
    ∃ state, stateAtArrival providers r calls signal = .ok state ∧
      (SamplesAt providers (exec (call providers) r calls).2 signal state.motion.position ↔
        (∀ velocity effectiveAt,
          .updateVelocity signal.receiverNodeId velocity effectiveAt ∈ calls →
          effectiveAt ≤ signal.firstArrivalAt) ∧
        positionIsFinite state.motion.position = true) := by
  obtain ⟨state, hstate⟩ := h.exists_stateAtArrival
  refine ⟨state, hstate, ?_⟩
  rw [samplesAt_iff h.inLedger h.interval h.band (ReceivedSignal.edges_finite h.built) h.answers
    h.receptionId]
  refine and_congr_left fun _ => ⟨?_, fun hearly => ?_⟩
  · rintro ⟨projected, hproj, -⟩ velocity effectiveAt hupdate
    obtain ⟨hbase, hstarted, -⟩ := CycleWorkingState.anchor_create h.created signal.receiverNodeId
    have hanchored := anchored_exec providers h.created h.committedAt_nonneg h.receiver
      (List.pairwise_append.mp h.chronological).1
    obtain ⟨status, hmem⟩ := mem_exec_calls.mpr hupdate
    exact (hanchored.projects_iff (hbase ▸ h.committedAt_nonneg) (hstarted ▸ h.inCycle)).mp
      ⟨projected, hproj⟩ velocity effectiveAt status hmem
  · exact ⟨state, (h.project_eq hearly).trans hstate, rfl⟩

end

/-! ### In the range of `double` -/

section

attribute [local instance] rangedArithmetic

/-- The early signal arrives, and its receiver turns. -/
def turningCalls (effectiveAt : SimTime) : List HandlerCall :=
  [arrival, .updateVelocity earlySignal.receiverNodeId ⟨1, 0, 0⟩ effectiveAt]

lemma receives_turningCalls (effectiveAt : SimTime) (h1 : .ofUInt32 1 ≤ effectiveAt)
    (h5 : effectiveAt ≤ .ofUInt32 5) :
    Receives (ReceiverProcessor.bandProviders 1000 100)
      ReceiverProcessor.pairWorkingState.baseSnapshot ⟨0⟩ (.ofUInt32 0)
      ReceiverProcessor.pairCycle (turningCalls effectiveAt) earlySignal
      (ReceiverProcessor.restingNode ⟨1⟩) where
  created := rfl
  committedAt_nonneg := by decide
  chronological := by
    have hends : earlySignal.firstArrivalAt = .ofUInt32 1 ∧
        earlySignal.lastEffectEndAt = .ofUInt32 5 := by decide +kernel
    simp [Chronological, turningCalls, arrival, HandlerCall.eventTime, hends, h1, h5, h1.trans h5]
  inLedger := by
    have harrival : earlySignal ∈ (exec (call (ReceiverProcessor.bandProviders 1000 100))
      ReceiverProcessor.pairCycle [arrival]).2.ledger.signals := by decide +kernel
    exact harrival
  receiver := rfl
  built := by decide +kernel
  interval := by decide +kernel
  inCycle := by decide +kernel
  band := by decide +kernel
  answers := ReceiverProcessor.answers_bandProviders 1000 100
  receptionId := ⟨_, _, rfl⟩

theorem handleSessionFinalize_turnAtArrival :
    ∃ state, stateAtArrival (ReceiverProcessor.bandProviders 1000 100)
        ReceiverProcessor.pairCycle (turningCalls (.ofUInt32 1)) earlySignal = .ok state ∧
      SamplesAt (ReceiverProcessor.bandProviders 1000 100)
        (exec (call (ReceiverProcessor.bandProviders 1000 100)) ReceiverProcessor.pairCycle
          (turningCalls (.ofUInt32 1))).2 earlySignal state.motion.position := by
  obtain ⟨state, hstate, hiff⟩ :=
    handleSessionFinalize_iff (receives_turningCalls (.ofUInt32 1) (by decide) (by decide))
  refine ⟨state, hstate, hiff.mpr ⟨?_, ?_⟩⟩
  · intro velocity effectiveAt hupdate
    simp only [turningCalls, arrival, List.mem_cons, List.not_mem_nil, or_false, reduceCtorEq,
      false_or, HandlerCall.updateVelocity.injEq] at hupdate
    rw [hupdate.2.2]
    decide +kernel
  · have hfinite : (stateAtArrival (ReceiverProcessor.bandProviders 1000 100)
        ReceiverProcessor.pairCycle (turningCalls (.ofUInt32 1)) earlySignal).toOption.all
          (fun state => positionIsFinite state.motion.position) = true := by decide +kernel
    rw [hstate] at hfinite
    exact hfinite

/-- A receiver that turns during its reception has the signal refused. -/
theorem turn_during_reception :
    ¬ ∀ (providers : Providers) (baseSnapshot : WorldSnapshot) (cycleId : PlanningCycleId)
      (cycleStartedAt : SimTime) (r : CycleSignalRuntime) (calls : List HandlerCall)
      (signal : ReceivedSignal) (baseNode : NodeCommittedState),
      Receives providers baseSnapshot cycleId cycleStartedAt r calls signal baseNode →
      ∃ state, stateAtArrival providers r calls signal = .ok state ∧
        SamplesAt providers (exec (call providers) r calls).2 signal state.motion.position := by
  intro hall
  obtain ⟨-, -, hok, -⟩ := hall _ _ _ _ _ _ _ _ (receives_turningCalls (.ofUInt32 2)
    (by decide) (by decide))
  have herr : ((exec (call (ReceiverProcessor.bandProviders 1000 100)) ReceiverProcessor.pairCycle
      (turningCalls (.ofUInt32 2))).2.handleSessionFinalize
        (ReceiverProcessor.bandProviders 1000 100) earlySignal.lastEffectEndAt
        earlySignal).1.succeeded = false := by
    decide +kernel
  rw [hok] at herr
  cases herr

/-- A signal of four nanoseconds that arrives after two seconds. -/
def lateSignal : ReceivedSignal where
  emission := earlySignal.emission
  channelResponse :=
    { earlySignal.channelResponse with
      firstArrivalDelay := .ofUInt32 2000000000
      firstArrivalDelay_nonneg := by decide }
  identity := rfl
  firstArrival := by decide +kernel
  lastEffectEnd := by decide +kernel

-- A receiver that leaves the range of `double` before the first arrival has it refused too.
example :
    ((exec (call (ReceiverProcessor.bandProviders 1000 100)) ReceiverProcessor.pairCycle
      [.updateVelocity ⟨1⟩ ⟨10 ^ 308, 0, 0⟩ (.ofUInt32 0),
        .signalArrival lateSignal.firstArrivalAt lateSignal,
        .sessionFinalize lateSignal.lastEffectEndAt lateSignal]).1.map
      fun p => p.2.succeeded) = [true, true, false] := by
  decide +kernel

end

end Ns3Factory.CycleSignalRuntime
