import Ns3Factory.State
import Ns3Factory.Trajectory

/-!
The working state of a cycle: the base snapshot, and an overlay for each node whose velocity
was updated.

A node moves on from its motion anchor, which is its last accepted update or the commit of
the base snapshot. Whether it can be projected to a time depends on the anchor only; in the exact
arithmetic what the projection returns is the position on that leg.
-/

namespace Ns3Factory

open StdAlgorithm Trajectory DoubleArithmetic

structure WorkingNodeOverlay where
  state : NodeCommittedState
  motionAnchor : SimTime
  deriving DecidableEq

def WorkingNodeOverlay.nodeId (overlay : WorkingNodeOverlay) : NodeId := overlay.state.nodeId

def kNanosecondsPerSecond : Double := 1000000000

namespace StateProjector

/-- `StateProjector::ProjectFromAnchor`. -/
def projectFromAnchor [DoubleArithmetic] (anchorState : NodeCommittedState)
    (anchorTime queryTime : SimTime) : Result NodeCommittedState :=
  if queryTime < anchorTime then
    .error ⟨.kFailedPrecondition, "StateProjector query_time precedes the motion anchor"⟩
  else
    match queryTime.checkedDifference anchorTime with
    | none => .error ⟨.kOverflow, "StateProjector elapsed simulation time overflowed"⟩
    | some elapsed =>
      let elapsedSeconds := div (toDouble elapsed.nanoseconds) kNanosecondsPerSecond
      let position := anchorState.motion.position
      let velocity := anchorState.motion.velocity
      .ok { anchorState with
        motion.position :=
          ⟨add position.xMeters (mul velocity.xMetersPerSecond elapsedSeconds),
            add position.yMeters (mul velocity.yMetersPerSecond elapsedSeconds),
            add position.zMeters (mul velocity.zMetersPerSecond elapsedSeconds)⟩ }

/-- `StateProjector::ProjectNodeState`. -/
def projectNodeState [DoubleArithmetic] (baseSnapshot : WorldSnapshot)
    (overlays : List WorkingNodeOverlay) (nodeId : NodeId) (queryTime : SimTime) :
    Result NodeCommittedState :=
  match baseSnapshot.findNode nodeId with
  | none => .error ⟨.kNotFound, "StateProjector could not find the requested NodeId"⟩
  | some baseNode =>
    match lookup WorkingNodeOverlay.nodeId nodeId overlays with
    | some overlay => projectFromAnchor overlay.state overlay.motionAnchor queryTime
    | none => projectFromAnchor baseNode baseSnapshot.committedAt queryTime

lemma projectFromAnchor_ok [DoubleArithmetic] {anchorState projected : NodeCommittedState}
    {anchorTime queryTime : SimTime}
    (h : projectFromAnchor anchorState anchorTime queryTime = .ok projected) :
    projected.nodeId = anchorState.nodeId ∧ projected.capability = anchorState.capability ∧
      projected.motion.velocity = anchorState.motion.velocity := by
  unfold projectFromAnchor at h
  split_ifs at h
  split at h
  · cases h
  · cases h; exact ⟨rfl, rfl, rfl⟩

end StateProjector

/-- A working state is over a snapshot no later than its start; its overlays are of nodes of
that snapshot, in the order of their ids, with anchors in the cycle. -/
structure CycleWorkingState where
  baseSnapshot : WorldSnapshot
  cycleId : PlanningCycleId
  cycleStartedAt : SimTime
  overlays : List WorkingNodeOverlay
  committed_le : baseSnapshot.committedAt ≤ cycleStartedAt
  ascending : Ascending WorkingNodeOverlay.nodeId overlays
  known : ∀ o ∈ overlays, (baseSnapshot.findNode o.nodeId).isSome
  anchored : ∀ o ∈ overlays, cycleStartedAt ≤ o.motionAnchor

namespace CycleWorkingState

/-- The state in which a cycle starts: no velocity was updated. -/
def started (baseSnapshot : WorldSnapshot) (cycleId : PlanningCycleId)
    (cycleStartedAt : SimTime) (h : baseSnapshot.committedAt ≤ cycleStartedAt) :
    CycleWorkingState where
  baseSnapshot
  cycleId
  cycleStartedAt
  overlays := []
  committed_le := h
  ascending := List.Pairwise.nil
  known := by simp
  anchored := by simp

/-- `CycleWorkingState::Create`. -/
def create (baseSnapshot : WorldSnapshot) (cycleId : PlanningCycleId)
    (cycleStartedAt : SimTime) : Result CycleWorkingState :=
  if h : cycleStartedAt < baseSnapshot.committedAt then
    .error ⟨.kFailedPrecondition,
      "CycleWorkingState cannot start before its base snapshot"⟩
  else .ok (started baseSnapshot cycleId cycleStartedAt (not_lt.mp h))

/-- `CycleWorkingState::ProjectNodeState`. -/
def projectNodeState [DoubleArithmetic] (w : CycleWorkingState) (nodeId : NodeId)
    (queryTime : SimTime) : Result NodeCommittedState :=
  if queryTime < w.cycleStartedAt then
    .error ⟨.kFailedPrecondition,
      "CycleWorkingState query_time precedes the cycle start"⟩
  else StateProjector.projectNodeState w.baseSnapshot w.overlays nodeId queryTime

lemma projectNodeState_ok [DoubleArithmetic] {w : CycleWorkingState} {nodeId : NodeId}
    {queryTime : SimTime} {projected : NodeCommittedState}
    (h : w.projectNodeState nodeId queryTime = .ok projected) :
    projected.nodeId = nodeId ∧ (w.baseSnapshot.findNode nodeId).isSome ∧
      w.cycleStartedAt ≤ queryTime := by
  unfold projectNodeState StateProjector.projectNodeState at h
  split_ifs at h with ht
  refine ⟨?_, ?_, not_lt.mp ht⟩
  · split at h
    · cases h
    · next baseNode hb =>
      split at h
      · next overlay ho =>
        rw [(StateProjector.projectFromAnchor_ok h).1]
        exact ((lookup_eq_some w.ascending).mp ho).2
      · rw [(StateProjector.projectFromAnchor_ok h).1]
        exact (WorldSnapshot.findNode_eq_some.mp hb).2
  · split at h
    · cases h
    · next baseNode hb => rw [hb]; rfl

/-- `CycleWorkingState::UpdateVelocity`. -/
def updateVelocity [DoubleArithmetic] (w : CycleWorkingState) (nodeId : NodeId)
    (velocity : Velocity3d) (effectiveAt : SimTime) : Status × CycleWorkingState :=
  match h : w.projectNodeState nodeId effectiveAt with
  | .error e => (.error e, w)
  | .ok projected =>
    let updatedState := { projected with motion.velocity := velocity }
    (.ok (), { w with
      overlays := upsert WorkingNodeOverlay.nodeId ⟨updatedState, effectiveAt⟩ w.overlays
      ascending := upsert_ascending w.ascending _
      known := by
        intro o ho
        rcases (mem_upsert w.ascending).mp ho with rfl | ⟨ho, -⟩
        · change (w.baseSnapshot.findNode projected.nodeId).isSome
          rw [(projectNodeState_ok h).1]; exact (projectNodeState_ok h).2.1
        · exact w.known o ho
      anchored := by
        intro o ho
        rcases (mem_upsert w.ascending).mp ho with rfl | ⟨ho, -⟩
        · exact (projectNodeState_ok h).2.2
        · exact w.anchored o ho })

/-- The loop of `FinalizeDeltaSet`. -/
def projectNodes [DoubleArithmetic] (w : CycleWorkingState) (cycleCloseTime : SimTime) :
    List NodeCommittedState → Result (List NodeStateReplacement)
  | [] => .ok []
  | baseNode :: rest =>
    match StateProjector.projectNodeState w.baseSnapshot w.overlays baseNode.nodeId
        cycleCloseTime with
    | .error e => .error e
    | .ok projected =>
      match w.projectNodes cycleCloseTime rest with
      | .error e => .error e
      | .ok replacements => .ok (⟨projected⟩ :: replacements)

/-- `CycleWorkingState::FinalizeDeltaSet`. -/
def finalizeDeltaSet [DoubleArithmetic] (w : CycleWorkingState) (cycleCloseTime : SimTime) :
    Result DeltaSet :=
  if cycleCloseTime < w.cycleStartedAt then
    .error ⟨.kFailedPrecondition,
      "CycleWorkingState cannot finalize before the cycle start"⟩
  else
    match w.projectNodes cycleCloseTime w.baseSnapshot.nodes with
    | .error e => .error e
    | .ok nodeReplacements =>
      .ok ⟨w.cycleId, w.baseSnapshot.version, cycleCloseTime, nodeReplacements⟩

end CycleWorkingState

/-! ### Motion -/

/-- A time in seconds. -/
def SimTime.seconds (t : SimTime) : Double := (t.nanoseconds : Double) / kNanosecondsPerSecond

lemma SimTime.seconds_le {a b : SimTime} : a.seconds ≤ b.seconds ↔ a ≤ b := by
  unfold SimTime.seconds kNanosecondsPerSecond
  rw [div_le_div_iff_of_pos_right (by norm_num), Int.cast_le, SimTime.le_iff]

def Position3d.coordinates (p : Position3d) : Double × Double × Double :=
  (p.xMeters, p.yMeters, p.zMeters)

def Velocity3d.coordinates (v : Velocity3d) : Double × Double × Double :=
  (v.xMetersPerSecond, v.yMetersPerSecond, v.zMetersPerSecond)

/-- The leg a node moves on from an anchor. -/
def NodeCommittedState.leg (state : NodeCommittedState) (anchor : SimTime) :
    Leg Double (Double × Double × Double) :=
  ⟨anchor.seconds, state.motion.position.coordinates, state.motion.velocity.coordinates⟩

/-- The time from one time to another is a 64-bit count. -/
def SimTime.Fits (since time : SimTime) : Prop :=
  kMin ≤ time.nanoseconds - since.nanoseconds ∧ time.nanoseconds - since.nanoseconds ≤ kMax

lemma SimTime.fits_of_le {since time : SimTime} (h : since ≤ time)
    (h0 : 0 ≤ since.nanoseconds) : since.Fits time := by
  have hle := SimTime.le_iff.mp h
  have hmax := time.le_kMax
  constructor <;> simp only [kMin, kMax] <;> omega

lemma StateProjector.projectFromAnchor_cases [DoubleArithmetic]
    (anchorState : NodeCommittedState) (anchorTime queryTime : SimTime) :
    (anchorTime ≤ queryTime ∧ anchorTime.Fits queryTime ∧
      ∃ projected, projectFromAnchor anchorState anchorTime queryTime = .ok projected) ∨
    (¬ (anchorTime ≤ queryTime ∧ anchorTime.Fits queryTime) ∧
      ∃ e, projectFromAnchor anchorState anchorTime queryTime = .error e) := by
  unfold projectFromAnchor
  by_cases hlt : queryTime < anchorTime
  · exact Or.inr ⟨fun h => absurd h.1 (not_le.mpr hlt), _, if_pos hlt⟩
  rw [if_neg hlt]
  rcases he : queryTime.checkedDifference anchorTime with _ | elapsed
  · refine Or.inr ⟨fun h => ?_, _, rfl⟩
    rw [SimTime.Fits, ← SimTime.checkedDifference_isSome, he] at h
    exact absurd h.2 (by simp)
  refine Or.inl ⟨not_lt.mp hlt, ?_, _, rfl⟩
  rw [SimTime.Fits, ← SimTime.checkedDifference_isSome, he]
  rfl

lemma StateProjector.projectFromAnchor_position {anchorState projected : NodeCommittedState}
    {anchorTime queryTime : SimTime}
    (h : projectFromAnchor anchorState anchorTime queryTime = .ok projected) :
    projected.motion.position.coordinates =
      (anchorState.leg anchorTime).positionAt queryTime.seconds := by
  unfold projectFromAnchor at h
  split_ifs at h
  split at h
  · cases h
  next elapsed he =>
  cases h
  have hsec : (elapsed.nanoseconds : Double) / kNanosecondsPerSecond =
      queryTime.seconds - anchorTime.seconds := by
    rw [← SimTime.checkedDifference_eq_some.mp he]
    simp only [SimTime.seconds, Int.cast_sub, sub_div]
  simp only [toDouble_eq, div_eq, mul_eq, add_eq, hsec, Position3d.coordinates,
    NodeCommittedState.leg, Leg.positionAt, Velocity3d.coordinates, Prod.smul_mk, smul_eq_mul,
    Prod.mk_add_mk, mul_comm]

namespace CycleWorkingState

/-- The state a node moves on from, and since when. -/
def anchor (w : CycleWorkingState) (nodeId : NodeId) : Option (NodeCommittedState × SimTime) :=
  (w.baseSnapshot.findNode nodeId).map fun baseNode =>
    match lookup WorkingNodeOverlay.nodeId nodeId w.overlays with
    | some overlay => (overlay.state, overlay.motionAnchor)
    | none => (baseNode, w.baseSnapshot.committedAt)

lemma anchor_create {baseSnapshot : WorldSnapshot} {cycleId : PlanningCycleId}
    {cycleStartedAt : SimTime} {w : CycleWorkingState}
    (h : create baseSnapshot cycleId cycleStartedAt = .ok w) (nodeId : NodeId) :
    w.baseSnapshot = baseSnapshot ∧ w.cycleStartedAt = cycleStartedAt ∧
      w.anchor nodeId = (baseSnapshot.findNode nodeId).map fun baseNode =>
        (baseNode, baseSnapshot.committedAt) := by
  unfold create at h
  split_ifs at h
  cases h
  exact ⟨rfl, rfl, rfl⟩

lemma committedAt_le_anchor {w : CycleWorkingState} {nodeId : NodeId}
    {state : NodeCommittedState} {anchorTime : SimTime}
    (h : w.anchor nodeId = some (state, anchorTime)) :
    w.baseSnapshot.committedAt ≤ anchorTime := by
  unfold anchor at h
  obtain ⟨baseNode, -, h⟩ := Option.map_eq_some_iff.mp h
  split at h
  · next overlay ho =>
    cases h
    exact w.committed_le.trans (w.anchored overlay ((lookup_eq_some w.ascending).mp ho).1)
  · cases h; exact le_rfl

lemma projectNodeState_eq [DoubleArithmetic] (w : CycleWorkingState) (nodeId : NodeId)
    (queryTime : SimTime) :
    w.projectNodeState nodeId queryTime =
      if queryTime < w.cycleStartedAt then
        .error ⟨.kFailedPrecondition,
          "CycleWorkingState query_time precedes the cycle start"⟩
      else
        match w.anchor nodeId with
        | none => .error ⟨.kNotFound, "StateProjector could not find the requested NodeId"⟩
        | some (state, anchorTime) =>
          StateProjector.projectFromAnchor state anchorTime queryTime := by
  unfold projectNodeState StateProjector.projectNodeState anchor
  rcases w.baseSnapshot.findNode nodeId with _ | baseNode
  · rfl
  · rcases lookup WorkingNodeOverlay.nodeId nodeId w.overlays with _ | overlay <;> rfl

lemma projectNodeState_outcome [DoubleArithmetic] (w : CycleWorkingState) (nodeId : NodeId)
    (queryTime : SimTime) :
    (∃ state anchorTime projected, w.anchor nodeId = some (state, anchorTime) ∧
      w.cycleStartedAt ≤ queryTime ∧ anchorTime ≤ queryTime ∧ anchorTime.Fits queryTime ∧
      StateProjector.projectFromAnchor state anchorTime queryTime = .ok projected ∧
      w.projectNodeState nodeId queryTime = .ok projected) ∨
    (∃ e, w.projectNodeState nodeId queryTime = .error e) ∧
      ¬ (w.cycleStartedAt ≤ queryTime ∧
        ∃ state anchorTime, w.anchor nodeId = some (state, anchorTime) ∧
          anchorTime ≤ queryTime ∧ anchorTime.Fits queryTime) := by
  rw [projectNodeState_eq]
  by_cases hstart : queryTime < w.cycleStartedAt
  · exact Or.inr ⟨⟨_, if_pos hstart⟩, fun h => absurd h.1 (not_le.mpr hstart)⟩
  rw [if_neg hstart]
  rcases ha : w.anchor nodeId with _ | ⟨state, anchorTime⟩
  · exact Or.inr ⟨⟨_, rfl⟩, by simp⟩
  rcases StateProjector.projectFromAnchor_cases state anchorTime queryTime with
    ⟨hle, hfits, projected, hok⟩ | ⟨hnot, e, herr⟩
  · exact Or.inl ⟨state, anchorTime, projected, rfl, not_lt.mp hstart, hle, hfits, hok, hok⟩
  · refine Or.inr ⟨⟨e, herr⟩, ?_⟩
    rintro ⟨-, s, a, heq, hle⟩
    cases heq
    exact hnot hle

lemma projectNodeState_cases [DoubleArithmetic] {w : CycleWorkingState}
    (h0 : 0 ≤ w.baseSnapshot.committedAt.nanoseconds) (nodeId : NodeId) (queryTime : SimTime) :
    (∃ state anchorTime projected, w.anchor nodeId = some (state, anchorTime) ∧
      w.cycleStartedAt ≤ queryTime ∧ anchorTime ≤ queryTime ∧
      w.projectNodeState nodeId queryTime = .ok projected ∧
      StateProjector.projectFromAnchor state anchorTime queryTime = .ok projected) ∨
    (∃ e, w.projectNodeState nodeId queryTime = .error e) ∧
      ¬ (w.cycleStartedAt ≤ queryTime ∧
        ∃ state anchorTime, w.anchor nodeId = some (state, anchorTime) ∧
          anchorTime ≤ queryTime) := by
  rcases w.projectNodeState_outcome nodeId queryTime with
    ⟨state, anchorTime, projected, ha, hstart, hle, -, hfrom, hok⟩ | ⟨herr, hnot⟩
  · exact Or.inl ⟨state, anchorTime, projected, ha, hstart, hle, hok, hfrom⟩
  · refine Or.inr ⟨herr, ?_⟩
    rintro ⟨hstart, state, anchorTime, ha, hle⟩
    have hanchor : 0 ≤ anchorTime.nanoseconds :=
      h0.trans (SimTime.le_iff.mp (committedAt_le_anchor ha))
    exact hnot ⟨hstart, state, anchorTime, ha, hle, SimTime.fits_of_le hle hanchor⟩

lemma updateVelocity_cases [DoubleArithmetic] (w : CycleWorkingState) (nodeId : NodeId)
    (velocity : Velocity3d) (effectiveAt : SimTime) :
    (∃ projected w', w.projectNodeState nodeId effectiveAt = .ok projected ∧
      w.updateVelocity nodeId velocity effectiveAt = (.ok (), w') ∧
      w'.baseSnapshot = w.baseSnapshot ∧ w'.cycleId = w.cycleId ∧
      w'.cycleStartedAt = w.cycleStartedAt ∧
      w'.anchor nodeId = some ({ projected with motion.velocity := velocity }, effectiveAt) ∧
      ∀ other, other ≠ nodeId → w'.anchor other = w.anchor other) ∨
    ∃ e, w.projectNodeState nodeId effectiveAt = .error e ∧
      w.updateVelocity nodeId velocity effectiveAt = (.error e, w) := by
  unfold updateVelocity
  split
  · next e he => exact Or.inr ⟨e, he, rfl⟩
  · next projected hok =>
    obtain ⟨hid, hknown, -⟩ := projectNodeState_ok hok
    refine Or.inl ⟨projected, _, hok, rfl, rfl, rfl, rfl, ?_, fun other hne => ?_⟩
    · obtain ⟨baseNode, hb⟩ := Option.isSome_iff_exists.mp hknown
      have hself := lookup_upsert_self w.ascending
        (⟨{ projected with motion.velocity := velocity }, effectiveAt⟩ : WorkingNodeOverlay)
      have hkey : WorkingNodeOverlay.nodeId
          ⟨{ projected with motion.velocity := velocity }, effectiveAt⟩ = nodeId := hid
      rw [hkey] at hself
      simp only [anchor, hb, Option.map_some, hself]
    · have hother := lookup_upsert_ne w.ascending (k := other)
        (a := ⟨{ projected with motion.velocity := velocity }, effectiveAt⟩)
        (by rw [WorkingNodeOverlay.nodeId, hid]; exact hne)
      simp only [anchor, hother]

/-! ### The delta -/

/-- The nodes are those of the snapshot as projected to a time. -/
def Projects [DoubleArithmetic] (w : CycleWorkingState) (queryTime : SimTime)
    (nodes : List NodeCommittedState) : Prop :=
  List.Forall₂ (fun baseNode projected =>
    w.projectNodeState baseNode.nodeId queryTime = .ok projected) w.baseSnapshot.nodes nodes

lemma projectNodes_ok [DoubleArithmetic] {w : CycleWorkingState} {closeTime : SimTime}
    (hstart : w.cycleStartedAt ≤ closeTime) {baseNodes : List NodeCommittedState}
    {replacements : List NodeStateReplacement} :
    w.projectNodes closeTime baseNodes = .ok replacements ↔
      List.Forall₂ (fun baseNode projected =>
        w.projectNodeState baseNode.nodeId closeTime = .ok projected) baseNodes
        (replacements.map NodeStateReplacement.state) := by
  induction baseNodes generalizing replacements with
  | nil => cases replacements <;> simp [projectNodes]
  | cons baseNode rest ih =>
    have hproject : w.projectNodeState baseNode.nodeId closeTime =
        StateProjector.projectNodeState w.baseSnapshot w.overlays baseNode.nodeId closeTime :=
      if_neg (not_lt.mpr hstart)
    rw [projectNodes, ← hproject]
    constructor
    · intro h
      split at h
      · cases h
      next projected hp =>
      split at h
      · cases h
      next replacements' hr =>
      cases h
      exact List.Forall₂.cons hp (ih.mp hr)
    · intro h
      rcases replacements with _ | ⟨⟨projected⟩, replacements⟩
      · cases h
      rw [List.map_cons, List.forall₂_cons] at h
      simp only [h.1, ih.mpr h.2]

lemma finalizeDeltaSet_ok [DoubleArithmetic] {w : CycleWorkingState} {closeTime : SimTime}
    {delta : DeltaSet} :
    w.finalizeDeltaSet closeTime = .ok delta ↔
      w.cycleStartedAt ≤ closeTime ∧ delta.cycleId = w.cycleId ∧
        delta.baseVersion = w.baseSnapshot.version ∧ delta.effectiveAt = closeTime ∧
        w.Projects closeTime (delta.nodeReplacements.map NodeStateReplacement.state) := by
  unfold finalizeDeltaSet
  by_cases hstart : closeTime < w.cycleStartedAt
  · rw [if_pos hstart]
    exact iff_of_false (by simp) fun h => absurd h.1 (not_le.mpr hstart)
  rw [if_neg hstart]
  have hiff : ∀ replacements, w.projectNodes closeTime w.baseSnapshot.nodes = .ok replacements ↔
      w.Projects closeTime (replacements.map NodeStateReplacement.state) :=
    fun _ => projectNodes_ok (not_lt.mp hstart)
  obtain ⟨cycleId, baseVersion, effectiveAt, replacements⟩ := delta
  constructor
  · intro h
    split at h
    · cases h
    next replacements' hr =>
    cases h
    exact ⟨not_lt.mp hstart, rfl, rfl, rfl, (hiff _).mp hr⟩
  · rintro ⟨-, rfl, rfl, rfl, hproj⟩
    rw [(hiff replacements).mpr hproj]

lemma Projects.ids [DoubleArithmetic] {w : CycleWorkingState} {queryTime : SimTime}
    {nodes : List NodeCommittedState} (h : w.Projects queryTime nodes) :
    nodes.map NodeCommittedState.nodeId =
      w.baseSnapshot.nodes.map NodeCommittedState.nodeId := by
  unfold Projects at h
  generalize w.baseSnapshot.nodes = baseNodes at h
  induction h with
  | nil => rfl
  | cons hp _ ih => rw [List.map_cons, List.map_cons, ih, (projectNodeState_ok hp).1]

lemma exists_finalizeDeltaSet [DoubleArithmetic] {w : CycleWorkingState} {closeTime : SimTime}
    (hstart : w.cycleStartedAt ≤ closeTime)
    (h : ∀ baseNode ∈ w.baseSnapshot.nodes,
      ∃ projected, w.projectNodeState baseNode.nodeId closeTime = .ok projected) :
    ∃ delta, w.finalizeDeltaSet closeTime = .ok delta := by
  have hnodes : ∀ baseNodes : List NodeCommittedState, (∀ baseNode ∈ baseNodes,
      ∃ projected, w.projectNodeState baseNode.nodeId closeTime = .ok projected) →
      ∃ replacements : List NodeStateReplacement, List.Forall₂ (fun baseNode projected =>
        w.projectNodeState baseNode.nodeId closeTime = .ok projected) baseNodes
        (replacements.map NodeStateReplacement.state) := by
    intro baseNodes h
    induction baseNodes with
    | nil => exact ⟨[], List.Forall₂.nil⟩
    | cons baseNode rest ih =>
      obtain ⟨projected, hp⟩ := h baseNode (by simp)
      obtain ⟨replacements, hr⟩ := ih fun node hmem => h node (by simp [hmem])
      exact ⟨⟨projected⟩ :: replacements, List.Forall₂.cons hp hr⟩
  obtain ⟨replacements, hproj⟩ := hnodes _ h
  exact ⟨⟨w.cycleId, w.baseSnapshot.version, closeTime, replacements⟩,
    finalizeDeltaSet_ok.mpr ⟨hstart, rfl, rfl, rfl, hproj⟩⟩

end CycleWorkingState

end Ns3Factory
