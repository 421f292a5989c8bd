import Ns3Factory.CycleWorkingState
import Ns3Factory.Transition

/-!
How a node moves in a cycle.

The anchor of a node is the leg its own accepted updates have led to: an update of another
node, a refused update and a projection leave it where it is. A projection is then the
position on that leg.
-/

namespace Ns3Factory.CycleWorkingState

open Transition Trajectory

structure VelocityUpdate where
  nodeId : NodeId
  velocity : Velocity3d
  effectiveAt : SimTime
  deriving DecidableEq

/-- A call of a working state. -/
inductive MotionCall
  | updateVelocity (update : VelocityUpdate)
  | projectNodeState (nodeId : NodeId) (queryTime : SimTime)

def update (w : CycleWorkingState) (u : VelocityUpdate) : Status × CycleWorkingState :=
  w.updateVelocity u.nodeId u.velocity u.effectiveAt

/-- The status a call returns, and the working state after it. -/
def call (w : CycleWorkingState) : MotionCall → Status × CycleWorkingState
  | .updateVelocity u => w.update u
  | .projectNodeState nodeId queryTime =>
    ((w.projectNodeState nodeId queryTime).map fun _ => (), w)

/-- The accepted updates of a node. -/
def accepted (nodeId : NodeId) (trace : List (MotionCall × Status)) : List VelocityUpdate :=
  trace.filterMap fun
    | (.updateVelocity u, .ok _) => if u.nodeId = nodeId then some u else none
    | _ => none

lemma accepted_append (nodeId : NodeId) (trace trace' : List (MotionCall × Status)) :
    accepted nodeId (trace ++ trace') = accepted nodeId trace ++ accepted nodeId trace' :=
  List.filterMap_append ..

/-- When a node was last updated, or committed. -/
def lastUpdateAt (baseSnapshot : WorldSnapshot) (updates : List VelocityUpdate) : SimTime :=
  (updates.getLast?.map VelocityUpdate.effectiveAt).getD baseSnapshot.committedAt

def lastVelocity (baseNode : NodeCommittedState) (updates : List VelocityUpdate) : Velocity3d :=
  (updates.getLast?.map VelocityUpdate.velocity).getD baseNode.motion.velocity

def VelocityUpdate.turn (u : VelocityUpdate) : Turn Double (Double × Double × Double) :=
  ⟨u.effectiveAt.seconds, u.velocity.coordinates⟩

/-- The state a node moves on from is where its updates have led it. -/
structure Moved (w : CycleWorkingState) (baseNode : NodeCommittedState)
    (updates : List VelocityUpdate) (state : NodeCommittedState) : Prop where
  anchor : w.anchor baseNode.nodeId = some (state, lastUpdateAt w.baseSnapshot updates)
  nodeId : state.nodeId = baseNode.nodeId
  capability : state.capability = baseNode.capability
  velocity : state.motion.velocity = lastVelocity baseNode updates
  leg : state.leg (lastUpdateAt w.baseSnapshot updates) =
    (baseNode.leg w.baseSnapshot.committedAt).follow (updates.map VelocityUpdate.turn)
  chronological : ∀ u ∈ updates, u.effectiveAt ≤ lastUpdateAt w.baseSnapshot updates

variable {w : CycleWorkingState} {baseNode state : NodeCommittedState}
  {updates : List VelocityUpdate}

lemma moved_create {baseSnapshot : WorldSnapshot} {cycleId : PlanningCycleId}
    {cycleStartedAt : SimTime} (h : create baseSnapshot cycleId cycleStartedAt = .ok w)
    (hnode : baseSnapshot.findNode baseNode.nodeId = some baseNode) :
    w.Moved baseNode [] baseNode := by
  obtain ⟨hbase, -, ha⟩ := anchor_create h baseNode.nodeId
  refine ⟨?_, rfl, rfl, rfl, rfl, by simp⟩
  rw [ha, hnode, hbase]
  rfl

lemma Moved.positionAt (h : w.Moved baseNode updates state) {queryTime : SimTime}
    (hle : lastUpdateAt w.baseSnapshot updates ≤ queryTime) :
    Trajectory.positionAt (baseNode.leg w.baseSnapshot.committedAt)
        (updates.map VelocityUpdate.turn) queryTime.seconds =
      ((baseNode.leg w.baseSnapshot.committedAt).follow
        (updates.map VelocityUpdate.turn)).positionAt queryTime.seconds := by
  refine positionAt_of_le fun turn hturn => ?_
  obtain ⟨u, hu, rfl⟩ := List.mem_map.mp hturn
  exact SimTime.seconds_le.mpr ((h.chronological u hu).trans hle)

lemma Moved.project (h : w.Moved baseNode updates state) {queryTime : SimTime}
    {projected : NodeCommittedState}
    (hok : w.projectNodeState baseNode.nodeId queryTime = .ok projected) :
    projected.nodeId = baseNode.nodeId ∧ projected.capability = baseNode.capability ∧
      projected.motion.velocity = lastVelocity baseNode updates ∧
      lastUpdateAt w.baseSnapshot updates ≤ queryTime ∧
      projected.leg queryTime = ((baseNode.leg w.baseSnapshot.committedAt).follow
        (updates.map VelocityUpdate.turn)).advance queryTime.seconds := by
  rcases w.projectNodeState_outcome baseNode.nodeId queryTime with
    ⟨state', anchorTime, projected', ha, -, hle, -, hproj, hok'⟩ | ⟨⟨e, he⟩, -⟩
  · rw [h.anchor] at ha
    cases ha
    rw [hok] at hok'
    cases hok'
    have hpos := StateProjector.projectFromAnchor_position hproj
    obtain ⟨hid, hcapability, hvelocity⟩ := StateProjector.projectFromAnchor_ok hproj
    refine ⟨hid.trans h.nodeId, hcapability.trans h.capability, hvelocity.trans h.velocity, hle, ?_⟩
    rw [← h.leg, NodeCommittedState.leg, hpos, hvelocity]
    rfl
  · rw [he] at hok; cases hok

lemma Moved.keep (h : w.Moved baseNode updates state) {next : CycleWorkingState}
    (hbase : next.baseSnapshot = w.baseSnapshot)
    (hanchor : next.anchor baseNode.nodeId = w.anchor baseNode.nodeId) :
    next.Moved baseNode updates state where
  anchor := by rw [hanchor, hbase]; exact h.anchor
  nodeId := h.nodeId
  capability := h.capability
  velocity := h.velocity
  leg := by rw [hbase]; exact h.leg
  chronological := by rw [hbase]; exact h.chronological

lemma Moved.turn (h : w.Moved baseNode updates state) {u : VelocityUpdate}
    {projected : NodeCommittedState} {next : CycleWorkingState}
    (hid : u.nodeId = baseNode.nodeId)
    (hok : w.projectNodeState u.nodeId u.effectiveAt = .ok projected)
    (hbase : next.baseSnapshot = w.baseSnapshot)
    (hanchor : next.anchor u.nodeId =
      some ({ projected with motion.velocity := u.velocity }, u.effectiveAt)) :
    next.Moved baseNode (updates ++ [u]) { projected with motion.velocity := u.velocity } := by
  rw [hid] at hok hanchor
  obtain ⟨hnode, hcapability, -, hle, hleg⟩ := h.project hok
  have hlast : lastUpdateAt next.baseSnapshot (updates ++ [u]) = u.effectiveAt := by
    simp [lastUpdateAt]
  refine ⟨by rw [hlast]; exact hanchor, hnode, hcapability, by simp [lastVelocity], ?_, ?_⟩
  · have hpos : projected.motion.position.coordinates = _ := congrArg Leg.position hleg
    rw [hlast, hbase, List.map_append, List.map_singleton, Leg.follow_concat]
    simp only [NodeCommittedState.leg, hpos]
    rfl
  · intro v hv
    rw [hlast]
    rcases List.mem_append.mp hv with hv | hv
    · exact (h.chronological v hv).trans hle
    · rw [List.mem_singleton.mp hv]

lemma Moved.call {trace : List (MotionCall × Status)}
    (h : ∃ state, w.Moved baseNode (accepted baseNode.nodeId trace) state) (c : MotionCall) :
    ∃ state, (CycleWorkingState.call w c).2.Moved baseNode
      (accepted baseNode.nodeId (trace ++ [(c, (CycleWorkingState.call w c).1)])) state := by
  obtain ⟨state, h⟩ := h
  rw [accepted_append]
  cases c with
  | projectNodeState nodeId queryTime =>
    have hnone : accepted baseNode.nodeId [(.projectNodeState nodeId queryTime,
        (CycleWorkingState.call w (.projectNodeState nodeId queryTime)).1)] = [] := rfl
    rw [hnone, List.append_nil]
    exact ⟨state, h.keep rfl rfl⟩
  | updateVelocity u =>
    simp only [CycleWorkingState.call, update]
    rcases w.updateVelocity_cases u.nodeId u.velocity u.effectiveAt with
      ⟨projected, next, hok, hupdate, hbase, -, -, hself, hother⟩ | ⟨e, -, herr⟩
    · rw [hupdate]
      by_cases hid : u.nodeId = baseNode.nodeId
      · have hone : accepted baseNode.nodeId [(.updateVelocity u, .ok ())] = [u] := by
          simp [accepted, hid]
        rw [hone]
        exact ⟨_, h.turn hid hok hbase hself⟩
      · have hnone : accepted baseNode.nodeId [(.updateVelocity u, .ok ())] = [] := by
          simp [accepted, hid]
        rw [hnone, List.append_nil]
        exact ⟨state, h.keep hbase (hother _ fun heq => hid heq.symm)⟩
    · rw [herr]
      have hnone : accepted baseNode.nodeId [(.updateVelocity u, .error e)] = [] := rfl
      rw [hnone, List.append_nil]
      exact ⟨state, h⟩

lemma call_base (w : CycleWorkingState) (c : MotionCall) :
    (call w c).2.baseSnapshot = w.baseSnapshot ∧ (call w c).2.cycleId = w.cycleId ∧
      (call w c).2.cycleStartedAt = w.cycleStartedAt := by
  cases c with
  | projectNodeState nodeId queryTime => exact ⟨rfl, rfl, rfl⟩
  | updateVelocity u =>
    simp only [call, update]
    rcases w.updateVelocity_cases u.nodeId u.velocity u.effectiveAt with
      ⟨projected, next, -, hupdate, hbase, hcycle, hstart, -, -⟩ | ⟨e, -, herr⟩
    · rw [hupdate]; exact ⟨hbase, hcycle, hstart⟩
    · rw [herr]; exact ⟨rfl, rfl, rfl⟩

lemma exec_base (w : CycleWorkingState) (calls : List MotionCall) :
    (exec call w calls).2.baseSnapshot = w.baseSnapshot ∧
      (exec call w calls).2.cycleId = w.cycleId ∧
      (exec call w calls).2.cycleStartedAt = w.cycleStartedAt := by
  refine exec_invariant call (P := fun _ s => s.baseSnapshot = w.baseSnapshot ∧
    s.cycleId = w.cycleId ∧ s.cycleStartedAt = w.cycleStartedAt) (A := fun _ => True) ?_
    ⟨rfl, rfl, rfl⟩ (fun _ _ => trivial)
  rintro - s c ⟨hbase, hcycle, hstart⟩ -
  obtain ⟨hbase', hcycle', hstart'⟩ := call_base s c
  exact ⟨hbase'.trans hbase, hcycle'.trans hcycle, hstart'.trans hstart⟩

lemma moved_exec (h : w.Moved baseNode [] baseNode) (calls : List MotionCall) :
    ∃ state, (exec call w calls).2.Moved baseNode
      (accepted baseNode.nodeId (exec call w calls).1) state :=
  exec_invariant call
    (P := fun trace s => ∃ state, s.Moved baseNode (accepted baseNode.nodeId trace) state)
    (A := fun _ => True) (fun _ _ c h _ => Moved.call h c) ⟨baseNode, h⟩ (fun _ _ => trivial)

lemma update_cases (w : CycleWorkingState) (u : VelocityUpdate) :
    ((w.update u).1 = .ok () ∧ w.cycleStartedAt ≤ u.effectiveAt ∧
      ∃ state anchorTime, w.anchor u.nodeId = some (state, anchorTime) ∧
        anchorTime ≤ u.effectiveAt ∧ anchorTime.Fits u.effectiveAt) ∨
    ((w.update u).1 ≠ .ok () ∧ (w.update u).2 = w ∧ ¬ (w.cycleStartedAt ≤ u.effectiveAt ∧
      ∃ state anchorTime, w.anchor u.nodeId = some (state, anchorTime) ∧
        anchorTime ≤ u.effectiveAt ∧ anchorTime.Fits u.effectiveAt)) := by
  unfold update
  rcases w.projectNodeState_outcome u.nodeId u.effectiveAt with
      ⟨state, anchorTime, projected, ha, hstart, hle, hfits, -, hok⟩ | ⟨⟨e, herr⟩, hnot⟩ <;>
    rcases w.updateVelocity_cases u.nodeId u.velocity u.effectiveAt with
      ⟨projected', next, hok', hupdate, -⟩ | ⟨e', herr', hupdate⟩
  · exact Or.inl ⟨by rw [hupdate], hstart, state, anchorTime, ha, hle, hfits⟩
  · rw [hok] at herr'; cases herr'
  · rw [herr] at hok'; cases hok'
  · exact Or.inr ⟨by simp [hupdate], by rw [hupdate], hnot⟩

/-! ### Independence -/

def MotionCall.isUpdateOf (nodeId : NodeId) : MotionCall → Bool
  | .updateVelocity u => u.nodeId = nodeId
  | .projectNodeState _ _ => false

/-- Two working states of the same cycle agree on a node. -/
structure Agrees (nodeId : NodeId) (w w' : CycleWorkingState) : Prop where
  base : w.baseSnapshot = w'.baseSnapshot
  started : w.cycleStartedAt = w'.cycleStartedAt
  anchor : w.anchor nodeId = w'.anchor nodeId

lemma Agrees.project {nodeId : NodeId} {w w' : CycleWorkingState} (h : Agrees nodeId w w')
    (queryTime : SimTime) :
    w.projectNodeState nodeId queryTime = w'.projectNodeState nodeId queryTime := by
  rw [projectNodeState_eq, projectNodeState_eq, h.started, h.anchor]

lemma Agrees.update {nodeId : NodeId} {w w' : CycleWorkingState} (h : Agrees nodeId w w')
    {u : VelocityUpdate} (hid : u.nodeId = nodeId) :
    Agrees nodeId (w.update u).2 (w'.update u).2 := by
  subst hid
  unfold CycleWorkingState.update
  have hproj := h.project u.effectiveAt
  rcases w.updateVelocity_cases u.nodeId u.velocity u.effectiveAt with
      ⟨projected, next, hok, hupdate, hbase, -, hstart, hanchor, -⟩ | ⟨e, he, herr⟩ <;>
    rcases w'.updateVelocity_cases u.nodeId u.velocity u.effectiveAt with
      ⟨projected', next', hok', hupdate', hbase', -, hstart', hanchor', -⟩ | ⟨e', he', herr'⟩
  · rw [hok, hok'] at hproj
    cases hproj
    rw [hupdate, hupdate']
    exact ⟨hbase.trans (h.base.trans hbase'.symm), hstart.trans (h.started.trans hstart'.symm),
      hanchor.trans hanchor'.symm⟩
  · rw [hok, he'] at hproj; cases hproj
  · rw [he, hok'] at hproj; cases hproj
  · rw [herr, herr']; exact h

lemma Agrees.other {nodeId : NodeId} {w w' : CycleWorkingState} (h : Agrees nodeId w w')
    {c : MotionCall} (hc : c.isUpdateOf nodeId = false) : Agrees nodeId (call w c).2 w' := by
  cases c with
  | projectNodeState => exact h
  | updateVelocity u =>
    have hid : nodeId ≠ u.nodeId := by
      intro heq
      simp [MotionCall.isUpdateOf, heq] at hc
    simp only [CycleWorkingState.call, CycleWorkingState.update]
    rcases w.updateVelocity_cases u.nodeId u.velocity u.effectiveAt with
      ⟨projected, next, -, hupdate, hbase, -, hstart, -, hother⟩ | ⟨e, -, herr⟩
    · rw [hupdate]
      exact ⟨hbase.trans h.base, hstart.trans h.started, (hother _ hid).trans h.anchor⟩
    · rw [herr]; exact h

lemma agrees_exec {nodeId : NodeId} {w w' : CycleWorkingState} (h : Agrees nodeId w w')
    (calls : List MotionCall) :
    Agrees nodeId (exec call w calls).2
      (exec call w' (calls.filter (MotionCall.isUpdateOf nodeId))).2 := by
  induction calls generalizing w w' with
  | nil => exact h
  | cons c calls ih =>
    rcases hc : c.isUpdateOf nodeId with _ | _
    · rw [List.filter_cons_of_neg (by simp [hc])]
      exact ih (h.other hc)
    · rw [List.filter_cons_of_pos hc]
      cases c with
      | projectNodeState => cases hc
      | updateVelocity u => exact ih (h.update (by simpa [MotionCall.isUpdateOf] using hc))

lemma lastUpdateAt_le_iff {baseSnapshot : WorldSnapshot} {updates : List VelocityUpdate}
    {time : SimTime} (h : baseSnapshot.committedAt ≤ time) :
    lastUpdateAt baseSnapshot updates ≤ time ↔
      ∀ last, updates.getLast? = some last → last.effectiveAt ≤ time := by
  rcases hu : updates.getLast? with _ | last
  · simp [lastUpdateAt, hu, h]
  · simp [lastUpdateAt, hu]

lemma exec_anchor {baseSnapshot : WorldSnapshot} {cycleId : PlanningCycleId}
    {cycleStartedAt : SimTime} (h : create baseSnapshot cycleId cycleStartedAt = .ok w)
    (calls : List MotionCall) (nodeId : NodeId) :
    (baseSnapshot.findNode nodeId = none ∧ (exec call w calls).2.anchor nodeId = none) ∨
    ∃ baseNode state, baseSnapshot.findNode nodeId = some baseNode ∧ nodeId = baseNode.nodeId ∧
      (exec call w calls).2.Moved baseNode (accepted nodeId (exec call w calls).1) state ∧
      (exec call w calls).2.anchor nodeId =
        some (state, lastUpdateAt baseSnapshot (accepted nodeId (exec call w calls).1)) := by
  have hbase := (exec_base w calls).1.trans (anchor_create h nodeId).1
  rcases hnode : baseSnapshot.findNode nodeId with _ | baseNode
  · exact Or.inl ⟨rfl, by rw [anchor, hbase, hnode]; rfl⟩
  · obtain rfl := (WorldSnapshot.findNode_eq_some.mp hnode).2
    obtain ⟨state, hm⟩ := moved_exec (moved_create h hnode) calls
    refine Or.inr ⟨baseNode, state, rfl, rfl, hm, ?_⟩
    rw [← hbase]
    exact hm.anchor

section

variable {baseSnapshot : WorldSnapshot} {cycleId : PlanningCycleId} {cycleStartedAt : SimTime}

lemma exec_created (h : create baseSnapshot cycleId cycleStartedAt = .ok w)
    (calls : List MotionCall) :
    (exec call w calls).2.baseSnapshot = baseSnapshot ∧
      (exec call w calls).2.cycleStartedAt = cycleStartedAt ∧
      baseSnapshot.committedAt ≤ cycleStartedAt := by
  obtain ⟨hbase, hstarted, -⟩ := anchor_create h ⟨0⟩
  obtain ⟨hbase', -, hstarted'⟩ := exec_base w calls
  refine ⟨hbase'.trans hbase, hstarted'.trans hstarted, ?_⟩
  rw [← hbase, ← hstarted]
  exact w.committed_le

lemma update_accepted_iff (h : create baseSnapshot cycleId cycleStartedAt = .ok w)
    (calls : List MotionCall) (u : VelocityUpdate) :
    ((exec call w calls).2.update u).1 = .ok () ↔
      (baseSnapshot.findNode u.nodeId).isSome ∧ cycleStartedAt ≤ u.effectiveAt ∧
      (∀ last, (accepted u.nodeId (exec call w calls).1).getLast? = some last →
        last.effectiveAt ≤ u.effectiveAt) ∧
      (lastUpdateAt baseSnapshot (accepted u.nodeId (exec call w calls).1)).Fits
        u.effectiveAt := by
  obtain ⟨-, hstart, hcommitted⟩ := exec_created h calls
  rcases (exec call w calls).2.update_cases u with
      ⟨hok, ht, state, anchorTime, ha, hle, hfits⟩ | ⟨herr, -, hnot⟩ <;>
    rcases exec_anchor h calls u.nodeId with ⟨hnone, ha'⟩ | ⟨baseNode, state', hnode, -, -, ha'⟩
  · rw [ha'] at ha; cases ha
  · rw [ha'] at ha
    cases ha
    rw [hstart] at ht
    exact iff_of_true hok
      ⟨by rw [hnode]; rfl, ht, (lastUpdateAt_le_iff (hcommitted.trans ht)).mp hle, hfits⟩
  · exact iff_of_false herr fun hall => by rw [hnone] at hall; cases hall.1
  · refine iff_of_false herr fun ⟨_, ht, hle, hfits⟩ =>
      hnot ⟨hstart ▸ ht, state', _, ha', ?_, hfits⟩
    exact (lastUpdateAt_le_iff (hcommitted.trans ht)).mpr hle

lemma projectNodeState_of_last (h : create baseSnapshot cycleId cycleStartedAt = .ok w)
    (calls : List MotionCall) {baseNode : NodeCommittedState} {queryTime : SimTime}
    (hnode : baseSnapshot.findNode baseNode.nodeId = some baseNode)
    (ht : cycleStartedAt ≤ queryTime)
    (hle : ∀ last, (accepted baseNode.nodeId (exec call w calls).1).getLast? = some last →
      last.effectiveAt ≤ queryTime)
    (hfits : (lastUpdateAt baseSnapshot (accepted baseNode.nodeId (exec call w calls).1)).Fits
      queryTime) :
    ∃ projected, (exec call w calls).2.projectNodeState baseNode.nodeId queryTime =
        .ok projected ∧
      projected.nodeId = baseNode.nodeId ∧ projected.capability = baseNode.capability ∧
      projected.motion.velocity =
        lastVelocity baseNode (accepted baseNode.nodeId (exec call w calls).1) ∧
      projected.motion.position.coordinates =
        positionAt (baseNode.leg baseSnapshot.committedAt)
          ((accepted baseNode.nodeId (exec call w calls).1).map VelocityUpdate.turn)
          queryTime.seconds := by
  obtain ⟨hsnap, hstart, hcommitted⟩ := exec_created h calls
  rcases exec_anchor h calls baseNode.nodeId with ⟨hnone, -⟩ | ⟨node, state, hnode', -, hm, ha⟩
  · rw [hnode] at hnone; cases hnone
  rw [hnode] at hnode'
  cases hnode'
  rcases (exec call w calls).2.projectNodeState_outcome baseNode.nodeId queryTime with
    ⟨-, -, projected, -, -, -, -, -, hok⟩ | ⟨-, hnot⟩
  · obtain ⟨hid, hcapability, hvelocity, hle', hleg⟩ := hm.project hok
    refine ⟨projected, hok, hid, hcapability, hvelocity, ?_⟩
    rw [← hsnap, hm.positionAt hle']
    exact congrArg Leg.position hleg
  · exact absurd ⟨hstart ▸ ht, state, _, ha,
      (lastUpdateAt_le_iff (hcommitted.trans ht)).mpr hle, hfits⟩ hnot

end

/-- **The motion of a cycle.** After any calls: an update is accepted exactly when its node
exists, and it is neither before the cycle start nor before the last accepted update of the
node, in reach from there; a refused one changes nothing. From its last update on a node is
projected to where its own updates, and no other calls, have led it. -/
theorem projectNodeState_run {baseSnapshot : WorldSnapshot} {cycleId : PlanningCycleId}
    {cycleStartedAt : SimTime} {w : CycleWorkingState}
    (h : create baseSnapshot cycleId cycleStartedAt = .ok w) (calls : List MotionCall) :
    let outcome := exec call w calls
    (∀ u : VelocityUpdate,
      let updates := accepted u.nodeId outcome.1
      ((outcome.2.update u).1 = .ok () ↔
        (baseSnapshot.findNode u.nodeId).isSome ∧ cycleStartedAt ≤ u.effectiveAt ∧
        (∀ last, updates.getLast? = some last → last.effectiveAt ≤ u.effectiveAt) ∧
        (lastUpdateAt baseSnapshot updates).Fits u.effectiveAt) ∧
      ((outcome.2.update u).1 ≠ .ok () → (outcome.2.update u).2 = outcome.2)) ∧
    (∀ nodeId baseNode queryTime, baseSnapshot.findNode nodeId = some baseNode →
      let updates := accepted nodeId outcome.1
      cycleStartedAt ≤ queryTime →
      (∀ last, updates.getLast? = some last → last.effectiveAt ≤ queryTime) →
      (lastUpdateAt baseSnapshot updates).Fits queryTime →
      ∃ projected, outcome.2.projectNodeState nodeId queryTime = .ok projected ∧
        projected.nodeId = nodeId ∧ projected.capability = baseNode.capability ∧
        projected.motion.velocity = lastVelocity baseNode updates ∧
        projected.motion.position.coordinates =
          positionAt (baseNode.leg baseSnapshot.committedAt)
            (updates.map VelocityUpdate.turn) queryTime.seconds) ∧
    ∀ nodeId queryTime, outcome.2.projectNodeState nodeId queryTime =
      (exec call w (calls.filter (MotionCall.isUpdateOf nodeId))).2.projectNodeState nodeId
        queryTime := by
  intro outcome
  refine ⟨fun u => ⟨update_accepted_iff h calls u, fun hne => ?_⟩, ?_,
    fun nodeId => (agrees_exec ⟨rfl, rfl, rfl⟩ calls).project⟩
  · rcases outcome.2.update_cases u with ⟨hok, -⟩ | ⟨-, hsame, -⟩
    · exact absurd hok hne
    · exact hsame
  · intro nodeId baseNode queryTime hnode updates ht hle hfits
    obtain rfl := (WorldSnapshot.findNode_eq_some.mp hnode).2
    exact projectNodeState_of_last h calls hnode ht hle hfits

/-- A node at the origin that moves with one metre per second along the first axis. -/
def driftingNode (nodeId : NodeId) : NodeCommittedState where
  nodeId := nodeId
  capability := ⟨true, true, .kHalfDuplex⟩
  motion := ⟨⟨0, 0, 0⟩, ⟨1, 0, 0⟩⟩

def driftingNodes : List NodeCommittedState := [driftingNode ⟨0⟩, driftingNode ⟨1⟩]

/-- A snapshot of two such nodes at time 0. -/
def driftingSnapshot : WorldSnapshot :=
  ⟨⟨0⟩, .ofUInt32 0, driftingNodes, by unfold StdAlgorithm.Ascending; decide⟩

/-- The updates of the two nodes in a cycle started at time 1, one after the other in turn; the
second of node 0 comes too late. -/
def crossingCalls : List MotionCall :=
  [.updateVelocity ⟨⟨0⟩, ⟨0, 0, 0⟩, .ofUInt32 3⟩, .updateVelocity ⟨⟨1⟩, ⟨0, 0, 1⟩, .ofUInt32 2⟩,
    .projectNodeState ⟨0⟩ (.ofUInt32 5), .updateVelocity ⟨⟨0⟩, ⟨5, 5, 5⟩, .ofUInt32 2⟩,
    .updateVelocity ⟨⟨1⟩, ⟨0, -1, 0⟩, .ofUInt32 6⟩, .updateVelocity ⟨⟨0⟩, ⟨2, 0, 0⟩, .ofUInt32 7⟩]

theorem projectNodeState_run_crossing :
    let w := started driftingSnapshot ⟨0⟩ (.ofUInt32 1) (by decide)
    let outcome := exec call w crossingCalls
    accepted ⟨0⟩ outcome.1 =
      [⟨⟨0⟩, ⟨0, 0, 0⟩, .ofUInt32 3⟩, ⟨⟨0⟩, ⟨2, 0, 0⟩, .ofUInt32 7⟩] ∧
    accepted ⟨1⟩ outcome.1 =
      [⟨⟨1⟩, ⟨0, 0, 1⟩, .ofUInt32 2⟩, ⟨⟨1⟩, ⟨0, -1, 0⟩, .ofUInt32 6⟩] ∧
    ∀ node ∈ driftingNodes,
      ∃ projected, outcome.2.projectNodeState node.nodeId (.ofUInt32 9) = .ok projected ∧
        projected.nodeId = node.nodeId ∧ projected.capability = node.capability ∧
        projected.motion.velocity = lastVelocity node (accepted node.nodeId outcome.1) ∧
        projected.motion.position.coordinates =
          positionAt (node.leg driftingSnapshot.committedAt)
            ((accepted node.nodeId outcome.1).map VelocityUpdate.turn)
            (SimTime.ofUInt32 9).seconds := by
  intro w outcome
  have hcreate : create driftingSnapshot ⟨0⟩ (.ofUInt32 1) = .ok w := dif_neg (by decide)
  have hzero : accepted ⟨0⟩ outcome.1 =
      [⟨⟨0⟩, ⟨0, 0, 0⟩, .ofUInt32 3⟩, ⟨⟨0⟩, ⟨2, 0, 0⟩, .ofUInt32 7⟩] := by decide +kernel
  have hone : accepted ⟨1⟩ outcome.1 =
      [⟨⟨1⟩, ⟨0, 0, 1⟩, .ofUInt32 2⟩, ⟨⟨1⟩, ⟨0, -1, 0⟩, .ofUInt32 6⟩] := by decide +kernel
  have hrun := (projectNodeState_run hcreate crossingCalls).2.1
  refine ⟨hzero, hone, fun node hnode => ?_⟩
  obtain rfl | rfl : node = driftingNode ⟨0⟩ ∨ node = driftingNode ⟨1⟩ := by
    simpa [driftingNodes] using hnode
  · refine hrun ⟨0⟩ (driftingNode ⟨0⟩) (.ofUInt32 9) (by decide +kernel) (by decide) ?_ ?_
    · rw [hzero]; decide
    · rw [hzero]; exact ⟨by decide, by decide⟩
  · refine hrun ⟨1⟩ (driftingNode ⟨1⟩) (.ofUInt32 9) (by decide +kernel) (by decide) ?_ ?_
    · rw [hone]; decide
    · rw [hone]; exact ⟨by decide, by decide⟩

end Ns3Factory.CycleWorkingState
