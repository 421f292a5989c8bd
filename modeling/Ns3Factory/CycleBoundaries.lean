import Ns3Factory.CommitService
import Ns3Factory.CycleMotion

/-!
Motion across cycles.

A cycle takes its nodes up where the last commit has left them, on the leg they were on. So
where a node is depends on the updates it has had, and not on the times at which cycles were
closed.
-/

namespace Ns3Factory

open Transition Trajectory
open CycleWorkingState (VelocityUpdate lastVelocity)

/-- A cycle, with the updates it is to accept. -/
structure Cycle where
  cycleId : PlanningCycleId
  startedAt : SimTime
  updates : List VelocityUpdate
  closeTime : SimTime

namespace Cycle

/-- The store after a cycle over its current snapshot: it is created, accepts its updates, and
is closed and committed. -/
def complete (store : WorldStateStore) (cycle : Cycle) : Option WorldStateStore :=
  match CycleWorkingState.create store.currentSnapshot cycle.cycleId cycle.startedAt with
  | .error _ => none
  | .ok created =>
    let (trace, w) := exec CycleWorkingState.call created (cycle.updates.map .updateVelocity)
    if trace.all fun p => Result.succeeded p.2 then
      match w.finalizeDeltaSet cycle.closeTime with
      | .error _ => none
      | .ok delta =>
        match CommitService.commitCycle store w.baseSnapshot.version delta with
        | (.error _, _) => none
        | (.ok _, next) => some next
    else none

/-- The updates of a node. -/
def updatesOf (nodeId : NodeId) (updates : List VelocityUpdate) : List VelocityUpdate :=
  updates.filter fun u => u.nodeId = nodeId

lemma accepted_of_all {w : CycleWorkingState} {updates : List VelocityUpdate} (nodeId : NodeId)
    (h : (exec CycleWorkingState.call w (updates.map .updateVelocity)).1.all fun p =>
      Result.succeeded p.2) :
    CycleWorkingState.accepted nodeId
        (exec CycleWorkingState.call w (updates.map .updateVelocity)).1 =
      updatesOf nodeId updates := by
  induction updates generalizing w with
  | nil => rfl
  | cons u updates ih =>
    simp only [List.map_cons, exec_cons, List.all_cons, Bool.and_eq_true] at h ⊢
    rcases hstatus : (CycleWorkingState.call w (.updateVelocity u)).1 with e | ⟨⟩
    · rw [hstatus] at h; cases h.1
    rw [updatesOf, List.filter_cons, ← updatesOf, ← ih h.2]
    by_cases hid : u.nodeId = nodeId <;> simp [CycleWorkingState.accepted, hid]

/-- A node of a later snapshot is where the updates have led the node of an earlier one. -/
structure Led (baseNode : NodeCommittedState) (committedAt : SimTime)
    (updates : List VelocityUpdate) (node : NodeCommittedState) (time : SimTime) : Prop where
  nodeId : node.nodeId = baseNode.nodeId
  capability : node.capability = baseNode.capability
  velocity : node.motion.velocity = lastVelocity baseNode updates
  leg : node.leg time =
    ((baseNode.leg committedAt).follow (updates.map VelocityUpdate.turn)).advance time.seconds

/-- The nodes of a later snapshot are those of an earlier one, led by their updates. -/
structure AllLed (initial : WorldSnapshot) (updates : List VelocityUpdate)
    (snapshot : WorldSnapshot) : Prop where
  ids : snapshot.nodes.map NodeCommittedState.nodeId =
    initial.nodes.map NodeCommittedState.nodeId
  led : ∀ nodeId baseNode, initial.findNode nodeId = some baseNode →
    ∃ node, snapshot.findNode nodeId = some node ∧
      Led baseNode initial.committedAt (updatesOf nodeId updates) node snapshot.committedAt

lemma complete_eq_some {store next : WorldStateStore} {cycle : Cycle}
    (h : cycle.complete store = some next) :
    next.currentSnapshot.committedAt = cycle.closeTime ∧
      AllLed store.currentSnapshot cycle.updates next.currentSnapshot := by
  unfold complete at h
  split at h
  · cases h
  next created hcreate =>
  dsimp only at h
  split_ifs at h with hall
  split at h
  · cases h
  next delta hdelta =>
  split at h
  · cases h
  next next' hcommit =>
  cases h
  obtain ⟨-, -, -, hat, hproj⟩ := CycleWorkingState.finalizeDeltaSet_ok.mp hdelta
  have hnext := (CommitService.committed_of_ok hcommit).2
  rw [← hnext.nodes] at hproj
  have hbase := (CycleWorkingState.exec_base created (cycle.updates.map .updateVelocity)).1.trans
    (CycleWorkingState.anchor_create hcreate ⟨0⟩).1
  have htime := hnext.committedAt.trans hat
  refine ⟨htime, by rw [hproj.ids, hbase], fun nodeId baseNode hnode => ?_⟩
  obtain rfl := (WorldSnapshot.findNode_eq_some.mp hnode).2
  have hin := (WorldSnapshot.findNode_eq_some.mp hnode).1
  rw [← hbase] at hin
  obtain ⟨node, hmem, hok⟩ := StdAlgorithm.exists_of_mem_left hproj hin
  obtain ⟨state, hm⟩ := CycleWorkingState.moved_exec
    (CycleWorkingState.moved_create hcreate hnode) (cycle.updates.map .updateVelocity)
  rw [accepted_of_all _ hall] at hm
  obtain ⟨hid, hcapability, hvelocity, -, hleg⟩ := hm.project hok
  refine ⟨node, WorldSnapshot.findNode_eq_some.mpr ⟨hmem, hid⟩, hid, hcapability, hvelocity, ?_⟩
  rw [htime, hleg, hbase]

lemma lastVelocity_append (baseNode : NodeCommittedState) {node : NodeCommittedState}
    {updates updates' : List VelocityUpdate}
    (h : node.motion.velocity = lastVelocity baseNode updates) :
    lastVelocity baseNode (updates ++ updates') = lastVelocity node updates' := by
  unfold lastVelocity at h ⊢
  rw [List.getLast?_append, h]
  rcases updates'.getLast? with _ | last <;> rfl

lemma AllLed.trans {initial snapshot later : WorldSnapshot}
    {updates updates' : List VelocityUpdate} (h : AllLed initial updates snapshot)
    (h' : AllLed snapshot updates' later) : AllLed initial (updates ++ updates') later := by
  refine ⟨h'.ids.trans h.ids, fun nodeId baseNode hbase => ?_⟩
  obtain ⟨node, hnode, hled⟩ := h.led nodeId baseNode hbase
  obtain ⟨node', hnode', hled'⟩ := h'.led nodeId node hnode
  have happ : updatesOf nodeId (updates ++ updates') =
      updatesOf nodeId updates ++ updatesOf nodeId updates' := List.filter_append ..
  refine ⟨node', hnode', hled'.nodeId.trans hled.nodeId, hled'.capability.trans hled.capability,
    ?_, ?_⟩
  · rw [happ, lastVelocity_append _ hled.velocity]
    exact hled'.velocity
  · rw [happ, List.map_append, Leg.follow_append, hled'.leg, hled.leg, Leg.follow_advance]

lemma allLed_refl (initial : WorldSnapshot) : AllLed initial [] initial := by
  refine ⟨rfl, fun nodeId baseNode hnode => ⟨baseNode, hnode, rfl, rfl, rfl, ?_⟩⟩
  exact ((baseNode.leg initial.committedAt).advance_since).symm

/-- The updates of a sequence of cycles. -/
def allUpdates (cycles : List Cycle) : List VelocityUpdate := cycles.flatMap updates

lemma allLed_run {initial store : WorldStateStore} {cycles : List Cycle}
    (h : run complete initial cycles = some store) :
    AllLed initial.currentSnapshot (allUpdates cycles) store.currentSnapshot := by
  induction cycles using List.reverseRecOn generalizing store with
  | nil =>
    rw [run_nil, Option.some.injEq] at h
    rw [← h]
    exact allLed_refl _
  | append_singleton cycles cycle ih =>
    obtain ⟨middle, hrun, hcycle⟩ := run_concat_eq_some.mp h
    have hall := (ih hrun).trans (complete_eq_some hcycle).2
    simpa [allUpdates] using hall

lemma committedAt_run {initial store : WorldStateStore} {cycles : List Cycle} {cycle : Cycle}
    (h : run complete initial (cycles ++ [cycle]) = some store) :
    store.currentSnapshot.committedAt = cycle.closeTime := by
  obtain ⟨middle, -, hcycle⟩ := run_concat_eq_some.mp h
  exact (complete_eq_some hcycle).1

lemma Led.position {baseNode node : NodeCommittedState} {committedAt time : SimTime}
    {updates : List VelocityUpdate} (h : Led baseNode committedAt updates node time) :
    node.motion.position.coordinates = baseNode.motion.position.coordinates +
      ((Leg.stretches committedAt.seconds baseNode.motion.velocity.coordinates
        (updates.map VelocityUpdate.turn) time.seconds).map fun s => s.1 • s.2).sum := by
  have hpos : node.motion.position.coordinates = _ := congrArg Leg.position h.leg
  rw [hpos, Leg.advance, Leg.positionAt_follow]
  rfl

lemma Led.eq {baseNode node node' : NodeCommittedState} {committedAt time : SimTime}
    {updates : List VelocityUpdate} (h : Led baseNode committedAt updates node time)
    (h' : Led baseNode committedAt updates node' time) : node = node' := by
  have hpos := h.position.trans h'.position.symm
  have hid := h.nodeId.trans h'.nodeId.symm
  have hcapability := h.capability.trans h'.capability.symm
  have hvelocity := h.velocity.trans h'.velocity.symm
  obtain ⟨id, capability, ⟨⟨x, y, z⟩, velocity⟩⟩ := node
  obtain ⟨id', capability', ⟨⟨x', y', z'⟩, velocity'⟩⟩ := node'
  simp only [Position3d.coordinates, Prod.mk.injEq] at hid hcapability hvelocity hpos
  obtain ⟨rfl, rfl, rfl⟩ := hpos
  subst hid hcapability hvelocity
  rfl

lemma AllLed.nodes_eq {initial snapshot snapshot' : WorldSnapshot}
    {updates : List VelocityUpdate} (h : AllLed initial updates snapshot)
    (h' : AllLed initial updates snapshot')
    (htime : snapshot.committedAt = snapshot'.committedAt) : snapshot.nodes = snapshot'.nodes := by
  refine WorldSnapshot.nodes_eq_of_findNode fun nodeId => ?_
  rcases hbase : initial.findNode nodeId with _ | baseNode
  · -- a node that is not in the first snapshot is in neither of the others
    have hnone : ∀ {s : WorldSnapshot}, AllLed initial updates s → s.findNode nodeId = none := by
      intro s hs
      rw [← Option.not_isSome_iff_eq_none, WorldSnapshot.findNode_isSome, hs.ids,
        ← WorldSnapshot.findNode_isSome, hbase]
      simp
    rw [hnone h, hnone h']
  · obtain ⟨node, hnode, hled⟩ := h.led nodeId baseNode hbase
    obtain ⟨node', hnode', hled'⟩ := h'.led nodeId baseNode hbase
    rw [htime] at hled
    rw [hnode, hnode', hled.eq hled']

/-- **Cycle boundaries do not matter to the motion.** After any sequence of cycles each node
has gone from its first position the way of all its updates, with the velocity of the last;
and a cycle that is closed once more in between leaves the same nodes. -/
theorem complete_run {initial store : WorldStateStore} {cycles : List Cycle}
    (h : run complete initial cycles = some store) :
    let first := initial.currentSnapshot
    let last := store.currentSnapshot
    last.nodes.map NodeCommittedState.nodeId = first.nodes.map NodeCommittedState.nodeId ∧
    (∀ nodeId baseNode, first.findNode nodeId = some baseNode →
      let updates := updatesOf nodeId (allUpdates cycles)
      ∃ node, last.findNode nodeId = some node ∧ node.nodeId = nodeId ∧
        node.capability = baseNode.capability ∧
        node.motion.velocity = lastVelocity baseNode updates ∧
        node.motion.position.coordinates = baseNode.motion.position.coordinates +
          ((Leg.stretches first.committedAt.seconds baseNode.motion.velocity.coordinates
            (updates.map VelocityUpdate.turn) last.committedAt.seconds).map fun s =>
              s.1 • s.2).sum) ∧
    ∀ before cycle earlier later after split, cycles = before ++ cycle :: after →
      earlier.updates ++ later.updates = cycle.updates → later.closeTime = cycle.closeTime →
      run complete initial (before ++ earlier :: later :: after) = some split →
      split.currentSnapshot.committedAt = last.committedAt ∧
        split.currentSnapshot.nodes = last.nodes := by
  intro first last
  have hall := allLed_run h
  refine ⟨hall.ids, fun nodeId baseNode hbase => ?_, ?_⟩
  · obtain ⟨node, hnode, hled⟩ := hall.led nodeId baseNode hbase
    exact ⟨node, hnode, (WorldSnapshot.findNode_eq_some.mp hnode).2, hled.capability,
      hled.velocity, hled.position⟩
  · rintro before cycle earlier later after split rfl hupdates hclose hsplit
    have hsame : allUpdates (before ++ earlier :: later :: after) =
        allUpdates (before ++ cycle :: after) := by
      simp [allUpdates, ← hupdates]
    have htime : split.currentSnapshot.committedAt = last.committedAt := by
      rcases List.eq_nil_or_concat' after with rfl | ⟨rest, final, rfl⟩
      · have hshift : before ++ [earlier, later] = (before ++ [earlier]) ++ [later] := by simp
        rw [hshift] at hsplit
        exact ((committedAt_run hsplit).trans hclose).trans (committedAt_run h).symm
      · have hshift : ∀ cycles : List Cycle, before ++ (cycles ++ (rest ++ [final])) =
            (before ++ (cycles ++ rest)) ++ [final] := by simp
        have h1 := hshift [cycle]
        have h2 := hshift [earlier, later]
        simp only [List.cons_append, List.nil_append] at h1 h2
        rw [h1] at h
        rw [h2] at hsplit
        exact (committedAt_run hsplit).trans (committedAt_run h).symm
    have hall' := allLed_run hsplit
    rw [hsame] at hall'
    exact ⟨htime, hall'.nodes_eq hall htime⟩

/-- Two cycles over two drifting nodes. In each the updates of the nodes alternate. -/
def crossingCycle : Cycle :=
  ⟨⟨2⟩, .ofUInt32 1, [⟨⟨1⟩, ⟨0, 0, 1⟩, .ofUInt32 2⟩, ⟨⟨0⟩, ⟨0, 0, 0⟩, .ofUInt32 3⟩,
    ⟨⟨1⟩, ⟨1, 1, 0⟩, .ofUInt32 4⟩], .ofUInt32 5⟩

def returnCycle : Cycle :=
  ⟨⟨3⟩, .ofUInt32 5, [⟨⟨1⟩, ⟨0, -1, 0⟩, .ofUInt32 6⟩, ⟨⟨0⟩, ⟨2, 0, 0⟩, .ofUInt32 7⟩],
    .ofUInt32 9⟩

/-- The first of them, closed once more at time 3, when only node 1 has turned. -/
def crossingStart : Cycle :=
  ⟨⟨1⟩, .ofUInt32 1, [⟨⟨1⟩, ⟨0, 0, 1⟩, .ofUInt32 2⟩], .ofUInt32 3⟩

def crossingEnd : Cycle :=
  ⟨⟨2⟩, .ofUInt32 3, [⟨⟨0⟩, ⟨0, 0, 0⟩, .ofUInt32 3⟩, ⟨⟨1⟩, ⟨1, 1, 0⟩, .ofUInt32 4⟩], .ofUInt32 5⟩

theorem complete_run_crossing :
    let first := CycleWorkingState.driftingSnapshot
    ∃ store split, run complete (.create first) [crossingCycle, returnCycle] = some store ∧
      run complete (.create first) [crossingStart, crossingEnd, returnCycle] = some split ∧
      (∀ baseNode ∈ CycleWorkingState.driftingNodes,
        let updates := updatesOf baseNode.nodeId (allUpdates [crossingCycle, returnCycle])
        updates.length = (if baseNode.nodeId = ⟨0⟩ then 2 else 3) ∧
        ∃ node, store.currentSnapshot.findNode baseNode.nodeId = some node ∧
          node.motion.velocity = lastVelocity baseNode updates ∧
          node.motion.position.coordinates = baseNode.motion.position.coordinates +
            ((Leg.stretches first.committedAt.seconds baseNode.motion.velocity.coordinates
              (updates.map VelocityUpdate.turn) store.currentSnapshot.committedAt.seconds).map
                fun s => s.1 • s.2).sum) ∧
      split.currentSnapshot.nodes = store.currentSnapshot.nodes := by
  intro first
  have hstore : (run complete (.create first) [crossingCycle, returnCycle]).isSome := by
    decide +kernel
  have hsplit : (run complete (.create first)
      [crossingStart, crossingEnd, returnCycle]).isSome := by decide +kernel
  obtain ⟨store, hstore⟩ := Option.isSome_iff_exists.mp hstore
  obtain ⟨split, hsplit⟩ := Option.isSome_iff_exists.mp hsplit
  obtain ⟨-, hled, hsame⟩ := complete_run hstore
  refine ⟨store, split, hstore, hsplit, fun baseNode hbase => ?_, ?_⟩
  · have hfind : first.findNode baseNode.nodeId = some baseNode :=
      WorldSnapshot.findNode_eq_some.mpr ⟨hbase, rfl⟩
    obtain ⟨node, hnode, -, -, hvelocity, hposition⟩ := hled baseNode.nodeId baseNode hfind
    refine ⟨?_, node, hnode, hvelocity, hposition⟩
    obtain rfl | rfl : baseNode = CycleWorkingState.driftingNode ⟨0⟩ ∨
        baseNode = CycleWorkingState.driftingNode ⟨1⟩ := by
      simpa [CycleWorkingState.driftingNodes] using hbase
    · decide
    · decide
  · exact (hsame [] crossingCycle crossingStart crossingEnd [returnCycle] split rfl rfl rfl
      hsplit).2

end Cycle

end Ns3Factory
