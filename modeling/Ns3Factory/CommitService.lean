import Ns3Factory.State
import Ns3Factory.Transition

/-!
The world state store and the service that commits cycles to it.

A commit replaces the state of every node: it is accepted when it builds on the current
version, does not go back in time or in cycle ids, and lists exactly the current nodes in
their order. A rejected commit leaves the store as it was.
-/

namespace Ns3Factory

open StdAlgorithm Transition

structure WorldStateStore where
  currentSnapshot : WorldSnapshot
  lastCommittedCycleId : Option PlanningCycleId

namespace WorldStateStore

/-- The constructor. -/
def create (initialSnapshot : WorldSnapshot) : WorldStateStore := ⟨initialSnapshot, none⟩

def commitSnapshot (_ : WorldStateStore) (nextSnapshot : WorldSnapshot)
    (cycleId : PlanningCycleId) : WorldStateStore := ⟨nextSnapshot, some cycleId⟩

end WorldStateStore

namespace CommitService

/-- The first loop of `ValidateFullReplacement`. -/
def validateOrder : List NodeStateReplacement → Status
  | previous :: current :: rest =>
    if previous.state.nodeId = current.state.nodeId then
      .error ⟨.kAlreadyExists, "CommitCycle delta contains a duplicate replacement NodeId"⟩
    else if previous.state.nodeId > current.state.nodeId then
      .error ⟨.kInvalidArgument, "CommitCycle replacements are not in canonical NodeId order"⟩
    else validateOrder (current :: rest)
  | _ => .ok ()

/-- The second loop of `ValidateFullReplacement`, over both lists in step. -/
def validateNodes : List NodeStateReplacement → List NodeCommittedState → Status
  | replacement :: replacements, current :: nodes =>
    if replacement.state.nodeId < current.nodeId then
      .error ⟨.kInvalidArgument, "CommitCycle delta contains an unknown NodeId"⟩
    else if replacement.state.nodeId > current.nodeId then
      .error ⟨.kFailedPrecondition, "CommitCycle delta is missing an existing NodeId"⟩
    else validateNodes replacements nodes
  | _, _ => .ok ()

def validateFullReplacement (currentSnapshot : WorldSnapshot) (delta : DeltaSet) : Status :=
  match validateOrder delta.nodeReplacements with
  | .error e => .error e
  | .ok _ =>
    if delta.nodeReplacements.length < currentSnapshot.nodes.length then
      .error ⟨.kFailedPrecondition, "CommitCycle delta is missing an existing NodeId"⟩
    else if delta.nodeReplacements.length > currentSnapshot.nodes.length then
      .error ⟨.kInvalidArgument, "CommitCycle delta contains an unknown NodeId"⟩
    else validateNodes delta.nodeReplacements currentSnapshot.nodes

/-- `CommitService::CommitCycle`. -/
def commitCycle (store : WorldStateStore) (expectedVersion : SnapshotVersion)
    (delta : DeltaSet) : Status × WorldStateStore :=
  let current := store.currentSnapshot
  if expectedVersion ≠ current.version then
    (.error ⟨.kFailedPrecondition,
      "CommitCycle expected_version does not match the current snapshot"⟩, store)
  else if delta.baseVersion ≠ expectedVersion then
    (.error ⟨.kFailedPrecondition,
      "CommitCycle delta base_version does not match expected_version"⟩, store)
  else if delta.effectiveAt < current.committedAt then
    (.error ⟨.kFailedPrecondition,
      "CommitCycle delta effective_at precedes the current snapshot"⟩, store)
  else if hmax : current.version.value = maxIdentity then
    (.error ⟨.kOverflow, "CommitCycle cannot increment the maximum SnapshotVersion"⟩, store)
  else if store.lastCommittedCycleId = some delta.cycleId then
    (.error ⟨.kAlreadyExists, "CommitCycle rejected a duplicate PlanningCycleId"⟩, store)
  else if store.lastCommittedCycleId.any fun lastCycle => delta.cycleId < lastCycle then
    (.error ⟨.kFailedPrecondition, "CommitCycle PlanningCycleId regressed"⟩, store)
  else
    match validateFullReplacement current delta with
    | .error e => (.error e, store)
    | .ok _ =>
      let candidateNodes := delta.nodeReplacements.map NodeStateReplacement.state
      let nextVersion : SnapshotVersion := ⟨current.version.value.next hmax⟩
      match WorldSnapshot.create nextVersion delta.effectiveAt candidateNodes with
      | .error e => (.error e, store)
      | .ok candidate => (.ok (), store.commitSnapshot candidate delta.cycleId)

/-! ### One commit -/

/-- The node ids a delta replaces. -/
def replacedIds (delta : DeltaSet) : List NodeId :=
  delta.nodeReplacements.map fun replacement => replacement.state.nodeId

lemma validateOrder_ok {replacements : List NodeStateReplacement} :
    validateOrder replacements = .ok () ↔
      Ascending (fun replacement => replacement.state.nodeId) replacements := by
  induction replacements with
  | nil => simp [validateOrder, Ascending]
  | cons previous rest ih =>
    rcases rest with _ | ⟨current, rest⟩
    · simp [validateOrder, Ascending]
    rw [validateOrder]
    split_ifs with heq hgt
    · simp only [false_iff]
      exact fun h => absurd heq ((List.pairwise_cons.mp h).1 current (by simp)).ne
    · simp only [false_iff]
      exact fun h => absurd hgt ((List.pairwise_cons.mp h).1 current (by simp)).asymm
    · rw [ih]
      refine ⟨fun h => List.pairwise_cons.mpr ⟨fun x hx => ?_, h⟩, fun h => h.of_cons⟩
      have hlt : previous.state.nodeId < current.state.nodeId :=
        lt_of_le_of_ne (not_lt.mp hgt) heq
      rcases List.mem_cons.mp hx with rfl | hx
      · exact hlt
      · exact hlt.trans ((List.pairwise_cons.mp h).1 x hx)

lemma validateNodes_ok {replacements : List NodeStateReplacement}
    {nodes : List NodeCommittedState} (h : replacements.length = nodes.length) :
    validateNodes replacements nodes = .ok () ↔
      replacements.map (fun replacement => replacement.state.nodeId) =
        nodes.map NodeCommittedState.nodeId := by
  induction replacements generalizing nodes with
  | nil => simp [validateNodes, List.length_eq_zero_iff.mp h.symm]
  | cons replacement replacements ih =>
    rcases nodes with _ | ⟨current, nodes⟩
    · simp at h
    rw [validateNodes]
    split_ifs with hlt hgt
    · simp [hlt.ne]
    · simp [ne_of_gt hgt]
    · have heq : replacement.state.nodeId = current.nodeId :=
        le_antisymm (not_lt.mp hgt) (not_lt.mp hlt)
      rw [ih (by simpa using h)]
      simp [heq]

lemma ascending_of_replacedIds {currentSnapshot : WorldSnapshot} {delta : DeltaSet}
    (h : replacedIds delta = currentSnapshot.nodes.map NodeCommittedState.nodeId) :
    Ascending (fun replacement => replacement.state.nodeId) delta.nodeReplacements := by
  have hids := List.pairwise_map.mpr currentSnapshot.ascending
  rw [← h] at hids
  exact List.pairwise_map.mp hids

lemma validateFullReplacement_ok {currentSnapshot : WorldSnapshot} {delta : DeltaSet} :
    validateFullReplacement currentSnapshot delta = .ok () ↔
      replacedIds delta = currentSnapshot.nodes.map NodeCommittedState.nodeId := by
  unfold validateFullReplacement replacedIds
  constructor
  · intro h
    split at h
    · cases h
    · split_ifs at h with hlt hgt
      exact (validateNodes_ok (by omega)).mp h
  · intro h
    have hlen : delta.nodeReplacements.length = currentSnapshot.nodes.length := by
      simpa using congrArg List.length h
    rw [validateOrder_ok.mpr (ascending_of_replacedIds h)]
    simp only [hlen, lt_irrefl, if_false]
    exact (validateNodes_ok hlen).mpr h

/-- When a commit is accepted. -/
structure Accepts (store : WorldStateStore) (expectedVersion : SnapshotVersion)
    (delta : DeltaSet) : Prop where
  expected : expectedVersion = store.currentSnapshot.version
  base : delta.baseVersion = store.currentSnapshot.version
  room : store.currentSnapshot.version.value.val < 2 ^ 64 - 1
  time : store.currentSnapshot.committedAt ≤ delta.effectiveAt
  cycle : ∀ lastCycle, store.lastCommittedCycleId = some lastCycle → lastCycle < delta.cycleId
  nodes : replacedIds delta = store.currentSnapshot.nodes.map NodeCommittedState.nodeId

/-- The store after the accepted commit of `delta`. -/
structure Committed (store : WorldStateStore) (delta : DeltaSet) (next : WorldStateStore) :
    Prop where
  version : next.currentSnapshot.version.value.val =
    store.currentSnapshot.version.value.val + 1
  committedAt : next.currentSnapshot.committedAt = delta.effectiveAt
  nodes : next.currentSnapshot.nodes = delta.nodeReplacements.map NodeStateReplacement.state
  cycle : next.lastCommittedCycleId = some delta.cycleId

lemma Committed.version_lt {store next : WorldStateStore} {delta : DeltaSet}
    (h : Committed store delta next) :
    store.currentSnapshot.version < next.currentSnapshot.version := by
  have := h.version
  exact StrongId.lt_iff.mpr (Fin.lt_def.mpr (by omega))

lemma commitCycle_cases (store : WorldStateStore) (expectedVersion : SnapshotVersion)
    (delta : DeltaSet) :
    (Accepts store expectedVersion delta ∧
      ∃ next, commitCycle store expectedVersion delta = (.ok (), next) ∧
        Committed store delta next) ∨
    (¬ Accepts store expectedVersion delta ∧
      ∃ e, commitCycle store expectedVersion delta = (.error e, store)) := by
  unfold commitCycle
  dsimp only
  by_cases hexp : expectedVersion = store.currentSnapshot.version
  swap
  · exact Or.inr ⟨fun h => hexp h.expected, _, if_pos hexp⟩
  rw [if_neg (not_not.mpr hexp)]
  by_cases hbase : delta.baseVersion = expectedVersion
  swap
  · exact Or.inr ⟨fun h => hbase (h.base.trans hexp.symm), _, if_pos hbase⟩
  rw [if_neg (not_not.mpr hbase)]
  by_cases htime : delta.effectiveAt < store.currentSnapshot.committedAt
  · exact Or.inr ⟨fun h => absurd h.time (not_le.mpr htime), _, if_pos htime⟩
  rw [if_neg htime]
  by_cases hmax : store.currentSnapshot.version.value = maxIdentity
  · refine Or.inr ⟨fun h => ?_, _, dif_pos hmax⟩
    have hroom := h.room
    rw [hmax] at hroom
    exact absurd hroom (by decide)
  rw [dif_neg hmax]
  by_cases hdup : store.lastCommittedCycleId = some delta.cycleId
  · exact Or.inr ⟨fun h => absurd (h.cycle _ hdup) (lt_irrefl _), _, if_pos hdup⟩
  rw [if_neg hdup]
  by_cases hreg : store.lastCommittedCycleId.any fun lastCycle => delta.cycleId < lastCycle
  · refine Or.inr ⟨fun h => ?_, _, if_pos hreg⟩
    rcases hlast : store.lastCommittedCycleId with _ | last
    · simp [hlast] at hreg
    · have hlt : delta.cycleId < last := by simpa [hlast] using hreg
      exact absurd (h.cycle last hlast) hlt.asymm
  rw [if_neg hreg]
  rcases hfull : validateFullReplacement store.currentSnapshot delta with e | u
  · refine Or.inr ⟨fun h => ?_, e, rfl⟩
    rw [validateFullReplacement_ok.mpr h.nodes] at hfull
    cases hfull
  have hnodes := validateFullReplacement_ok.mp hfull
  have hlt : store.currentSnapshot.version.value.val < 2 ^ 64 - 1 := by
    have h1 := store.currentSnapshot.version.value.isLt
    have h2 : store.currentSnapshot.version.value.val ≠ 2 ^ 64 - 1 := fun h => hmax (Fin.ext h)
    omega
  have hcycle : ∀ last, store.lastCommittedCycleId = some last → last < delta.cycleId := by
    intro last hlast
    have hne : last ≠ delta.cycleId := fun h => hdup (h ▸ hlast)
    exact lt_of_le_of_ne (not_lt.mp fun hlt => hreg (by simpa [hlast] using hlt)) hne
  -- the replaced ids ascend, so the new snapshot can be built
  have hasc : Ascending NodeCommittedState.nodeId
      (delta.nodeReplacements.map NodeStateReplacement.state) :=
    List.pairwise_map.mpr (ascending_of_replacedIds hnodes)
  rw [WorldSnapshot.create_of_ascending _ _ hasc]
  exact Or.inl ⟨⟨hexp, hbase.trans hexp, hlt, not_lt.mp htime, hcycle, hnodes⟩, _, rfl,
    rfl, rfl, rfl, rfl⟩

lemma committed_of_ok {store next : WorldStateStore} {expectedVersion : SnapshotVersion}
    {delta : DeltaSet} (h : commitCycle store expectedVersion delta = (.ok (), next)) :
    Accepts store expectedVersion delta ∧ Committed store delta next := by
  rcases commitCycle_cases store expectedVersion delta with
    ⟨hacc, next', hok, hnext⟩ | ⟨-, e, herr⟩
  · rw [hok] at h
    cases h
    exact ⟨hacc, hnext⟩
  · rw [herr] at h; cases h

/-! ### Sequences of commits -/

/-- A call of `CommitCycle`. -/
structure Call where
  expectedVersion : SnapshotVersion
  delta : DeltaSet

/-- The outcome of a call on the store. -/
def commit (store : WorldStateStore) (call : Call) : Status × WorldStateStore :=
  commitCycle store call.expectedVersion call.delta

/-- The calls that were accepted. -/
def accepted (outcome : List (Call × Status)) : List Call :=
  (outcome.filter fun p => Result.succeeded p.2).map Prod.fst

/-- What the store has become since `initial` through the accepted calls. -/
structure Since (initial store : WorldStateStore) (commits : List Call) : Prop where
  version : store.currentSnapshot.version.value.val =
    initial.currentSnapshot.version.value.val + commits.length
  nodes : store.currentSnapshot.nodes.map NodeCommittedState.nodeId =
    initial.currentSnapshot.nodes.map NodeCommittedState.nodeId
  time : initial.currentSnapshot.committedAt ≤ store.currentSnapshot.committedAt
  cycles : (initial.lastCommittedCycleId.toList ++
    commits.map fun call => call.delta.cycleId).Pairwise (· < ·)
  last : store.lastCommittedCycleId = (initial.lastCommittedCycleId.toList ++
    commits.map fun call => call.delta.cycleId).getLast?

lemma Since.commit {initial store : WorldStateStore} {done : List (Call × Status)}
    (h : Since initial store (accepted done)) (call : Call) :
    Since initial (CommitService.commit store call).2
      (accepted (done ++ [(call, (CommitService.commit store call).1)])) := by
  have hacc : ∀ status, accepted (done ++ [(call, status)]) =
      accepted done ++ accepted [(call, status)] := by simp [accepted]
  rw [hacc]
  unfold CommitService.commit
  generalize accepted done = commits at h
  rcases commitCycle_cases store call.expectedVersion call.delta with
    ⟨hacc, next, hok, hnext⟩ | ⟨-, e, herr⟩
  · rw [hok]
    have hcommits : accepted [(call, (.ok () : Status))] = [call] := rfl
    simp only [hcommits]
    refine ⟨?_, ?_, ?_, ?_, ?_⟩
    · rw [hnext.version, h.version, List.length_append, List.length_singleton, Nat.add_assoc]
    · rw [hnext.nodes, List.map_map, ← h.nodes, ← hacc.nodes]
      rfl
    · rw [hnext.committedAt]
      exact h.time.trans hacc.time
    · rw [List.map_append, ← List.append_assoc]
      refine List.pairwise_append.mpr ⟨h.cycles, by simp, fun x hx y hy => ?_⟩
      rw [List.mem_singleton.mp hy]
      rcases hlast : store.lastCommittedCycleId with _ | last
      · have hnil := h.last.symm.trans hlast
        rw [List.getLast?_eq_none_iff] at hnil
        simp [hnil] at hx
      · have hasc : Ascending id (initial.lastCommittedCycleId.toList ++
            commits.map fun call => call.delta.cycleId) := h.cycles
        exact (hasc.le_getLast (h.last.symm.trans hlast) hx).trans_lt (hacc.cycle last hlast)
    · rw [hnext.cycle, List.map_append, ← List.append_assoc]
      simp
  · rw [herr]
    simpa [accepted] using h

lemma since_refl (store : WorldStateStore) : Since store store [] := by
  refine ⟨rfl, rfl, le_rfl, ?_, ?_⟩ <;>
    rcases store.lastCommittedCycleId with _ | last <;> simp

lemma since_exec (store : WorldStateStore) (calls : List Call) :
    Since store (exec CommitService.commit store calls).2
      (accepted (exec CommitService.commit store calls).1) := by
  exact exec_invariant CommitService.commit (P := fun done s => Since store s (accepted done))
    (A := fun _ => True) (fun _ _ call h _ => h.commit call) (since_refl store)
    (fun _ _ => trivial)

/-- **The store over whole runs.** After any calls from any initial snapshot: the next call
is accepted exactly under `Accepts`, commits its delta then, and otherwise changes nothing;
the node ids are the initial ones in ascending order, the version has advanced by one for each
accepted call, committed cycle ids ascend strictly and committed times never decrease. -/
theorem commitCycle_run (initial : WorldSnapshot) (calls : List Call) :
    let outcome := exec commit (WorldStateStore.create initial) calls
    let store := outcome.2
    (∀ expectedVersion delta,
      ((commitCycle store expectedVersion delta).1 = .ok () ↔
        Accepts store expectedVersion delta) ∧
      ((commitCycle store expectedVersion delta).1 = .ok () →
        Committed store delta (commitCycle store expectedVersion delta).2) ∧
      ((commitCycle store expectedVersion delta).1 ≠ .ok () →
        (commitCycle store expectedVersion delta).2 = store)) ∧
    Ascending NodeCommittedState.nodeId store.currentSnapshot.nodes ∧
    store.currentSnapshot.nodes.map NodeCommittedState.nodeId =
      initial.nodes.map NodeCommittedState.nodeId ∧
    store.currentSnapshot.version.value.val =
      initial.version.value.val + (accepted outcome.1).length ∧
    ((accepted outcome.1).map fun call => call.delta.cycleId).Pairwise (· < ·) ∧
    ∀ earlier later, calls = earlier ++ later →
      (exec commit (WorldStateStore.create initial) earlier).2.currentSnapshot.committedAt ≤
        store.currentSnapshot.committedAt := by
  intro outcome store
  have hsince : Since (WorldStateStore.create initial) store (accepted outcome.1) :=
    since_exec _ calls
  refine ⟨fun expectedVersion delta => ?_, store.currentSnapshot.ascending, hsince.nodes,
    hsince.version, hsince.cycles, ?_⟩
  · rcases commitCycle_cases store expectedVersion delta with
      ⟨hacc, next, hok, hnext⟩ | ⟨hacc, e, herr⟩
    · rw [hok]
      exact ⟨iff_of_true rfl hacc, fun _ => hnext, fun hne => absurd rfl hne⟩
    · rw [herr]
      exact ⟨iff_of_false (by simp) hacc, by simp, fun _ => rfl⟩
  · rintro earlier later rfl
    have hlater := since_exec (exec commit (WorldStateStore.create initial) earlier).2 later
    have hstore : store = (exec commit (exec commit (WorldStateStore.create initial) earlier).2
        later).2 := by
      change (exec commit (WorldStateStore.create initial) (earlier ++ later)).2 = _
      rw [exec_append]
    rw [hstore]
    exact hlater.time

end CommitService

end Ns3Factory
