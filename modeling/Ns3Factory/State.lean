import Ns3Factory.StdAlgorithm
import Ns3Factory.Time

/-!
Node states, world snapshots, and the state delta a cycle leaves.

A snapshot lists its nodes with strictly ascending ids; building one sorts them and
refuses a repeated id.
-/

namespace Ns3Factory

open StdAlgorithm

structure Position3d where
  xMeters : Double
  yMeters : Double
  zMeters : Double
  deriving DecidableEq

structure Velocity3d where
  xMetersPerSecond : Double
  yMetersPerSecond : Double
  zMetersPerSecond : Double
  deriving DecidableEq

structure MotionState where
  position : Position3d
  velocity : Velocity3d
  deriving DecidableEq

inductive DuplexMode
  | kHalfDuplex | kFullDuplex
  deriving DecidableEq

structure NodeCapabilityProfile where
  canTransmit : Bool
  canReceive : Bool
  duplexMode : DuplexMode
  deriving DecidableEq

structure NodeCommittedState where
  nodeId : NodeId
  capability : NodeCapabilityProfile
  motion : MotionState
  deriving DecidableEq

structure WorldSnapshot where
  version : SnapshotVersion
  committedAt : SimTime
  nodes : List NodeCommittedState
  ascending : Ascending NodeCommittedState.nodeId nodes

namespace WorldSnapshot

/-- The nodes as `Create` sorts them. -/
def sorted (nodes : List NodeCommittedState) : List NodeCommittedState :=
  sort (fun lhs rhs => lhs.nodeId < rhs.nodeId) nodes

lemma adjacent_iff (nodes : List NodeCommittedState) :
    adjacentFind (fun lhs rhs => lhs.nodeId = rhs.nodeId) (sorted nodes) = none ↔
      Ascending NodeCommittedState.nodeId (sorted nodes) :=
  adjacentFind_eq_none (by simp) (sort_pairwise (by simp) nodes)

/-- `WorldSnapshot::Create`. -/
def create (version : SnapshotVersion) (committedAt : SimTime)
    (nodes : List NodeCommittedState) : Result WorldSnapshot :=
  match h : adjacentFind (fun lhs rhs => lhs.nodeId = rhs.nodeId) (sorted nodes) with
  | some _ => .error ⟨.kAlreadyExists, "WorldSnapshot contains a duplicate NodeId"⟩
  | none => .ok ⟨version, committedAt, sorted nodes, (adjacent_iff nodes).mp h⟩

lemma create_of_ascending (version : SnapshotVersion) (committedAt : SimTime)
    {nodes : List NodeCommittedState} (h : Ascending NodeCommittedState.nodeId nodes) :
    create version committedAt nodes = .ok ⟨version, committedAt, nodes, h⟩ := by
  have hs : sorted nodes = nodes := sort_eq_self (by simp) h
  unfold create
  split
  · next a ha =>
    rw [(adjacent_iff nodes).mpr (by rw [hs]; exact h)] at ha
    cases ha
  · simp [hs]

/-- `WorldSnapshot::FindNode`. -/
def findNode (s : WorldSnapshot) (nodeId : NodeId) : Option NodeCommittedState :=
  lookup NodeCommittedState.nodeId nodeId s.nodes

lemma findNode_eq_some {s : WorldSnapshot} {nodeId : NodeId} {node : NodeCommittedState} :
    s.findNode nodeId = some node ↔ node ∈ s.nodes ∧ node.nodeId = nodeId :=
  lookup_eq_some s.ascending

lemma findNode_isSome {s : WorldSnapshot} {nodeId : NodeId} :
    (s.findNode nodeId).isSome ↔ nodeId ∈ s.nodes.map NodeCommittedState.nodeId := by
  rw [Option.isSome_iff_exists, List.mem_map]
  exact exists_congr fun _ => findNode_eq_some

lemma nodes_eq_of_findNode {s s' : WorldSnapshot}
    (h : ∀ nodeId, s.findNode nodeId = s'.findNode nodeId) : s.nodes = s'.nodes := by
  refine s.ascending.eq_of_perm s'.ascending
    ((List.perm_ext_iff_of_nodup s.ascending.nodup s'.ascending.nodup).mpr fun node => ?_)
  have hiff : ∀ s : WorldSnapshot, node ∈ s.nodes ↔ s.findNode node.nodeId = some node :=
    fun s => by simp [findNode_eq_some]
  rw [hiff s, hiff s', h]

end WorldSnapshot

structure NodeStateReplacement where
  state : NodeCommittedState
  deriving DecidableEq

structure DeltaSet where
  cycleId : PlanningCycleId
  baseVersion : SnapshotVersion
  effectiveAt : SimTime
  nodeReplacements : List NodeStateReplacement
  deriving DecidableEq

end Ns3Factory
