import Ns3Factory.CommitService
import Ns3Factory.CycleMotion

/-!
Many cycles over one store.

Any number of working states are created from the snapshot that is current at the time, and
updated, finalized and committed in any order; a delta may be committed late or again. The
service compares versions only. Since every commit takes the next version, a working state
whose version is the current one is over the current snapshot.
-/

namespace Ns3Factory

open Transition
open CycleWorkingState (VelocityUpdate)

/-- A working state, and the deltas it was finalized to so far. -/
structure CycleClient where
  workingState : CycleWorkingState
  deltas : List DeltaSet

structure SharedStore where
  store : WorldStateStore
  clients : List CycleClient

namespace SharedStore

/-- A call that a client makes, and that creates the client in the first case. -/
inductive ClientCall
  | create (cycleId : PlanningCycleId) (cycleStartedAt : SimTime)
  | updateVelocity (client : ℕ) (update : VelocityUpdate)
  | finalizeDeltaSet (client : ℕ) (cycleCloseTime : SimTime)
  | commitCycle (client delta : ℕ)

variable [DoubleArithmetic]

/-- The status of a call, which is none if there is no such client or delta. -/
def call (s : SharedStore) : ClientCall → Option Status × SharedStore
  | .create cycleId cycleStartedAt =>
    match CycleWorkingState.create s.store.currentSnapshot cycleId cycleStartedAt with
    | .error e => (some (.error e), s)
    | .ok w => (some (.ok ()), { s with clients := s.clients ++ [⟨w, []⟩] })
  | .updateVelocity i update =>
    match s.clients[i]? with
    | none => (none, s)
    | some client =>
      let (status, w) := client.workingState.update update
      (some status, { s with clients := s.clients.set i { client with workingState := w } })
  | .finalizeDeltaSet i cycleCloseTime =>
    match s.clients[i]? with
    | none => (none, s)
    | some client =>
      match client.workingState.finalizeDeltaSet cycleCloseTime with
      | .error e => (some (.error e), s)
      | .ok delta =>
        (some (.ok ()),
          { s with clients := s.clients.set i { client with deltas := client.deltas ++ [delta] } })
  | .commitCycle i k =>
    match s.clients[i]? with
    | none => (none, s)
    | some client =>
      match client.deltas[k]? with
      | none => (none, s)
      | some delta =>
        let (status, store) :=
          CommitService.commitCycle s.store client.workingState.baseSnapshot.version delta
        (some status, { s with store := store })

/-- What a call can do. -/
inductive CallEffect (s : SharedStore) : ClientCall → Option Status → SharedStore → Prop
  | created (cycleId cycleStartedAt w) (hbase : w.baseSnapshot = s.store.currentSnapshot) :
      CallEffect s (.create cycleId cycleStartedAt) (some (.ok ()))
        { s with clients := s.clients ++ [⟨w, []⟩] }
  | updated (i client update status w) (hclient : s.clients[i]? = some client)
      (hbase : w.baseSnapshot = client.workingState.baseSnapshot) :
      CallEffect s (.updateVelocity i update) (some status)
        { s with clients := s.clients.set i { client with workingState := w } }
  | finalized (i client cycleCloseTime delta) (hclient : s.clients[i]? = some client)
      (hdelta : client.workingState.finalizeDeltaSet cycleCloseTime = .ok delta) :
      CallEffect s (.finalizeDeltaSet i cycleCloseTime) (some (.ok ()))
        { s with clients := s.clients.set i { client with deltas := client.deltas ++ [delta] } }
  | committed (i k client delta store) (hclient : s.clients[i]? = some client)
      (hdelta : client.deltas[k]? = some delta)
      (haccepts : CommitService.Accepts s.store client.workingState.baseSnapshot.version delta)
      (hstore : CommitService.Committed s.store delta store) :
      CallEffect s (.commitCycle i k) (some (.ok ())) { s with store := store }
  | refused (c e) : CallEffect s c (some (.error e)) s
  | unknown (c) : CallEffect s c none s

lemma call_effect (s : SharedStore) (c : ClientCall) :
    ∃ status next, call s c = (status, next) ∧ CallEffect s c status next := by
  cases c with
  | create cycleId cycleStartedAt =>
    simp only [call]
    rcases hw : CycleWorkingState.create s.store.currentSnapshot cycleId cycleStartedAt with e | w
    · exact ⟨_, _, rfl, .refused _ e⟩
    · exact ⟨_, _, rfl, .created _ _ w (CycleWorkingState.anchor_create hw ⟨0⟩).1⟩
  | updateVelocity i update =>
    simp only [call]
    rcases hclient : s.clients[i]? with _ | client
    · exact ⟨_, _, rfl, .unknown _⟩
    · exact ⟨_, _, rfl, .updated i client update _ _ hclient
        (CycleWorkingState.call_base client.workingState (.updateVelocity update)).1⟩
  | finalizeDeltaSet i cycleCloseTime =>
    simp only [call]
    rcases hclient : s.clients[i]? with _ | client
    · exact ⟨_, _, rfl, .unknown _⟩
    rcases hdelta : client.workingState.finalizeDeltaSet cycleCloseTime with e | delta
    · simp only [hdelta]
      exact ⟨_, _, rfl, .refused _ e⟩
    · simp only [hdelta]
      exact ⟨_, _, rfl, .finalized i client _ delta hclient hdelta⟩
  | commitCycle i k =>
    simp only [call]
    rcases hclient : s.clients[i]? with _ | client
    · exact ⟨_, _, rfl, .unknown _⟩
    rcases hdelta : client.deltas[k]? with _ | delta
    · simp only [hdelta]
      exact ⟨_, _, rfl, .unknown _⟩
    rcases CommitService.commitCycle_cases s.store client.workingState.baseSnapshot.version delta
      with ⟨haccepts, store, hok, hstore⟩ | ⟨-, e, herr⟩
    · simp only [hdelta, hok]
      exact ⟨_, _, rfl, .committed i k client delta store hclient hdelta haccepts hstore⟩
    · simp only [hdelta, herr]
      exact ⟨_, _, rfl, .refused _ e⟩

/-- The snapshot a client works on. -/
def baseOf (s : SharedStore) (i : ℕ) : Option WorldSnapshot :=
  s.clients[i]?.map fun client => client.workingState.baseSnapshot

omit [DoubleArithmetic] in
lemma baseOf_of_client {s : SharedStore} {i : ℕ} {client : CycleClient}
    (h : s.clients[i]? = some client) : s.baseOf i = some client.workingState.baseSnapshot := by
  rw [baseOf, h]
  rfl

lemma CallEffect.client {s next : SharedStore} {c : ClientCall} {status : Option Status}
    (h : CallEffect s c status next) {i : ℕ} {client : CycleClient}
    (hclient : next.clients[i]? = some client) :
    (client.workingState.baseSnapshot = s.store.currentSnapshot ∧ client.deltas = [] ∧
      next.store = s.store) ∨
    ∃ old, s.clients[i]? = some old ∧
      client.workingState.baseSnapshot = old.workingState.baseSnapshot ∧
      ∀ delta ∈ client.deltas, delta ∈ old.deltas ∨
        old.workingState.finalizeDeltaSet delta.effectiveAt = .ok delta := by
  cases h with
  | created cycleId cycleStartedAt w hbase =>
    rw [List.getElem?_append] at hclient
    split_ifs at hclient
    · exact Or.inr ⟨client, hclient, rfl, fun _ hmem => Or.inl hmem⟩
    · rw [List.getElem?_singleton] at hclient
      split_ifs at hclient
      cases hclient
      exact Or.inl ⟨hbase, rfl, rfl⟩
  | updated j old update status w hold hbase =>
    by_cases hij : j = i
    · subst hij
      rw [List.getElem?_set_self (List.getElem?_eq_some_iff.mp hold).1] at hclient
      cases hclient
      exact Or.inr ⟨old, hold, hbase, fun _ hmem => Or.inl hmem⟩
    · rw [List.getElem?_set_ne hij] at hclient
      exact Or.inr ⟨client, hclient, rfl, fun _ hmem => Or.inl hmem⟩
  | finalized j old cycleCloseTime delta hold hdelta =>
    by_cases hij : j = i
    · subst hij
      rw [List.getElem?_set_self (List.getElem?_eq_some_iff.mp hold).1] at hclient
      cases hclient
      refine Or.inr ⟨old, hold, rfl, fun d hmem => ?_⟩
      rcases List.mem_append.mp hmem with hmem | hmem
      · exact Or.inl hmem
      · rw [List.mem_singleton.mp hmem, (CycleWorkingState.finalizeDeltaSet_ok.mp hdelta).2.2.2.1]
        exact Or.inr hdelta
    · rw [List.getElem?_set_ne hij] at hclient
      exact Or.inr ⟨client, hclient, rfl, fun _ hmem => Or.inl hmem⟩
  | committed | refused | unknown =>
    exact Or.inr ⟨client, hclient, rfl, fun _ hmem => Or.inl hmem⟩

lemma CallEffect.baseOf {s next : SharedStore} {c : ClientCall} {status : Option Status}
    (h : CallEffect s c status next) {i : ℕ} {base : WorldSnapshot}
    (hbase : s.baseOf i = some base) : next.baseOf i = some base := by
  obtain ⟨old, hold, rfl⟩ := Option.map_eq_some_iff.mp hbase
  have hlt := (List.getElem?_eq_some_iff.mp hold).1
  unfold SharedStore.baseOf
  cases h with
  | created cycleId cycleStartedAt w hbase' =>
    rw [List.getElem?_append_left hlt, hold]
    rfl
  | updated j client update status w hclient hbase' =>
    by_cases hij : j = i
    · subst hij
      rw [hold] at hclient
      cases hclient
      rw [List.getElem?_set_self hlt, Option.map_some, hbase']
    · rw [List.getElem?_set_ne hij, hold]
      rfl
  | finalized j client cycleCloseTime delta hclient hdelta =>
    by_cases hij : j = i
    · subst hij
      rw [hold] at hclient
      cases hclient
      rw [List.getElem?_set_self hlt]
      rfl
    · rw [List.getElem?_set_ne hij, hold]
      rfl
  | committed | refused | unknown => rw [hold]; rfl

lemma CallEffect.store {s next : SharedStore} {c : ClientCall} {status : Option Status}
    (h : CallEffect s c status next) : next.store = s.store ∨
      s.store.currentSnapshot.version < next.store.currentSnapshot.version := by
  cases h with
  | committed i k client delta store hclient hdelta haccepts hstore =>
    exact Or.inr hstore.version_lt
  | created | updated | finalized | refused | unknown => exact Or.inl rfl

/-- The clients whose commits succeeded, one for each. -/
def committers (trace : List (ClientCall × Option Status)) : List ℕ :=
  trace.filterMap fun
    | (.commitCycle i _, some (.ok _)) => some i
    | _ => none

/-- **A version identifies a snapshot**: who works on the current version works on the current
snapshot, and those who have committed work on different older ones. -/
structure Linear (trace : List (ClientCall × Option Status)) (s : SharedStore) : Prop where
  clients : ∀ i base, s.baseOf i = some base →
    base = s.store.currentSnapshot ∨ base.version < s.store.currentSnapshot.version
  committed : ∀ i ∈ committers trace, ∃ base, s.baseOf i = some base ∧
    base.version < s.store.currentSnapshot.version
  distinct : ((committers trace).map s.baseOf).Nodup

lemma CallEffect.version_le {s next : SharedStore} {c : ClientCall} {status : Option Status}
    (h : CallEffect s c status next) :
    s.store.currentSnapshot.version ≤ next.store.currentSnapshot.version := by
  rcases h.store with hstore | hlt
  · rw [hstore]
  · exact hlt.le

lemma CallEffect.current_or_lt {s next : SharedStore} {c : ClientCall} {status : Option Status}
    (heffect : CallEffect s c status next)
    (h : ∀ i base, s.baseOf i = some base →
      base = s.store.currentSnapshot ∨ base.version < s.store.currentSnapshot.version)
    {i : ℕ} {base : WorldSnapshot} (hbase : next.baseOf i = some base) :
    base = next.store.currentSnapshot ∨ base.version < next.store.currentSnapshot.version := by
  obtain ⟨client, hclient, rfl⟩ := Option.map_eq_some_iff.mp hbase
  rcases heffect.client hclient with ⟨hcurrent, -, hstore⟩ | ⟨old, hold, hsame, -⟩
  · rw [hstore]; exact Or.inl hcurrent
  · have hold' : s.baseOf i = some client.workingState.baseSnapshot := by
      rw [baseOf_of_client hold, hsame]
    rcases heffect.store with hstore | hlt <;> rcases h i _ hold' with heq | hlt'
    · rw [hstore]; exact Or.inl heq
    · rw [hstore]; exact Or.inr hlt'
    · rw [heq]; exact Or.inr hlt
    · exact Or.inr (hlt'.trans hlt)

namespace Linear

variable {trace : List (ClientCall × Option Status)} {s next : SharedStore} {c : ClientCall}
  {status : Option Status}

lemma committed_kept (h : Linear trace s) (heffect : CallEffect s c status next) {i : ℕ}
    (hi : i ∈ committers trace) : ∃ base, next.baseOf i = some base ∧
      base.version < next.store.currentSnapshot.version := by
  obtain ⟨base, hbase, hlt⟩ := h.committed i hi
  exact ⟨base, heffect.baseOf hbase, hlt.trans_le heffect.version_le⟩

lemma distinct_kept (h : Linear trace s) (heffect : CallEffect s c status next) :
    ((committers trace).map next.baseOf).Nodup := by
  have hsame : (committers trace).map next.baseOf = (committers trace).map s.baseOf := by
    refine List.map_congr_left fun i hi => ?_
    obtain ⟨base, hbase, -⟩ := h.committed i hi
    rw [hbase, heffect.baseOf hbase]
  rw [hsame]
  exact h.distinct

lemma keep (h : Linear trace s) (heffect : CallEffect s c status next)
    (hnone : committers [(c, status)] = []) : Linear (trace ++ [(c, status)]) next := by
  have happ : committers (trace ++ [(c, status)]) = committers trace := by
    rw [committers, List.filterMap_append]
    exact (congrArg _ hnone).trans (List.append_nil _)
  refine ⟨fun i base => heffect.current_or_lt h.clients, ?_, ?_⟩
  · rw [happ]
    exact fun i => h.committed_kept heffect
  · rw [happ]
    exact h.distinct_kept heffect

lemma commit (h : Linear trace s) {i : ℕ} (heffect : CallEffect s c status next)
    (hone : committers [(c, status)] = [i]) {base : WorldSnapshot}
    (hbase : s.baseOf i = some base) (hcurrent : base.version = s.store.currentSnapshot.version)
    (hlt : s.store.currentSnapshot.version < next.store.currentSnapshot.version) :
    Linear (trace ++ [(c, status)]) next := by
  have happ : committers (trace ++ [(c, status)]) = committers trace ++ [i] := by
    rw [← hone]
    exact List.filterMap_append ..
  refine ⟨fun i base => heffect.current_or_lt h.clients, ?_, ?_⟩
  · rw [happ]
    intro j hj
    rcases List.mem_append.mp hj with hj | hj
    · exact h.committed_kept heffect hj
    · rw [List.mem_singleton.mp hj]
      exact ⟨base, heffect.baseOf hbase, hcurrent ▸ hlt⟩
  · rw [happ, List.map_append]
    refine List.nodup_append.mpr ⟨h.distinct_kept heffect, List.nodup_singleton _, ?_⟩
    rintro a ha b hb rfl
    obtain ⟨j, hj, rfl⟩ := List.mem_map.mp ha
    obtain ⟨older, holder, hlt'⟩ := h.committed j hj
    rw [List.map_singleton, List.mem_singleton, heffect.baseOf holder,
      heffect.baseOf hbase] at hb
    cases hb
    rw [hcurrent] at hlt'
    exact lt_irrefl _ hlt'

lemma call (h : Linear trace s) (c : ClientCall) :
    Linear (trace ++ [(c, (SharedStore.call s c).1)]) (SharedStore.call s c).2 := by
  obtain ⟨status, next, hcall, heffect⟩ := call_effect s c
  rw [hcall]
  have hkept := heffect
  cases heffect with
  | committed i k client delta store hclient hdelta haccepts hstore =>
    exact h.commit hkept rfl (baseOf_of_client hclient) haccepts.expected hstore.version_lt
  | created | updated | finalized => exact h.keep hkept rfl
  | unknown | refused => exact h.keep hkept (by cases c <;> rfl)

end Linear

lemma linear_exec (initial : WorldStateStore) (calls : List ClientCall) :
    Linear (exec call ⟨initial, []⟩ calls).1 (exec call ⟨initial, []⟩ calls).2 :=
  exec_invariant call (P := Linear) (A := fun _ => True) (fun _ _ c h _ => h.call c)
    ⟨by simp [baseOf], by simp [committers], List.nodup_nil⟩ (fun _ _ => trivial)

lemma finalized_exec {initial : WorldStateStore} {calls : List ClientCall} {i : ℕ}
    {client : CycleClient} {delta : DeltaSet}
    (hclient : (exec call ⟨initial, []⟩ calls).2.clients[i]? = some client)
    (hdelta : delta ∈ client.deltas) :
    ∃ earlier later finalizing, calls = earlier ++ later ∧
      (exec call ⟨initial, []⟩ earlier).2.clients[i]? = some finalizing ∧
      finalizing.workingState.baseSnapshot = client.workingState.baseSnapshot ∧
      finalizing.workingState.finalizeDeltaSet delta.effectiveAt = .ok delta := by
  induction calls using List.reverseRecOn generalizing client with
  | nil => simp at hclient
  | append_singleton calls c ih =>
    obtain ⟨status, next, hcall, heffect⟩ := call_effect (exec call ⟨initial, []⟩ calls).2 c
    simp only [exec_append, exec_cons, exec_nil, hcall] at hclient
    rcases heffect.client hclient with ⟨-, hnil, -⟩ | ⟨old, hold, hbase, hdeltas⟩
    · rw [hnil] at hdelta; cases hdelta
    rcases hdeltas delta hdelta with hmem | hfinal
    · obtain ⟨earlier, later, finalizing, rfl, hf, hsame, hok⟩ := ih hold hmem
      exact ⟨earlier, later ++ [c], finalizing, by simp, hf, hsame.trans hbase.symm, hok⟩
    · exact ⟨calls, [c], old, rfl, hold, hbase.symm, hfinal⟩

/-- **The history of a store is linear under any interleaving.** Whenever a commit succeeds its
client works on the current snapshot, and the delta was finalized on that; and of the clients
of one snapshot at most one ever commits, once. -/
theorem commitCycle_linear (initial : WorldStateStore) (calls : List ClientCall) :
    let outcome := exec call ⟨initial, []⟩ calls
    let s := outcome.2
    (∀ (i : ℕ) (client : CycleClient) (delta : DeltaSet), s.clients[i]? = some client →
      delta ∈ client.deltas →
      let commit := CommitService.commitCycle s.store
        client.workingState.baseSnapshot.version delta
      commit.1 = .ok () →
      client.workingState.baseSnapshot = s.store.currentSnapshot ∧
      ∃ (earlier later : List ClientCall) (finalizing : CycleClient), calls = earlier ++ later ∧
        (exec call ⟨initial, []⟩ earlier).2.clients[i]? = some finalizing ∧
        finalizing.workingState.baseSnapshot = s.store.currentSnapshot ∧
        finalizing.workingState.Projects delta.effectiveAt commit.2.currentSnapshot.nodes) ∧
    ((committers outcome.1).map s.baseOf).Nodup ∧
    ∀ i ∈ committers outcome.1, (s.baseOf i).isSome := by
  intro outcome s
  have h : Linear outcome.1 s := linear_exec initial calls
  refine ⟨?_, h.distinct, fun i hi => ?_⟩
  · intro i client delta hclient hdelta commit hok
    rcases CommitService.commitCycle_cases s.store client.workingState.baseSnapshot.version delta
      with ⟨haccepts, next, hnext, hcommitted⟩ | ⟨-, e, herr⟩
    swap
    · rw [show commit = _ from herr] at hok; cases hok
    have hcurrent : client.workingState.baseSnapshot = s.store.currentSnapshot := by
      rcases h.clients i _ (baseOf_of_client hclient) with heq | hlt
      · exact heq
      · rw [haccepts.expected] at hlt
        exact absurd hlt (lt_irrefl _)
    obtain ⟨earlier, later, finalizing, hcalls, hf, hsame, hfinal⟩ :=
      finalized_exec hclient hdelta
    refine ⟨hcurrent, earlier, later, finalizing, hcalls, hf, hsame.trans hcurrent, ?_⟩
    rw [show commit = _ from hnext, hcommitted.nodes]
    exact (CycleWorkingState.finalizeDeltaSet_ok.mp hfinal).2.2.2.2
  · obtain ⟨base, hbase, -⟩ := h.committed i hi
    rw [hbase]; rfl

end SharedStore

end Ns3Factory
