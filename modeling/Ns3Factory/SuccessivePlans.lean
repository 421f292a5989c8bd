import Ns3Factory.CycleCompletion
import Ns3Factory.PlanningCycles

/-!
Plans that are carried out one after another.

The cycles are planned over the first snapshot, before any of them is run. A later one starts
from other places, and after other ids were taken. But its nodes are the same and are able to do
the same, so what could be carried out from the first snapshot is carried out in its turn, in
whatever way the dispatchers have gone about the cycles before it.
-/

namespace Ns3Factory

open StdAlgorithm Transition

/-! ### Nodes that keep their capabilities -/

/-- Every node is in the later snapshot too, and is able to do what it was. -/
def WorldSnapshot.Keeps (snapshot later : WorldSnapshot) : Prop :=
  ∀ nodeId node, snapshot.findNode nodeId = some node →
    ∃ node', later.findNode nodeId = some node' ∧ node'.capability = node.capability

lemma WorldSnapshot.keeps_of_allLed {snapshot later : WorldSnapshot}
    {updates : List CycleWorkingState.VelocityUpdate}
    (h : Cycle.AllLed snapshot updates later) : snapshot.Keeps later := by
  intro nodeId node hnode
  obtain ⟨node', hnode', hled⟩ := h.led nodeId node hnode
  exact ⟨node', hnode', hled.capability⟩

lemma CycleWorkingState.project_of_keeps {snapshot later : WorldSnapshot}
    (hkeeps : snapshot.Keeps later) (h0 : 0 ≤ later.committedAt.nanoseconds)
    {cycleId : PlanningCycleId} {cycleStartedAt : SimTime} {w w' : CycleWorkingState}
    (hw : create snapshot cycleId cycleStartedAt = .ok w)
    (hw' : create later cycleId cycleStartedAt = .ok w') {nodeId : NodeId} {queryTime : SimTime}
    {projected : NodeCommittedState} (h : w.projectNodeState nodeId queryTime = .ok projected) :
    ∃ projected', w'.projectNodeState nodeId queryTime = .ok projected' ∧
      projected'.capability = projected.capability := by
  obtain ⟨-, hstarted, hanchor⟩ := anchor_create hw nodeId
  obtain ⟨hbase', hstarted', hanchor'⟩ := anchor_create hw' nodeId
  rcases w.projectNodeState_outcome nodeId queryTime with
    ⟨node, anchorTime, state, ha, hle, -, -, hfrom, hok⟩ | ⟨⟨e, herr⟩, -⟩
  swap
  · rw [herr] at h
    cases h
  obtain rfl := Except.ok.inj (hok.symm.trans h)
  obtain ⟨baseNode, hfind, heq⟩ := Option.map_eq_some_iff.mp (hanchor.symm.trans ha)
  cases heq
  obtain ⟨node', hfind', hcapability⟩ := hkeeps nodeId node hfind
  have ha' : w'.anchor nodeId = some (node', later.committedAt) := by rw [hanchor', hfind']; rfl
  have hbefore : later.committedAt ≤ cycleStartedAt := by
    rw [← hbase', ← hstarted']
    exact w'.committed_le
  have hstart : cycleStartedAt ≤ queryTime := hstarted ▸ hle
  have hafter : later.committedAt ≤ queryTime := hbefore.trans hstart
  rcases w'.projectNodeState_outcome nodeId queryTime with
    ⟨state', anchorTime', projected', ha'', -, -, -, hfrom', hok'⟩ | ⟨-, hnot⟩
  · obtain ⟨rfl, rfl⟩ := Prod.mk.inj (Option.some.inj (ha'.symm.trans ha''))
    refine ⟨projected', hok', ?_⟩
    rw [(StateProjector.projectFromAnchor_ok hfrom').2.1, hcapability,
      (StateProjector.projectFromAnchor_ok hfrom).2.1]
  · exact absurd ⟨hstarted' ▸ hstart, node', later.committedAt, ha', hafter,
      SimTime.fits_of_le hafter h0⟩ hnot

namespace TransmissionExecutor

lemma Granted.of_keeps {providers : Providers} {snapshot later : WorldSnapshot}
    (hkeeps : snapshot.Keeps later) (h0 : 0 ≤ later.committedAt.nanoseconds)
    {cycleId : PlanningCycleId} {cycleStartedAt cycleCloseTime : SimTime}
    {w w' : CycleWorkingState}
    (hw : CycleWorkingState.create snapshot cycleId cycleStartedAt = .ok w)
    (hw' : CycleWorkingState.create later cycleId cycleStartedAt = .ok w')
    {request : TransmissionExecutionRequest} (h : Granted providers w cycleCloseTime request) :
    Granted providers w' cycleCloseTime request := by
  obtain ⟨senderState, receiverStates, hchecked⟩ := h.checked
  obtain ⟨sender', hsender', hcapability⟩ :=
    CycleWorkingState.project_of_keeps hkeeps h0 hw hw' hchecked.sender
  have hreceivers : ∀ {candidates : List NodeId} {states : List NodeCommittedState},
      List.Forall₂ (Receives w request.opportunity.senderNodeId request.startedAt) candidates
        states → ∃ states', List.Forall₂
          (Receives w' request.opportunity.senderNodeId request.startedAt) candidates states' := by
    intro candidates states hstates
    induction hstates with
    | nil => exact ⟨[], .nil⟩
    | cons hfirst _ ih =>
      obtain ⟨states', hstates'⟩ := ih
      obtain ⟨state', hstate', hsame⟩ :=
        CycleWorkingState.project_of_keeps hkeeps h0 hw hw' hfirst.projected
      refine ⟨state' :: states', .cons ⟨hfirst.notSender, hstate', ?_⟩ hstates'⟩
      rw [hsame]
      exact hfirst.canReceive
  obtain ⟨receivers', hreceivers'⟩ := hreceivers hchecked.receivers
  refine ⟨⟨sender', receivers', hchecked.eligible, hchecked.nodup, hsender', ?_, hreceivers'⟩,
    h.encodes⟩
  rw [hcapability]
  exact hchecked.canTransmit

end TransmissionExecutor

/-! ### Planned cycles -/

/-- A cycle as it is planned, over whatever snapshot will be current. -/
structure PlannedCycle where
  cycleId : PlanningCycleId
  startedAt : SimTime
  closeTime : SimTime
  firstSequence : EventSequenceId
  now : ℤ
  requests : List TransmissionExecutionRequest

namespace PlannedCycle

/-- Its plan over what the platform has come to. -/
def plan (cycle : PlannedCycle) (p : Platform) (workingState : CycleWorkingState) : CyclePlan where
  services := p.services
  workingState := workingState
  store := p.store
  expectedVersion := p.store.currentSnapshot.version
  cycleCloseTime := cycle.closeTime
  requests := cycle.requests

/-- The events that are scheduled before `Run`. -/
def events (cycle : PlannedCycle) : List (SimTime × CycleEvent) :=
  (cycle.closeTime, .cycleClose) ::
    cycle.requests.map fun request => (request.startedAt, .txStart request)

/-- All that is to be sent. -/
def allRequests (cycles : List PlannedCycle) : List TransmissionExecutionRequest :=
  cycles.flatMap PlannedCycle.requests

/-- A cycle that could be carried out over a snapshot: it starts after it, its requests would be
granted there and are not past, and there are sequence ids for its events. -/
structure Possible (providers : Providers) (snapshot : WorldSnapshot) (cycle : PlannedCycle) :
    Prop where
  starts : snapshot.committedAt ≤ cycle.startedAt
  closes : cycle.startedAt ≤ cycle.closeTime
  granted : ∀ w, CycleWorkingState.create snapshot cycle.cycleId cycle.startedAt = .ok w →
    ∀ request ∈ cycle.requests, TransmissionExecutor.Granted providers w cycle.closeTime request
  clock : 0 ≤ cycle.now ∧ cycle.now ≤ kMax
  future : ∀ e ∈ cycle.events, cycle.now ≤ e.1.nanoseconds
  sequenceIds : cycle.firstSequence.value.val +
    (cycle.requests.length + 1 + 2 * receiverCount cycle.requests) ≤ 2 ^ 64

/-- Cycles that can be carried out one after another: each could be, over the snapshot from which
the first one starts; they follow each other, under ascending ids; the receive side answers; and
there are versions and ids for all. -/
structure Successive (providers : Providers) (p : Platform) (cycles : List PlannedCycle) :
    Prop where
  answers : ReceiverProcessor.Answers providers
  nonneg : 0 ≤ p.store.currentSnapshot.committedAt.nanoseconds
  possible : ∀ cycle ∈ cycles, Possible providers p.store.currentSnapshot cycle
  apart : cycles.Pairwise fun cycle later => cycle.closeTime ≤ later.startedAt
  cycleIds : (p.store.lastCommittedCycleId.toList ++ cycles.map cycleId).Pairwise (· < ·)
  versions : p.store.currentSnapshot.version.value.val + cycles.length < 2 ^ 64
  transmissionIds : (allRequests cycles).length ≤ p.services.ids.transmissionIdsLeft
  receptionIds : receiverCount (allRequests cycles) ≤ p.services.ids.receptionIdsLeft

/-- A run of a planned cycle, on the version it has come to: the events are scheduled in some
order, and the `Run` goes on until it returns. -/
structure Follows (providers : Providers) (version : ℕ) (cycle : PlannedCycle) (run : CycleRun) :
    Prop where
  providers : run.providers = providers
  cycleId : run.cycleId = cycle.cycleId
  startedAt : run.startedAt = cycle.startedAt
  expectedVersion : run.expectedVersion.value.val = version
  closeTime : run.closeTime = cycle.closeTime
  firstSequence : run.firstSequence = cycle.firstSequence
  now : run.now = cycle.now
  moves : ∃ order dispatch, order.Perm cycle.events ∧ (∀ m ∈ dispatch, m.isDispatch = true) ∧
    run.moves = CyclePlan.filing order ++ .run :: dispatch ++ [.finishRun]

/-- Runs of planned cycles, each on the next version. -/
inductive FollowsAll (providers : Providers) : ℕ → List PlannedCycle → List CycleRun → Prop
  | nil (version : ℕ) : FollowsAll providers version [] []
  | cons {version : ℕ} {cycle : PlannedCycle} {run : CycleRun} {cycles : List PlannedCycle}
      {runs : List CycleRun} (first : Follows providers version cycle run)
      (rest : FollowsAll providers (version + 1) cycles runs) :
      FollowsAll providers version (cycle :: cycles) (run :: runs)

/-- What a cycle that was carried out has done. -/
structure CarriedOut (cycle : PlannedCycle) (c : SignalLifecycle) : Prop where
  delivered : ∃ plan : CyclePlan, plan.requests = cycle.requests ∧
    SignalLifecycle.Delivered plan c
  committedAt : c.runtime.store.currentSnapshot.committedAt = cycle.closeTime
  lastCommitted : c.runtime.store.lastCommittedCycleId = some cycle.cycleId

/-! ### The next cycle -/

variable {providers : Providers} {p next : Platform} {cycle : PlannedCycle}
  {rest : List PlannedCycle} {run : CycleRun}

lemma Successive.counts (h : Successive providers p (cycle :: rest)) :
    p.store.currentSnapshot.version.value.val + 1 + rest.length < 2 ^ 64 ∧
      cycle.requests.length + (allRequests rest).length ≤ p.services.ids.transmissionIdsLeft ∧
      receiverCount cycle.requests + receiverCount (allRequests rest) ≤
        p.services.ids.receptionIdsLeft := by
  have hversions := h.versions
  have htransmissions := h.transmissionIds
  have hreceptions := h.receptionIds
  simp only [allRequests, List.flatMap_cons, List.length_append, receiverCount_append,
    List.length_cons] at hversions htransmissions hreceptions
  exact ⟨by omega, htransmissions, hreceptions⟩

lemma Successive.feasible (h : Successive providers p (cycle :: rest)) :
    ∃ w, CycleWorkingState.create p.store.currentSnapshot cycle.cycleId cycle.startedAt = .ok w ∧
      (cycle.plan p w).Feasible providers cycle.firstSequence cycle.now := by
  obtain ⟨hpossible, -⟩ := List.forall_mem_cons.mp h.possible
  have hcreate : ∃ w, CycleWorkingState.create p.store.currentSnapshot cycle.cycleId
      cycle.startedAt = .ok w := ⟨_, dif_neg (not_lt.mpr hpossible.starts)⟩
  obtain ⟨w, hw⟩ := hcreate
  obtain ⟨hversions, htransmissions, hreceptions⟩ := h.counts
  have hafter : ∀ last, p.store.lastCommittedCycleId = some last → last < cycle.cycleId := by
    intro last hlast
    have hids := h.cycleIds
    rw [hlast] at hids
    exact (List.pairwise_cons.mp hids).1 _ (by simp)
  have hroom : p.store.currentSnapshot.version.value.val < 2 ^ 64 - 1 := by omega
  exact ⟨w, hw,
    { wellFormed :=
        CycleSignalRuntime.wellFormed_create hw hroom hafter hpossible.closes h.nonneg
      answers := h.answers
      granted := hpossible.granted w hw
      future := hpossible.future
      transmissionIds := (Nat.le_add_right _ _).trans htransmissions
      receptionIds := (Nat.le_add_right _ _).trans hreceptions
      sequenceIds := hpossible.sequenceIds }⟩

lemma Follows.unshared {version : ℕ} (h : Follows providers version cycle run) :
    ∀ m ∈ run.moves, m.isChange = false := by
  obtain ⟨order, dispatch, -, hdispatch, hmoves⟩ := h.moves
  rw [hmoves, List.forall_mem_append, List.forall_mem_singleton]
  exact ⟨CyclePlan.isChange_of_mem hdispatch, rfl⟩

lemma Follows.leads (h : Follows providers p.store.currentSnapshot.version.value.val cycle run)
    {w : CycleWorkingState} {c : SignalLifecycle}
    (hleads : SignalLifecycle.Leads run.providers (SignalLifecycle.init run.firstSequence run.now
      p.services w p.store run.expectedVersion run.closeTime) run.moves c) :
    ∃ order dispatch last, order.Perm (cycle.plan p w).events ∧
      (∀ m ∈ dispatch, m.isDispatch = true) ∧
      SignalLifecycle.Leads providers ((cycle.plan p w).init cycle.firstSequence cycle.now)
        (CyclePlan.filing order ++ .run :: dispatch) last ∧
      last.step providers .finishRun = some c := by
  obtain ⟨order, dispatch, horder, hdispatch, hmoves⟩ := h.moves
  have hversion : run.expectedVersion = p.store.currentSnapshot.version :=
    StrongId.value_injective (Fin.ext h.expectedVersion)
  rw [h.providers, h.firstSequence, h.now, h.closeTime, hversion, hmoves] at hleads
  obtain ⟨last, hlast, hfinish⟩ := run_concat_eq_some.mp hleads
  exact ⟨order, dispatch, last, horder, hdispatch, hlast, hfinish⟩

lemma Follows.delivers (h : Follows providers p.store.currentSnapshot.version.value.val cycle run)
    (hclock : 0 ≤ cycle.now ∧ cycle.now ≤ kMax) {w : CycleWorkingState} {c : SignalLifecycle}
    (hplan : (cycle.plan p w).Feasible providers cycle.firstSequence cycle.now)
    (hleads : SignalLifecycle.Leads run.providers (SignalLifecycle.init run.firstSequence run.now
      p.services w p.store run.expectedVersion run.closeTime) run.moves c) :
    SignalLifecycle.Delivered (cycle.plan p w) c ∧
      c.runtime.services.ids.transmissionIdsLeft + cycle.requests.length =
        p.services.ids.transmissionIdsLeft ∧
      c.runtime.services.ids.receptionIdsLeft + receiverCount cycle.requests =
        p.services.ids.receptionIdsLeft := by
  obtain ⟨order, dispatch, last, horder, hdispatch, hlast, hfinish⟩ := h.leads hleads
  obtain ⟨-, -, -, -, hcourse, -⟩ :=
    SignalLifecycle.OnCourse.of_leads hclock hplan horder hdispatch hlast
  have hdelivered := hcourse.finishes hfinish
  -- the end of `Run` leaves the runtime as it is
  obtain ⟨system, -, rfl⟩ := SignalLifecycle.drive_eq_some
    (hfinish : last.drive .finishRun = some c)
  have hsent : last.sessions.length = cycle.requests.length := by
    simpa [plan] using hdelivered.requests.length_eq
  refine ⟨hdelivered, ?_, ?_⟩
  · rw [← hsent]
    exact hcourse.stocked.transmissionIds
  · have hreceived : last.runtime.results.sessions.length = receiverCount cycle.requests :=
      hdelivered.receptionCount
    rw [← hreceived]
    exact hcourse.stocked.receptionIds

lemma Possible.of_keeps {snapshot later : WorldSnapshot} (h : Possible providers snapshot cycle)
    (hkeeps : snapshot.Keeps later) (h0 : 0 ≤ later.committedAt.nanoseconds)
    (hstarts : later.committedAt ≤ cycle.startedAt) : Possible providers later cycle := by
  refine ⟨hstarts, h.closes, fun w' hw' => ?_, h.clock, h.future, h.sequenceIds⟩
  have hcreate : ∃ w, CycleWorkingState.create snapshot cycle.cycleId cycle.startedAt = .ok w :=
    ⟨_, dif_neg (not_lt.mpr h.starts)⟩
  obtain ⟨w, hw⟩ := hcreate
  exact fun request hrequest => (h.granted w hw request hrequest).of_keeps hkeeps h0 hw hw'

lemma Successive.conduct (h : Successive providers p (cycle :: rest))
    (hfollows : Follows providers p.store.currentSnapshot.version.value.val cycle run)
    (hstep : p.conduct run = some next) :
    ∃ c, next.cycles = p.cycles ++ [(run, c)] ∧ CarriedOut cycle c ∧
      Successive providers next rest ∧ next.store.currentSnapshot.version.value.val =
        p.store.currentSnapshot.version.value.val + 1 := by
  obtain ⟨w, hw, hplan⟩ := h.feasible
  obtain ⟨hpossible, hrest⟩ := List.forall_mem_cons.mp h.possible
  obtain ⟨w', c, hcreate, hleads, rfl⟩ := Platform.conduct_eq_some hstep
  have hcreated := hcreate
  rw [hfollows.cycleId, hfollows.startedAt] at hcreated
  obtain rfl := Except.ok.inj (hw.symm.trans hcreated)
  obtain ⟨hdelivered, hids, hreceptionIds⟩ := hfollows.delivers hpossible.clock hplan hleads
  -- its one commit
  have hstands := SignalLifecycle.stands_of_leads hfollows.unshared hleads
  obtain ⟨delta, hdelta, hcommit⟩ := hstands.after hdelivered.committed
  have hcommitted := (CommitService.committed_of_ok hcommit).2
  obtain ⟨-, hdeltaId, -⟩ := CycleWorkingState.finalizeDeltaSet_ok.mp hdelta
  obtain ⟨htime, hled⟩ := Cycle.complete_eq_some
    (Platform.complete_of_committed hcreate hstands hdelivered.committed)
  have hclose : c.runtime.store.currentSnapshot.committedAt = cycle.closeTime :=
    htime.trans hfollows.closeTime
  have hcycle : c.runtime.store.lastCommittedCycleId = some cycle.cycleId := by
    rw [hcommitted.cycle, hdeltaId]
    unfold CycleWorkingState.create at hw
    split_ifs at hw
    cases hw
    rfl
  have hlater := SimTime.le_iff.mp (hpossible.starts.trans hpossible.closes)
  have h0 : 0 ≤ c.runtime.store.currentSnapshot.committedAt.nanoseconds := by
    rw [hclose]
    exact h.nonneg.trans hlater
  obtain ⟨hapart, hrestApart⟩ := List.pairwise_cons.mp h.apart
  obtain ⟨hversions, htransmissionsLeft, hreceptionsLeft⟩ := h.counts
  have hversion := hcommitted.version
  refine ⟨c, rfl, ⟨⟨_, rfl, hdelivered⟩, hclose, hcycle⟩, ?_, hversion⟩
  exact
    { answers := h.answers
      nonneg := h0
      possible := fun later hmem => (hrest later hmem).of_keeps
        (WorldSnapshot.keeps_of_allLed hled) h0 (hclose ▸ hapart later hmem)
      apart := hrestApart
      cycleIds := by
        have hascending := h.cycleIds
        rw [List.map_cons] at hascending
        rw [hcycle]
        exact hascending.sublist (List.sublist_append_right _ _)
      versions := by
        dsimp only
        omega
      transmissionIds := by
        dsimp only
        omega
      receptionIds := by
        dsimp only
        omega }

lemma Successive.exists_run (h : Successive providers p (cycle :: rest)) :
    ∃ run next, Follows providers p.store.currentSnapshot.version.value.val cycle run ∧
      p.conduct run = some next := by
  obtain ⟨w, hw, hplan⟩ := h.feasible
  have hclock := (h.possible cycle (by simp)).clock
  obtain ⟨begun, hbegun, hcourse, -, -⟩ :=
    SignalLifecycle.OnCourse.begins hclock hplan (List.Perm.refl _)
  obtain ⟨later, c, hlater, -, hreturn⟩ := hcourse.returns hplan
  have hsplit : CyclePlan.filing cycle.events ++ .run :: later ++ [.finishRun] =
      (CyclePlan.filing cycle.events ++ [.run]) ++ (later ++ [.finishRun]) := by simp
  have hleads : SignalLifecycle.Leads providers
      ((cycle.plan p w).init cycle.firstSequence cycle.now)
      (CyclePlan.filing cycle.events ++ .run :: later ++ [.finishRun]) c := by
    rw [hsplit]
    exact run_append_eq_some.mpr ⟨begun, hbegun, hreturn⟩
  exact ⟨⟨providers, cycle.cycleId, cycle.startedAt, p.store.currentSnapshot.version,
    cycle.closeTime, cycle.firstSequence, cycle.now, _⟩, _, ⟨rfl, rfl, rfl, rfl, rfl, rfl, rfl,
    cycle.events, later, List.Perm.refl _, hlater, rfl⟩, Platform.conduct_of_leads hw hleads⟩

/-! ### All cycles -/

lemma Successive.exists_runs {cycles : List PlannedCycle} (h : Successive providers p cycles) :
    ∃ runs last, FollowsAll providers p.store.currentSnapshot.version.value.val cycles runs ∧
      Transition.run Platform.conduct p runs = some last := by
  induction cycles generalizing p with
  | nil => exact ⟨[], p, .nil _, rfl⟩
  | cons cycle rest ih =>
    obtain ⟨run, next, hfollows, hstep⟩ := h.exists_run
    obtain ⟨-, -, -, hnext, hversion⟩ := h.conduct hfollows hstep
    obtain ⟨runs, last, hruns, hlast⟩ := ih hnext
    rw [hversion] at hruns
    exact ⟨run :: runs, last, .cons hfollows hruns, run_cons_eq_some.mpr ⟨next, hstep, hlast⟩⟩

/-- The cycles of the platform are led on by those that were carried out. -/
structure Carries (p : Platform) (cycles : List PlannedCycle) (runs : List CycleRun)
    (q : Platform) : Prop where
  made : ∃ done, q.cycles = p.cycles ++ done ∧ done.map Prod.fst = runs ∧
    List.Forall₂ (fun cycle d => CarriedOut cycle d.2) cycles done
  version : q.store.currentSnapshot.version.value.val =
    p.store.currentSnapshot.version.value.val + cycles.length

/-- **Successive cycles complete.** However the first ones were run, each was carried out as it
was planned, on the version it was to come to; and the others can still be. -/
theorem plans_carried_out {front rest : List PlannedCycle} {runs : List CycleRun} {q : Platform}
    (h : Successive providers p (front ++ rest))
    (hfollows : FollowsAll providers p.store.currentSnapshot.version.value.val front runs)
    (hrun : Transition.run Platform.conduct p runs = some q) :
    Carries p front runs q ∧
    ∃ more last, FollowsAll providers q.store.currentSnapshot.version.value.val rest more ∧
      Transition.run Platform.conduct q more = some last := by
  generalize hv : p.store.currentSnapshot.version.value.val = version at hfollows
  induction hfollows generalizing p with
  | nil version =>
    obtain rfl : p = q := Option.some.inj hrun
    exact ⟨⟨⟨[], by simp, rfl, .nil⟩, rfl⟩, h.exists_runs⟩
  | @cons version cycle run cycles runs hfirst _ ih =>
    obtain ⟨next, hstep, hrun⟩ := run_cons_eq_some.mp hrun
    obtain ⟨c, hcycles, hcarried, hnext, hversion⟩ := h.conduct (hv ▸ hfirst) hstep
    obtain ⟨⟨⟨done, hdone, hruns, hall⟩, hlast⟩, hmore⟩ := ih hnext hrun (by omega)
    refine ⟨⟨⟨(run, c) :: done, ?_, ?_, .cons hcarried hall⟩, ?_⟩, hmore⟩
    · rw [hdone, hcycles, List.append_assoc, List.singleton_append]
    · rw [List.map_cons, hruns]
    · rw [hlast, hversion, List.length_cons]
      omega

open ReceiverProcessor TransmissionExecutor

/-- Two cycles of nine nanoseconds, in which node 0 sends to node 1 twice, and then once. -/
def twoCycles : List PlannedCycle :=
  [⟨⟨0⟩, .ofUInt32 0, .ofUInt32 9, ⟨0⟩, 0, [pairRequest, pairRequest]⟩,
    ⟨⟨1⟩, .ofUInt32 9, .ofUInt32 18, ⟨0⟩, 9, [{ pairRequest with startedAt := .ofUInt32 9 }]⟩]

def freshPlatform : Platform :=
  ⟨CycleSignalRuntime.freshServices, .create pairWorkingState.baseSnapshot, []⟩

lemma successive_twoCycles : Successive (bandProviders 1000 100) freshPlatform twoCycles where
  answers := answers_bandProviders 1000 100
  nonneg := by decide
  possible cycle hcycle := by
    have hfirst : CycleWorkingState.create pairWorkingState.baseSnapshot ⟨0⟩ (.ofUInt32 0) =
        .ok pairWorkingState := dif_neg (by decide)
    simp only [twoCycles, List.mem_cons, List.not_mem_nil, or_false] at hcycle
    rcases hcycle with rfl | rfl
    · refine ⟨by decide, by decide, fun w hw request hrequest => ?_, by decide, by decide,
        by decide⟩
      obtain rfl := Except.ok.inj (hfirst.symm.trans hw)
      obtain rfl : request = pairRequest := by simpa using hrequest
      exact SignalLifecycle.granted_pairRequest
    · refine ⟨by decide, by decide, fun w hw request hrequest => ?_, by decide, by decide,
        by decide⟩
      have hsecond : CycleWorkingState.create pairWorkingState.baseSnapshot ⟨1⟩ (.ofUInt32 9) =
          .ok (.started pairWorkingState.baseSnapshot ⟨1⟩ (.ofUInt32 9) (by decide)) :=
        dif_neg (by decide)
      obtain rfl := Except.ok.inj (hsecond.symm.trans hw)
      obtain rfl := List.mem_singleton.mp hrequest
      exact SignalLifecycle.granted_bandProviders
        ⟨_, _, by decide, by decide, rfl, rfl, .cons ⟨by decide, rfl, rfl⟩ .nil⟩ (by decide)
  apart := by simp [twoCycles]
  cycleIds := by decide
  versions := by decide
  transmissionIds := by decide
  receptionIds := by decide

theorem plans_carried_out_twoCycles :
    ∃ runs last, FollowsAll (bandProviders 1000 100) 0 twoCycles runs ∧
      Transition.run Platform.conduct freshPlatform runs = some last ∧
      Carries freshPlatform twoCycles runs last := by
  obtain ⟨-, runs, last, hruns, hlast⟩ :=
    plans_carried_out (p := freshPlatform) successive_twoCycles (.nil _) rfl
  have hall : Successive (bandProviders 1000 100) freshPlatform (twoCycles ++ []) :=
    successive_twoCycles
  exact ⟨runs, last, hruns, hlast, (plans_carried_out hall hruns hlast).1⟩

end PlannedCycle

end Ns3Factory
