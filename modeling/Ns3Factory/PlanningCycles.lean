import Ns3Factory.CallbackEffects
import Ns3Factory.CycleBoundaries
import Ns3Factory.SignalTracking
import Ns3Factory.TransmissionEffects

/-!
Planning cycles one after another.

The cycles of a platform share the store, the communication ids and the providers. Each takes the
nodes up where the last commit has left them, and may fail or be given up at any point. It has
then taken some ids, which no later cycle gets again; and unless it was committed, nothing else
is left of it.
-/

namespace Ns3Factory

open Transition

/-- A cycle with a dispatcher of its own, and the moves it makes before the next one is begun. -/
structure CycleRun where
  providers : Providers
  cycleId : PlanningCycleId
  startedAt : SimTime
  expectedVersion : SnapshotVersion
  closeTime : SimTime
  firstSequence : EventSequenceId
  now : ℤ
  moves : List Move

/-- What the cycles of a platform share, and the cycles so far. -/
structure Platform where
  services : Services
  store : WorldStateStore
  cycles : List (CycleRun × SignalLifecycle)

namespace Platform

variable [DoubleArithmetic]

/-- A cycle over the current snapshot makes its moves. -/
def conduct (p : Platform) (run : CycleRun) : Option Platform :=
  match CycleWorkingState.create p.store.currentSnapshot run.cycleId run.startedAt with
  | .error _ => none
  | .ok workingState =>
    let started := SignalLifecycle.init run.firstSequence run.now p.services workingState p.store
      run.expectedVersion run.closeTime
    (Transition.run (SignalLifecycle.step run.providers) started run.moves).map fun c =>
      { services := c.runtime.services
        store := c.runtime.store
        cycles := p.cycles ++ [(run, c)] }

/-- Nothing but the cycles uses what they share. -/
structure Conducts (services : Services) (store : WorldStateStore) (runs : List CycleRun)
    (p : Platform) : Prop where
  leads : Transition.run conduct ⟨services, store, []⟩ runs = some p
  unshared : ∀ run ∈ runs, ∀ m ∈ run.moves, m.isChange = false

/-- The sessions of all cycles, in order. -/
def sessions (p : Platform) : List (TransmissionExecutionRequest × TransmissionSession) :=
  p.cycles.flatMap fun cycle => cycle.2.sessions

def receptions (p : Platform) : List ReceptionSession :=
  p.cycles.flatMap fun cycle => cycle.2.runtime.results.sessions

/-- The cycles that were committed. -/
def committed (p : Platform) : List Cycle :=
  p.cycles.filterMap fun (run, c) =>
    if c.runtime.committed then some ⟨run.cycleId, run.startedAt, [], run.closeTime⟩ else none

lemma conduct_eq_some {p next : Platform} {run : CycleRun} (h : p.conduct run = some next) :
    ∃ w c, CycleWorkingState.create p.store.currentSnapshot run.cycleId run.startedAt = .ok w ∧
      SignalLifecycle.Leads run.providers (SignalLifecycle.init run.firstSequence run.now
        p.services w p.store run.expectedVersion run.closeTime) run.moves c ∧
      next = ⟨c.runtime.services, c.runtime.store, p.cycles ++ [(run, c)]⟩ := by
  unfold conduct at h
  split at h
  · cases h
  next w hcreate =>
  obtain ⟨c, hleads, rfl⟩ := Option.map_eq_some_iff.mp h
  exact ⟨w, c, hcreate, hleads, rfl⟩

lemma conduct_of_leads {p : Platform} {run : CycleRun} {w : CycleWorkingState}
    {c : SignalLifecycle}
    (hcreate : CycleWorkingState.create p.store.currentSnapshot run.cycleId run.startedAt = .ok w)
    (hleads : SignalLifecycle.Leads run.providers (SignalLifecycle.init run.firstSequence run.now
      p.services w p.store run.expectedVersion run.closeTime) run.moves c) :
    p.conduct run = some ⟨c.runtime.services, c.runtime.store, p.cycles ++ [(run, c)]⟩ := by
  unfold conduct
  rw [hcreate]
  exact congrArg (Option.map _) hleads

end Platform

/-! ### The ids -/

/-- From some services on the ids are given out in order: each transmission id with an encode
request, those of the sessions sent among them, and each reception id with a session. -/
structure Numbers (services last : Services) (sent : List TransmissionId)
    (received : List ReceptionId) : Prop where
  encodes : ∃ encodes, last.calls.encodes = services.calls.encodes ++ encodes ∧
    encodes.map (fun e => e.2.transmissionId.value.val) =
      List.range' services.ids.transmissionIdsTaken encodes.length ∧
    last.ids.transmissionIdsTaken = services.ids.transmissionIdsTaken + encodes.length ∧
    sent.Sublist (encodes.map fun e => e.2.transmissionId)
  receptions : (received.map fun id => id.value.val).Perm
    (List.range' services.ids.receptionIdsTaken received.length)
  taken : last.ids.receptionIdsTaken = services.ids.receptionIdsTaken + received.length

namespace Numbers

variable {services middle last : Services} {sent sent' : List TransmissionId}
  {received received' : List ReceptionId}

lemma refl (services : Services) : Numbers services services [] [] :=
  ⟨⟨[], by simp⟩, by simp, by simp⟩

lemma trans (h : Numbers services middle sent received)
    (h' : Numbers middle last sent' received') :
    Numbers services last (sent ++ sent') (received ++ received') := by
  obtain ⟨encodes, hlog, hids, htaken, hsent⟩ := h.encodes
  obtain ⟨encodes', hlog', hids', htaken', hsent'⟩ := h'.encodes
  refine ⟨⟨encodes ++ encodes', ?_, ?_, ?_, ?_⟩, ?_, ?_⟩
  · rw [hlog', hlog, List.append_assoc]
  · rw [List.map_append, hids, hids', htaken, List.length_append, List.range'_append_1]
  · rw [htaken', htaken, List.length_append, Nat.add_assoc]
  · rw [List.map_append]
    exact hsent.append hsent'
  · rw [List.map_append, List.length_append, ← List.range'_append_1, ← h.taken]
    exact h.receptions.append h'.receptions
  · rw [h'.taken, h.taken, List.length_append, Nat.add_assoc]

lemma perm (h : Numbers services last sent received) (hperm : received'.Perm received) :
    Numbers services last sent received' := by
  refine ⟨h.encodes, ?_, ?_⟩
  · rw [hperm.length_eq]
    exact (hperm.map _).trans h.receptions
  · rw [hperm.length_eq]
    exact h.taken

lemma of_execute [DoubleArithmetic] (providers : Providers) (w : CycleWorkingState)
    (request : TransmissionExecutionRequest) (services : Services) :
    Numbers services
      (TransmissionExecutor.executeTransmission providers w request services).2 [] [] ∧
    ∀ session last, TransmissionExecutor.executeTransmission providers w request services =
      (.ok session, last) →
      Numbers services last [session.transmission.transmissionId] [] := by
  rcases TransmissionExecutor.send_cases services ⟨providers, w, request⟩ with
    ⟨-, e, herr⟩ | ⟨-, -, herr⟩ | ⟨-, id, queries, result, last, hsend, hconsumes⟩
  all_goals simp only [TransmissionExecutor.send] at *
  · rw [herr]
    exact ⟨refl services, fun session last h => by cases h⟩
  · rw [herr]
    exact ⟨refl services, fun session last h => by cases h⟩
  obtain ⟨hval, htaken, hreception⟩ :=
    CommunicationIdAllocator.nextTransmissionId_ok hconsumes.id
  have hnumbers : ∀ sent : List TransmissionId, sent.Sublist [id] →
      Numbers services last sent [] := by
    intro sent hsent
    refine ⟨⟨[(request.selectedPacket, TransmissionExecutor.encodeRequest request id)], ?_, ?_,
      ?_, hsent⟩, by simp, by simpa using hreception⟩
    · rw [hconsumes.calls]
      rfl
    · simp [TransmissionExecutor.encodeRequest, hval]
    · simpa using htaken
  rw [hsend]
  refine ⟨hnumbers [] (List.nil_sublist _), fun session last' h => ?_⟩
  cases h
  have hid := (TransmissionExecutor.executeTransmission_ok hsend).id
  have hsame := Except.ok.inj (congrArg Prod.fst (hconsumes.id.symm.trans hid))
  rw [← hsame]
  exact hnumbers [id] (List.Sublist.refl _)

lemma of_process [DoubleArithmetic] {providers : Providers} {signal : ReceivedSignal}
    {ledger : InFlightSignalLedger} {w : CycleWorkingState} :
    (∀ e, ReceiverProcessor.processReceivedSignal providers signal ledger w services =
      (.error e, last) → Numbers services last [] []) ∧
    ∀ session, ReceiverProcessor.processReceivedSignal providers signal ledger w services =
      (.ok session, last) → Numbers services last [] [session.reception.receptionId] := by
  refine ⟨fun e h => ?_, fun session h => ?_⟩
  · rcases ReceiverProcessor.processReceivedSignal_ends providers signal ledger w services with
      ⟨_, _, _, _, _, _, _, -, -, hok⟩ | ⟨-, e', calls, hasked, herr⟩
    · rw [hok] at h
      cases h
    rw [herr] at h
    cases h
    have hencodes : calls.encodes = services.calls.encodes := by cases hasked <;> rfl
    exact ⟨⟨[], by simp [hencodes]⟩, by simp, by simp⟩
  · have hprocessed := ReceiverProcessor.processReceivedSignal_ok h
    obtain ⟨hval, htaken, htransmission⟩ :=
      CommunicationIdAllocator.nextReceptionId_ok hprocessed.id
    refine ⟨⟨[], by simp [hprocessed.calls.1, htransmission]⟩, ?_, ?_⟩
    · simp [hval]
    · simpa using htaken

end Numbers

namespace SignalLifecycle

/-- The ids the sessions and the receptions have. -/
abbrev NumbersAll (services : Services) (r : CycleSignalRuntime)
    (sessions : List (TransmissionExecutionRequest × TransmissionSession)) : Prop :=
  Numbers services r.services (sessions.map fun p => p.2.transmission.transmissionId)
    (r.results.sessions.map fun session => session.reception.receptionId)

lemma numbers_called [DoubleArithmetic] {providers : Providers} {services : Services}
    {r r' : CycleSignalRuntime}
    {sessions sessions' : List (TransmissionExecutionRequest × TransmissionSession)}
    {event : CycleEvent} (h : NumbersAll services r sessions)
    (hcalled : Called providers r sessions event r' sessions') :
    NumbersAll services r' sessions' := by
  cases hcalled with
  | refused | arrived | closed => exact h
  | unsent request last hexec =>
    have hnumbers := (Numbers.of_execute providers r.workingState request r.services).1
    rw [hexec] at hnumbers
    simpa using h.trans hnumbers
  | sent request session last hexec =>
    have hnumbers := h.trans
      ((Numbers.of_execute providers r.workingState request r.services).2 _ _ hexec)
    rw [List.append_nil] at hnumbers
    unfold NumbersAll
    rw [List.map_append]
    exact hnumbers
  | unprocessed signal e last hproc =>
    simpa using h.trans (Numbers.of_process.1 e hproc)
  | processed signal session last hproc =>
    have hnumbers := h.trans (Numbers.of_process.2 session hproc)
    rw [List.append_nil] at hnumbers
    refine hnumbers.perm ?_
    have hperm := (r.results.append_perm session).map fun s => s.reception.receptionId
    exact hperm.trans (List.perm_append_singleton _ _).symm

end SignalLifecycle

namespace Platform

variable {services : Services} {store : WorldStateStore} {runs : List CycleRun} {p : Platform}

lemma numbers_of_conducts [DoubleArithmetic] (h : Conducts services store runs p) :
    Numbers services p.services (p.sessions.map fun q => q.2.transmission.transmissionId)
      (p.receptions.map fun session => session.reception.receptionId) := by
  refine run_invariant (P := fun q : Platform => Numbers services q.services
      (q.sessions.map fun s => s.2.transmission.transmissionId)
      (q.receptions.map fun session => session.reception.receptionId))
    (fun q run next hq hmoves hstep => ?_) (Numbers.refl services) h.unshared h.leads
  obtain ⟨w, c, -, hleads, rfl⟩ := conduct_eq_some hstep
  have hcycle := SignalLifecycle.leads_of_called
    (P := SignalLifecycle.NumbersAll q.services)
    (fun _ _ _ _ _ h hcalled => SignalLifecycle.numbers_called h hcalled)
    (Numbers.refl q.services) hmoves hleads
  simpa [sessions, receptions] using hq.trans hcycle

/-- **No id is given out twice**, over all cycles and whatever becomes of them. The transmission
ids encoded are the ones that come next, in order, and the sessions have theirs among them, in
order; the receptions of all cycles have the reception ids that come next. -/
theorem ids_never_reused [DoubleArithmetic] (h : Conducts services store runs p) :
    (p.sessions.map fun q => q.2.transmission.transmissionId).Nodup ∧
    (∃ encodes, p.services.calls.encodes = services.calls.encodes ++ encodes ∧
      encodes.map (fun e => e.2.transmissionId.value.val) =
        List.range' services.ids.transmissionIdsTaken encodes.length ∧
      p.services.ids.transmissionIdsTaken =
        services.ids.transmissionIdsTaken + encodes.length ∧
      (p.sessions.map fun q => q.2.transmission.transmissionId).Sublist
        (encodes.map fun e => e.2.transmissionId)) ∧
    (p.receptions.map fun session => session.reception.receptionId.value.val).Perm
      (List.range' services.ids.receptionIdsTaken p.receptions.length) ∧
    p.services.ids.receptionIdsTaken =
      services.ids.receptionIdsTaken + p.receptions.length := by
  obtain ⟨⟨encodes, hlog, hids, htaken, hsent⟩, hreceptions, hreceived⟩ :=
    numbers_of_conducts h
  rw [List.map_map, List.length_map] at hreceptions
  rw [List.length_map] at hreceived
  refine ⟨?_, ⟨encodes, hlog, hids, htaken, hsent⟩, hreceptions, hreceived⟩
  have hnodup : (encodes.map fun e => e.2.transmissionId.value.val).Nodup := by
    rw [hids]
    exact List.nodup_range'
  have hencoded : (encodes.map fun e => e.2.transmissionId).Nodup := by
    refine List.Nodup.of_map (fun id => id.value.val) ?_
    rwa [List.map_map]
  exact hencoded.sublist hsent

open ReceiverProcessor in
/-- A cycle that is given up after two sends, and is then done all over again. -/
def repeatedCycle : List CycleRun :=
  let run : List Move → CycleRun := fun moves =>
    ⟨bandProviders 1000 100, ⟨0⟩, .ofUInt32 0, ⟨0⟩, .ofUInt32 9, ⟨0⟩, 0, moves⟩
  [run (SignalLifecycle.pairMoves.take 9), run (SignalLifecycle.pairMoves ++ [.finishRun])]

lemma conducts_repeatedCycle :
    ∃ p, Conducts CycleSignalRuntime.freshServices
        (.create ReceiverProcessor.pairWorkingState.baseSnapshot) repeatedCycle p ∧
      p.sessions.map (fun q => q.2.transmission.transmissionId.value.val) = [0, 1, 2, 3] ∧
      p.receptions.length = 2 ∧ p.cycles.length = 2 ∧ p.committed.length = 1 := by
  have hrun : (Transition.run conduct ⟨CycleSignalRuntime.freshServices,
      .create ReceiverProcessor.pairWorkingState.baseSnapshot, []⟩ repeatedCycle).map
      (fun p => (p.sessions.map (fun q => q.2.transmission.transmissionId.value.val),
        p.receptions.length, p.cycles.length, p.committed.length)) =
          some ([0, 1, 2, 3], 2, 2, 1) := by
    decide +kernel
  obtain ⟨p, hp, hval⟩ := Option.map_eq_some_iff.mp hrun
  simp only [Prod.mk.injEq] at hval
  exact ⟨p, ⟨hp, by simp [repeatedCycle, SignalLifecycle.pairMoves, Move.isChange]⟩, hval⟩

theorem ids_never_reused_repeatedCycle :
    ∃ p : Platform, p.sessions.length = 4 ∧
      (p.sessions.map fun q => q.2.transmission.transmissionId).Nodup := by
  obtain ⟨p, hp, hsessions, -⟩ := conducts_repeatedCycle
  exact ⟨p, by simpa using congrArg List.length hsessions, (ids_never_reused hp).1⟩

/-! ### The store -/

lemma complete_of_committed {w : CycleWorkingState} {c : SignalLifecycle} {run : CycleRun}
    (hcreate : CycleWorkingState.create store.currentSnapshot run.cycleId run.startedAt = .ok w)
    (hstands : SignalLifecycle.Stands store w run.closeTime c.runtime)
    (hcommitted : c.runtime.committed = true) :
    Cycle.complete store ⟨run.cycleId, run.startedAt, [], run.closeTime⟩ =
      some c.runtime.store := by
  obtain ⟨delta, hdelta, hcommit⟩ := hstands.after hcommitted
  simp [Cycle.complete, hcreate, hdelta, hcommit]

lemma store_of_conducts (h : Conducts services store runs p) :
    Transition.run Cycle.complete store p.committed = some p.store := by
  refine run_invariant (P := fun q : Platform =>
      Transition.run Cycle.complete store q.committed = some q.store)
    (fun q run next hq hmoves hstep => ?_) rfl h.unshared h.leads
  obtain ⟨w, c, hcreate, hleads, rfl⟩ := conduct_eq_some hstep
  have hstands := SignalLifecycle.stands_of_leads hmoves hleads
  have hnext : Platform.committed ⟨c.runtime.services, c.runtime.store, q.cycles ++ [(run, c)]⟩ =
      q.committed ++ (if c.runtime.committed then
        some (⟨run.cycleId, run.startedAt, [], run.closeTime⟩ : Cycle) else none).toList := by
    simp only [committed, List.filterMap_append, List.filterMap_cons, List.filterMap_nil]
    split <;> simp_all
  rw [hnext]
  rcases hcommitted : c.runtime.committed with _ | _
  · rw [hstands.before hcommitted]
    simpa using hq
  · refine run_append_eq_some.mpr ⟨q.store, hq, ?_⟩
    have hcomplete := complete_of_committed hcreate hstands hcommitted
    simp [run_cons, hcomplete]

lemma commit_of_complete {next : WorldStateStore} {cycle : Cycle}
    (h : cycle.complete store = some next) :
    ∃ call : CommitService.Call, call.delta.cycleId = cycle.cycleId ∧
      CommitService.commit store call = (.ok (), next) := by
  unfold Cycle.complete at h
  split at h
  · cases h
  next created hcreate =>
  dsimp only at h
  split_ifs at h
  split at h
  · cases h
  next delta hdelta =>
  split at h
  · cases h
  next next' hcommit =>
  cases h
  refine ⟨⟨_, delta⟩, ?_, hcommit⟩
  obtain ⟨-, hcycle, -⟩ := CycleWorkingState.finalizeDeltaSet_ok.mp hdelta
  have hstarted : created.cycleId = cycle.cycleId := by
    unfold CycleWorkingState.create at hcreate
    split_ifs at hcreate
    cases hcreate
    rfl
  exact (hcycle.trans (CycleWorkingState.exec_base created _).2.1).trans hstarted

lemma commits_of_run {cycles : List Cycle} {last : WorldStateStore}
    (h : Transition.run Cycle.complete store cycles = some last) :
    ∃ commits : List CommitService.Call, CommitService.Since store last commits ∧
      commits.map (fun call => call.delta.cycleId) = cycles.map Cycle.cycleId := by
  induction cycles using List.reverseRecOn generalizing last with
  | nil =>
    rw [run_nil, Option.some.injEq] at h
    rw [← h]
    exact ⟨[], CommitService.since_refl store, rfl⟩
  | append_singleton cycles cycle ih =>
    obtain ⟨middle, hrun, hcycle⟩ := run_concat_eq_some.mp h
    obtain ⟨commits, hsince, hids⟩ := ih hrun
    obtain ⟨call, hid, hcommit⟩ := commit_of_complete hcycle
    -- the commits so far, as a trace of accepted calls
    have haccepted : ∀ calls : List CommitService.Call,
        CommitService.accepted (calls.map fun call => (call, (.ok () : Status))) = calls := by
      intro calls
      induction calls with
      | nil => rfl
      | cons first rest ih => simpa [CommitService.accepted, Result.succeeded] using ih
    have hnext := CommitService.Since.commit ((haccepted commits).symm ▸ hsince) call
    rw [hcommit] at hnext
    refine ⟨commits ++ [call], ?_, by simp [hids, hid]⟩
    have htrace := haccepted (commits ++ [call])
    rw [List.map_append] at htrace
    rw [← htrace]
    exact hnext

/-- **The store follows the committed cycles.** Over any cycles, whatever becomes of them, it is
the store that the committed ones alone lead to: each is one version, their ids ascend, and the
nodes have gone straight ahead since the first snapshot. -/
theorem store_follows_committed (h : Conducts services store runs p) :
    let first := store.currentSnapshot
    let last := p.store.currentSnapshot
    Transition.run Cycle.complete store p.committed = some p.store ∧
    last.version.value.val = first.version.value.val + p.committed.length ∧
    (store.lastCommittedCycleId.toList ++ p.committed.map Cycle.cycleId).Pairwise (· < ·) ∧
    ∀ nodeId baseNode, first.findNode nodeId = some baseNode →
      ∃ node, last.findNode nodeId = some node ∧ node.capability = baseNode.capability ∧
        node.motion.velocity = baseNode.motion.velocity ∧
        node.motion.position.coordinates = baseNode.motion.position.coordinates +
          (last.committedAt.seconds - first.committedAt.seconds) •
            baseNode.motion.velocity.coordinates := by
  intro first last
  have hrun := store_of_conducts h
  obtain ⟨commits, hsince, hids⟩ := commits_of_run hrun
  have hlength : commits.length = p.committed.length := by
    simpa using congrArg List.length hids
  have hcycles := hsince.cycles
  rw [hids] at hcycles
  refine ⟨hrun, by rw [← hlength]; exact hsince.version, hcycles, ?_⟩
  intro nodeId baseNode hbase
  have hupdates : Cycle.allUpdates p.committed = [] := by
    rw [Cycle.allUpdates, List.flatMap_eq_nil_iff]
    intro cycle hcycle
    obtain ⟨⟨run, c⟩, -, heq⟩ := List.mem_filterMap.mp hcycle
    dsimp only at heq
    split_ifs at heq
    cases heq
    rfl
  obtain ⟨node, hnode, hled⟩ := (Cycle.allLed_run hrun).led nodeId baseNode hbase
  rw [hupdates] at hled
  refine ⟨node, hnode, hled.capability, ?_, ?_⟩
  · exact hled.velocity
  · have hposition := hled.position
    simpa [Cycle.updatesOf, Trajectory.Leg.stretches] using hposition

theorem store_follows_committed_repeatedCycle :
    ∃ p : Platform, p.cycles.length = 2 ∧ p.committed.length = 1 ∧
      p.store.currentSnapshot.version.value.val = 1 := by
  obtain ⟨p, hp, -, -, hcycles, hcommitted⟩ := conducts_repeatedCycle
  have hversion := (store_follows_committed hp).2.1
  rw [hcommitted] at hversion
  exact ⟨p, hcycles, hcommitted, hversion⟩

end Platform

end Ns3Factory
