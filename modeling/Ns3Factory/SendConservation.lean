import Ns3Factory.DispatchOrder
import Ns3Factory.SignalTracking

/-!
What a cycle makes of its sends.

Every `TxStart` executed takes one transmission id, encodes once, and queries the channel once
for each candidate receiver. Since the ids differ, so do the pairs of a transmission and a
receiver; each has one signal, one arrival and one finalize, and so one session with a
reception id of its own.
-/

namespace Ns3Factory.SignalLifecycle

open StdAlgorithm Transition

variable {providers : Providers}

/-- The transmission and the receiver of a signal. -/
def pair (signal : ReceivedSignal) : TransmissionId × NodeId :=
  (signal.transmissionId, signal.receiverNodeId)

/-- The pairs of a transmission and a candidate receiver of its request. -/
def pairsOf (p : TransmissionExecutionRequest × TransmissionSession) :
    List (TransmissionId × NodeId) :=
  p.1.candidateReceivers.map fun receiver => (p.2.transmission.transmissionId, receiver)

/-- A session has one signal for each candidate receiver of its request. -/
structure FansOut (p : TransmissionExecutionRequest × TransmissionSession) : Prop where
  nodup : p.1.candidateReceivers.Nodup
  pairs : (p.2.receivedSignals.map pair).Perm (pairsOf p)

lemma fansOut_of_executed [DoubleArithmetic] {workingState : CycleWorkingState}
    {request : TransmissionExecutionRequest} {services last : Services}
    {session : TransmissionSession}
    (h : TransmissionExecutor.Executed workingState request services session last) :
    session.receivedSignals.map pair =
        (TransmissionExecutor.sortedCandidates request).map
          (fun receiver => (session.transmission.transmissionId, receiver)) ∧
      FansOut (request, session) := by
  have hpair : session.receivedSignals.map pair =
      (TransmissionExecutor.sortedCandidates request).map
        fun receiver => (session.transmission.transmissionId, receiver) := by
    rw [← h.receivers, List.map_map]
    refine List.map_congr_left fun s hs => ?_
    have hid : s.transmissionId = session.transmission.transmissionId := by
      rw [ReceivedSignal.transmissionId, h.emission s hs, h.emissionId]
    simp [pair, hid]
  refine ⟨hpair, h.nodup, ?_⟩
  rw [hpair]
  exact (sort_perm _ _).map _

/-! ### Sending -/

/-- What the `TxStart` events executed so far have sent, since `services`. -/
structure Sent (services : Services) (c : SignalLifecycle) : Prop where
  started : c.sessions.map Prod.fst = startedOf c.system.finished
  ids : c.sessions.map (fun p => p.2.transmission.transmissionId.value.val) =
    List.range' services.ids.transmissionIdsTaken c.sessions.length
  taken : c.runtime.services.ids.transmissionIdsTaken =
    services.ids.transmissionIdsTaken + c.sessions.length
  fansOut : ∀ p ∈ c.sessions, FansOut p
  encodes : ∃ encodes, c.runtime.services.calls.encodes = services.calls.encodes ++ encodes ∧
    encodes.map (fun e => (e.1, e.2.transmissionId)) =
      c.sessions.map fun p => (p.1.selectedPacket, p.2.transmission.transmissionId)
  queries : ∃ queries,
    c.runtime.services.calls.channelQueries = services.calls.channelQueries ++ queries ∧
    queries.map (fun q => (q.transmissionId, q.receiverNodeId)) = c.produced.map pair

lemma Sent.congr {services : Services} {c c' : SignalLifecycle} (h : Sent services c)
    (hstarted : startedOf c'.system.finished = startedOf c.system.finished)
    (hsessions : c'.sessions = c.sessions)
    (htaken : c'.runtime.services.ids.transmissionIdsTaken =
      c.runtime.services.ids.transmissionIdsTaken)
    (hencodes : c'.runtime.services.calls.encodes = c.runtime.services.calls.encodes)
    (hqueries : c'.runtime.services.calls.channelQueries =
      c.runtime.services.calls.channelQueries) : Sent services c' := by
  have hp : c'.produced = c.produced := by simp only [produced, hsessions]
  refine ⟨?_, ?_, ?_, ?_, ?_, ?_⟩
  · rw [hstarted, hsessions]; exact h.started
  · rw [hsessions]; exact h.ids
  · rw [htaken, hsessions]; exact h.taken
  · rw [hsessions]; exact h.fansOut
  · rw [hencodes, hsessions]; exact h.encodes
  · rw [hqueries, hp]; exact h.queries

lemma Sent.append [DoubleArithmetic] {services : Services} {c c' : SignalLifecycle}
    (h : Sent services c) {request : TransmissionExecutionRequest}
    {session : TransmissionSession}
    (hexec : TransmissionExecutor.Executed c.runtime.workingState request c.runtime.services
      session c'.runtime.services)
    (hstarted : startedOf c'.system.finished = startedOf c.system.finished ++ [request])
    (hsessions : c'.sessions = c.sessions ++ [(request, session)]) : Sent services c' := by
  obtain ⟨hid, htaken, -⟩ := CommunicationIdAllocator.nextTransmissionId_ok hexec.id
  obtain ⟨hpair, hfans⟩ := fansOut_of_executed hexec
  obtain ⟨encodeRequest, queries', hrequest, hqueries', hcalls⟩ := hexec.calls
  obtain ⟨encodes, hencodes, hencoded⟩ := h.encodes
  obtain ⟨queries, hqueries, hqueried⟩ := h.queries
  have hlength : c'.sessions.length = c.sessions.length + 1 := by simp [hsessions]
  refine ⟨?_, ?_, ?_, ?_, ⟨encodes ++ [(request.selectedPacket, encodeRequest)], ?_, ?_⟩,
    queries ++ queries', ?_, ?_⟩
  · simp [hstarted, hsessions, h.started]
  · rw [hlength, List.range'_concat, ← h.ids, hsessions, List.map_append]
    simp [hid, h.taken]
  · rw [htaken, h.taken, hlength]
    omega
  · simp only [hsessions, List.forall_mem_append, List.forall_mem_singleton]
    exact ⟨h.fansOut, hfans⟩
  · rw [hcalls, hencodes, List.append_assoc]
  · simp [hsessions, hencoded, hrequest]
  · rw [hcalls, hqueries, List.append_assoc]
  · rw [List.map_append, hqueried, hqueries', ← hpair]
    simp [produced, hsessions]

lemma Sent.step [DoubleArithmetic] {services : Services} {c c' : SignalLifecycle} {m : Move}
    (hsound : c.system.Sound) (h : Sent services c) (hm : m.isChange = false)
    (hok : ¬ c'.system.Failed) (hstep : c.step providers m = some c') : Sent services c' := by
  cases step_outcome hsound hok hstep with
  | quiet hq =>
    have hruntime := hq.unchanged hm
    exact h.congr hq.started hq.sessions (by rw [hruntime]) (by rw [hruntime]) (by rw [hruntime])
  | txStart hr hexec hends => exact h.append hexec hr.started rfl
  | signalArrival hr hledger =>
    exact h.congr (hr.started.trans (List.append_nil _)) rfl rfl rfl rfl
  | sessionFinalize hr hproc =>
    obtain ⟨-, -, htaken⟩ := CommunicationIdAllocator.nextReceptionId_ok hproc.id
    exact h.congr (hr.started.trans (List.append_nil _)) rfl htaken hproc.calls.1 hproc.calls.2
  | cycleClose hr hopen htime hcommit =>
    exact h.congr (hr.started.trans (List.append_nil _)) rfl rfl rfl rfl

lemma sent_init (firstSequence : EventSequenceId) (now : ℤ) (services : Services)
    (workingState : CycleWorkingState) (store : WorldStateStore)
    (expectedVersion : SnapshotVersion) (cycleCloseTime : SimTime) :
    Sent services
      (init firstSequence now services workingState store expectedVersion cycleCloseTime) where
  started := rfl
  ids := rfl
  taken := rfl
  fansOut := by simp [init]
  encodes := ⟨[], (List.append_nil _).symm, rfl⟩
  queries := ⟨[], (List.append_nil _).symm, rfl⟩

/-! ### Receiving and committing -/

/-- The receptions so far: of the pair of their signal, each with an id of its own. -/
structure Received (c : SignalLifecycle) : Prop where
  provenance : ∀ session ∈ c.runtime.results.sessions,
    (session.reception.transmissionId, session.reception.receiverNodeId) =
      pair session.desiredSignal
  ids : (c.runtime.results.sessions.map fun session => session.reception.receptionId).Nodup
  taken : ∀ session ∈ c.runtime.results.sessions,
    session.reception.receptionId.value.val < c.runtime.services.ids.receptionIdsTaken

lemma Received.congr {c c' : SignalLifecycle} (h : c.Received)
    (hresults : c'.runtime.results = c.runtime.results)
    (htaken : c'.runtime.services.ids.receptionIdsTaken =
      c.runtime.services.ids.receptionIdsTaken) : c'.Received := by
  refine ⟨?_, ?_, ?_⟩
  · rw [hresults]; exact h.provenance
  · rw [hresults]; exact h.ids
  · rw [hresults, htaken]; exact h.taken

lemma Received.append {c c' : SignalLifecycle} (h : c.Received) {session : ReceptionSession}
    (hresults : c'.runtime.results = c.runtime.results.append session)
    (hpair : (session.reception.transmissionId, session.reception.receiverNodeId) =
      pair session.desiredSignal)
    (hid : session.reception.receptionId.value.val = c.runtime.services.ids.receptionIdsTaken)
    (htaken : c'.runtime.services.ids.receptionIdsTaken =
      c.runtime.services.ids.receptionIdsTaken + 1) : c'.Received := by
  have hp := c.runtime.results.append_perm session
  have hmem : ∀ {added}, added ∈ c'.runtime.results.sessions →
      added = session ∨ added ∈ c.runtime.results.sessions := by
    intro added hadded
    rw [hresults] at hadded
    exact List.mem_cons.mp (hp.mem_iff.mp hadded)
  refine ⟨fun added hadded => ?_, ?_, fun added hadded => ?_⟩
  · rcases hmem hadded with rfl | hadded
    · exact hpair
    · exact h.provenance added hadded
  · rw [hresults, (hp.map _).nodup_iff, List.map_cons, List.nodup_cons]
    refine ⟨fun hin => ?_, h.ids⟩
    obtain ⟨earlier, hearlier, heq⟩ := List.mem_map.mp hin
    have hlt := h.taken earlier hearlier
    rw [heq, hid] at hlt
    exact lt_irrefl _ hlt
  · rcases hmem hadded with rfl | hadded
    · rw [hid, htaken]; exact Nat.lt_succ_self _
    · rw [htaken]; exact (h.taken added hadded).trans (Nat.lt_succ_self _)

lemma Received.step [DoubleArithmetic] {c c' : SignalLifecycle} {m : Move} (hsound : c.system.Sound)
    (h : c.Received) (hm : m.isChange = false) (hok : ¬ c'.system.Failed)
    (hstep : c.step providers m = some c') : c'.Received := by
  cases step_outcome hsound hok hstep with
  | quiet hq =>
    have hruntime := hq.unchanged hm
    exact h.congr (by rw [hruntime]) (by rw [hruntime])
  | txStart hr hexec hends =>
    obtain ⟨-, -, htaken⟩ := CommunicationIdAllocator.nextTransmissionId_ok hexec.id
    exact h.congr rfl htaken
  | signalArrival hr hledger => exact h.congr rfl rfl
  | sessionFinalize hr hproc =>
    obtain ⟨hid, htaken, -⟩ := CommunicationIdAllocator.nextReceptionId_ok hproc.id
    refine h.append rfl ?_ hid htaken
    rw [hproc.desired, hproc.transmissionId, hproc.receiverNodeId]
    rfl
  | cycleClose hr hopen htime hcommit => exact h.congr rfl rfl

/-- The store is the initial one until the cycle is committed, and then one version on. -/
structure Stored (store : WorldStateStore) (c : SignalLifecycle) : Prop where
  before : c.runtime.committed = false → c.runtime.store = store
  after : c.runtime.committed = true → c.runtime.store.currentSnapshot.version.value.val =
    store.currentSnapshot.version.value.val + 1

lemma Stored.congr {store : WorldStateStore} {c c' : SignalLifecycle} (h : Stored store c)
    (hcommitted : c'.runtime.committed = c.runtime.committed)
    (hstore : c'.runtime.store = c.runtime.store) : Stored store c' :=
  ⟨by rw [hcommitted, hstore]; exact h.before, by rw [hcommitted, hstore]; exact h.after⟩

lemma Stored.step [DoubleArithmetic] {store : WorldStateStore} {c c' : SignalLifecycle} {m : Move}
    (hsound : c.system.Sound) (h : Stored store c) (hm : m.isChange = false)
    (hok : ¬ c'.system.Failed) (hstep : c.step providers m = some c') : Stored store c' := by
  cases step_outcome hsound hok hstep with
  | quiet hq =>
    have hruntime := hq.unchanged hm
    exact h.congr (by rw [hruntime]) (by rw [hruntime])
  | txStart hr hexec hends => exact h.congr rfl rfl
  | signalArrival hr hledger => exact h.congr rfl rfl
  | sessionFinalize hr hproc => exact h.congr rfl rfl
  | @cycleClose key delta committed system hr hopen htime hcommit =>
    refine ⟨(fun hcommitted => by cases hcommitted), fun _ => ?_⟩
    rw [← h.before hopen]
    rcases CommitService.commitCycle_cases c.runtime.store c.runtime.expectedVersion delta with
      ⟨-, next, hok', hcommitted⟩ | ⟨-, e, herr⟩
    · rw [hcommit] at hok'
      cases hok'
      exact hcommitted.version
    · rw [hcommit] at herr
      cases herr

/-! ### Whole cycles -/

/-- What a committed cycle has made of its sends: `c` is its end, from `services` and `store`,
and `run` is its only `Run`. -/
structure Conserved (services : Services) (store : WorldStateStore) (c : SignalLifecycle)
    (run : RunRecord) : Prop where
  /-- Every `TxStart` event executed has made one session. -/
  sessions : c.sessions.map Prod.fst = startedOf c.system.executed
  /-- Each took one transmission id. -/
  transmissionIds : c.sessions.map (fun p => p.2.transmission.transmissionId.value.val) =
    List.range' services.ids.transmissionIdsTaken c.sessions.length
  transmissionIdsTaken : c.runtime.services.ids.transmissionIdsTaken =
    services.ids.transmissionIdsTaken + c.sessions.length
  /-- Each encoded once. -/
  encodes : ∃ encodes, c.runtime.services.calls.encodes = services.calls.encodes ++ encodes ∧
    encodes.map (fun e => (e.1, e.2.transmissionId)) =
      c.sessions.map fun p => (p.1.selectedPacket, p.2.transmission.transmissionId)
  /-- The pairs of a transmission and a candidate receiver are all different. -/
  pairs : (c.sessions.flatMap pairsOf).Nodup
  /-- The channel was queried once for each pair. -/
  queries : ∃ queries,
    c.runtime.services.calls.channelQueries = services.calls.channelQueries ++ queries ∧
    (queries.map fun q => (q.transmissionId, q.receiverNodeId)).Perm
      (c.sessions.flatMap pairsOf)
  /-- One arrival was executed for each pair. -/
  arrivals : ((arrivedOf c.system.executed).map pair).Perm (c.sessions.flatMap pairsOf)
  /-- No arrival was rejected, nor did any other callback fail. -/
  returned : run.returned.map Prod.fst = c.system.executed.map EventRecord.key ∧
    ∀ p ∈ run.returned, Result.succeeded p.2
  /-- Each pair has one session, and there is no other. -/
  receptions : (c.runtime.results.sessions.map fun session =>
    (session.reception.transmissionId, session.reception.receiverNodeId)).Perm
      (c.sessions.flatMap pairsOf)
  receptionIds :
    (c.runtime.results.sessions.map fun session => session.reception.receptionId).Nodup
  ledger : c.runtime.ledger.signals = []
  version : c.runtime.store.currentSnapshot.version.value.val =
    store.currentSnapshot.version.value.val + 1

lemma Sent.nodup_pairs {services : Services} {c : SignalLifecycle} (h : Sent services c) :
    (c.sessions.flatMap pairsOf).Nodup := by
  rw [List.nodup_flatMap]
  constructor
  · intro p hp
    exact (h.fansOut p hp).nodup.map fun r r' heq => (Prod.mk.inj heq).2
  · have hids : (c.sessions.map fun p => p.2.transmission.transmissionId.value.val).Nodup := by
      rw [h.ids]; exact List.nodup_range'
    refine (List.pairwise_map.mp hids).imp fun {p p'} hne => ?_
    intro x hx hx'
    obtain ⟨r, -, rfl⟩ := List.mem_map.mp hx
    obtain ⟨r', -, heq⟩ := List.mem_map.mp hx'
    exact hne (by rw [(Prod.mk.inj heq).1])

lemma Sent.produced_perm {services : Services} {c : SignalLifecycle} (h : Sent services c) :
    (c.produced.map pair).Perm (c.sessions.flatMap pairsOf) := by
  rw [produced, List.map_flatMap]
  exact List.Perm.flatMap_left _ fun p hp => (h.fansOut p hp).pairs

lemma Completes.returned [DoubleArithmetic] {firstSequence : EventSequenceId} {now : ℤ}
    (hnow : 0 ≤ now ∧ now ≤ kMax) {c c' : SignalLifecycle} {moves : List Move}
    {run : RunRecord} (hinit : c.system = .init firstSequence now)
    (h : Completes providers c moves run c') :
    run.returned.map Prod.fst = c'.system.executed.map EventRecord.key ∧
      ∀ p ∈ run.returned, Result.succeeded p.2 := by
  have hsound : c.system.Sound := by rw [hinit]; exact System.sound_init firstSequence hnow
  obtain ⟨actions, hleads⟩ := leads_system hsound h.leads
  rw [hinit] at hleads
  have hrun := System.Runs.runInv hnow hleads
  have hrecorded := hrun.recorded
  rw [System.recordedKeys, h.idle, h.single] at hrecorded
  refine ⟨by simpa using hrecorded, fun p hp => ?_⟩
  obtain ⟨key, e | u⟩ := p
  · obtain ⟨before, after, heq⟩ := List.append_of_mem hp
    have hfail := ((hrun.failStop run (by simp [h.single])).1 before key e after heq).2
    rw [h.succeeded] at hfail
    cases hfail
  · rfl

/-- **One send, many receptions.** When the only `Run` of a cycle succeeds and the cycle is
committed, every `TxStart` has sent once, and every pair of a transmission and a candidate
receiver has been queried, has arrived and was received exactly once. -/
theorem sends_conserved [DoubleArithmetic] {providers : Providers}
    {firstSequence : EventSequenceId} {now : ℤ} (hnow : 0 ≤ now ∧ now ≤ kMax)
    {services : Services} {workingState : CycleWorkingState}
    {store : WorldStateStore} {expectedVersion : SnapshotVersion} {cycleCloseTime : SimTime}
    {moves : List Move} {run : RunRecord} {c : SignalLifecycle}
    (h : Completes providers
      (init firstSequence now services workingState store expectedVersion cycleCloseTime) moves
      run c)
    (hmoves : ∀ m ∈ moves, m.isChange = false) (hcommitted : c.runtime.committed = true) :
    Conserved services store c run := by
  obtain ⟨-, -, ht, ⟨hsent, hreceived, hstored⟩, hfinished, harrived, hfinalized⟩ :=
    h.invariant (P := fun c => Sent services c ∧ c.Received ∧ Stored store c)
      (A := fun m => m.isChange = false)
      (fun c m c' hsound hw ht hP hm hok hstep => ⟨hP.1.step hsound hm hok hstep,
        hP.2.1.step hsound hm hok hstep, hP.2.2.step hsound hm hok hstep⟩)
      (System.sound_init firstSequence hnow)
      (wired_init firstSequence services workingState store expectedVersion cycleCloseTime)
      (tracked_init firstSequence services workingState store expectedVersion cycleCloseTime)
      ⟨⟨rfl, rfl, rfl, by simp [init], ⟨[], (List.append_nil _).symm, rfl⟩,
        [], (List.append_nil _).symm, rfl⟩,
        ⟨(fun _ h => by cases h), List.nodup_nil, (fun _ h => by cases h)⟩,
        ⟨fun _ => rfl, (fun h => by cases h)⟩⟩
      (List.forall_mem_append.mpr ⟨hmoves, List.forall_mem_singleton.mpr rfl⟩)
  obtain ⟨queries, hqueries, hqueried⟩ := hsent.queries
  refine
    { sessions := by rw [hsent.started, hfinished]
      transmissionIds := hsent.ids
      transmissionIdsTaken := hsent.taken
      encodes := hsent.encodes
      pairs := hsent.nodup_pairs
      queries := ⟨queries, hqueries, by rw [hqueried]; exact hsent.produced_perm⟩
      arrivals := (harrived.map pair).trans hsent.produced_perm
      returned := h.returned hnow rfl
      receptions := ?_
      receptionIds := hreceived.ids
      ledger := (ht.closed hcommitted).1
      version := hstored.after hcommitted }
  have hresults := ht.results.map pair
  rw [hfinished, List.map_map] at hresults
  refine (List.Perm.of_eq ?_).trans
    ((hresults.trans (hfinalized.map pair)).trans hsent.produced_perm)
  exact List.map_congr_left fun session hsession => hreceived.provenance session hsession

theorem sends_conserved_pair :
    ∃ run c, Completes (ReceiverProcessor.bandProviders 1000 100) pairInit pairMoves run c ∧
      Conserved CycleSignalRuntime.freshServices
        (.create ReceiverProcessor.pairWorkingState.baseSnapshot) c run := by
  obtain ⟨run, c, h, hcommitted, -⟩ := pairMoves_completes
  exact ⟨run, c, h, sends_conserved (by decide) h (by simp [pairMoves, Move.isChange])
    hcommitted⟩

end Ns3Factory.SignalLifecycle
