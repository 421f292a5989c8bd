import Ns3Factory.ReceiverAdmission

/-!
A cycle can always be closed.

What the transmit path returns ends with the cycle, so the ledger has nothing left at the
close; every node can be projected there, since no update was later; and the projected nodes
are those of the snapshot that is still current, which is what the commit asks for.
-/

namespace Ns3Factory.CycleSignalRuntime

open Transition

variable {providers : Providers}

section

variable [DoubleArithmetic]

/-- The sessions a call returns. -/
def returnedBy (providers : Providers) (r : CycleSignalRuntime) :
    HandlerCall → List TransmissionSession
  | .txStart eventTime request =>
    match (r.handleTxStart providers eventTime request).1 with
    | .ok session => [session]
    | .error _ => []
  | _ => []

/-- The sessions the runtime returns over a sequence of calls. -/
def returned (providers : Providers) (r : CycleSignalRuntime) :
    List HandlerCall → List TransmissionSession
  | [] => []
  | c :: calls => returnedBy providers r c ++ returned providers (call providers r c).2 calls

/-- The cycle follows the last committed one, and ends after its start and its updates. -/
structure WellFormed (workingState : CycleWorkingState) (store : WorldStateStore)
    (expectedVersion : SnapshotVersion) (cycleCloseTime : SimTime) : Prop where
  base : workingState.baseSnapshot = store.currentSnapshot
  expected : expectedVersion = workingState.baseSnapshot.version
  room : expectedVersion.value.val < 2 ^ 64 - 1
  cycle : ∀ lastCycle, store.lastCommittedCycleId = some lastCycle →
    lastCycle < workingState.cycleId
  close : workingState.cycleStartedAt ≤ cycleCloseTime
  nonneg : 0 ≤ workingState.baseSnapshot.committedAt.nanoseconds
  updates : ∀ nodeId state anchorTime, workingState.anchor nodeId = some (state, anchorTime) →
    anchorTime ≤ cycleCloseTime

omit [DoubleArithmetic] in
lemma wellFormed_create {store : WorldStateStore} {cycleId : PlanningCycleId}
    {cycleStartedAt cycleCloseTime : SimTime} {w : CycleWorkingState}
    (hcreate : CycleWorkingState.create store.currentSnapshot cycleId cycleStartedAt = .ok w)
    (hroom : store.currentSnapshot.version.value.val < 2 ^ 64 - 1)
    (hcycle : ∀ lastCycle, store.lastCommittedCycleId = some lastCycle → lastCycle < cycleId)
    (hclose : cycleStartedAt ≤ cycleCloseTime)
    (h0 : 0 ≤ store.currentSnapshot.committedAt.nanoseconds) :
    WellFormed w store store.currentSnapshot.version cycleCloseTime := by
  have hle := w.committed_le
  have hanchor := CycleWorkingState.anchor_create hcreate
  unfold CycleWorkingState.create at hcreate
  split_ifs at hcreate
  cases hcreate
  refine ⟨rfl, rfl, hroom, hcycle, hclose, h0, fun nodeId state anchorTime ha => ?_⟩
  rw [(hanchor nodeId).2.2] at ha
  obtain ⟨baseNode, -, heq⟩ := Option.map_eq_some_iff.mp ha
  cases heq
  exact hle.trans hclose

lemma WellFormed.commits {workingState : CycleWorkingState} {store : WorldStateStore}
    {expectedVersion : SnapshotVersion} {cycleCloseTime : SimTime}
    (h : WellFormed workingState store expectedVersion cycleCloseTime) :
    ∃ delta next, workingState.finalizeDeltaSet cycleCloseTime = .ok delta ∧
      CommitService.commitCycle store expectedVersion delta = (.ok (), next) := by
  have hproject : ∀ baseNode ∈ workingState.baseSnapshot.nodes, ∃ projected,
      workingState.projectNodeState baseNode.nodeId cycleCloseTime = .ok projected := by
    intro baseNode hmem
    rcases CycleWorkingState.projectNodeState_cases h.nonneg baseNode.nodeId cycleCloseTime with
      ⟨-, -, projected, -, -, -, hok, -⟩ | ⟨-, hnot⟩
    · exact ⟨projected, hok⟩
    · have hnode := WorldSnapshot.findNode_eq_some.mpr ⟨hmem, rfl⟩
      obtain ⟨⟨state, anchorTime⟩, ha⟩ : ∃ a, workingState.anchor baseNode.nodeId = some a := by
        rw [CycleWorkingState.anchor, hnode]
        exact ⟨_, rfl⟩
      exact absurd ⟨h.close, state, anchorTime, ha, h.updates _ _ _ ha⟩ hnot
  obtain ⟨delta, hdelta⟩ := CycleWorkingState.exists_finalizeDeltaSet h.close hproject
  obtain ⟨-, hcycle, hversion, hat, hproj⟩ := CycleWorkingState.finalizeDeltaSet_ok.mp hdelta
  have haccepts : CommitService.Accepts store expectedVersion delta := by
    refine ⟨?_, ?_, ?_, ?_, ?_, ?_⟩
    · rw [h.expected, h.base]
    · rw [hversion, h.base]
    · rw [← h.base, ← h.expected]; exact h.room
    · rw [← h.base, hat]; exact workingState.committed_le.trans h.close
    · rw [hcycle]; exact h.cycle
    · rw [← h.base, ← hproj.ids, List.map_map]
      rfl
  rcases CommitService.commitCycle_cases store expectedVersion delta with
    ⟨-, next, hok, -⟩ | ⟨hnot, -⟩
  · exact ⟨delta, next, hdelta, hok⟩
  · exact absurd haccepts hnot

/-- The cycle is open and well formed, and no signal in the ledger outlasts it. -/
structure Ready (r : CycleSignalRuntime) : Prop where
  wellFormed : WellFormed r.workingState r.store r.expectedVersion r.cycleCloseTime
  ends : ∀ signal ∈ r.ledger.signals, signal.lastEffectEndAt ≤ r.cycleCloseTime
  isOpen : r.committed = false

lemma Ready.close {r : CycleSignalRuntime} (h : Ready r) :
    (r.handleCycleClose r.cycleCloseTime).1 = .ok () := by
  obtain ⟨delta, next, hdelta, hcommit⟩ := h.wellFormed.commits
  have hready := InFlightSignalLedger.validateReadyForCycleClose_ok.mpr h.ends
  simp [handleCycleClose, h.isOpen, hready, hdelta, hcommit]

lemma Ready.call {r : CycleSignalRuntime} (h : Ready r) {c : HandlerCall}
    (hc : ∀ closeTime, c ≠ .cycleClose closeTime)
    (harrival : ∀ signal ∈ acceptedSignals [(c, (CycleSignalRuntime.call providers r c).1)],
      signal.lastEffectEndAt ≤ r.cycleCloseTime)
    (hupdate : ∀ nodeId velocity effectiveAt, c = .updateVelocity nodeId velocity effectiveAt →
      (CycleSignalRuntime.call providers r c).1 = .ok () → effectiveAt ≤ r.cycleCloseTime) :
    Ready (CycleSignalRuntime.call providers r c).2 := by
  obtain ⟨status, next, hcall, heffect⟩ := call_effect providers r c
  rw [hcall] at harrival hupdate ⊢
  cases heffect with
  | closed => exact absurd rfl (hc _)
  | arrived signal ledger hnew hledger =>
    refine ⟨h.wellFormed, fun s hs => ?_, h.isOpen⟩
    rcases List.mem_cons.mp (hledger.mem_iff.mp hs) with rfl | hs
    · exact harrival s (by simp [acceptedSignals])
    · exact h.ends s hs
  | updated nodeId velocity effectiveAt status workingState hstep =>
    refine ⟨?_, h.ends, h.isOpen⟩
    rcases r.workingState.updateVelocity_cases nodeId velocity effectiveAt with
      ⟨projected, w, -, hok, hbase, hcycle, hstarted, hself, hother⟩ | ⟨e, -, herr⟩
    · rw [hok] at hstep
      cases hstep
      have hw := h.wellFormed
      refine ⟨hbase.trans hw.base, by rw [hbase]; exact hw.expected, hw.room,
        by rw [hcycle]; exact hw.cycle, by rw [hstarted]; exact hw.close,
        by rw [hbase]; exact hw.nonneg, fun id state anchorTime ha => ?_⟩
      by_cases hid : id = nodeId
      · rw [hid, hself] at ha
        cases ha
        exact hupdate nodeId velocity effectiveAt rfl rfl
      · rw [hother id hid] at ha
        exact hw.updates id state anchorTime ha
    · rw [herr] at hstep
      cases hstep
      exact h.wellFormed
  | txStart | finalized | refused => exact ⟨h.wellFormed, h.ends, h.isOpen⟩

lemma call_cycleCloseTime (providers : Providers) (r : CycleSignalRuntime) (c : HandlerCall) :
    (call providers r c).2.cycleCloseTime = r.cycleCloseTime := by
  obtain ⟨status, next, hcall, heffect⟩ := call_effect providers r c
  rw [hcall]
  cases heffect <;> rfl

lemma returned_ends {r : CycleSignalRuntime} {calls : List HandlerCall}
    {session : TransmissionSession} (h : session ∈ returned providers r calls) :
    ∀ signal ∈ session.receivedSignals, signal.lastEffectEndAt ≤ r.cycleCloseTime := by
  induction calls generalizing r with
  | nil => cases h
  | cons c calls ih =>
    rcases List.mem_append.mp h with h | h
    · cases c with
      | txStart eventTime request =>
        simp only [returnedBy] at h
        rcases hstart : r.handleTxStart providers eventTime request with ⟨e | session', next⟩
        · rw [hstart] at h; cases h
        · rw [hstart] at h
          obtain rfl := List.mem_singleton.mp h
          exact (handleTxStart_ok hstart).2.2.1
      | signalArrival | sessionFinalize | cycleClose | updateVelocity => cases h
    · rw [← call_cycleCloseTime providers r c]
      exact ih h

lemma Ready.exec {r : CycleSignalRuntime} (h : Ready r) {calls : List HandlerCall}
    (hclose : ∀ closeTime, .cycleClose closeTime ∉ calls)
    (harrival : ∀ signal ∈ acceptedSignals (exec (CycleSignalRuntime.call providers) r calls).1,
      signal.lastEffectEndAt ≤ r.cycleCloseTime)
    (hupdate : ∀ nodeId velocity effectiveAt,
      (.updateVelocity nodeId velocity effectiveAt, .ok ()) ∈
        (exec (CycleSignalRuntime.call providers) r calls).1 → effectiveAt ≤ r.cycleCloseTime) :
    Ready (exec (CycleSignalRuntime.call providers) r calls).2 := by
  induction calls generalizing r with
  | nil => exact h
  | cons c calls ih =>
    simp only [exec_cons] at harrival hupdate ⊢
    rw [← List.singleton_append, acceptedSignals_append] at harrival
    refine ih (h.call (fun closeTime heq => hclose closeTime (by simp [heq]))
      (fun signal hmem => harrival signal (List.mem_append_left _ hmem)) ?_)
      (fun closeTime hmem => hclose closeTime (by simp [hmem])) ?_ ?_
    · rintro nodeId velocity effectiveAt rfl hok
      exact hupdate nodeId velocity effectiveAt (by rw [← hok]; simp)
    · rw [call_cycleCloseTime]
      exact fun signal hmem => harrival signal (List.mem_append_right _ hmem)
    · rw [call_cycleCloseTime]
      exact fun nodeId velocity effectiveAt hmem =>
        hupdate nodeId velocity effectiveAt (List.mem_cons_of_mem _ hmem)

/-- **A well-formed cycle can always be closed.** After any calls but closes, of which the
arrivals are of signals the runtime has sent and the updates are by the close time, the close
succeeds, clears the ledger, and commits every node as projected to the close time. -/
theorem handleCycleClose_of_wellFormed (providers : Providers) (services : Services)
    {workingState : CycleWorkingState} {store : WorldStateStore}
    (results : ReceptionResultAccumulator) {expectedVersion : SnapshotVersion}
    {cycleCloseTime : SimTime}
    (h : WellFormed workingState store expectedVersion cycleCloseTime)
    (calls : List HandlerCall) :
    let r := create services workingState store .empty results expectedVersion cycleCloseTime
    let outcome := exec (call providers) r calls
    (∀ closeTime, .cycleClose closeTime ∉ calls) →
    (∀ signal ∈ acceptedSignals outcome.1, ∃ session ∈ returned providers r calls,
      signal ∈ session.receivedSignals) →
    (∀ nodeId velocity effectiveAt,
      (.updateVelocity nodeId velocity effectiveAt, .ok ()) ∈ outcome.1 →
        effectiveAt ≤ cycleCloseTime) →
    let closing := outcome.2.handleCycleClose cycleCloseTime
    closing.1 = .ok () ∧ closing.2.ledger.signals = [] ∧
      closing.2.store.currentSnapshot.committedAt = cycleCloseTime ∧
      outcome.2.workingState.Projects cycleCloseTime
        closing.2.store.currentSnapshot.nodes := by
  intro r outcome hclose hsent hupdate closing
  have hready : Ready r := ⟨h, by simp [r, create, InFlightSignalLedger.empty], rfl⟩
  have hout : Ready outcome.2 := by
    refine hready.exec hclose (fun signal hsignal => ?_) hupdate
    obtain ⟨session, hsession, hmem⟩ := hsent signal hsignal
    exact returned_ends hsession signal hmem
  have htime : outcome.2.cycleCloseTime = cycleCloseTime :=
    exec_invariant (call providers) (P := fun _ s => s.cycleCloseTime = cycleCloseTime)
      (A := fun _ => True) (fun _ s c hs _ => (call_cycleCloseTime providers s c).trans hs) rfl
      (fun _ _ => trivial)
  have hok : closing.1 = .ok () := by
    have := hout.close
    rwa [htime] at this
  refine ⟨hok, ?_⟩
  rcases outcome.2.handleCycleClose_cases cycleCloseTime with
    ⟨delta, next, -, -, -, hdelta, hcommit, hclosed⟩ | ⟨e, herr⟩
  · obtain ⟨-, -, -, hat, hproj⟩ := CycleWorkingState.finalizeDeltaSet_ok.mp hdelta
    have hnext := (CommitService.committed_of_ok hcommit).2
    have hcl : closing = _ := hclosed
    rw [hcl]
    exact ⟨rfl, hnext.committedAt.trans hat, by rw [hnext.nodes]; exact hproj⟩
  · rw [show closing = _ from herr] at hok
    cases hok

end

open ReceiverProcessor

/-- Providers for the emission of the signal of four nanoseconds. -/
def earlyProviders : Providers :=
  { bandProviders 1000 100 with
    encode := fun _ packet request =>
      TxEmission.create request.transmissionId packet.packetId request.senderNodeId
        request.startedAt (.ofUInt32 4) 1000 100 0 }

/-- The signal is sent and arrives, and its receiver moves off. -/
def sentCalls : List HandlerCall :=
  [.txStart (.ofUInt32 0) pairRequest, .signalArrival (.ofUInt32 1) earlySignal,
    .updateVelocity ⟨1⟩ ⟨1, 0, 0⟩ (.ofUInt32 3)]

theorem handleCycleClose_pair :
    let outcome := exec (call earlyProviders) pairCycle sentCalls
    let closing := outcome.2.handleCycleClose (.ofUInt32 9)
    closing.1 = .ok () ∧ closing.2.ledger.signals = [] ∧
      closing.2.store.currentSnapshot.committedAt = .ofUInt32 9 ∧
      outcome.2.workingState.Projects (.ofUInt32 9)
        closing.2.store.currentSnapshot.nodes := by
  have hcreate : CycleWorkingState.create pairWorkingState.baseSnapshot ⟨0⟩ (.ofUInt32 0) =
      .ok pairWorkingState := dif_neg (by decide)
  have hwell : WellFormed pairWorkingState (.create pairWorkingState.baseSnapshot) ⟨0⟩
      (.ofUInt32 9) :=
    wellFormed_create hcreate (by decide)
      (by simp [WorldStateStore.create]) (by decide) (by decide)
  have hsignals : acceptedSignals (exec (call earlyProviders) pairCycle sentCalls).1 =
      [earlySignal] := by decide +kernel
  have hsessions : (returned earlyProviders pairCycle sentCalls).map
      TransmissionSession.receivedSignals = [[earlySignal]] := by decide +kernel
  refine handleCycleClose_of_wellFormed earlyProviders freshServices .empty hwell
    sentCalls ?_ ?_ ?_
  · simp [sentCalls]
  · intro signal hsignal
    rw [List.mem_singleton.mp (hsignals ▸ hsignal : signal ∈ [earlySignal])]
    have hmem : [earlySignal] ∈ (returned earlyProviders pairCycle sentCalls).map
        TransmissionSession.receivedSignals := by rw [hsessions]; simp
    obtain ⟨session, hsession, heq⟩ := List.mem_map.mp hmem
    exact ⟨session, hsession, by rw [heq]; simp⟩
  · intro nodeId velocity effectiveAt hmem
    have hcall : HandlerCall.updateVelocity nodeId velocity effectiveAt ∈
        (exec (call earlyProviders) pairCycle sentCalls).1.map Prod.fst :=
      List.mem_map.mpr ⟨_, hmem, rfl⟩
    rw [exec_calls] at hcall
    simp only [sentCalls, List.mem_cons, List.not_mem_nil, or_false, reduceCtorEq, false_or,
      HandlerCall.updateVelocity.injEq] at hcall
    rw [hcall.2.2]
    decide

end Ns3Factory.CycleSignalRuntime
