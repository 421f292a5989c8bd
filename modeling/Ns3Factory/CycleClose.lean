import Ns3Factory.CycleSignalRuntime

/-!
What the close of a cycle guarantees about its signals, and what can still happen after it.

The close looks at the end times of the signals in the ledger only: each has as many sessions
as it was finalized with success, which need not be one. After the close the handlers do not
ask whether the cycle is committed, so a late arrival is still taken into the ledger. Only the
close itself asks: it happens once, whatever is committed to the store by others.
-/

namespace Ns3Factory

open StdAlgorithm Transition
open scoped List

namespace CycleSignalRuntime

variable {providers : Providers}

/-- The signals whose arrival was accepted. -/
def acceptedSignals (trace : List (HandlerCall × Status)) : List ReceivedSignal :=
  trace.filterMap fun
    | (.signalArrival _ signal, .ok _) => some signal
    | _ => none

/-- The signals of the successful finalizations, one for each. -/
def finalizedSignals (trace : List (HandlerCall × Status)) : List ReceivedSignal :=
  trace.filterMap fun
    | (.sessionFinalize _ signal, .ok _) => some signal
    | _ => none

lemma acceptedSignals_append (trace trace' : List (HandlerCall × Status)) :
    acceptedSignals (trace ++ trace') = acceptedSignals trace ++ acceptedSignals trace' :=
  List.filterMap_append ..

lemma finalizedSignals_append (trace trace' : List (HandlerCall × Status)) :
    finalizedSignals (trace ++ trace') = finalizedSignals trace ++ finalizedSignals trace' :=
  List.filterMap_append ..

/-- Until the close the ledger holds what was accepted; the results hold a session for each
successful finalization. -/
structure Accounted (trace : List (HandlerCall × Status)) (r : CycleSignalRuntime) : Prop where
  ledger : r.committed = false → r.ledger.signals.Perm (acceptedSignals trace)
  results : (r.results.sessions.map ReceptionSession.desiredSignal).Perm
    (finalizedSignals trace)

lemma Accounted.keep {trace : List (HandlerCall × Status)} {r next : CycleSignalRuntime}
    (h : Accounted trace r) {p : HandlerCall × Status} (haccepted : acceptedSignals [p] = [])
    (hfinalized : finalizedSignals [p] = [])
    (hopen : next.committed = false → r.committed = false ∧ next.ledger = r.ledger)
    (hresults : next.results = r.results) : Accounted (trace ++ [p]) next := by
  refine ⟨fun hc => ?_, ?_⟩
  · obtain ⟨hc', hledger⟩ := hopen hc
    rw [acceptedSignals_append, haccepted, List.append_nil, hledger]
    exact h.ledger hc'
  · rw [finalizedSignals_append, hfinalized, List.append_nil, hresults]
    exact h.results

section

variable [DoubleArithmetic]

lemma Accounted.call {trace : List (HandlerCall × Status)} {r : CycleSignalRuntime}
    (h : Accounted trace r) (c : HandlerCall) :
    Accounted (trace ++ [(c, (CycleSignalRuntime.call providers r c).1)])
      (CycleSignalRuntime.call providers r c).2 := by
  obtain ⟨status, next, hcall, heffect⟩ := call_effect providers r c
  rw [hcall]
  cases heffect with
  | txStart eventTime request status services =>
    exact h.keep rfl rfl (fun hc => ⟨hc, rfl⟩) rfl
  | arrived signal ledger hnew hledger =>
    refine ⟨fun hc => ?_, ?_⟩
    · rw [acceptedSignals_append]
      calc ledger.signals
          _ ~ signal :: r.ledger.signals := hledger
          _ ~ signal :: acceptedSignals trace := (h.ledger hc).cons signal
          _ ~ acceptedSignals trace ++ [signal] := (List.perm_append_singleton _ _).symm
    · rw [finalizedSignals_append]
      exact h.results.trans (List.Perm.of_eq (List.append_nil _).symm)
  | finalized desiredSignal session services hproc =>
    refine ⟨fun hc => ?_, ?_⟩
    · rw [acceptedSignals_append]
      exact (h.ledger hc).trans (List.Perm.of_eq (List.append_nil _).symm)
    · rw [finalizedSignals_append]
      have hp := r.results.append_desired session
      rw [hproc.desired] at hp
      exact hp.trans (h.results.append_right [desiredSignal])
  | closed delta store hopen hends hdelta hcommit =>
    exact h.keep rfl rfl (fun hc => by cases hc) rfl
  | updated nodeId velocity effectiveAt status workingState hupdate =>
    exact h.keep rfl rfl (fun hc => ⟨hc, rfl⟩) rfl
  | refused c e services =>
    exact h.keep (by cases c <;> rfl) (by cases c <;> rfl) (fun hc => ⟨hc, rfl⟩) rfl

lemma accounted_exec (providers : Providers) {r : CycleSignalRuntime}
    (hledger : r.ledger = .empty) (hresults : r.results = .empty) (calls : List HandlerCall) :
    Accounted (exec (CycleSignalRuntime.call providers) r calls).1
      (exec (CycleSignalRuntime.call providers) r calls).2 := by
  have hinit : Accounted [] r := ⟨by simp [hledger, acceptedSignals],
    by simp [hresults, finalizedSignals]⟩
  exact exec_invariant (CycleSignalRuntime.call providers)
    (P := fun done s => Accounted done s) (A := fun _ => True)
    (fun _ _ c h _ => h.call c) hinit (fun _ _ => trivial)

/-- The sessions of a signal. -/
def sessionCount (r : CycleSignalRuntime) (signal : ReceivedSignal) : ℕ :=
  (r.results.sessions.map ReceptionSession.desiredSignal).count signal

/-- **What a close guarantees about receptions.** When it succeeds, every accepted signal has
ended by then, and has exactly as many sessions as it was finalized with success. -/
theorem handleCycleClose_sessions (providers : Providers) (services : Services)
    (workingState : CycleWorkingState) (store : WorldStateStore)
    (expectedVersion : SnapshotVersion) (cycleCloseTime : SimTime) (calls : List HandlerCall)
    (closeTime : SimTime) :
    let outcome := exec (call providers) (create services workingState store .empty .empty
      expectedVersion cycleCloseTime) calls
    (outcome.2.handleCycleClose closeTime).1 = .ok () →
    ∀ signal ∈ acceptedSignals outcome.1,
      signal.lastEffectEndAt ≤ closeTime ∧
      sessionCount (outcome.2.handleCycleClose closeTime).2 signal =
        (finalizedSignals outcome.1).count signal := by
  intro outcome hclose signal hsignal
  have hacc : Accounted outcome.1 outcome.2 := accounted_exec providers rfl rfl calls
  rcases outcome.2.handleCycleClose_cases closeTime with
    ⟨delta, next, hopen, -, hends, -, -, hok⟩ | ⟨e, herr⟩
  · rw [hok]
    exact ⟨hends signal ((hacc.ledger hopen).mem_iff.mpr hsignal), hacc.results.count_eq signal⟩
  · rw [herr] at hclose
    cases hclose

end

/-- A signal of four nanoseconds that arrives at time 1. -/
def earlySignal : ReceivedSignal where
  emission :=
    { transmissionId := ⟨0⟩, packetId := ⟨0⟩, senderNodeId := ⟨0⟩, startedAt := .ofUInt32 0
      duration := .ofUInt32 4, centerFrequencyHz := 1000, bandwidthHz := 100
      sourceLevelDbRe1upaAt1m := 0
      duration_nonneg := by decide
      centerFrequency_pos := by norm_num
      bandwidth_pos := by norm_num }
  channelResponse :=
    { transmissionId := ⟨0⟩, receiverNodeId := ⟨1⟩, aggregateTransmissionLossDb := 0
      firstArrivalDelay := .ofUInt32 1, paths := []
      firstArrivalDelay_nonneg := by decide
      canonical := List.Pairwise.nil
      zeroExcessDelay := by simp }
  identity := rfl
  firstArrival := by decide
  lastEffectEnd := by decide

/-- The same signal of another transmission. -/
def twinSignal : ReceivedSignal where
  emission := { earlySignal.emission with transmissionId := ⟨1⟩ }
  channelResponse := { earlySignal.channelResponse with transmissionId := ⟨1⟩ }
  identity := rfl
  firstArrival := by decide
  lastEffectEnd := by decide

/-- A working state over a snapshot without nodes. -/
def emptyWorkingState : CycleWorkingState :=
  .started ⟨⟨0⟩, .ofUInt32 0, [], List.Pairwise.nil⟩ ⟨0⟩ (.ofUInt32 0) (by decide)

/-- Providers that answer nothing. -/
def silentProviders : Providers where
  encode _ _ _ := .error ⟨.kUnavailable, "encode"⟩
  queryChannel _ _ := .error ⟨.kUnavailable, "channel"⟩
  queryNoise _ _ := .error ⟨.kUnavailable, "noise"⟩
  decode _ _ := .error ⟨.kUnavailable, "decode"⟩

/-- No calls yet. -/
def freshServices : Services := ⟨.create ⟨0⟩ (some ⟨0⟩), ⟨[], [], [], []⟩⟩

/-- A cycle without nodes that closes at time 9. -/
def emptyCycle : CycleSignalRuntime :=
  create freshServices emptyWorkingState (.create emptyWorkingState.baseSnapshot) .empty .empty
    ⟨0⟩ (.ofUInt32 9)

/-- The arrival of the signal. -/
def arrival : HandlerCall := .signalArrival (.ofUInt32 1) earlySignal

lemma emptyCycle_arrival :
    let outcome := exec (call silentProviders) emptyCycle [arrival]
    let closed := outcome.2.handleCycleClose (.ofUInt32 9)
    closed.1 = .ok () ∧ earlySignal ∈ acceptedSignals outcome.1 ∧
      sessionCount closed.2 earlySignal = 0 := by
  decide +kernel

end CycleSignalRuntime

namespace ReceiverProcessor

/-- A node at rest that can send and receive. -/
def restingNode (nodeId : NodeId) : NodeCommittedState :=
  ⟨nodeId, ⟨true, true, .kHalfDuplex⟩, ⟨⟨0, 0, 0⟩, ⟨0, 0, 0⟩⟩⟩

/-- The nodes 0 and 1, at rest since time 0. -/
def pairWorkingState : CycleWorkingState :=
  .started ⟨⟨0⟩, .ofUInt32 0, [restingNode ⟨0⟩, restingNode ⟨1⟩],
    List.pairwise_pair.mpr (by decide)⟩ ⟨0⟩ (.ofUInt32 0) (by decide)

/-- A cycle of these nodes that closes at time 9. -/
def pairCycle : CycleSignalRuntime :=
  .create CycleSignalRuntime.freshServices pairWorkingState
    (.create pairWorkingState.baseSnapshot) .empty .empty ⟨0⟩ (.ofUInt32 9)

/-- Providers for emissions of one nanosecond in a band, which arrive after another one. -/
def bandProviders (centerFrequencyHz bandwidthHz : Double) : Providers where
  encode _ packet request :=
    TxEmission.create request.transmissionId packet.packetId request.senderNodeId
      request.startedAt (.ofUInt32 1) centerFrequencyHz bandwidthHz 0
  queryChannel _ query :=
    ChannelFieldResponse.create query.transmissionId query.receiverNodeId 0 (.ofUInt32 1) []
  queryNoise _ query :=
    NoiseObservation.create query.receiverNodeId query.observedFrom query.observedUntil
      query.lowerFrequencyHz query.upperFrequencyHz 0
  decode _ request :=
    .ok ⟨request.receiverWindow.desiredSignal.transmissionId,
      request.receiverWindow.desiredSignal.emission.packetId,
      request.receiverWindow.receiverNodeId, .kDecoded⟩

end ReceiverProcessor

namespace CycleSignalRuntime

open ReceiverProcessor

/-- Two signals arrive together, and the first one is finalized. -/
def oneFinalized : List HandlerCall :=
  [arrival, .signalArrival (.ofUInt32 1) twinSignal, .sessionFinalize (.ofUInt32 5) earlySignal]

theorem handleCycleClose_sessions_oneFinalized :
    let outcome := exec (call (bandProviders 1000 100)) pairCycle oneFinalized
    let closed := (outcome.2.handleCycleClose (.ofUInt32 9)).2
    (sessionCount closed earlySignal = 1 ∧ sessionCount closed twinSignal = 0) ∧
    ∀ signal ∈ [earlySignal, twinSignal],
      signal.lastEffectEndAt ≤ .ofUInt32 9 ∧
        sessionCount closed signal = (finalizedSignals outcome.1).count signal := by
  intro outcome closed
  have hcounts : sessionCount closed earlySignal = 1 ∧ sessionCount closed twinSignal = 0 := by
    decide +kernel
  have hclose : (outcome.2.handleCycleClose (.ofUInt32 9)).1 = .ok () := by decide +kernel
  have haccepted : acceptedSignals outcome.1 = [earlySignal, twinSignal] := by decide +kernel
  refine ⟨hcounts, fun signal hsignal => ?_⟩
  exact handleCycleClose_sessions (bandProviders 1000 100) freshServices pairWorkingState _ ⟨0⟩ _
    oneFinalized (.ofUInt32 9) hclose signal (haccepted ▸ hsignal)

/-- A cycle closes although an accepted signal was never finalized. -/
theorem close_without_finalize :
    ¬ ∀ (providers : Providers) (services : Services) (workingState : CycleWorkingState)
      (store : WorldStateStore) (expectedVersion : SnapshotVersion) (cycleCloseTime : SimTime)
      (calls : List HandlerCall) (closeTime : SimTime),
      let outcome := exec (call providers) (create services workingState store .empty .empty
        expectedVersion cycleCloseTime) calls
      (outcome.2.handleCycleClose closeTime).1 = .ok () →
      ∀ signal ∈ acceptedSignals outcome.1,
        sessionCount (outcome.2.handleCycleClose closeTime).2 signal = 1 := by
  intro hall
  have hone := hall silentProviders freshServices emptyWorkingState
    (.create emptyWorkingState.baseSnapshot) ⟨0⟩ (.ofUInt32 9) [arrival] (.ofUInt32 9)
    emptyCycle_arrival.1 earlySignal emptyCycle_arrival.2.1
  have hzero := emptyCycle_arrival.2.2
  exact absurd (hzero.symm.trans hone) (by decide)

/-! ### After the close -/

section

variable [DoubleArithmetic]

/-- After a successful close the ledger stays empty and no session is appended. -/
def ClosedStays (providers : Providers) (r : CycleSignalRuntime) (calls : List HandlerCall) :
    Prop :=
  ∀ before closeTime after, before ++ .cycleClose closeTime :: after <+: calls →
    let closing := (exec (call providers) r before).2.handleCycleClose closeTime
    closing.1 = .ok () →
    (exec (call providers) closing.2 after).2.ledger.signals = [] ∧
      (exec (call providers) closing.2 after).2.results = closing.2.results

/-- No call delivers a signal at its first arrival. -/
def NoArrival (calls : List HandlerCall) : Prop :=
  ∀ eventTime signal, .signalArrival eventTime signal ∈ calls →
    eventTime ≠ signal.firstArrivalAt

/-- The cycle is closed, with these results. -/
structure Closed (results : ReceptionResultAccumulator) (r : CycleSignalRuntime) : Prop where
  committed : r.committed = true
  ledger : r.ledger.signals = []
  results : r.results = results

lemma Closed.call {results : ReceptionResultAccumulator} {r : CycleSignalRuntime}
    (h : Closed results r) {c : HandlerCall} (hc : NoArrival [c]) :
    Closed results (CycleSignalRuntime.call providers r c).2 := by
  obtain ⟨status, next, hcall, heffect⟩ := call_effect providers r c
  rw [hcall]
  cases heffect with
  | arrived signal ledger hnew hledger => exact absurd rfl (hc _ signal (by simp))
  | finalized desiredSignal session services hproc =>
    have hmem := hproc.inLedger
    rw [h.ledger] at hmem
    cases hmem
  | closed delta store hopen hends hdelta hcommit =>
    rw [h.committed] at hopen
    cases hopen
  | txStart | updated | refused => exact ⟨h.committed, h.ledger, h.results⟩

lemma Closed.exec (providers : Providers) {results : ReceptionResultAccumulator}
    {r : CycleSignalRuntime} (h : Closed results r) {calls : List HandlerCall}
    (hc : NoArrival calls) :
    Closed results (Transition.exec (CycleSignalRuntime.call providers) r calls).2 :=
  exec_invariant (CycleSignalRuntime.call providers) (P := fun _ s => Closed results s)
    (A := fun c => NoArrival [c]) (fun _ _ _ h hc => h.call hc) h
    (fun c hmem eventTime signal heq => by
      rw [List.mem_singleton] at heq
      exact hc eventTime signal (heq ▸ hmem))

lemma closed_of_close {r : CycleSignalRuntime} {closeTime : SimTime}
    (h : (r.handleCycleClose closeTime).1 = .ok ()) :
    Closed r.results (r.handleCycleClose closeTime).2 := by
  rcases r.handleCycleClose_cases closeTime with ⟨delta, store, -, -, -, -, -, hok⟩ | ⟨e, herr⟩
  · rw [hok]; exact ⟨rfl, rfl, rfl⟩
  · rw [herr] at h; cases h

/-- **A closed cycle stays closed, exactly as long as no signal arrives at its time.** -/
theorem closedStays_iff (providers : Providers) (r : CycleSignalRuntime)
    (calls : List HandlerCall) :
    ClosedStays providers r calls ↔
      ∀ before closeTime after, calls = before ++ .cycleClose closeTime :: after →
        ((exec (call providers) r before).2.handleCycleClose closeTime).1 = .ok () →
        NoArrival after := by
  constructor
  · rintro hstays before closeTime after rfl hclose eventTime signal harrival heq
    obtain ⟨mid, rest, rfl⟩ := List.append_of_mem harrival
    obtain ⟨hempty, -⟩ := hstays before closeTime mid ⟨.signalArrival eventTime signal :: rest,
      by simp⟩ hclose
    obtain ⟨hafter, -⟩ := hstays before closeTime (mid ++ [.signalArrival eventTime signal])
      ⟨rest, by simp⟩ hclose
    -- nothing in the empty ledger stands against the arrival
    rw [exec_append] at hafter
    simp only [exec_cons, exec_nil, CycleSignalRuntime.call] at hafter
    rcases handleSignalArrival_cases (exec (call providers)
        ((exec (call providers) r before).2.handleCycleClose closeTime).2 mid).2 eventTime
        signal with ⟨-, -, ledger, hok, hp⟩ | ⟨hnot, -⟩
    · rw [hok] at hafter
      rw [hafter] at hp
      simp at hp
    · exact hnot ⟨heq, by simp [hempty]⟩
  · intro hno before closeTime after hprefix closing hclose
    obtain ⟨rest, rfl⟩ := hprefix
    have hlater : NoArrival after := fun eventTime signal hmem =>
      hno before closeTime (after ++ rest) (by simp) hclose eventTime signal (by simp [hmem])
    have hclosed := (closed_of_close hclose).exec providers hlater
    refine ⟨hclosed.ledger, ?_⟩
    rw [hclosed.results]
    exact (closed_of_close hclose).results.symm

end

/-- The late arrival of a signal is accepted into the ledger of a closed cycle. -/
theorem late_arrival_accepted :
    ¬ ClosedStays silentProviders emptyCycle [.cycleClose (.ofUInt32 9), arrival] := by
  intro hstays
  have hclose : (emptyCycle.handleCycleClose (.ofUInt32 9)).1 = .ok () := by decide +kernel
  have hledger : (exec (call silentProviders)
      (emptyCycle.handleCycleClose (.ofUInt32 9)).2 [arrival]).2.ledger.signals =
        [earlySignal] := by decide +kernel
  have := (hstays [] (.ofUInt32 9) [arrival] (List.prefix_refl _) hclose).1
  exact absurd (hledger.symm.trans this) (by simp)

/-! ### The close happens once -/

/-- A call of the runtime, or a commit that someone else makes to its store. -/
inductive StoreEvent
  | handler (c : HandlerCall)
  | otherCommit (c : CommitService.Call)

section

variable [DoubleArithmetic]

def storeEvent (providers : Providers) (r : CycleSignalRuntime) :
    StoreEvent → Status × CycleSignalRuntime
  | .handler c => call providers r c
  | .otherCommit c =>
    let (status, store) := CommitService.commit r.store c
    (status, { r with store := store })

/-- The statuses the closes returned. -/
def closeStatuses (trace : List (StoreEvent × Status)) : List Status :=
  trace.filterMap fun
    | (.handler (.cycleClose _), status) => some status
    | _ => none

/-- What a close of a committed cycle returns. -/
def alreadyCommitted : Status :=
  .error ⟨.kAlreadyExists, "Planning cycle was already committed"⟩

/-- After a close that succeeded every close is rejected; the flag tells whether there was one. -/
structure ClosedOnce (trace : List (StoreEvent × Status)) (r : CycleSignalRuntime) : Prop where
  committed : .ok () ∈ closeStatuses trace → r.committed = true
  rejected : (closeStatuses trace).Pairwise fun earlier later =>
    earlier = .ok () → later = alreadyCommitted

omit [DoubleArithmetic] in
lemma ClosedOnce.keep {trace : List (StoreEvent × Status)} {r next : CycleSignalRuntime}
    (h : ClosedOnce trace r) {p : StoreEvent × Status} (hp : closeStatuses [p] = [])
    (hnext : next.committed = r.committed) : ClosedOnce (trace ++ [p]) next := by
  have happ : closeStatuses (trace ++ [p]) = closeStatuses trace := by
    rw [closeStatuses, List.filterMap_append]
    exact (congrArg _ hp).trans (List.append_nil _)
  exact ⟨by rw [happ, hnext]; exact h.committed, by rw [happ]; exact h.rejected⟩

lemma ClosedOnce.close {trace : List (StoreEvent × Status)} {r : CycleSignalRuntime}
    (h : ClosedOnce trace r) (closeTime : SimTime) :
    ClosedOnce (trace ++ [(.handler (.cycleClose closeTime), (r.handleCycleClose closeTime).1)])
      (r.handleCycleClose closeTime).2 := by
  have happ : ∀ status, closeStatuses (trace ++ [(.handler (.cycleClose closeTime), status)]) =
      closeStatuses trace ++ [status] := by
    intro status
    rw [closeStatuses, List.filterMap_append]
    rfl
  rcases hflag : r.committed with _ | _
  · -- no close has succeeded so far
    have hnone : ∀ status ∈ closeStatuses trace, status ≠ .ok () := fun status hmem heq => by
      rw [h.committed (heq ▸ hmem)] at hflag
      cases hflag
    refine ⟨?_, ?_⟩
    · rw [happ]
      intro hmem
      rcases List.mem_append.mp hmem with hmem | hmem
      · exact absurd rfl (hnone _ hmem)
      · exact (closed_of_close (List.mem_singleton.mp hmem).symm).committed
    · rw [happ]
      refine List.pairwise_append.mpr ⟨h.rejected, List.pairwise_singleton _ _, ?_⟩
      intro earlier hearlier later _ heq
      exact absurd heq (hnone earlier hearlier)
  · have hreject : r.handleCycleClose closeTime = (alreadyCommitted, r) := if_pos hflag
    rw [hreject]
    refine ⟨fun _ => hflag, ?_⟩
    rw [happ]
    refine List.pairwise_append.mpr ⟨h.rejected, List.pairwise_singleton _ _, ?_⟩
    intro earlier _ later hlater _
    exact List.mem_singleton.mp hlater

lemma closedOnce_exec (providers : Providers) (r : CycleSignalRuntime)
    (events : List StoreEvent) :
    ClosedOnce (exec (storeEvent providers) r events).1
      (exec (storeEvent providers) r events).2 := by
  refine exec_invariant (storeEvent providers) (P := ClosedOnce) (A := fun _ => True) ?_
    ⟨by simp [closeStatuses], by simp [closeStatuses]⟩ (fun _ _ => trivial)
  intro trace r event h _
  cases event with
  | otherCommit c => exact h.keep rfl rfl
  | handler c =>
    simp only [storeEvent]
    obtain ⟨status, next, hcall, heffect⟩ := call_effect providers r c
    rw [hcall]
    cases heffect with
    | closed delta store hopen hends hdelta hcommit =>
      have := h.close r.cycleCloseTime
      rw [show r.handleCycleClose r.cycleCloseTime = _ from hcall] at this
      exact this
    | refused c e services =>
      cases c with
      | cycleClose closeTime =>
        have := h.close closeTime
        rw [show r.handleCycleClose closeTime = _ from hcall] at this
        exact this
      | txStart | signalArrival | sessionFinalize | updateVelocity => exact h.keep rfl rfl
    | txStart | arrived | finalized | updated => exact h.keep rfl rfl

omit [DoubleArithmetic] in
lemma ClosedOnce.succeeded_le {trace : List (StoreEvent × Status)} {r : CycleSignalRuntime}
    (h : ClosedOnce trace r) : ((closeStatuses trace).filter Result.succeeded).length ≤ 1 := by
  have hpair : ((closeStatuses trace).filter Result.succeeded).Pairwise fun _ _ => False := by
    refine List.pairwise_filter.mpr (h.rejected.imp ?_)
    rintro (e | ⟨⟩) later himp hearlier hlater
    · cases hearlier
    · rw [himp rfl] at hlater
      cases hlater
  rcases hs : (closeStatuses trace).filter Result.succeeded with _ | ⟨first, _ | ⟨second, rest⟩⟩
  · simp
  · simp
  · rw [hs] at hpair
    exact absurd ((List.pairwise_cons.mp hpair).1 second (by simp)) not_false

/-- **The close is all or nothing, and happens at most once.** A close that fails changes
nothing. One that succeeds is at the close time, with no signal left that ends later; it commits
the projected nodes as the next version, and clears the ledger. Over any calls, with any commits
of others to the store in between, every close after a successful one is rejected. -/
theorem handleCycleClose_once (providers : Providers) (r : CycleSignalRuntime) :
    (∀ closeTime e, (r.handleCycleClose closeTime).1 = .error e →
      (r.handleCycleClose closeTime).2 = r) ∧
    (∀ closeTime, (r.handleCycleClose closeTime).1 = .ok () →
      let next := (r.handleCycleClose closeTime).2
      closeTime = r.cycleCloseTime ∧
      (∀ signal ∈ r.ledger.signals, signal.lastEffectEndAt ≤ closeTime) ∧
      next.store.currentSnapshot.version.value.val =
        r.store.currentSnapshot.version.value.val + 1 ∧
      next.store.currentSnapshot.committedAt = closeTime ∧
      next.store.lastCommittedCycleId = some r.workingState.cycleId ∧
      r.workingState.Projects closeTime next.store.currentSnapshot.nodes ∧
      next.ledger.signals = [] ∧ next.results = r.results) ∧
    ∀ events,
      let closes := closeStatuses (exec (storeEvent providers) r events).1
      (closes.filter Result.succeeded).length ≤ 1 ∧
        closes.Pairwise fun earlier later => earlier = .ok () → later = alreadyCommitted := by
  refine ⟨fun closeTime e herr => ?_, fun closeTime hok => ?_, fun events => ?_⟩
  · rcases r.handleCycleClose_cases closeTime with ⟨delta, store, -, -, -, -, -, hok⟩ | ⟨e', herr'⟩
    · rw [hok] at herr; cases herr
    · rw [herr']
  · rcases r.handleCycleClose_cases closeTime with
      ⟨delta, store, -, htime, hends, hdelta, hcommit, hclose⟩ | ⟨e, herr⟩
    · obtain ⟨-, hcycle, -, hat, hproj⟩ := CycleWorkingState.finalizeDeltaSet_ok.mp hdelta
      have hnext := (CommitService.committed_of_ok hcommit).2
      rw [hclose]
      refine ⟨htime, hends, hnext.version, hnext.committedAt.trans hat, ?_, ?_, rfl, rfl⟩
      · rw [hnext.cycle, hcycle]
      · rw [hnext.nodes]; exact hproj
    · rw [herr] at hok; cases hok
  · have h := closedOnce_exec providers r events
    exact ⟨h.succeeded_le, h.rejected⟩

end

end CycleSignalRuntime

end Ns3Factory
