import Ns3Factory.CyclePlan

/-!
In the `Run` of a feasible plan no callback fails.

When an event is dispatched, all it needs has come before it: a signal arrives before it is
finalized, and all signals have ended when the cycle closes. Ids cannot run out, since every
session and every event of a signal was counted in the plan.
-/

namespace Ns3Factory

open StdAlgorithm Transition

/-! ### Sequence ids and events -/

namespace System

variable {κ : Type*}

lemma Inv.sequenceIds_step {s t : System κ} {a : Action κ} (hinv : s.Inv)
    (hstep : s.step a = some t) :
    t.kernel.dispatcher.sequenceIdsLeft + t.accepted.length =
      s.kernel.dispatcher.sequenceIdsLeft + s.accepted.length := by
  have hkeep : ∀ {kernel : Kernel κ} {time record}, s.kernel.nextRecord time = (record, kernel) →
      kernel.dispatcher.sequenceIdsLeft = s.kernel.dispatcher.sequenceIdsLeft := by
    intro kernel time record hn
    obtain ⟨hnext, hexhausted⟩ := nextRecord_sequence hinv.buckets.ascending hn
    simp only [EventDispatcher.sequenceIdsLeft, hnext, hexhausted]
  cases step_sound hstep with
  | scheduleAt time phase callback hc =>
    rcases scheduleAt_cases hinv.queue.readable time phase callback with
      ⟨⟨e, he⟩, -⟩ | ⟨cb, next, exhausted, -, -, -, hx, hn, hok⟩
    · rw [he]
    · have hlt := s.kernel.dispatcher.nextSequence.isLt
      have hmax : (maxIdentity : IdentityValue).val = 2 ^ 64 - 1 := rfl
      rw [hok]
      rcases hn with ⟨rfl, hn⟩ | ⟨rfl, hn⟩
      · simp only [EventDispatcher.sequenceIdsLeft, Kernel.accept, hx, hn, if_true,
          Bool.false_eq_true, if_false, List.length_append, List.length_singleton]
        omega
      · simp only [EventDispatcher.sequenceIdsLeft, Kernel.accept, hx, hn, Bool.false_eq_true,
          if_false, List.length_append, List.length_singleton]
        omega
  | run hc => rfl
  | fire event hc hf => rfl
  | leave time kernel hc hn =>
    have hsame := hkeep hn
    exact congrArg (fun left => left + s.accepted.length) hsame
  | call time kernel record hc hn =>
    have hsame := hkeep hn
    exact congrArg (fun left => left + s.accepted.length) hsame
  | finish status time record hc => rcases status with e | u <;> rfl
  | finishRun hc hr => rfl

lemma Inv.sequenceIds_leads {s t : System κ} (hinv : s.Inv) {h : List (Action κ)}
    (hr : s.Leads h t) :
    t.kernel.dispatcher.sequenceIdsLeft + t.accepted.length =
      s.kernel.dispatcher.sequenceIdsLeft + s.accepted.length :=
  (run_invariant (P := fun m => m.Inv ∧ m.kernel.dispatcher.sequenceIdsLeft + m.accepted.length =
    s.kernel.dispatcher.sequenceIdsLeft + s.accepted.length) (A := fun _ => True)
    (fun _ _ _ hm _ hstep => ⟨hm.1.step hstep, (hm.1.sequenceIds_step hstep).trans hm.2⟩)
    ⟨hinv, rfl⟩ (fun _ _ => trivial) hr).2

lemma Sound.accepted_perm {s : System κ} (h : s.Sound) {time : SimTime} {record : EventRecord κ}
    (hc : s.control = .calling time record) :
    s.accepted.Perm (s.finished ++ record :: s.kernel.dispatcher.pendingRecords) := by
  have hp := h.inv.conserved
  rw [(h.calling time record hc).1, List.append_assoc] at hp
  exact hp

lemma Sound.filterMap_perm {β : Type*} {s : System κ} (h : s.Sound) {time : SimTime}
    {record : EventRecord κ} (hc : s.control = .calling time record) {f : κ → Option β} {b : β}
    (hf : f record.callback = some b) :
    (s.accepted.filterMap fun r => f r.callback).Perm
      ((s.finished.filterMap fun r => f r.callback) ++
        b :: s.kernel.dispatcher.pendingRecords.filterMap fun r => f r.callback) := by
  have hp := (h.accepted_perm hc).filterMap fun r => f r.callback
  have hcons : ((record :: s.kernel.dispatcher.pendingRecords).filterMap fun r => f r.callback) =
      b :: s.kernel.dispatcher.pendingRecords.filterMap fun r => f r.callback :=
    List.filterMap_cons_some hf
  rwa [List.filterMap_append, hcons] at hp

lemma Sound.finished_of_lt {s : System κ} (h : s.Sound) (hok : ¬ s.Failed) {time : SimTime}
    {record earlier : EventRecord κ} (hc : s.control = .calling time record)
    (hmem : earlier ∈ s.accepted) (hlt : earlier.key < record.key) : earlier ∈ s.finished := by
  rcases List.mem_append.mp ((h.accepted_perm hc).mem_iff.mp hmem) with hfin | hrest
  · exact hfin
  rcases List.mem_cons.mp hrest with rfl | hpending
  · exact absurd hlt (lt_irrefl _)
  · have hexecuted : record ∈ s.executed := by simp [(h.calling time record hc).1]
    have hafter := (h.healthy hok).pending_after h.inv hpending hexecuted
    exact absurd (hlt.trans hafter) (lt_irrefl _)

end System

/-! ### On course -/

namespace SignalLifecycle

variable {providers : Providers}

/-- Nothing has been changed from outside, all signals can be received, and every session has
taken one id. -/
structure Stocked (plan : CyclePlan) (c : SignalLifecycle) : Prop where
  workingState : c.runtime.workingState = plan.workingState
  expectedVersion : c.runtime.expectedVersion = plan.expectedVersion
  receivable : ∀ signal ∈ c.produced, 0 ≤ signal.lowerFrequencyHz ∧ ∃ state,
    plan.workingState.projectNodeState signal.receiverNodeId signal.firstArrivalAt = .ok state
  transmissionIds : c.runtime.services.ids.transmissionIdsLeft + c.sessions.length =
    plan.services.ids.transmissionIdsLeft
  receptionIds : c.runtime.services.ids.receptionIdsLeft + c.runtime.results.sessions.length =
    plan.services.ids.receptionIdsLeft

/-- A `Run` of a plan in which nothing has failed. -/
structure OnCourse (plan : CyclePlan) (firstSequence : EventSequenceId) (c : SignalLifecycle) :
    Prop where
  sound : c.system.Sound
  inRun : c.system.control ≠ .idle
  runs : c.system.runs = []
  error : c.system.kernel.dispatcher.executionError = none
  wired : c.Wired
  tracked : c.Tracked
  sent : Sent plan.services c
  contained : Contained plan.store plan.cycleCloseTime c
  files : plan.Files c.system.accepted
  stocked : Stocked plan c
  sequenceIds : c.system.kernel.dispatcher.sequenceIdsLeft + c.system.accepted.length +
    firstSequence.value.val = 2 ^ 64
  accepted : c.system.accepted.length = plan.requests.length + 1 + 2 * c.produced.length

lemma Sent.produced_length {services : Services} {c : SignalLifecycle} (h : Sent services c) :
    c.produced.length = receiverCount (c.sessions.map Prod.fst) := by
  have hlen := h.produced_perm.length_eq
  rw [List.length_map, List.length_flatMap] at hlen
  rw [hlen, receiverCount, List.map_map]
  exact congrArg List.sum (List.map_congr_left fun p _ => by simp [pairsOf])

namespace OnCourse

variable {plan : CyclePlan} {firstSequence : EventSequenceId} {c : SignalLifecycle}
  {time : SimTime} {key : EventKey}

lemma not_failed (h : OnCourse plan firstSequence c) : ¬ c.system.Failed :=
  System.not_failed_of_executionError h.runs h.error

lemma produced_of_finalize (h : OnCourse plan firstSequence c) {signal : ReceivedSignal}
    (hmem : ⟨key, .sessionFinalize signal⟩ ∈ c.system.accepted) : signal ∈ c.produced := by
  rw [← h.wired.finalizes]
  exact mem_finalizedOf.mpr ⟨_, hmem, rfl⟩

lemma produced_le (h : OnCourse plan firstSequence c) :
    c.produced.length ≤ receiverCount plan.requests := by
  have hstarted := h.files.started
  have hsub : (startedOf c.system.finished).Sublist (startedOf c.system.executed) := by
    refine List.Sublist.filterMap _ ?_
    unfold System.finished
    split
    · exact List.dropLast_sublist _
    · exact List.Sublist.refl _
  have hsplit : (startedOf c.system.accepted).Perm (startedOf c.system.executed ++
      startedOf c.system.kernel.dispatcher.pendingRecords) := by
    have hp := h.sound.inv.conserved.filterMap fun record => record.callback.started
    rwa [List.filterMap_append] at hp
  rw [h.sent.produced_length, h.sent.started, ← receiverCount_perm hstarted,
    receiverCount_perm hsplit, receiverCount_append]
  refine le_trans ?_ (Nat.le_add_right _ _)
  exact (hsub.map _).sum_le_sum fun _ _ => Nat.zero_le _

lemma requests_perm (h : OnCourse plan firstSequence c) {request : TransmissionExecutionRequest}
    (hc : c.system.control = .calling time ⟨key, .txStart request⟩) :
    ∃ rest, (c.sessions.map Prod.fst ++ request :: rest).Perm plan.requests := by
  refine ⟨startedOf c.system.kernel.dispatcher.pendingRecords, ?_⟩
  rw [h.sent.started]
  have hp := h.sound.filterMap_perm (f := CycleEvent.started) hc rfl
  exact hp.symm.trans h.files.started

lemma close_after (h : OnCourse plan firstSequence c) {record close : EventRecord CycleEvent}
    (hrecord : record ∈ c.system.accepted) (hopen : record.callback.isOpen = false)
    (hclose : close ∈ c.system.accepted) (hevent : close.callback = .cycleClose) :
    record.key < close.key := by
  obtain ⟨htime, hphase⟩ := h.contained.signals record hrecord hopen
  have hopens : close.callback.isOpen = true := by rw [hevent]; rfl
  have hat : close.key.time = plan.cycleCloseTime := by
    rcases CyclePlan.mem_events.mp (h.files.planned close hclose hopens) with
      heq | ⟨request, -, heq⟩
    · exact congrArg Prod.fst heq
    · have hcb : close.callback = .txStart request := congrArg Prod.snd heq
      rw [hevent] at hcb
      cases hcb
  rw [EventKey.lt_iff, hat, h.contained.phase close hclose hevent]
  rcases htime.lt_or_eq with hlt | heq
  · exact Or.inl hlt
  · exact Or.inr ⟨heq, Or.inl hphase⟩

lemma open_of_calling (h : OnCourse plan firstSequence c) {record : EventRecord CycleEvent}
    (hc : c.system.control = .calling time record) (hopen : record.callback.isOpen = false) :
    c.runtime.committed = false := by
  rw [Bool.eq_false_iff]
  intro hcommitted
  obtain ⟨-, close, hclose, hevent, -⟩ := h.tracked.closed hcommitted
  obtain ⟨hmem, -, hlt⟩ := h.sound.calling_spec hc
  have hafter := h.close_after hmem hopen (h.sound.accepted_of_finished hclose) hevent
  exact absurd (hafter.trans (hlt close hclose)) (lt_irrefl _)

/-! ### No callback fails -/

lemma call_txStart (h : OnCourse plan firstSequence c) {now : ℤ}
    (hplan : plan.Feasible providers firstSequence now) {request : TransmissionExecutionRequest}
    (hc : c.system.control = .calling time ⟨key, .txStart request⟩) :
    ∃ next, c.call providers time (.txStart request) = some (.ok (), next) ∧
      Stocked plan next ∧ next.system.runs = c.system.runs ∧
      next.system.kernel.dispatcher.sequenceIdsLeft + 2 * next.produced.length =
        c.system.kernel.dispatcher.sequenceIdsLeft + 2 * c.produced.length := by
  obtain ⟨hmem, htime, -⟩ := h.sound.calling_spec hc
  obtain ⟨request', hrequest, heq⟩ := (CyclePlan.mem_events.mp
    (h.files.planned _ hmem rfl)).resolve_left fun heq => by cases congrArg Prod.snd heq
  obtain rfl : request = request' := CycleEvent.txStart.inj (congrArg Prod.snd heq)
  have hstart : time = request.startedAt := htime.symm.trans (congrArg Prod.fst heq)
  obtain ⟨rest, hrest⟩ := h.requests_perm hc
  -- the ids that are left are enough for this request
  have hsessions := hrest.length_eq
  have hreceivers := receiverCount_perm hrest
  have hproduced := h.sent.produced_length
  have htransmissions := h.stocked.transmissionIds
  have hsequence := h.sequenceIds
  have haccepted := h.accepted
  have hroom := hplan.transmissionIds
  have hevents := hplan.sequenceIds
  simp only [List.length_append, List.length_map, List.length_cons] at hsessions
  simp only [receiverCount_append, receiverCount_cons] at hreceivers
  simp only [CyclePlan.eventCount] at hevents
  have hgranted : TransmissionExecutor.Granted providers c.runtime.workingState
      c.runtime.cycleCloseTime request := by
    rw [h.stocked.workingState, h.contained.closeTime]
    exact hplan.granted request hrequest
  obtain ⟨session, services, hok, hdelivers⟩ :=
    CycleSignalRuntime.handleTxStart_granted hgranted (by omega)
  rw [← hstart] at hok
  obtain ⟨-, hexec, -, -⟩ := CycleSignalRuntime.handleTxStart_ok hok
  have hlength : session.receivedSignals.length = request.candidateReceivers.length := by
    have hmap := congrArg List.length hexec.receivers
    rw [List.length_map] at hmap
    rw [hmap]
    exact (sort_perm _ _).length_eq
  have hlater : ∀ signal ∈ session.receivedSignals, time < signal.firstArrivalAt := by
    intro signal hsignal
    have hcarried := (hdelivers.carried signal hsignal).later
    rwa [hexec.startedAt, ← hstart] at hcarried
  obtain ⟨system, hsystem, hruns, hleft⟩ := System.scheduleSignals_of_later h.sound.inv hc
    CycleEvent.signalArrival CycleEvent.sessionFinalize hlater (by omega)
  refine ⟨_, by simp only [call, hok, hsystem]; rfl, ?_, hruns, ?_⟩
  · obtain ⟨htaken, hkept⟩ := CommunicationIdAllocator.nextTransmissionId_left hexec.id
    refine ⟨h.stocked.workingState, h.stocked.expectedVersion, ?_, ?_, ?_⟩
    · intro signal hsignal
      simp only [produced, List.flatMap_append, List.flatMap_cons, List.flatMap_nil,
        List.append_nil, List.mem_append] at hsignal
      rcases hsignal with hsignal | hsignal
      · exact h.stocked.receivable signal hsignal
      · have hband := hdelivers.band
        have hprojected := ReceiverProcessor.projectNodeState_firstArrival
          (h.stocked.workingState ▸ hplan.wellFormed.nonneg) hexec hsignal
        rw [h.stocked.workingState] at hprojected
        refine ⟨ReceiverProcessor.lowerFrequencyHz_nonneg_iff signal |>.mpr ?_, hprojected⟩
        rwa [hexec.emission signal hsignal]
    · simp only [List.length_append, List.length_singleton]
      dsimp only at htaken
      omega
    · exact (congrArg (· + c.runtime.results.sessions.length) hkept).trans h.stocked.receptionIds
  · simp only [produced, List.flatMap_append, List.flatMap_cons, List.flatMap_nil,
      List.append_nil, List.length_append] at hleft ⊢
    omega

lemma call_signalArrival (h : OnCourse plan firstSequence c) (providers : Providers)
    {signal : ReceivedSignal}
    (hc : c.system.control = .calling time ⟨key, .signalArrival signal⟩) :
    ∃ next, c.call providers time (.signalArrival signal) = some (.ok (), next) ∧
      Stocked plan next ∧ next.system = c.system ∧ next.produced = c.produced := by
  obtain ⟨hmem, htime, -⟩ := h.sound.calling_spec hc
  have hat : time = signal.firstArrivalAt :=
    htime.symm.trans ((h.wired.fits _ hmem).arrival signal rfl)
  have hopen := h.open_of_calling hc rfl
  have hpairs : ((arrivedOf c.system.accepted).map pair).Nodup := by
    rw [h.wired.arrivals]
    exact h.sent.produced_perm.nodup_iff.mpr h.sent.nodup_pairs
  have hsplit := h.sound.filterMap_perm (f := CycleEvent.arrived) hc rfl
  have hnodup := (hsplit.map pair).nodup_iff.mp hpairs
  rw [List.map_append, List.nodup_append] at hnodup
  have hnew : ∀ s ∈ c.runtime.ledger.signals, ¬ samePair s signal := by
    intro s hs hsame
    obtain ⟨hreceiver, htransmission⟩ := samePair_iff.mp hsame
    have harrived := (h.tracked.ledger hopen).mem_iff.mp hs
    have hpair : pair s = pair signal := Prod.ext htransmission hreceiver
    exact hnodup.2.2 (pair s) (List.mem_map_of_mem harrived) (pair signal) (by simp) hpair
  rcases c.runtime.handleSignalArrival_cases time signal with
    ⟨-, -, ledger, hok, -⟩ | ⟨hnot, -⟩
  · refine ⟨{ c with runtime := { c.runtime with ledger := ledger } }, ?_, ?_, rfl, rfl⟩
    · simp only [call, hok]
    · exact ⟨h.stocked.workingState, h.stocked.expectedVersion, h.stocked.receivable,
        h.stocked.transmissionIds, h.stocked.receptionIds⟩
  · exact absurd ⟨hat, hnew⟩ hnot

lemma call_sessionFinalize (h : OnCourse plan firstSequence c) {now : ℤ}
    (hplan : plan.Feasible providers firstSequence now) {signal : ReceivedSignal}
    (hc : c.system.control = .calling time ⟨key, .sessionFinalize signal⟩) :
    ∃ next, c.call providers time (.sessionFinalize signal) = some (.ok (), next) ∧
      Stocked plan next ∧ next.system = c.system ∧ next.produced = c.produced := by
  obtain ⟨hmem, htime, -⟩ := h.sound.calling_spec hc
  have hat : key.time = signal.lastEffectEndAt := (h.wired.fits _ hmem).finalize signal rfl
  have hproduced := h.produced_of_finalize hmem
  obtain ⟨hwidth, -⟩ := h.wired.bounds signal hproduced
  have hopen := h.open_of_calling hc rfl
  -- the arrival of the signal comes before its finalize, so it has finished
  have hledger : signal ∈ c.runtime.ledger.signals := by
    have harrivals := h.wired.arrivals
    obtain ⟨arrival, harrival, hevent⟩ := mem_arrivedOf.mp (harrivals ▸ hproduced)
    have hbefore : arrival.key.time = signal.firstArrivalAt :=
      (h.wired.fits _ harrival).arrival signal hevent
    have hlt : arrival.key < key := by
      rw [EventKey.lt_iff, hbefore, hat]
      exact Or.inl hwidth
    have hfinished := h.sound.finished_of_lt h.not_failed hc harrival hlt
    exact (h.tracked.ledger hopen).mem_iff.mpr (mem_arrivedOf.mpr ⟨arrival, hfinished, hevent⟩)
  -- fewer signals have been finalized than were produced
  have hids : 0 < c.runtime.services.ids.receptionIdsLeft := by
    have hsplit := h.sound.filterMap_perm (f := CycleEvent.finalized) hc rfl
    have hlength := hsplit.length_eq
    have hfinalizes : (c.system.accepted.filterMap fun record =>
        record.callback.finalized).length = c.produced.length :=
      congrArg List.length h.wired.finalizes
    have hresults : c.runtime.results.sessions.length =
        (c.system.finished.filterMap fun record => record.callback.finalized).length := by
      have hlen := h.tracked.results.length_eq
      rwa [List.length_map] at hlen
    have hle := h.produced_le
    have hleft := h.stocked.receptionIds
    have hroom := hplan.receptionIds
    rw [List.length_append, List.length_cons] at hlength
    omega
  obtain ⟨hlower, hprojected⟩ := h.stocked.receivable signal hproduced
  obtain ⟨session, last, hprocess⟩ : ∃ session last,
      ReceiverProcessor.processReceivedSignal providers signal c.runtime.ledger
        c.runtime.workingState c.runtime.services = (.ok session, last) := by
    rcases ReceiverProcessor.processReceivedSignal_cases (w := c.runtime.workingState)
        hplan.answers (CommunicationIdAllocator.nextReceptionId_of_left hids) hledger with
      ⟨-, session, last, -, -, -, hok, -⟩ | ⟨hnot, -⟩
    · exact ⟨session, last, hok⟩
    · rw [h.stocked.workingState] at hnot
      obtain ⟨state, hstate⟩ := hprojected
      exact absurd ⟨state, hstate, NoiseQuery.accepts_iff.mpr ⟨hwidth, hlower⟩⟩ hnot
  have htime' : ¬ time ≠ signal.lastEffectEndAt := not_not.mpr (htime.symm.trans hat)
  have hid := (ReceiverProcessor.processReceivedSignal_ok hprocess).id
  obtain ⟨htaken, hkept⟩ := CommunicationIdAllocator.nextReceptionId_left hid
  refine ⟨{ c with runtime := { c.runtime with
    services := last, results := c.runtime.results.append session } }, ?_, ⟨h.stocked.workingState,
      h.stocked.expectedVersion, h.stocked.receivable, ?_, ?_⟩, rfl, rfl⟩
  · simp only [call, CycleSignalRuntime.handleSessionFinalize, if_neg htime', hprocess]
  · exact (congrArg (· + c.sessions.length) hkept).trans h.stocked.transmissionIds
  · have hlen := (c.runtime.results.append_perm session).length_eq
    have hleft := h.stocked.receptionIds
    simp only [List.length_cons] at hlen
    change last.ids.receptionIdsLeft + (c.runtime.results.append session).sessions.length = _
    omega

lemma call_cycleClose (h : OnCourse plan firstSequence c) {now : ℤ}
    (hplan : plan.Feasible providers firstSequence now)
    (hc : c.system.control = .calling time ⟨key, .cycleClose⟩) :
    ∃ next, c.call providers time .cycleClose = some (.ok (), next) ∧
      Stocked plan next ∧ next.system = c.system ∧ next.produced = c.produced := by
  obtain ⟨hmem, htime, -⟩ := h.sound.calling_spec hc
  have hat : key.time = plan.cycleCloseTime := by
    rcases CyclePlan.mem_events.mp (h.files.planned _ hmem rfl) with heq | ⟨request, -, heq⟩
    · exact congrArg Prod.fst heq
    · cases congrArg Prod.snd heq
  have hopen : c.runtime.committed = false := by
    rw [Bool.eq_false_iff]
    intro hcommitted
    obtain ⟨-, close, hclose, hevent, -⟩ := h.tracked.closed hcommitted
    have hcount := (h.sound.accepted_perm hc).countP_eq fun record => isClose record.callback
    have hpos : 0 < c.system.finished.countP fun record => isClose record.callback :=
      List.countP_pos_iff.mpr ⟨close, hclose, isClose_iff.mpr hevent⟩
    rw [h.files.closes, List.countP_append, List.countP_cons_of_pos (by rfl)] at hcount
    omega
  have hready : CycleSignalRuntime.Ready c.runtime := by
    refine ⟨?_, fun signal hsignal => ?_, hopen⟩
    · rw [h.stocked.workingState, h.stocked.expectedVersion, h.contained.closeTime,
        h.contained.store hopen]
      exact hplan.wellFormed
    · have harrived := (h.tracked.ledger hopen).mem_iff.mp hsignal
      obtain ⟨record, hrecord, hevent⟩ := mem_arrivedOf.mp harrived
      have hproduced : signal ∈ c.produced := by
        rw [← h.wired.arrivals]
        exact mem_arrivedOf.mpr ⟨record, h.sound.accepted_of_finished hrecord, hevent⟩
      exact (h.wired.bounds signal hproduced).2
  have hok := hready.close
  rw [h.contained.closeTime, ← hat, htime] at hok
  refine ⟨{ c with runtime := (c.runtime.handleCycleClose time).2 }, ?_, ?_, rfl, rfl⟩
  · simp only [call, hok]
  · rcases c.runtime.handleCycleClose_cases time with
      ⟨delta, store, -, -, -, -, -, hclosed⟩ | ⟨e, herr⟩
    · rw [hclosed]
      exact ⟨h.stocked.workingState, h.stocked.expectedVersion, h.stocked.receivable,
        h.stocked.transmissionIds, h.stocked.receptionIds⟩
    · rw [herr] at hok
      cases hok

lemma call_ok (h : OnCourse plan firstSequence c) {now : ℤ}
    (hplan : plan.Feasible providers firstSequence now) {record : EventRecord CycleEvent}
    (hc : c.system.control = .calling time record) :
    ∃ next, c.call providers time record.callback = some (.ok (), next) ∧ Stocked plan next ∧
      next.system.runs = c.system.runs ∧
      next.system.kernel.dispatcher.sequenceIdsLeft + 2 * next.produced.length =
        c.system.kernel.dispatcher.sequenceIdsLeft + 2 * c.produced.length := by
  obtain ⟨key, event⟩ := record
  cases event with
  | txStart request => exact h.call_txStart hplan hc
  | signalArrival signal =>
    obtain ⟨next, hcall, hstocked, hsystem, hproduced⟩ := h.call_signalArrival providers hc
    exact ⟨next, hcall, hstocked, by rw [hsystem], by rw [hsystem, hproduced]⟩
  | sessionFinalize signal =>
    obtain ⟨next, hcall, hstocked, hsystem, hproduced⟩ := h.call_sessionFinalize hplan hc
    exact ⟨next, hcall, hstocked, by rw [hsystem], by rw [hsystem, hproduced]⟩
  | cycleClose =>
    obtain ⟨next, hcall, hstocked, hsystem, hproduced⟩ := h.call_cycleClose hplan hc
    exact ⟨next, hcall, hstocked, by rw [hsystem], by rw [hsystem, hproduced]⟩
  | other phase =>
    obtain ⟨hmem, -, -⟩ := h.sound.calling_spec hc
    rcases CyclePlan.mem_events.mp (h.files.planned _ hmem rfl) with heq | ⟨request, -, heq⟩
    · cases congrArg Prod.snd heq
    · cases congrArg Prod.snd heq

/-! ### Steps -/

lemma keep {c' : SignalLifecycle} {m : Move} (h : OnCourse plan firstSequence c)
    (hm : m.isChange = false) (hstep : c.step providers m = some c')
    (hinRun : c'.system.control ≠ .idle) (hruns : c'.system.runs = [])
    (herror : c'.system.kernel.dispatcher.executionError = none)
    {records : List (EventRecord CycleEvent)}
    (haccepted : c'.system.accepted = c.system.accepted ++ records)
    (hrecords : ∀ record ∈ records, record.callback.isOpen = false)
    (hstocked : Stocked plan c')
    (hlength : c'.system.accepted.length = plan.requests.length + 1 + 2 * c'.produced.length) :
    OnCourse plan firstSequence c' := by
  obtain ⟨actions, hleads⟩ := step_leads h.sound hstep
  have hok := System.not_failed_of_executionError hruns herror
  have hids := h.sound.inv.sequenceIds_leads hleads
  have hcount := h.sequenceIds
  exact
    { sound := h.sound.leads hleads
      inRun := hinRun
      runs := hruns
      error := herror
      wired := h.wired.step h.sound hok hstep
      tracked := h.tracked.step h.sound h.wired hok hstep
      sent := h.sent.step h.sound hm hok hstep
      contained := h.contained.step h.sound hm hstep
      files := haccepted ▸ h.files.append hrecords
      stocked := hstocked
      sequenceIds := by omega
      accepted := hlength }

lemma drive {c' : SignalLifecycle} {m : Move} {action : Action CycleEvent}
    (h : OnCourse plan firstSequence c) (hm : m.isChange = false)
    (ha : (∃ event, action = .fire event) ∨ action = .next)
    (hstep : c.step providers m = some c') (hdrive : c.drive action = some c') :
    OnCourse plan firstSequence c' := by
  obtain ⟨system, hs, rfl⟩ := drive_eq_some hdrive
  obtain ⟨herror, hruns, hinRun, -, haccepted⟩ := System.dispatch_cases h.sound.inv ha hs
  refine h.keep hm hstep hinRun (hruns.trans h.runs) (herror.trans h.error)
    (by simp [haccepted] : system.accepted = c.system.accepted ++ []) (by simp) ?_ ?_
  · exact ⟨h.stocked.workingState, h.stocked.expectedVersion, h.stocked.receivable,
      h.stocked.transmissionIds, h.stocked.receptionIds⟩
  · exact (congrArg List.length haccepted).trans h.accepted

lemma callback {c' : SignalLifecycle} (h : OnCourse plan firstSequence c) {now : ℤ}
    (hplan : plan.Feasible providers firstSequence now) {record : EventRecord CycleEvent}
    (hc : c.system.control = .calling time record)
    (hstep : c.step providers .callback = some c') : OnCourse plan firstSequence c' := by
  obtain ⟨next, hcall, hstocked, hruns, hleft⟩ := h.call_ok hplan hc
  have hcan : c.system.CanSchedule := Or.inr ⟨time, record, hc⟩
  obtain ⟨hnsound, hnc, -, -, ⟨records, haccepted, hrecords⟩, -⟩ :=
    call_contained h.sound hcan hcall
  obtain ⟨actions, hleads, -, -⟩ := call_leads h.sound hcan hcall
  have hids := h.sound.inv.sequenceIds_leads hleads
  have hstep' := hstep
  simp only [SignalLifecycle.step, hc, hcall, Option.bind_some] at hstep'
  obtain ⟨system, hs, rfl⟩ := drive_eq_some hstep'
  obtain ⟨hruns', hinRun, -, herror⟩ := System.finish_cases hnsound.inv hs
  obtain ⟨-, -, -, -, haccepted', -⟩ := hnsound.finish hs
  refine h.keep rfl hstep hinRun (hruns'.trans (hruns.trans h.runs)) herror
    (haccepted'.trans haccepted) (fun r hr => (hrecords r hr).2.2) ?_ ?_
  · exact ⟨hstocked.workingState, hstocked.expectedVersion, hstocked.receivable,
      hstocked.transmissionIds, hstocked.receptionIds⟩
  · have hlength := congrArg List.length haccepted'
    have hcount := h.accepted
    change system.accepted.length = plan.requests.length + 1 + 2 * next.produced.length
    omega

lemma step {c' : SignalLifecycle} {m : Move} (h : OnCourse plan firstSequence c) {now : ℤ}
    (hplan : plan.Feasible providers firstSequence now) (hm : m.isDispatch = true)
    (hstep : c.step providers m = some c') : OnCourse plan firstSequence c' := by
  cases m with
  | fire event => exact h.drive rfl (Or.inl ⟨event, rfl⟩) hstep hstep
  | next => exact h.drive rfl (Or.inr rfl) hstep hstep
  | callback =>
    rcases hc : c.system.control with _ | _ | time | ⟨time, record⟩
    · exact absurd hc h.inRun
    · simp [SignalLifecycle.step, hc] at hstep
    · simp [SignalLifecycle.step, hc] at hstep
    · exact h.callback hplan hc hstep
  | schedule | change | run | finish | finishRun => cases hm

end OnCourse

end SignalLifecycle

end Ns3Factory
