import Ns3Factory.CycleProgress
import Ns3Factory.RunTermination
import Ns3Factory.SchedulingOrder

/-!
A cycle of granted requests completes.

Since no callback fails, the `Run` of a feasible plan returns success, after a number of steps
that is known from the plan, and the cycle is committed.
-/

namespace Ns3Factory

open StdAlgorithm Transition

lemma CyclePlan.isChange_of_mem {order : List (SimTime × CycleEvent)} {moves : List Move}
    (hmoves : ∀ m ∈ moves, m.isDispatch = true) :
    ∀ m ∈ filing order ++ .run :: moves, m.isChange = false := by
  intro m hm
  rcases List.mem_append.mp hm with hm | hm
  · obtain ⟨e, -, rfl⟩ := List.mem_map.mp hm
    rfl
  rcases List.mem_cons.mp hm with rfl | hm
  · rfl
  have hinside := hmoves m hm
  cases m with
  | fire | next | callback => rfl
  | schedule | change | run | finish | finishRun => cases hinside

namespace SignalLifecycle

variable {providers : Providers}

/-! ### The end of the `Run` -/

/-- What a completed cycle has done: its one `Run` returned success and executed all events, all
requests were sent, every signal was received, and the cycle is committed. -/
structure Delivered (plan : CyclePlan) (c : SignalLifecycle) : Prop where
  succeeded : ∃ run, c.system.runs = [run] ∧ run.result = .ok ()
  executed : c.system.accepted.Perm c.system.executed
  requests : (c.sessions.map Prod.fst).Perm plan.requests
  receptions : (c.runtime.results.sessions.map ReceptionSession.desiredSignal).Perm c.produced
  receptionCount : c.runtime.results.sessions.length = receiverCount plan.requests
  committed : c.runtime.committed = true
  ledger : c.runtime.ledger.signals = []

lemma OnCourse.finishes {plan : CyclePlan} {firstSequence : EventSequenceId}
    {c c' : SignalLifecycle} (h : OnCourse plan firstSequence c)
    (hstep : c.step providers .finishRun = some c') : Delivered plan c' := by
  have hstep' : c.drive .finishRun = some c' := hstep
  obtain ⟨system, hs, rfl⟩ := drive_eq_some hstep'
  obtain ⟨hruns, hidle, -⟩ := System.finishRun_cases hs
  have hresult : c.system.kernel.runStatus = .ok () := by simp [Kernel.runStatus, h.error]
  rw [h.runs, List.nil_append, hresult] at hruns
  have hok : ¬ system.Failed := by
    rintro (⟨r, hr, hfail⟩ | ⟨hne, -⟩)
    · rw [hruns, List.mem_singleton] at hr
      rw [hr] at hfail
      cases hfail
    · exact hne hidle
  obtain ⟨hfinished, hperm⟩ := h.sound.finishRun hok hs
  have hsent := h.sent.step h.sound rfl hok hstep
  have hwired := h.wired.step h.sound hok hstep
  have htracked := h.tracked.step h.sound h.wired hok hstep
  have hcontained := h.contained.step h.sound rfl hstep
  have haccepted : system.accepted = c.system.accepted :=
    (System.finished_of_drives (a := .finishRun) trivial hs).2
  have hrequests : (c.sessions.map Prod.fst).Perm plan.requests := by
    have hstarted := (hperm.filterMap fun record => record.callback.started).symm
    rw [haccepted] at hstarted
    have hsessions : c.sessions.map Prod.fst = startedOf system.finished := hsent.started
    rw [hsessions]
    exact hstarted.trans h.files.started
  have hreceptions : (c.runtime.results.sessions.map ReceptionSession.desiredSignal).Perm
      c.produced := by
    have hfinalized := (hperm.filterMap fun record => record.callback.finalized).symm
    have hproduced : finalizedOf system.accepted = c.produced := hwired.finalizes
    exact htracked.results.trans (hfinalized.trans (List.Perm.of_eq hproduced))
  have hcommitted : c.runtime.committed = true := by
    have hpos : 0 < c.system.accepted.countP fun record => isClose record.callback := by
      rw [h.files.closes]
      exact Nat.one_pos
    obtain ⟨close, hclose, hevent⟩ := List.countP_pos_iff.mp hpos
    rw [← haccepted] at hclose
    have hfin := hperm.mem_iff.mp hclose
    exact (hcontained.reached close hfin (isClose_iff.mp hevent)).resolve_right hok
  refine ⟨⟨_, hruns, rfl⟩, hfinished ▸ hperm, hrequests, hreceptions, ?_, hcommitted,
    (htracked.closed hcommitted).1⟩
  have hlength := hreceptions.length_eq
  rw [List.length_map, h.sent.produced_length, receiverCount_perm hrequests] at hlength
  exact hlength

/-! ### How many steps are left -/

/-- The steps of the dispatcher, and those that events still to be filed will bring. -/
def remaining (plan : CyclePlan) (c : SignalLifecycle) : ℕ :=
  c.system.stepsLeft + 4 * (plan.eventCount - c.system.accepted.length)

lemma dispatch_move {c c' : SignalLifecycle} {m : Move} (h : c.system.Sound)
    (hm : m.isDispatch = true) (hstep : c.step providers m = some c') :
    c'.system.stepsLeft + 4 * c.system.accepted.length + 1 ≤
      c.system.stepsLeft + 4 * c'.system.accepted.length := by
  have hone : ∀ {action : Action CycleEvent}, action.dispatches = true →
      c.drive action = some c' → c'.system.stepsLeft + 4 * c.system.accepted.length + 1 ≤
        c.system.stepsLeft + 4 * c'.system.accepted.length := by
    intro action ha hdrive
    obtain ⟨system, hs, rfl⟩ := drive_eq_some hdrive
    obtain ⟨hleft, haccepted⟩ := System.dispatch_stepsLeft h.inv ha hs
    dsimp only
    rw [haccepted]
    omega
  cases m with
  | fire event => exact hone rfl hstep
  | next => exact hone rfl hstep
  | callback =>
    cases step_sound hstep with
    | drive move action system ha hs hmove =>
      simp only [SignalLifecycle.step] at hstep
      split at hstep
      · next time record hc =>
        -- inside a callback no other action drives the dispatcher
        cases action with
        | scheduleAt | finish => exact ha.elim
        | run | fire | next | finishRun => simp [System.step, hc] at hs
      · cases hstep
    | callback time record status next system hc hcall hs =>
      obtain ⟨actions, hleads, -, -⟩ := call_leads h (Or.inr ⟨time, record, hc⟩) hcall
      have hle := h.inv.steps_le hleads
      obtain ⟨hleft, haccepted⟩ :=
        System.dispatch_stepsLeft (h.leads hleads).inv (a := .finish status) rfl hs
      dsimp only
      rw [haccepted]
      omega
  | schedule | change | run | finish | finishRun => cases hm

namespace OnCourse

variable {plan : CyclePlan} {firstSequence : EventSequenceId} {c c' : SignalLifecycle}

lemma accepted_le (h : OnCourse plan firstSequence c) :
    c.system.accepted.length ≤ plan.eventCount := by
  have hle := h.produced_le
  have hlength := h.accepted
  unfold CyclePlan.eventCount
  omega

lemma step_lt (h : OnCourse plan firstSequence c) {now : ℤ}
    (hplan : plan.Feasible providers firstSequence now) {m : Move} (hm : m.isDispatch = true)
    (hstep : c.step providers m = some c') : remaining plan c' + 1 ≤ remaining plan c := by
  have hmove := dispatch_move h.sound hm hstep
  have hle := h.accepted_le
  have hle' := (h.step hplan hm hstep).accepted_le
  unfold remaining
  omega

lemma progress (h : OnCourse plan firstSequence c) {now : ℤ}
    (hplan : plan.Feasible providers firstSequence now) :
    (∃ c', c.step providers .finishRun = some c') ∨
      ∃ m c', m.isDispatch = true ∧ c.step providers m = some c' := by
  rcases h.sound.inv.progress h.inRun with
    ⟨t, ht⟩ | ⟨event, t, ht, -⟩ | ⟨t, ht, -⟩ | ⟨time, record, hc⟩
  · exact Or.inl ⟨_, drive_of_step ht⟩
  · exact Or.inr ⟨.fire event, _, rfl, drive_of_step ht⟩
  · exact Or.inr ⟨.next, _, rfl, drive_of_step ht⟩
  · obtain ⟨next, hcall, -⟩ := h.call_ok hplan hc
    obtain ⟨actions, -, hctl, -⟩ := call_leads h.sound (Or.inr ⟨time, record, hc⟩) hcall
    have hfinish := drive_of_step
      (System.step_iff.mpr (.finish (.ok ()) time record (hctl.trans hc)))
    have hstep : c.step providers .callback = next.drive (.finish (.ok ())) := by
      simp only [SignalLifecycle.step, hc, hcall, Option.bind_some]
    exact Or.inr ⟨.callback, _, rfl, hstep.trans hfinish⟩

lemma leads {moves : List Move} (h : OnCourse plan firstSequence c) {now : ℤ}
    (hplan : plan.Feasible providers firstSequence now)
    (hmoves : ∀ m ∈ moves, m.isDispatch = true) (hr : Leads providers c moves c') :
    OnCourse plan firstSequence c' ∧ moves.length + remaining plan c' ≤ remaining plan c := by
  induction moves generalizing c with
  | nil =>
    obtain rfl : c = c' := Option.some.inj hr
    exact ⟨h, by simp⟩
  | cons m moves ih =>
    obtain ⟨hm, hrest⟩ := List.forall_mem_cons.mp hmoves
    obtain ⟨middle, hstep, hr⟩ := run_cons_eq_some.mp hr
    have hlt := h.step_lt hplan hm hstep
    obtain ⟨hlast, hle⟩ := ih (h.step hplan hm hstep) hrest hr
    refine ⟨hlast, ?_⟩
    rw [List.length_cons]
    omega

lemma returns (h : OnCourse plan firstSequence c) {now : ℤ}
    (hplan : plan.Feasible providers firstSequence now) :
    ∃ later c', (∀ m ∈ later, m.isDispatch = true) ∧ later.length ≤ remaining plan c ∧
      Leads providers c (later ++ [.finishRun]) c' := by
  induction hleft : remaining plan c using Nat.strong_induction_on generalizing c with
  | _ n ih =>
    rcases h.progress hplan with ⟨c', hfinish⟩ | ⟨m, middle, hm, hstep⟩
    · exact ⟨[], c', by simp, Nat.zero_le _, run_cons_eq_some.mpr ⟨c', hfinish, rfl⟩⟩
    · have hlt := h.step_lt hplan hm hstep
      obtain ⟨later, c', hlater, hlength, hr⟩ :=
        ih (remaining plan middle) (by omega) (h.step hplan hm hstep) rfl
      refine ⟨m :: later, c', List.forall_mem_cons.mpr ⟨hm, hlater⟩, ?_,
        run_cons_eq_some.mpr ⟨middle, hstep, hr⟩⟩
      rw [List.length_cons]
      omega

end OnCourse

/-! ### The beginning of the `Run` -/

lemma filing_leads {c : SignalLifecycle} {events : List (SimTime × CycleEvent)}
    (h : c.system.Sound) (hc : c.system.control = .idle)
    (hopen : ∀ e ∈ events, e.2.isOpen = true)
    (hok : Result.succeeded (System.scheduleAll events c.system).1) :
    Leads providers c (CyclePlan.filing events) (c.scheduled events) := by
  induction events generalizing c with
  | nil => rfl
  | cons e rest ih =>
    obtain ⟨time, event⟩ := e
    obtain ⟨hfirst, hrest⟩ := List.forall_mem_cons.mp hopen
    rcases h.scheduleAt_cases (Or.inl hc) time event.phase event with
      ⟨err, herr⟩ | ⟨key, m, hm, hstep, -, -, -, hctl, -⟩
    · simp [System.scheduleAll, herr] at hok
    simp only [System.scheduleAll, hm] at hok
    have houtside : c.isOutside = true := by simp [isOutside, hc]
    have hmove : c.step providers (.schedule time event) = some { c with system := m } := by
      simp only [SignalLifecycle.step, houtside, hfirst, Bool.and_self, if_true]
      exact drive_of_step hstep
    have hleads := ih (c := { c with system := m }) (h.step hstep) (hctl.trans hc) hrest hok
    have hscheduled : c.scheduled ((time, event) :: rest) =
        SignalLifecycle.scheduled { c with system := m } rest := by
      simp only [scheduled, System.scheduleAll, hm]
    rw [hscheduled]
    exact run_cons_eq_some.mpr ⟨_, hmove, hleads⟩

variable {plan : CyclePlan} {firstSequence : EventSequenceId} {now : ℤ}

lemma scheduleAll_events (hnow : 0 ≤ now ∧ now ≤ kMax)
    (hplan : plan.Feasible providers firstSequence now) {order : List (SimTime × CycleEvent)}
    (horder : order.Perm plan.events) :
    Result.succeeded (System.scheduleAll order (System.init firstSequence now)).1 = true := by
  have hinit := System.inv_init (κ := CycleEvent) firstSequence hnow
  refine (System.scheduleAll_succeeded_iff hinit rfl rfl fun e he => ?_).mpr
    ⟨fun e he => hplan.future e (horder.mem_iff.mp he), ?_⟩
  · rcases CyclePlan.mem_events.mp (horder.mem_iff.mp he) with rfl | ⟨request, -, rfl⟩
    · exact (by decide : isValidPhase .kCycleClose = true)
    · exact (by decide : isValidPhase .kTxStart = true)
  · have hroom := hplan.sequenceIds
    have hlength := horder.length_eq
    have hmax : (maxIdentity : IdentityValue).val = 2 ^ 64 - 1 := rfl
    simp only [CyclePlan.events, CyclePlan.eventCount, List.length_cons, List.length_map]
      at hlength hroom
    change order.length ≤ (maxIdentity : IdentityValue).val + 1 - firstSequence.value.val
    omega

lemma OnCourse.begins (hnow : 0 ≤ now ∧ now ≤ kMax)
    (hplan : plan.Feasible providers firstSequence now) {order : List (SimTime × CycleEvent)}
    (horder : order.Perm plan.events) :
    ∃ c, Leads providers (plan.init firstSequence now) (CyclePlan.filing order ++ [.run]) c ∧
      OnCourse plan firstSequence c ∧ remaining plan c ≤ 4 * plan.eventCount ∧
      c.system.accepted.map EventRecord.timed = order := by
  have hinit := System.sound_init (κ := CycleEvent) firstSequence hnow
  have hopen : ∀ e ∈ order, e.2.isOpen = true := by
    intro e he
    rcases CyclePlan.mem_events.mp (horder.mem_iff.mp he) with rfl | ⟨request, -, rfl⟩ <;> rfl
  have hok := scheduleAll_events hnow hplan horder
  have hfiling : Leads providers (plan.init firstSequence now) (CyclePlan.filing order)
      ((plan.init firstSequence now).scheduled order) := filing_leads hinit rfl hopen hok
  obtain ⟨records, system, hsystem, -, hidle, hexecuted, hruns, haccepted, htimed, -⟩ :=
    System.scheduleAll_ok hinit rfl hok
  have hstart : (plan.init firstSequence now).scheduled order =
      { plan.init firstSequence now with system := system } :=
    congrArg (fun s => { plan.init firstSequence now with system := s }) hsystem
  rw [hstart] at hfiling
  let begun : System CycleEvent :=
    { system with kernel := system.kernel.beginRun, control := .running, current := [] }
  have hrun : SignalLifecycle.step providers
      { plan.init firstSequence now with system := system } .run =
        some { plan.init firstSequence now with system := begun } :=
    drive_of_step (c := { plan.init firstSequence now with system := system })
      (System.step_iff.mpr (.run hidle))
  have hleads : Leads providers (plan.init firstSequence now) (CyclePlan.filing order ++ [.run])
      { plan.init firstSequence now with system := begun } :=
    run_concat_eq_some.mpr ⟨_, hfiling, hrun⟩
  have hmoves : ∀ m ∈ CyclePlan.filing order ++ [.run], m.isChange = false :=
    CyclePlan.isChange_of_mem (by simp)
  have hbegun : begun.runs = [] := hruns
  have hnot : ¬ begun.Failed := System.not_failed_of_executionError hbegun rfl
  obtain ⟨actions, hactions⟩ := leads_system hinit hleads
  obtain ⟨hsound, hwired, htracked, hsent⟩ := leads_invariant (P := Sent plan.services)
    (A := fun m => m.isChange = false)
    (fun c m c' hsound hw ht hP hm hok hstep => hP.step hsound hm hok hstep) hinit
    (wired_init firstSequence plan.services plan.workingState plan.store plan.expectedVersion
      plan.cycleCloseTime)
    (tracked_init firstSequence plan.services plan.workingState plan.store plan.expectedVersion
      plan.cycleCloseTime)
    (sent_init firstSequence now plan.services plan.workingState plan.store plan.expectedVersion
      plan.cycleCloseTime) hmoves hleads hnot
  obtain ⟨-, hcontained⟩ := (contained_init firstSequence now plan.services plan.workingState
    plan.store plan.expectedVersion plan.cycleCloseTime).leads hinit hmoves hleads
  have hrecords : begun.accepted = records := haccepted.trans (List.nil_append _)
  have hlength : begun.accepted.length = plan.requests.length + 1 := by
    rw [hrecords, ← List.length_map (f := EventRecord.timed), htimed, horder.length_eq]
    simp [CyclePlan.events]
  have hids := hinit.inv.sequenceIds_leads hactions
  have hroom := hplan.sequenceIds
  have hmax : (maxIdentity : IdentityValue).val = 2 ^ 64 - 1 := rfl
  have hfresh : (System.init (κ := CycleEvent) firstSequence now).kernel.dispatcher.sequenceIdsLeft
      = (maxIdentity : IdentityValue).val + 1 - firstSequence.value.val := rfl
  have hlt := firstSequence.value.isLt
  have hnone : (System.init (κ := CycleEvent) firstSequence now).accepted.length = 0 := rfl
  have hsteps := hinit.inv.steps_le hactions
  have hzero : (System.init (κ := CycleEvent) firstSequence now).stepsLeft = 0 := rfl
  refine ⟨_, hleads, ?_, ?_, hrecords ▸ htimed⟩
  · exact
      { sound := hsound
        inRun := by simp [begun]
        runs := hbegun
        error := rfl
        wired := hwired
        tracked := htracked
        sent := hsent
        contained := hcontained
        files := CyclePlan.files_of_timed horder (by rw [hrecords]; exact htimed)
        stocked := ⟨rfl, rfl, (fun _ hsignal => by cases hsignal), rfl, rfl⟩
        sequenceIds := by
          dsimp only at hids ⊢
          omega
        accepted := hlength }
  · unfold remaining CyclePlan.eventCount
    dsimp only at hsteps ⊢
    omega

lemma OnCourse.of_leads (hnow : 0 ≤ now ∧ now ≤ kMax)
    (hplan : plan.Feasible providers firstSequence now) {order : List (SimTime × CycleEvent)}
    (horder : order.Perm plan.events) {moves : List Move} {c : SignalLifecycle}
    (hmoves : ∀ m ∈ moves, m.isDispatch = true)
    (hr : Leads providers (plan.init firstSequence now) (CyclePlan.filing order ++ .run :: moves)
      c) :
    ∃ begun, begun.system.accepted.map EventRecord.timed = order ∧
      OnCourse plan firstSequence begun ∧ Leads providers begun moves c ∧
      OnCourse plan firstSequence c ∧
      moves.length + remaining plan c ≤ 4 * plan.eventCount := by
  obtain ⟨begun, hbegun, hcourse, hleft, htimed⟩ := OnCourse.begins hnow hplan horder
  have hsplit : CyclePlan.filing order ++ .run :: moves =
      (CyclePlan.filing order ++ [.run]) ++ moves := by simp
  rw [hsplit] at hr
  obtain ⟨middle, hmiddle, hr⟩ := run_append_eq_some.mp hr
  obtain rfl : begun = middle := Option.some.inj (hbegun.symm.trans hmiddle)
  obtain ⟨hlast, hle⟩ := hcourse.leads hplan hmoves hr
  exact ⟨begun, htimed, hcourse, hr, hlast, hle.trans hleft⟩

/-- **A feasible cycle completes.** Whatever order its events are scheduled in, `Run` begins.
Then, whatever moves the dispatcher has made, it can return, after at most four moves for each
event in all; and whenever it returns, all requests were sent, all signals received, and the
cycle is committed. -/
theorem cycle_completes (hnow : 0 ≤ now ∧ now ≤ kMax)
    (hplan : plan.Feasible providers firstSequence now) {order : List (SimTime × CycleEvent)}
    (horder : order.Perm plan.events) :
    (∃ c, Leads providers (plan.init firstSequence now) (CyclePlan.filing order ++ [.run]) c) ∧
    ∀ (moves : List Move) (c : SignalLifecycle), (∀ m ∈ moves, m.isDispatch = true) →
      Leads providers (plan.init firstSequence now) (CyclePlan.filing order ++ .run :: moves) c →
      (∃ later c', (∀ m ∈ later, m.isDispatch = true) ∧
        moves.length + later.length ≤ 4 * plan.eventCount ∧
        Leads providers c (later ++ [.finishRun]) c') ∧
      ∀ c', c.step providers .finishRun = some c' → Delivered plan c' := by
  obtain ⟨begun, hbegun, -⟩ := OnCourse.begins hnow hplan horder
  refine ⟨⟨begun, hbegun⟩, fun moves c hmoves hr => ?_⟩
  obtain ⟨-, -, -, -, hlast, hle⟩ := OnCourse.of_leads hnow hplan horder hmoves hr
  obtain ⟨later, c', hlater, hlength, hreturn⟩ := hlast.returns hplan
  exact ⟨⟨later, c', hlater, by omega, hreturn⟩, fun c' hfinish => hlast.finishes hfinish⟩

open ReceiverProcessor TransmissionExecutor

/-- Node 0 sends twice to node 1, in a cycle that closes at time 9. -/
def pairPlan : CyclePlan where
  services := CycleSignalRuntime.freshServices
  workingState := pairWorkingState
  store := .create pairWorkingState.baseSnapshot
  expectedVersion := ⟨0⟩
  cycleCloseTime := .ofUInt32 9
  requests := [pairRequest, pairRequest]

lemma reaches_bandProviders {centerFrequencyHz bandwidthHz : Double} {emission : TxEmission}
    {cycleCloseTime : SimTime} (hduration : emission.duration = .ofUInt32 1)
    (hends : emission.startedAt.nanoseconds + 2 ≤ cycleCloseTime.nanoseconds) :
    Reaches (bandProviders centerFrequencyHz bandwidthHz) emission cycleCloseTime := by
  intro calls query hquery
  have hone : (SimDuration.ofUInt32 1).nanoseconds = 1 := rfl
  have hdelay : 0 < (SimDuration.ofUInt32 1).nanoseconds := by decide
  refine ⟨⟨query.transmissionId, query.receiverNodeId, 0, .ofUInt32 1, [], hdelay.le,
    List.Pairwise.nil, by simp⟩, rfl,
    validateChannelFieldResponseIdentity_ok.mpr ⟨rfl, rfl⟩, hdelay, ?_⟩
  have hnone : largestExcess [] = 0 := rfl
  simp only [exactEnd, hduration, hone, hnone]
  omega

lemma granted_bandProviders {w : CycleWorkingState} {cycleCloseTime : SimTime}
    {request : TransmissionExecutionRequest}
    (hchecked : ∃ senderState receiverStates, Checked w request senderState receiverStates)
    (hends : request.startedAt.nanoseconds + 2 ≤ cycleCloseTime.nanoseconds) :
    Granted (bandProviders 1000 100) w cycleCloseTime request where
  checked := hchecked
  encodes calls transmissionId := by
    have hencode : (bandProviders 1000 100).encode calls request.selectedPacket
        (encodeRequest request transmissionId) =
        .ok ⟨transmissionId, request.selectedPacket.packetId, request.opportunity.senderNodeId,
          request.startedAt, .ofUInt32 1, 1000, 100, 0, by decide, by norm_num, by norm_num⟩ :=
      rfl
    have hone : (SimDuration.ofUInt32 1).nanoseconds = 1 := rfl
    refine ⟨_, hencode, validateTxEmissionIdentity_ok.mpr ⟨rfl, rfl, rfl, rfl⟩, ?_, by norm_num,
      ?_, reaches_bandProviders rfl hends⟩
    · simp only [hone, zero_lt_one]
    · simp only [hone]
      omega

lemma granted_pairRequest :
    Granted (bandProviders 1000 100) pairWorkingState (.ofUInt32 9) pairRequest :=
  granted_bandProviders ⟨_, _, by decide, by decide, rfl, rfl, .cons ⟨by decide, rfl, rfl⟩ .nil⟩
    (by decide)

lemma feasible_pairPlan : pairPlan.Feasible (bandProviders 1000 100) ⟨0⟩ 0 where
  wellFormed := by
    have hcreate : CycleWorkingState.create pairWorkingState.baseSnapshot ⟨0⟩ (.ofUInt32 0) =
        .ok pairWorkingState := dif_neg (by decide)
    exact CycleSignalRuntime.wellFormed_create hcreate (by decide)
      (fun _ hlast => by cases hlast) (by decide) (by decide)
  answers := answers_bandProviders 1000 100
  granted request hrequest := by
    have heq : request = pairRequest := by simpa [pairPlan] using hrequest
    exact heq ▸ granted_pairRequest
  future := by decide
  transmissionIds := by decide
  receptionIds := by decide
  sequenceIds := by decide

theorem cycle_completes_pair :
    ∃ c later c', Leads (bandProviders 1000 100) (pairPlan.init ⟨0⟩ 0)
        (CyclePlan.filing pairPlan.events ++ [.run]) c ∧
      Leads (bandProviders 1000 100) c (later ++ [.finishRun]) c' ∧ Delivered pairPlan c' := by
  obtain ⟨⟨c, hc⟩, hall⟩ := cycle_completes (by decide) feasible_pairPlan (List.Perm.refl _)
  obtain ⟨⟨later, c', hlater, -, hreturn⟩, -⟩ := hall [] c (by simp) hc
  obtain ⟨last, hlast, hfinish⟩ := run_concat_eq_some.mp hreturn
  have hmoves : Leads (bandProviders 1000 100) (pairPlan.init ⟨0⟩ 0)
      (CyclePlan.filing pairPlan.events ++ .run :: later) last := by
    have hsplit : CyclePlan.filing pairPlan.events ++ .run :: later =
        (CyclePlan.filing pairPlan.events ++ [.run]) ++ later := by simp
    rw [hsplit]
    exact run_append_eq_some.mpr ⟨c, hc, hlast⟩
  exact ⟨c, later, c', hc, hreturn, (hall later last hlater hmoves).2 c' hfinish⟩

end SignalLifecycle

end Ns3Factory
