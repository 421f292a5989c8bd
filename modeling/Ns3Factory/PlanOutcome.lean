import Ns3Factory.CycleCompletion
import Ns3Factory.MeaningRefinement

/-!
A feasible plan has one outcome.

Sequence ids are given out in the order of acceptance, so of the events of one time and phase
the dispatcher takes first what was scheduled first. A plan schedules all its requests before
`Run`: they are sent by their start, and those of one start as they were scheduled. By the
meaning of a cycle nothing else of a run shows in what it makes.
-/

namespace Ns3Factory

open StdAlgorithm Transition

/-! ### The order of acceptance -/

namespace System

variable {κ : Type*}

/-- The accepted events have ascending sequence ids, and the next one is above them. -/
structure Numbered (s : System κ) : Prop where
  ascending : Ascending (fun r : EventRecord κ => r.key.sequence.value.val) s.accepted
  below : s.kernel.dispatcher.sequenceExhausted = false → ∀ r ∈ s.accepted,
    r.key.sequence.value.val < s.kernel.dispatcher.nextSequence.val

lemma numbered_init (firstSequence : EventSequenceId) (now : ℤ) :
    (init (κ := κ) firstSequence now).Numbered where
  ascending := List.Pairwise.nil
  below := fun _ _ hr => (by cases hr)

lemma Numbered.congr {s t : System κ} (h : s.Numbered) (haccepted : t.accepted = s.accepted)
    (hnext : t.kernel.dispatcher.nextSequence = s.kernel.dispatcher.nextSequence)
    (hexhausted : t.kernel.dispatcher.sequenceExhausted =
      s.kernel.dispatcher.sequenceExhausted) : t.Numbered := by
  refine ⟨?_, ?_⟩
  · rw [haccepted]
    exact h.ascending
  · rw [haccepted, hnext, hexhausted]
    exact h.below

lemma Numbered.step {s t : System κ} {a : Action κ} (hinv : s.Inv) (h : s.Numbered)
    (hstep : s.step a = some t) : t.Numbered := by
  cases step_sound hstep with
  | scheduleAt time phase callback hc =>
    rcases scheduleAt_cases hinv.queue.readable time phase callback with
      ⟨⟨e, he⟩, -⟩ | ⟨cb, next, exhausted, -, -, -, hx, hn, hok⟩
    · rw [he]
      exact h
    · rw [hok]
      have hbelow := h.below hx
      refine ⟨List.pairwise_append.mpr ⟨h.ascending, by simp, fun r hr r' hr' => ?_⟩,
        fun hopen r hr => ?_⟩
      · rw [List.mem_singleton.mp hr']
        exact hbelow r hr
      · rcases hn with ⟨rfl, -⟩ | ⟨rfl, hn⟩
        · cases hopen
        change r.key.sequence.value.val < next.val
        rcases List.mem_append.mp hr with hr | hr
        · have hlt := hbelow r hr
          omega
        · rw [List.mem_singleton.mp hr]
          dsimp only
          omega
  | run hc => exact h.congr rfl rfl rfl
  | fire event hc hf => exact h.congr rfl rfl rfl
  | leave time kernel hc hn =>
    obtain ⟨hnext, hexhausted⟩ := nextRecord_sequence hinv.buckets.ascending hn
    exact h.congr rfl hnext hexhausted
  | call time kernel record hc hn =>
    obtain ⟨hnext, hexhausted⟩ := nextRecord_sequence hinv.buckets.ascending hn
    exact h.congr rfl hnext hexhausted
  | finish status time record hc => rcases status with e | u <;> exact h.congr rfl rfl rfl
  | finishRun hc hr => exact h.congr rfl rfl rfl

lemma Numbered.leads {s t : System κ} (hinv : s.Inv) (h : s.Numbered) {actions : List (Action κ)}
    (hr : s.Leads actions t) : t.Numbered :=
  (run_invariant (P := fun m => m.Inv ∧ m.Numbered) (A := fun _ => True)
    (fun _ _ _ hm _ hstep => ⟨hm.1.step hstep, hm.2.step hm.1 hstep⟩) ⟨hinv, h⟩
    (fun _ _ => trivial) hr).2

end System

/-! ### The order of the requests -/

/-- The requests by their start; those of one start as they are listed. -/
def byStart (requests : List TransmissionExecutionRequest) : List TransmissionExecutionRequest :=
  requests.insertionSort fun a b => a.startedAt ≤ b.startedAt

/-- The requests of the `TxStart` events among these, with their sequence ids. -/
def numberedStarts (records : List (EventRecord CycleEvent)) :
    List (TransmissionExecutionRequest × ℕ) :=
  records.filterMap fun record =>
    record.callback.started.map fun request => (request, record.key.sequence.value.val)

lemma numberedStarts_fst (records : List (EventRecord CycleEvent)) :
    (numberedStarts records).map Prod.fst = startedOf records := by
  simp only [numberedStarts, startedOf, List.map_filterMap, Option.map_map, Function.comp_def,
    Option.map_id']

lemma numberedStarts_eq_some {record : EventRecord CycleEvent}
    {p : TransmissionExecutionRequest × ℕ}
    (h : (record.callback.started.map fun request =>
      (request, record.key.sequence.value.val)) = some p) :
    record.callback.started = some p.1 ∧ p.2 = record.key.sequence.value.val := by
  obtain ⟨request, hrequest, rfl⟩ := Option.map_eq_some_iff.mp h
  exact ⟨hrequest, rfl⟩

/-- A `TxStart` event is filed under its phase, at the start of its request. -/
def StartsInTime (record : EventRecord CycleEvent) : Prop :=
  ∀ request, record.callback.started = some request →
    record.key.time = request.startedAt ∧ record.key.phase = .kTxStart

lemma startedOf_executed {s : System CycleEvent} (hinv : s.Inv) (hnumbered : s.Numbered)
    (hperm : s.executed.Perm s.accepted) (hstarts : ∀ record ∈ s.accepted, StartsInTime record) :
    startedOf s.executed = byStart (startedOf s.accepted) := by
  have haccepted : Ascending Prod.snd (numberedStarts s.accepted) := by
    refine List.pairwise_filterMap.mpr (hnumbered.ascending.imp fun {r r'} hlt p hp p' hp' => ?_)
    rw [(numberedStarts_eq_some hp).2, (numberedStarts_eq_some hp').2]
    exact hlt
  have hexecuted : (numberedStarts s.executed).Pairwise
      (Precedes (fun p => p.1.startedAt) Prod.snd) := by
    refine List.pairwise_filterMap.mpr (hinv.increasing.imp_of_mem ?_)
    intro r r' hr hr' hlt p hp p' hp'
    obtain ⟨hstarted, hnumber⟩ := numberedStarts_eq_some hp
    obtain ⟨hstarted', hnumber'⟩ := numberedStarts_eq_some hp'
    obtain ⟨htime, hphase⟩ := hstarts r (hperm.mem_iff.mp hr) p.1 hstarted
    obtain ⟨htime', hphase'⟩ := hstarts r' (hperm.mem_iff.mp hr') p'.1 hstarted'
    rw [EventKey.lt_iff, htime, htime', hphase, hphase'] at hlt
    unfold Precedes
    rw [hnumber, hnumber']
    rcases hlt with hlt | ⟨heq, hlt | ⟨-, hlt⟩⟩
    · exact Or.inl hlt
    · exact absurd hlt (lt_irrefl _)
    · exact Or.inr ⟨heq, hlt⟩
  have hsorted : numberedStarts s.executed =
      (numberedStarts s.accepted).insertionSort fun p p' => p.1.startedAt ≤ p'.1.startedAt :=
    eq_insertionSort (hperm.filterMap _) haccepted hexecuted
  rw [← numberedStarts_fst s.executed, ← numberedStarts_fst s.accepted, hsorted]
  exact List.map_insertionSort _ _ Prod.fst _ fun _ _ _ _ => Iff.rfl

/-! ### Runs of a plan -/

/-- The requests of a plan, in the order their events are scheduled. -/
def CyclePlan.scheduled (order : List (SimTime × CycleEvent)) :
    List TransmissionExecutionRequest := order.filterMap fun e => e.2.started

/-- A `Run` of a plan has returned: its events were scheduled in an order, in a dispatcher that
began with some clock and sequence id, and the moves inside `Run` were any. -/
structure CyclePlan.Returned (plan : CyclePlan) (providers : Providers)
    (order : List (SimTime × CycleEvent)) (c : SignalLifecycle) : Prop where
  planned : order.Perm plan.events
  run : ∃ firstSequence now moves last, (0 ≤ now ∧ now ≤ kMax) ∧
    plan.Feasible providers firstSequence now ∧ (∀ m ∈ moves, m.isDispatch = true) ∧
    SignalLifecycle.Leads providers (plan.init firstSequence now)
      (CyclePlan.filing order ++ .run :: moves) last ∧
    last.step providers .finishRun = some c

namespace SignalLifecycle

variable {providers : Providers}

lemma startedOf_accepted_step {c c' : SignalLifecycle} {m : Move} (h : c.system.Sound)
    (hm : m.isDispatch = true) (hstep : c.step providers m = some c') :
    startedOf c'.system.accepted = startedOf c.system.accepted := by
  cases step_sound hstep with
  | schedule | change | finish => cases hm
  | drive move action system ha hs hmove =>
    exact congrArg startedOf (System.finished_of_drives ha hs).2
  | callback time record status next system hc hcall hs =>
    obtain ⟨hnext, -, -, -, ⟨records, haccepted, hrecords⟩, -⟩ :=
      call_contained h (Or.inr ⟨time, record, hc⟩) hcall
    obtain ⟨-, -, -, -, hfinish, -⟩ := hnext.finish hs
    dsimp only
    rw [hfinish, haccepted, CyclePlan.startedOf_append,
      CyclePlan.startedOf_eq_nil fun r hr => (hrecords r hr).2.2, List.append_nil]

lemma startedOf_accepted_leads {c c' : SignalLifecycle} {moves : List Move}
    (h : c.system.Sound) (hmoves : ∀ m ∈ moves, m.isDispatch = true)
    (hr : Leads providers c moves c') :
    startedOf c'.system.accepted = startedOf c.system.accepted :=
  (run_invariant (P := fun m => m.system.Sound ∧
      startedOf m.system.accepted = startedOf c.system.accepted)
    (A := fun m => m.isDispatch = true) (fun s m t hs hm hstep => by
      obtain ⟨actions, hleads⟩ := step_leads hs.1 hstep
      exact ⟨hs.1.leads hleads, (startedOf_accepted_step hs.1 hm hstep).trans hs.2⟩)
    ⟨h, rfl⟩ hmoves hr).2

lemma OnCourse.startsInTime {plan : CyclePlan} {firstSequence : EventSequenceId}
    {c : SignalLifecycle} (h : OnCourse plan firstSequence c) :
    ∀ record ∈ c.system.accepted, StartsInTime record := by
  intro record hmem request hrequest
  have hevent : record.callback = .txStart request := by
    rcases hcb : record.callback with _ | _ | _ | _ | _ <;>
      simp_all [CycleEvent.started]
  have hopen : record.callback.isOpen = true := by rw [hevent]; rfl
  refine ⟨?_, ?_⟩
  · rcases CyclePlan.mem_events.mp (h.files.planned record hmem hopen) with heq | ⟨_, -, heq⟩
    · have hcb : record.callback = .cycleClose := congrArg Prod.snd heq
      rw [hevent] at hcb
      cases hcb
    · have hcb : record.callback = .txStart _ := congrArg Prod.snd heq
      rw [hevent] at hcb
      cases hcb
      exact congrArg Prod.fst heq
  · rw [(h.wired.fits record hmem).phase, hevent]
    rfl

lemma means_of_returned {medium : Medium} (hproviders : providers.Follow medium)
    {plan : CyclePlan} {order : List (SimTime × CycleEvent)} {c : SignalLifecycle}
    (h : plan.Returned providers order c) :
    c.outcome.Means medium plan.workingState plan.services.ids.transmissionIdsTaken
      (byStart (CyclePlan.scheduled order)) plan.cycleCloseTime := by
  obtain ⟨firstSequence, now, moves, last, hnow, hplan, hmoves, hr, hfinish⟩ := h.run
  obtain ⟨begun, htimed, hbegun, hrun, hlast, -⟩ :=
    OnCourse.of_leads hnow hplan h.planned hmoves hr
  obtain ⟨⟨run, hsingle, hsucceeded⟩, hperm, -, -, -, hcommitted, -⟩ := hlast.finishes hfinish
  have hleads : Leads providers (plan.init firstSequence now)
      ((CyclePlan.filing order ++ .run :: moves) ++ [.finishRun]) c :=
    run_concat_eq_some.mpr ⟨last, hr, hfinish⟩
  have hchanges : ∀ m ∈ CyclePlan.filing order ++ .run :: moves, m.isChange = false :=
    CyclePlan.isChange_of_mem hmoves
  have hended : Ended providers plan.services plan.workingState plan.cycleCloseTime c :=
    ⟨⟨firstSequence, now, plan.store, plan.expectedVersion, _, run, hnow,
      ⟨hleads, hsingle, hsucceeded⟩, hchanges⟩, hcommitted⟩
  -- the requests were accepted in the order of scheduling, and were executed by their start
  have hinit := System.sound_init (κ := CycleEvent) firstSequence hnow
  obtain ⟨actions, hactions⟩ := leads_system hinit hleads
  have hinv := (hinit.leads hactions).inv
  have hnumbered := (System.numbered_init firstSequence now).leads hinit.inv hactions
  have hstep : last.drive .finishRun = some c := hfinish
  obtain ⟨system, hs, rfl⟩ := drive_eq_some hstep
  have haccepted : system.accepted = last.system.accepted :=
    (System.finished_of_drives (a := .finishRun) trivial hs).2
  have hscheduled : startedOf system.accepted = CyclePlan.scheduled order := by
    rw [haccepted, startedOf_accepted_leads hbegun.sound hmoves hrun, ← htimed,
      CyclePlan.scheduled, List.filterMap_map]
    rfl
  have horder := startedOf_executed hinv hnumbered hperm.symm (haccepted ▸ hlast.startsInTime)
  rw [← hscheduled, ← horder]
  exact hended.means hproviders

/-- **A feasible plan has one outcome.** Two runs of it send its requests by their start, those
of one start as they were scheduled. If that is the same order they make the same sessions, the
same receptions but for their ids, and the same snapshot: whatever the order of the other
events, the first sequence ids, the clocks, the moves of the dispatchers, and what the providers
of one medium remember. -/
theorem plan_outcome {providers' : Providers} {medium : Medium}
    (hproviders : providers.Follow medium) (hproviders' : providers'.Follow medium)
    {plan : CyclePlan} {order order' : List (SimTime × CycleEvent)} {c c' : SignalLifecycle}
    (h : plan.Returned providers order c) (h' : plan.Returned providers' order' c') :
    c.sessions.map Prod.fst = byStart (CyclePlan.scheduled order) ∧
    (byStart (CyclePlan.scheduled order) = byStart (CyclePlan.scheduled order') →
      c.sessions = c'.sessions ∧
      (c.runtime.results.sessions.map ReceptionSession.eraseId).Perm
        (c'.runtime.results.sessions.map ReceptionSession.eraseId) ∧
      c.runtime.store.currentSnapshot = c'.runtime.store.currentSnapshot) := by
  have hmeans := means_of_returned hproviders h
  have hmeans' := means_of_returned hproviders' h'
  refine ⟨hmeans.requests, fun hsame => ?_⟩
  rw [← hsame] at hmeans'
  exact hmeans.unique hmeans'

lemma exists_returned {plan : CyclePlan} {firstSequence : EventSequenceId} {now : ℤ}
    (hnow : 0 ≤ now ∧ now ≤ kMax) (hplan : plan.Feasible providers firstSequence now)
    {order : List (SimTime × CycleEvent)} (horder : order.Perm plan.events) :
    ∃ c, plan.Returned providers order c := by
  obtain ⟨begun, hbegun, hcourse, -⟩ := OnCourse.begins hnow hplan horder
  obtain ⟨later, c, hlater, -, hreturn⟩ := hcourse.returns hplan
  obtain ⟨last, hlast, hfinish⟩ := run_concat_eq_some.mp hreturn
  have hsplit : CyclePlan.filing order ++ .run :: later =
      (CyclePlan.filing order ++ [.run]) ++ later := by simp
  have hr : Leads providers (plan.init firstSequence now)
      (CyclePlan.filing order ++ .run :: later) last := by
    rw [hsplit]
    exact run_append_eq_some.mpr ⟨begun, hbegun, hlast⟩
  exact ⟨c, horder, firstSequence, now, later, last, hnow, hplan, hlater, hr, hfinish⟩

open ReceiverProcessor in
theorem plan_outcome_pair :
    ∃ c c' : SignalLifecycle,
      pairPlan.Returned (bandProviders 1000 100) pairPlan.events c ∧
      pairPlan.Returned (bandProviders 1000 100) pairPlan.events.reverse c' ∧
      c.sessions = c'.sessions ∧
      (c.runtime.results.sessions.map ReceptionSession.eraseId).Perm
        (c'.runtime.results.sessions.map ReceptionSession.eraseId) := by
  obtain ⟨c, h⟩ := exists_returned (by decide) feasible_pairPlan (List.Perm.refl _)
  obtain ⟨c', h'⟩ := exists_returned (by decide) feasible_pairPlan
    (List.reverse_perm pairPlan.events)
  have hfollow := follow_bandProviders 1000 100
  obtain ⟨-, hsame⟩ := plan_outcome hfollow hfollow h h'
  obtain ⟨hsessions, hreceptions, -⟩ := hsame rfl
  exact ⟨c, c', h, h', hsessions, hreceptions⟩

end SignalLifecycle

end Ns3Factory
