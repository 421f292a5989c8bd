import Ns3Factory.HandlerReordering
import Ns3Factory.SignalScheduling

/-!
The order in which the events of a cycle are scheduled does not matter.

All arrivals and finalizes of some signals and one close are scheduled on a fresh dispatcher
before `Run`. The order they are scheduled in decides the sequence ids, so it can decide the
order within a slot and nothing else; and handlers of one slot can be swapped. What is left of
the order are the reception ids.
-/

namespace Ns3Factory

open StdAlgorithm Transition

/-- The events of a cycle with these signals. -/
def eventsOf (signals : List ReceivedSignal) (closeTime : SimTime) :
    List (SimTime × CycleEvent) :=
  (closeTime, .cycleClose) :: signals.flatMap fun signal =>
    [(signal.firstArrivalAt, .signalArrival signal),
      (signal.lastEffectEndAt, .sessionFinalize signal)]

/-- Schedules the events in their order, up to the first that is refused. -/
def System.scheduleAll :
    List (SimTime × CycleEvent) → System CycleEvent → Status × System CycleEvent
  | [], s => (.ok (), s)
  | (time, event) :: rest, s =>
    match s.scheduleAt time event.phase (some event) with
    | (.error e, s) => (.error e, s)
    | (.ok _, s) => scheduleAll rest s

/-- The cycle once the events were scheduled. -/
def SignalLifecycle.scheduled (c : SignalLifecycle) (events : List (SimTime × CycleEvent)) :
    SignalLifecycle :=
  { c with system := (System.scheduleAll events c.system).2 }

/-! ### The events -/

lemma mem_eventsOf {signals : List ReceivedSignal} {closeTime : SimTime}
    {e : SimTime × CycleEvent} :
    e ∈ eventsOf signals closeTime ↔ e = (closeTime, .cycleClose) ∨ ∃ signal ∈ signals,
      e = (signal.firstArrivalAt, .signalArrival signal) ∨
        e = (signal.lastEffectEndAt, .sessionFinalize signal) := by
  simp [eventsOf]

lemma isHandled_of_mem {signals : List ReceivedSignal} {closeTime : SimTime}
    {e : SimTime × CycleEvent} (he : e ∈ eventsOf signals closeTime) :
    e.2.isHandled = true := by
  rcases mem_eventsOf.mp he with rfl | ⟨signal, -, rfl | rfl⟩ <;> rfl

lemma finalizedIn_eventsOf (signals : List ReceivedSignal) (closeTime : SimTime) :
    CycleSignalRuntime.finalizedIn (eventsOf signals closeTime) = signals := by
  unfold eventsOf CycleSignalRuntime.finalizedIn
  induction signals with
  | nil => rfl
  | cons signal signals ih => simpa [CycleEvent.finalized] using ih

lemma slot_lt_close {signals : List ReceivedSignal} {closeTime : SimTime}
    (hends : ∀ signal ∈ signals, signal.lastEffectEndAt ≤ closeTime) {e : SimTime × CycleEvent}
    (he : e ∈ eventsOf signals closeTime) :
    e = (closeTime, .cycleClose) ∨ slot e < slot (closeTime, .cycleClose) := by
  have hlt : ∀ (time : SimTime) (event : CycleEvent), time ≤ closeTime →
      event.phase < EventPhase.kCycleClose → slot (time, event) < slot (closeTime, .cycleClose) :=
    fun time event htime hphase => Prod.Lex.toLex_lt_toLex.mpr
      (htime.lt_or_eq.imp_right fun heq => ⟨heq, hphase⟩)
  rcases mem_eventsOf.mp he with rfl | ⟨signal, hsignal, rfl | rfl⟩
  · exact Or.inl rfl
  · refine Or.inr (hlt _ _ ?_ ?_)
    · exact signal.firstArrivalAt_le_lastEffectEndAt.trans (hends signal hsignal)
    · change EventPhase.kSignalArrival < EventPhase.kCycleClose
      decide
  · refine Or.inr (hlt _ _ (hends signal hsignal) ?_)
    change EventPhase.kSessionFinalize < EventPhase.kCycleClose
    decide

lemma exists_close_last {signals : List ReceivedSignal} {closeTime : SimTime}
    (hends : ∀ signal ∈ signals, signal.lastEffectEndAt ≤ closeTime)
    {order : List (SimTime × CycleEvent)} (hp : order.Perm (eventsOf signals closeTime))
    (hsorted : order.Pairwise fun a b => slot a ≤ slot b) :
    ∃ before, order = before ++ [(closeTime, .cycleClose)] := by
  have hclose : (closeTime, CycleEvent.cycleClose) ∈ order :=
    hp.mem_iff.mpr (mem_eventsOf.mpr (Or.inl rfl))
  rcases List.eq_nil_or_concat order with rfl | ⟨before, last, rfl⟩
  · cases hclose
  refine ⟨before, ?_⟩
  rw [List.concat_eq_append] at hp hsorted hclose ⊢
  rcases slot_lt_close hends (hp.mem_iff.mp (by simp : last ∈ before ++ [last])) with
    rfl | hlt
  · rfl
  · rcases List.mem_append.mp hclose with hmem | hmem
    · have hle := (List.pairwise_append.mp hsorted).2.2 _ hmem last (by simp)
      exact absurd hlt (not_lt.mpr hle)
    · rw [List.mem_singleton.mp hmem] at hlt
      exact absurd hlt (lt_irrefl _)

/-! ### Scheduling -/

namespace System

lemma scheduleAt_runs (s : System CycleEvent) (time : SimTime) (phase : EventPhase)
    (callback : Option CycleEvent) : (s.scheduleAt time phase callback).2.runs = s.runs := by
  unfold scheduleAt
  split <;> rfl

lemma scheduleAll_succeeded_iff {events : List (SimTime × CycleEvent)} {s : System CycleEvent}
    (hinv : s.Inv) (hc : s.control = .idle) (hexec : s.executed = [])
    (hphase : ∀ e ∈ events, isValidPhase e.2.phase = true) :
    Result.succeeded (scheduleAll events s).1 ↔
      (∀ e ∈ events, s.kernel.simulator.now ≤ e.1.nanoseconds) ∧
        events.length ≤ s.kernel.dispatcher.sequenceIdsLeft := by
  induction events generalizing s with
  | nil => simp [scheduleAll]
  | cons e rest ih =>
    obtain ⟨time, event⟩ := e
    obtain ⟨hvalid, hrest⟩ := List.forall_mem_cons.mp hphase
    have hadm : s.kernel.dispatcher.Admits time event.phase := by
      have hlast := hinv.last
      rw [LastInv, hexec] at hlast
      have hnone : s.kernel.dispatcher.lastDispatchTime = none := hlast
      intro floor hfloor
      rw [hinv.phaseFloor_eq (Or.inl hc), hnone, if_neg (by simp)] at hfloor
      cases hfloor
    rw [List.forall_mem_cons, List.length_cons]
    rcases scheduleAt_admitted hinv (Or.inl hc) time event.phase hvalid event with
      ⟨⟨hnow, -, -⟩, key, m, hm, hminv, hmc, hmexec, hmnow, hleft⟩ | ⟨hnot, e, he⟩
    · simp only [scheduleAll, hm]
      rw [ih hminv (hmc.trans hc) (hmexec.trans hexec) hrest, hmnow, ← hleft]
      constructor
      · rintro ⟨hlater, hids⟩
        exact ⟨⟨hnow, hlater⟩, by omega⟩
      · rintro ⟨⟨-, hlater⟩, hids⟩
        exact ⟨hlater, by omega⟩
    · simp only [scheduleAll, he, Result.succeeded_error, Bool.false_eq_true, false_iff]
      rintro ⟨⟨hnow, -⟩, hids⟩
      exact hnot ⟨hnow, hadm, by omega⟩

lemma scheduleAll_ok {events : List (SimTime × CycleEvent)} {s : System CycleEvent}
    (h : s.Sound) (hc : s.control = .idle)
    (hok : Result.succeeded (scheduleAll events s).1) :
    ∃ records t, (scheduleAll events s).2 = t ∧ t.Sound ∧ t.control = .idle ∧
      t.executed = s.executed ∧ t.runs = s.runs ∧ t.accepted = s.accepted ++ records ∧
      records.map EventRecord.timed = events ∧
      ∀ record ∈ records, record.key.phase = record.callback.phase := by
  induction events generalizing s with
  | nil => exact ⟨[], s, rfl, h, hc, rfl, rfl, by simp, rfl, by simp⟩
  | cons e rest ih =>
    obtain ⟨time, event⟩ := e
    rcases h.scheduleAt_cases (Or.inl hc) time event.phase event with
      ⟨err, herr⟩ | ⟨key, m, hm, hstep, htime, hphase, hacc, hctl, hexec⟩
    · simp [scheduleAll, herr] at hok
    simp only [scheduleAll, hm] at hok ⊢
    have hruns : m.runs = s.runs := by
      have := s.scheduleAt_runs time event.phase (some event)
      rwa [hm] at this
    obtain ⟨records, t, ht, hsound, hctl', hexec', hruns', hacc', hmap, hphases⟩ :=
      ih (h.step hstep) (hctl.trans hc) hok
    refine ⟨⟨key, event⟩ :: records, t, ht, hsound, hctl', hexec'.trans hexec,
      hruns'.trans hruns, ?_, ?_, List.forall_mem_cons.mpr ⟨hphase, hphases⟩⟩
    · rw [hacc', hacc, List.append_assoc]
      rfl
    · rw [List.map_cons, hmap, ← htime]
      rfl

end System

/-! ### Outcomes -/

namespace CycleSignalRuntime

variable [DoubleArithmetic] {providers : Providers} {r r' start : CycleSignalRuntime}

/-- The results agree but for the reception ids, of which the same were issued; the ledgers are
empty and the snapshots equal. -/
structure SameResults (r r' : CycleSignalRuntime) : Prop where
  sessions : r.results.sessions.map ReceptionSession.eraseId =
    r'.results.sessions.map ReceptionSession.eraseId
  receptionIds : ∀ id, id ∈ r.results.sessions.map (fun s => s.reception.receptionId) ↔
    id ∈ r'.results.sessions.map (fun s => s.reception.receptionId)
  ledger : r.ledger.signals = [] ∧ r'.ledger.signals = []
  store : r.store = r'.store

lemma handle_cycleClose_ledger {time : SimTime}
    (h : r.handle providers (time, .cycleClose) = some r') : r'.ledger.signals = [] := by
  simp only [handle] at h
  rcases r.handleCycleClose_cases time with ⟨delta, store, -, -, -, -, -, hok⟩ | ⟨e, herr⟩
  · rw [hok] at h
    obtain rfl := Option.some.inj h
    rfl
  · rw [herr] at h
    cases h

lemma run_ofDesired {events : List (SimTime × CycleEvent)}
    (hstart : ∀ s ∈ start.results.sessions, OfDesired s)
    (h : Transition.run (handle providers) start events = some r) :
    ∀ s ∈ r.results.sessions, OfDesired s := by
  refine run_invariant (P := fun r => ∀ s ∈ r.results.sessions, OfDesired s)
    (A := fun _ => True) (fun r e t hr _ hstep => ?_) hstart (fun _ _ => trivial) h
  rcases handle_results hstep with ⟨-, hkeep⟩ | ⟨session, -, hof, happend⟩
  · rw [hkeep]
    exact hr
  · intro s hs
    rw [happend] at hs
    rcases List.mem_cons.mp ((r.results.append_perm session).mem_iff.mp hs) with rfl | hs
    · exact hof
    · exact hr s hs

/-- What a replay of all events leaves. -/
structure Completed (signals : List ReceivedSignal) (r : CycleSignalRuntime) : Prop where
  ascending : Ascending arrivalOrder (r.results.sessions.map ReceptionSession.eraseId)
  ledger : r.ledger.signals = []

lemma completed_of_run {signals : List ReceivedSignal} {closeTime : SimTime}
    (hdistinct : signals.Pairwise fun s s' => ¬ samePair s s')
    (hends : ∀ signal ∈ signals, signal.lastEffectEndAt ≤ closeTime)
    {order : List (SimTime × CycleEvent)} (hp : order.Perm (eventsOf signals closeTime))
    (hsorted : order.Pairwise fun a b => slot a ≤ slot b)
    (hstart : start.results.sessions = [])
    (h : Transition.run (handle providers) start order = some r) : Completed signals r := by
  constructor
  · have hof := run_ofDesired (by simp [hstart]) h
    refine eraseId_ascending hof ?_
    have hall := run_results h
    rw [hstart, List.map_nil, List.append_nil] at hall
    have hfinalized : (finalizedIn order).Perm signals := by
      rw [← finalizedIn_eventsOf signals closeTime]
      exact hp.filterMap _
    exact hdistinct.perm (hall.trans hfinalized).symm fun {_ _} => samePair_symm
  · obtain ⟨before, rfl⟩ := exists_close_last hends hp hsorted
    obtain ⟨m, -, hclose⟩ := run_concat_eq_some.mp h
    exact handle_cycleClose_ledger hclose

omit [DoubleArithmetic] in
lemma Alike.sameResults {signals : List ReceivedSignal} (h : Alike r r')
    (hr : Completed signals r) (hr' : Completed signals r') : SameResults r r' where
  sessions := hr.ascending.eq_of_perm hr'.ascending h.sessions
  receptionIds _ := h.receptionIds.mem_iff
  ledger := ⟨hr.ledger, hr'.ledger⟩
  store := by rw [h.frame]

end CycleSignalRuntime

namespace SignalLifecycle

open ReceiverProcessor CycleSignalRuntime

section

variable [DoubleArithmetic] {providers : Providers}

omit [DoubleArithmetic] in
lemma preset_scheduled {firstSequence : EventSequenceId} {now : ℤ}
    (hnow : 0 ≤ now ∧ now ≤ kMax) (services : Services) (workingState : CycleWorkingState)
    (store : WorldStateStore) (expectedVersion : SnapshotVersion) (cycleCloseTime : SimTime)
    {order : List (SimTime × CycleEvent)} (hhandled : ∀ e ∈ order, e.2.isHandled = true)
    (hok : Result.succeeded (System.scheduleAll order (System.init firstSequence now)).1) :
    ∃ c, (init firstSequence now services workingState store expectedVersion
        cycleCloseTime).scheduled order = c ∧ c.Preset ∧
      c.system.accepted.map EventRecord.timed = order ∧
      c.runtime = .create services workingState store .empty .empty expectedVersion
        cycleCloseTime := by
  obtain ⟨records, t, ht, hsound, hctl, hexec, hruns, hacc, hmap, hphase⟩ :=
    System.scheduleAll_ok (System.sound_init firstSequence hnow) rfl hok
  have hacc' : t.accepted = records := hacc
  refine ⟨_, rfl, ⟨?_, ?_, ?_, ?_, ?_, ?_⟩, ?_, rfl⟩
  all_goals simp only [scheduled, init, ht]
  · exact hsound
  · exact hctl
  · exact hexec
  · exact hruns
  · rw [hacc']
    exact hphase
  · rw [hacc']
    intro record hr
    exact hhandled record.timed (hmap ▸ List.mem_map_of_mem hr)
  · rw [hacc']
    exact hmap

lemma Preset.follows (hproviders : Stateless providers) {c : SignalLifecycle} (hc : c.Preset)
    {order : List (SimTime × CycleEvent)}
    (hp : order.Perm (c.system.accepted.map EventRecord.timed))
    (hsorted : order.Pairwise fun a b => slot a ≤ slot b) {r : CycleSignalRuntime}
    (hr : Transition.run (handle providers) c.runtime order = some r) {run : RunRecord}
    {last : SignalLifecycle} (h : RunsTo providers c run last) :
    run.result = .ok () ∧ Alike r last.runtime := by
  obtain ⟨order', hperm, hsorted', hend⟩ := hc.replay h
  obtain ⟨t, ht, halike⟩ := run_handle_reorder hproviders (hp.trans hperm.symm) hsorted hsorted'
    (Alike.refl c.runtime) hr
  rcases hend with ⟨hok, hrun⟩ | ⟨-, hnone⟩
  · obtain rfl := Option.some.inj (ht.symm.trans hrun)
    exact ⟨hok, halike⟩
  · rw [ht] at hnone; cases hnone

lemma Preset.alike (hproviders : Stateless providers) {c c' : SignalLifecycle}
    (hc : c.Preset) (hc' : c'.Preset) (hruntime : c'.runtime = c.runtime)
    (hp : (c.system.accepted.map EventRecord.timed).Perm
      (c'.system.accepted.map EventRecord.timed))
    {run run' : RunRecord} {last last' : SignalLifecycle} (h : RunsTo providers c run last)
    (h' : RunsTo providers c' run' last') (hok : run.result = .ok ()) :
    run'.result = .ok () ∧ Alike last.runtime last'.runtime := by
  obtain ⟨order, hperm, hsorted, ⟨-, hrun⟩ | ⟨⟨e, herr⟩, -⟩⟩ := hc.replay h
  · exact hc'.follows hproviders (hperm.trans hp) hsorted (hruntime ▸ hrun) h'
  · rw [hok] at herr; cases herr

lemma Preset.completed {c : SignalLifecycle} (hc : c.Preset) {signals : List ReceivedSignal}
    {closeTime : SimTime} (hdistinct : signals.Pairwise fun s s' => ¬ samePair s s')
    (hends : ∀ signal ∈ signals, signal.lastEffectEndAt ≤ closeTime)
    (hp : (c.system.accepted.map EventRecord.timed).Perm (eventsOf signals closeTime))
    (hresults : c.runtime.results.sessions = []) {run : RunRecord} {last : SignalLifecycle}
    (h : RunsTo providers c run last) (hok : run.result = .ok ()) :
    Completed signals last.runtime := by
  obtain ⟨order, hperm, hsorted, ⟨-, hrun⟩ | ⟨⟨e, herr⟩, -⟩⟩ := hc.replay h
  · exact completed_of_run hdistinct hends (hperm.trans hp) hsorted hresults hrun
  · rw [hok] at herr; cases herr

/-- **The order of scheduling does not influence the results.** The events of some signals and
the close of their cycle, scheduled in two orders, run to the same end: both `Run`s return, and
fail or succeed together. In success the sessions agree but for the reception ids, of which the
same were issued, the ledgers are empty, and the committed snapshots are equal. -/
theorem scheduling_order (hproviders : Stateless providers) {now : ℤ}
    (hnow : 0 ≤ now ∧ now ≤ kMax) {signals : List ReceivedSignal}
    (hdistinct : signals.Pairwise fun s s' => ¬ samePair s s') (services : Services)
    (workingState : CycleWorkingState) (store : WorldStateStore)
    (expectedVersion : SnapshotVersion) {cycleCloseTime : SimTime}
    (hends : ∀ signal ∈ signals, signal.lastEffectEndAt ≤ cycleCloseTime)
    {first first' : EventSequenceId} {order order' : List (SimTime × CycleEvent)}
    (hp : order.Perm (eventsOf signals cycleCloseTime))
    (hp' : order'.Perm (eventsOf signals cycleCloseTime))
    (hok : Result.succeeded (System.scheduleAll order (System.init first now)).1)
    (hok' : Result.succeeded (System.scheduleAll order' (System.init first' now)).1) :
    let c := (init first now services workingState store expectedVersion
      cycleCloseTime).scheduled order
    let c' := (init first' now services workingState store expectedVersion
      cycleCloseTime).scheduled order'
    (∃ run last, RunsTo providers c run last) ∧ (∃ run last, RunsTo providers c' run last) ∧
    ∀ run last run' last', RunsTo providers c run last → RunsTo providers c' run' last' →
      (run.result = .ok () ↔ run'.result = .ok ()) ∧
      (run.result = .ok () → SameResults last.runtime last'.runtime) := by
  obtain ⟨c, hdef, hc, hmap, hruntime⟩ := preset_scheduled hnow services workingState store
    expectedVersion cycleCloseTime (fun e he => isHandled_of_mem (hp.mem_iff.mp he)) hok
  obtain ⟨c', hdef', hc', hmap', hruntime'⟩ := preset_scheduled hnow services workingState store
    expectedVersion cycleCloseTime (fun e he => isHandled_of_mem (hp'.mem_iff.mp he)) hok'
  rw [hdef, hdef']
  have hsame : c'.runtime = c.runtime := hruntime'.trans hruntime.symm
  have hperm : (c.system.accepted.map EventRecord.timed).Perm
      (c'.system.accepted.map EventRecord.timed) := by
    rw [hmap, hmap']
    exact hp.trans hp'.symm
  refine ⟨hc.returns providers, hc'.returns providers, fun run last run' last' h h' => ?_⟩
  refine ⟨⟨fun hrun => ?_, fun hrun => ?_⟩, fun hrun => ?_⟩
  · exact (hc.alike hproviders hc' hsame hperm h h' hrun).1
  · exact (hc'.alike hproviders hc hsame.symm hperm.symm h' h hrun).1
  · obtain ⟨hrun', halike⟩ := hc.alike hproviders hc' hsame hperm h h' hrun
    refine halike.sameResults
      (hc.completed hdistinct hends (hmap ▸ hp) (by rw [hruntime]; rfl) h hrun)
      (hc'.completed hdistinct hends (hmap' ▸ hp') (by rw [hruntime']; rfl) h' hrun')

end

/-- The events of the two signals that arrive and end together, in the given order. -/
def pairEvents (first second : ReceivedSignal) : List (SimTime × CycleEvent) :=
  eventsOf [first, second] (.ofUInt32 9)

/-- The dispatcher runs both arrivals, both finalizes and the close. -/
def pairRun : List Move :=
  let bothCallbacks := [.next, .callback, .next, .callback, .next]
  .fire ⟨1, .ofUInt32 1⟩ :: bothCallbacks ++ .fire ⟨5, .ofUInt32 5⟩ :: bothCallbacks ++
    [.fire ⟨9, .ofUInt32 9⟩, .next, .callback, .next]

lemma runsTo_pairRun (events : List (SimTime × CycleEvent)) (ids : List ReceptionId)
    (h : (Transition.run (step (bandProviders 1000 100)) (pairInit.scheduled events)
      (.run :: pairRun ++ [.finishRun])).map (fun c =>
        (c.system.runs.map fun run => Result.succeeded run.result,
          c.runtime.results.sessions.map fun s => s.reception.receptionId)) =
        some ([true], ids))
    (hfresh : (pairInit.scheduled events).system.runs = []) :
    ∃ run last, RunsTo (bandProviders 1000 100) (pairInit.scheduled events) run last ∧
      run.result = .ok () ∧
      last.runtime.results.sessions.map (fun s => s.reception.receptionId) = ids := by
  obtain ⟨last, hlast, hval⟩ := Option.map_eq_some_iff.mp h
  obtain ⟨hruns, hids⟩ := Prod.mk.inj hval
  obtain ⟨run, hsingle, hsucceeded⟩ := List.map_eq_singleton_iff.mp hruns
  refine ⟨run, last, ⟨pairRun, by decide, hlast, by rw [hsingle, hfresh]; rfl⟩, ?_, hids⟩
  rcases hresult : run.result with e | u
  · rw [hresult] at hsucceeded
    cases hsucceeded
  · rfl

theorem scheduling_order_pair :
    ∃ run last run' last',
      RunsTo (bandProviders 1000 100)
        (pairInit.scheduled (pairEvents earlySignal twinSignal)) run last ∧
      RunsTo (bandProviders 1000 100)
        (pairInit.scheduled (pairEvents twinSignal earlySignal)) run' last' ∧
      run.result = .ok () ∧ run'.result = .ok () ∧
      last.runtime.results.sessions.map (fun s => s.reception.receptionId) = [⟨0⟩, ⟨1⟩] ∧
      last'.runtime.results.sessions.map (fun s => s.reception.receptionId) = [⟨1⟩, ⟨0⟩] ∧
      SameResults last.runtime last'.runtime := by
  have hproviders : Stateless (bandProviders 1000 100) := ⟨fun _ _ _ => rfl, fun _ _ _ => rfl⟩
  have hdistinct : [earlySignal, twinSignal].Pairwise fun s s' => ¬ samePair s s' := by
    decide +kernel
  have hends : ∀ signal ∈ [earlySignal, twinSignal], signal.lastEffectEndAt ≤ .ofUInt32 9 := by
    decide +kernel
  have hperm : (pairEvents twinSignal earlySignal).Perm (pairEvents earlySignal twinSignal) := by
    unfold pairEvents eventsOf
    exact ((List.Perm.swap earlySignal twinSignal []).flatMap_right _).cons _
  have hok : Result.succeeded (System.scheduleAll (pairEvents earlySignal twinSignal)
      (System.init ⟨0⟩ 0)).1 := by decide +kernel
  have hok' : Result.succeeded (System.scheduleAll (pairEvents twinSignal earlySignal)
      (System.init ⟨0⟩ 0)).1 := by decide +kernel
  obtain ⟨run, last, h, hrun, hids⟩ := runsTo_pairRun
    (pairEvents earlySignal twinSignal) [⟨0⟩, ⟨1⟩] (by decide +kernel) rfl
  obtain ⟨run', last', h', hrun', hids'⟩ := runsTo_pairRun
    (pairEvents twinSignal earlySignal) [⟨1⟩, ⟨0⟩] (by decide +kernel) rfl
  obtain ⟨-, -, hsame⟩ := scheduling_order hproviders (by decide) hdistinct freshServices
    pairWorkingState (.create pairWorkingState.baseSnapshot) ⟨0⟩ hends (.refl _) hperm hok hok'
  exact ⟨run, last, run', last', h, h', hrun, hrun', hids, hids',
    (hsame run last run' last' h h').2 hrun⟩

end SignalLifecycle

end Ns3Factory
