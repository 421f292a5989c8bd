import Ns3Factory.FinishedEvents
import Ns3Factory.SignalScheduling

/-!
A cycle driven by the dispatcher.

The callback of a `TxStart` event calls `HandleTxStart` at the event time and schedules an
arrival and a finalize event for each signal of the session; the callbacks of these and of a
`CycleClose` event call the handler of their name. Outside `Run`, and inside the callback of
any other event, the rest of the platform runs: it may schedule all events but arrivals and
finalizes, and change what it shares with the cycle, except for the ledger and the results.
-/

namespace Ns3Factory

open StdAlgorithm Transition

/-- What the callback of an event does. -/
inductive CycleEvent
  | txStart (request : TransmissionExecutionRequest)
  | signalArrival (signal : ReceivedSignal)
  | sessionFinalize (desiredSignal : ReceivedSignal)
  | cycleClose
  | other (phase : EventPhase)

namespace CycleEvent

/-- The phase `EventDispatcher::Schedule` gives the event. -/
def phase : CycleEvent → EventPhase
  | txStart _ => .kTxStart
  | signalArrival _ => .kSignalArrival
  | sessionFinalize _ => .kSessionFinalize
  | cycleClose => .kCycleClose
  | other phase => phase

/-- The events that any part of the platform may schedule. -/
def isOpen : CycleEvent → Bool
  | signalArrival _ | sessionFinalize _ => false
  | _ => true

def started : CycleEvent → Option TransmissionExecutionRequest
  | txStart request => some request
  | _ => none

def arrived : CycleEvent → Option ReceivedSignal
  | signalArrival signal => some signal
  | _ => none

def finalized : CycleEvent → Option ReceivedSignal
  | sessionFinalize signal => some signal
  | _ => none

end CycleEvent

structure SignalLifecycle where
  system : System CycleEvent
  runtime : CycleSignalRuntime
  /-- The sessions `HandleTxStart` has returned, each with its request. -/
  sessions : List (TransmissionExecutionRequest × TransmissionSession)

inductive Move
  | schedule (time : SimTime) (event : CycleEvent)
  | change (services : Services) (workingState : CycleWorkingState) (store : WorldStateStore)
  | run
  | fire (event : Ns3Event)
  | next
  | callback
  | finish (status : Status)
  | finishRun

/-- The rest of the platform changes what it shares with the cycle. -/
def Move.isChange : Move → Bool
  | .change _ _ _ => true
  | _ => false

namespace SignalLifecycle

/-- A fresh dispatcher, and a runtime with an empty ledger and no results. -/
def init (firstSequence : EventSequenceId) (now : ℤ) (services : Services)
    (workingState : CycleWorkingState) (store : WorldStateStore)
    (expectedVersion : SnapshotVersion) (cycleCloseTime : SimTime) : SignalLifecycle where
  system := .init firstSequence now
  runtime := .create services workingState store .empty .empty expectedVersion cycleCloseTime
  sessions := []

/-- The nodes 0 and 1, in a cycle that closes at time 9. -/
def pairInit : SignalLifecycle :=
  init ⟨0⟩ 0 CycleSignalRuntime.freshServices ReceiverProcessor.pairWorkingState
    (.create ReceiverProcessor.pairWorkingState.baseSnapshot) ⟨0⟩ (.ofUInt32 9)

/-- The signals produced so far. -/
def produced (c : SignalLifecycle) : List ReceivedSignal :=
  c.sessions.flatMap fun p => p.2.receivedSignals

/-- The rest of the platform runs. -/
def isOutside (c : SignalLifecycle) : Bool :=
  match c.system.control with
  | .idle => true
  | .calling _ ⟨_, .other _⟩ => true
  | _ => false

variable [DoubleArithmetic]

/-- The callback of an event of the cycle, with the status it returns. -/
def call (providers : Providers) (c : SignalLifecycle) (time : SimTime) :
    CycleEvent → Option (Status × SignalLifecycle)
  | .txStart request =>
    match c.runtime.handleTxStart providers time request with
    | (.error e, runtime) => some (.error e, { c with runtime := runtime })
    | (.ok session, runtime) =>
      let (status, system) := System.scheduleSignals .signalArrival .sessionFinalize
        session.receivedSignals c.system
      some (status,
        { system := system, runtime := runtime, sessions := c.sessions ++ [(request, session)] })
  | .signalArrival signal =>
    let (status, runtime) := c.runtime.handleSignalArrival time signal
    some (status, { c with runtime := runtime })
  | .sessionFinalize desiredSignal =>
    let (status, runtime) := c.runtime.handleSessionFinalize providers time desiredSignal
    some (status, { c with runtime := runtime })
  | .cycleClose =>
    let (status, runtime) := c.runtime.handleCycleClose time
    some (status, { c with runtime := runtime })
  | .other _ => none

/-- A step of the dispatcher. -/
def drive (c : SignalLifecycle) (action : Action CycleEvent) : Option SignalLifecycle :=
  (c.system.step action).map fun system => { c with system := system }

def step (providers : Providers) (c : SignalLifecycle) : Move → Option SignalLifecycle
  | .schedule time event =>
    if c.isOutside && event.isOpen then c.drive (.scheduleAt time event.phase (some event))
    else none
  | .change services workingState store =>
    if c.isOutside then
      some { c with
        runtime := { c.runtime with
          services := services, workingState := workingState, store := store } }
    else none
  | .run => c.drive .run
  | .fire event => c.drive (.fire event)
  | .next => c.drive .next
  | .callback =>
    match c.system.control with
    | .calling time record =>
      (c.call providers time record.callback).bind fun (status, next) =>
        next.drive (.finish status)
    | _ => none
  | .finish status => if c.isOutside then c.drive (.finish status) else none
  | .finishRun => c.drive .finishRun

abbrev Leads (providers : Providers) (c : SignalLifecycle) (moves : List Move)
    (c' : SignalLifecycle) : Prop :=
  Transition.run (step providers) c moves = some c'

end SignalLifecycle

/-! ### What a `TxStart` callback schedules -/

/-- An event is filed under its phase, an arrival and a finalize at their times. -/
structure EventRecord.Fits (record : EventRecord CycleEvent) : Prop where
  phase : record.key.phase = record.callback.phase
  arrival : ∀ signal, record.callback.arrived = some signal →
    record.key.time = signal.firstArrivalAt
  finalize : ∀ signal, record.callback.finalized = some signal →
    record.key.time = signal.lastEffectEndAt

/-- The requests of the `TxStart` events among these. -/
def startedOf (records : List (EventRecord CycleEvent)) : List TransmissionExecutionRequest :=
  records.filterMap fun record => record.callback.started

/-- The signals of the arrival events among these. -/
def arrivedOf (records : List (EventRecord CycleEvent)) : List ReceivedSignal :=
  records.filterMap fun record => record.callback.arrived

/-- The signals of the finalize events among these. -/
def finalizedOf (records : List (EventRecord CycleEvent)) : List ReceivedSignal :=
  records.filterMap fun record => record.callback.finalized

section Lists

variable {records : List (EventRecord CycleEvent)} {record : EventRecord CycleEvent}

lemma arrivedOf_concat : arrivedOf (records ++ [record]) =
    arrivedOf records ++ record.callback.arrived.toList := by
  rw [arrivedOf, List.filterMap_append]
  cases h : record.callback.arrived <;> simp [h, arrivedOf]

lemma startedOf_concat : startedOf (records ++ [record]) =
    startedOf records ++ record.callback.started.toList := by
  rw [startedOf, List.filterMap_append]
  cases h : record.callback.started <;> simp [h, startedOf]

lemma finalizedOf_concat : finalizedOf (records ++ [record]) =
    finalizedOf records ++ record.callback.finalized.toList := by
  rw [finalizedOf, List.filterMap_append]
  cases h : record.callback.finalized <;> simp [h, finalizedOf]

lemma mem_arrivedOf {signal : ReceivedSignal} :
    signal ∈ arrivedOf records ↔ ∃ r ∈ records, r.callback.arrived = some signal :=
  List.mem_filterMap

lemma mem_finalizedOf {signal : ReceivedSignal} :
    signal ∈ finalizedOf records ↔ ∃ r ∈ records, r.callback.finalized = some signal :=
  List.mem_filterMap

end Lists

/-- The events of the signals: an arrival and a finalize for each. -/
structure Planned (signals : List ReceivedSignal) (records : List (EventRecord CycleEvent)) :
    Prop where
  fits : ∀ record ∈ records, record.Fits
  arrived : arrivedOf records = signals
  finalized : finalizedOf records = signals

lemma planned_of_isOpen {key : EventKey} {event : CycleEvent} (ho : event.isOpen = true)
    (hphase : key.phase = event.phase) : Planned [] [⟨key, event⟩] := by
  have hnone : event.arrived = none ∧ event.finalized = none := by
    cases event with
    | signalArrival | sessionFinalize => cases ho
    | _ => exact ⟨rfl, rfl⟩
  refine ⟨List.forall_mem_singleton.mpr ⟨hphase, by simp [hnone.1], by simp [hnone.2]⟩, ?_, ?_⟩
  · simp [arrivedOf, hnone.1]
  · simp [finalizedOf, hnone.2]

namespace System

lemma scheduleSignals_spec {s : System CycleEvent} (h : s.Sound) (hc : s.CanSchedule)
    (signals : List ReceivedSignal) :
    ∃ status actions t, scheduleSignals .signalArrival .sessionFinalize signals s = (status, t) ∧
      s.Leads actions t ∧ t.control = s.control ∧ t.executed = s.executed ∧
      (status = .ok () → ∃ records, t.accepted = s.accepted ++ records ∧
        Planned signals records) := by
  induction signals generalizing s with
  | nil =>
    exact ⟨.ok (), [], s, rfl, rfl, rfl, rfl, fun _ =>
      ⟨[], by simp, by simp, rfl, rfl⟩⟩
  | cons signal rest ih =>
    rcases h.scheduleAt_cases hc signal.firstArrivalAt .kSignalArrival (.signalArrival signal)
      with ⟨e, he⟩ | ⟨key, m, hm, hmstep, hmt, hmp, hma, hmc, hmx⟩
    · exact ⟨.error e, [], s, by simp only [scheduleSignals, scheduleSignalArrival, he], rfl,
        rfl, rfl, fun hok => by cases hok⟩
    have hm' := h.step hmstep
    have hcan : m.CanSchedule := by unfold CanSchedule; rw [hmc]; exact hc
    rcases hm'.scheduleAt_cases hcan signal.lastEffectEndAt .kSessionFinalize
      (.sessionFinalize signal) with ⟨e, he⟩ | ⟨key', n, hn, hnstep, hnt, hnp, hna, hnc, hnx⟩
    · exact ⟨.error e, [_], m, by simp only [scheduleSignals, scheduleSignalArrival,
        scheduleSessionFinalize, hm, he], run_cons_eq_some.mpr ⟨m, hmstep, rfl⟩, hmc, hmx,
        fun hok => by cases hok⟩
    have hcan' : n.CanSchedule := by unfold CanSchedule; rw [hnc]; exact hcan
    obtain ⟨status, actions, t, ht, hleads, htc, htx, hplanned⟩ := ih (hm'.step hnstep) hcan'
    refine ⟨status, _ :: _ :: actions, t, ?_, run_cons_eq_some.mpr ⟨m, hmstep,
      run_cons_eq_some.mpr ⟨n, hnstep, hleads⟩⟩, htc.trans (hnc.trans hmc),
      htx.trans (hnx.trans hmx), fun hok => ?_⟩
    · simp only [scheduleSignals, scheduleSignalArrival, scheduleSessionFinalize, hm, hn, ht]
    · obtain ⟨records, hacc, hfits, harr, hfin⟩ := hplanned hok
      refine ⟨⟨key, .signalArrival signal⟩ :: ⟨key', .sessionFinalize signal⟩ :: records,
        by simp [hacc, hna, hma], ?_, ?_, ?_⟩
      · simp only [List.forall_mem_cons]
        refine ⟨⟨hmp, ?_, ?_⟩, ⟨hnp, ?_, ?_⟩, hfits⟩
        all_goals simp [CycleEvent.arrived, CycleEvent.finalized, hmt, hnt]
      · simpa [arrivedOf, CycleEvent.arrived] using harr
      · simpa [finalizedOf, CycleEvent.finalized] using hfin

end System

/-! ### The moves -/

namespace SignalLifecycle

variable {providers : Providers}

/-- The enabled moves. -/
inductive Step [DoubleArithmetic] (providers : Providers) (c : SignalLifecycle) :
    Move → SignalLifecycle → Prop
  | schedule (time event system) (hc : c.isOutside = true) (ho : event.isOpen = true)
      (hs : c.system.step (.scheduleAt time event.phase (some event)) = some system) :
      Step providers c (.schedule time event) { c with system := system }
  | change (services workingState store) (hc : c.isOutside = true) :
      Step providers c (.change services workingState store) { c with
        runtime := { c.runtime with
          services := services, workingState := workingState, store := store } }
  | drive (move action system) (ha : System.Drives action)
      (hs : c.system.step action = some system) (hm : move = .finishRun → action = .finishRun) :
      Step providers c move { c with system := system }
  | callback (time record status next system) (hc : c.system.control = .calling time record)
      (hcall : c.call providers time record.callback = some (status, next))
      (hs : next.system.step (.finish status) = some system) :
      Step providers c .callback { next with system := system }
  | finish (status time key phase system)
      (hc : c.system.control = .calling time ⟨key, .other phase⟩)
      (hs : c.system.step (.finish status) = some system) :
      Step providers c (.finish status) { c with system := system }

lemma drive_eq_some {c c' : SignalLifecycle} {action : Action CycleEvent}
    (h : c.drive action = some c') :
    ∃ system, c.system.step action = some system ∧ c' = { c with system := system } := by
  obtain ⟨system, hs, rfl⟩ := Option.map_eq_some_iff.mp h
  exact ⟨system, hs, rfl⟩

lemma isOutside_cases {c : SignalLifecycle} (h : c.isOutside = true) :
    c.system.control = .idle ∨
      ∃ time key phase, c.system.control = .calling time ⟨key, .other phase⟩ := by
  unfold isOutside at h
  split at h
  · next hc => exact Or.inl hc
  · next time key phase hc => exact Or.inr ⟨time, key, phase, hc⟩
  · cases h

section

variable [DoubleArithmetic]

lemma step_sound {c c' : SignalLifecycle} {m : Move} (h : c.step providers m = some c') :
    Step providers c m c' := by
  cases m with
  | schedule time event =>
    simp only [step] at h
    split_ifs at h with hc
    obtain ⟨system, hs, rfl⟩ := drive_eq_some h
    rw [Bool.and_eq_true] at hc
    exact .schedule time event system hc.1 hc.2 hs
  | change services workingState store =>
    simp only [step] at h
    split_ifs at h with hc
    cases h
    exact .change services workingState store hc
  | run =>
    obtain ⟨system, hs, rfl⟩ := drive_eq_some h
    exact .drive _ .run system trivial hs (by simp)
  | fire event =>
    obtain ⟨system, hs, rfl⟩ := drive_eq_some h
    exact .drive _ (.fire event) system trivial hs (by simp)
  | next =>
    obtain ⟨system, hs, rfl⟩ := drive_eq_some h
    exact .drive _ .next system trivial hs (by simp)
  | callback =>
    simp only [step] at h
    split at h
    · next time record hc =>
      obtain ⟨⟨status, next⟩, hcall, h⟩ := Option.bind_eq_some_iff.mp h
      obtain ⟨system, hs, rfl⟩ := drive_eq_some h
      exact .callback time record status next system hc hcall hs
    · cases h
  | finish status =>
    simp only [step] at h
    split_ifs at h with hc
    obtain ⟨system, hs, rfl⟩ := drive_eq_some h
    rcases isOutside_cases hc with hc | ⟨time, key, phase, hc⟩
    · simp [System.step, hc] at hs
    · exact .finish status time key phase system hc hs
  | finishRun =>
    obtain ⟨system, hs, rfl⟩ := drive_eq_some h
    exact .drive _ .finishRun system trivial hs fun _ => rfl

lemma call_leads {c next : SignalLifecycle} {time : SimTime} {event : CycleEvent}
    {status : Status} (h : c.system.Sound) (hc : c.system.CanSchedule)
    (hcall : c.call providers time event = some (status, next)) :
    ∃ actions, c.system.Leads actions next.system ∧
      next.system.control = c.system.control ∧ next.system.executed = c.system.executed := by
  cases event with
  | txStart request =>
    simp only [call] at hcall
    split at hcall
    · cases hcall; exact ⟨[], rfl, rfl, rfl⟩
    · next session runtime hstart =>
      obtain ⟨status', actions, t, ht, hleads, htc, htx, -⟩ :=
        System.scheduleSignals_spec h hc session.receivedSignals
      rw [ht] at hcall
      cases hcall
      exact ⟨actions, hleads, htc, htx⟩
  | signalArrival signal => cases hcall; exact ⟨[], rfl, rfl, rfl⟩
  | sessionFinalize desiredSignal => cases hcall; exact ⟨[], rfl, rfl, rfl⟩
  | cycleClose => cases hcall; exact ⟨[], rfl, rfl, rfl⟩
  | other phase => cases hcall

/-- **Every move takes the dispatcher along a history of its own.** -/
lemma step_leads {c c' : SignalLifecycle} {m : Move} (h : c.system.Sound)
    (hstep : c.step providers m = some c') :
    ∃ actions, c.system.Leads actions c'.system := by
  cases step_sound hstep with
  | schedule time event system hc ho hs => exact ⟨[_], run_cons_eq_some.mpr ⟨_, hs, rfl⟩⟩
  | change services workingState store hc => exact ⟨[], rfl⟩
  | drive move action system ha hs hm => exact ⟨[_], run_cons_eq_some.mpr ⟨_, hs, rfl⟩⟩
  | callback time record status next system hc hcall hs =>
    obtain ⟨actions, hleads, -⟩ := call_leads h (Or.inr ⟨time, record, hc⟩) hcall
    exact ⟨actions ++ [.finish status], run_append_eq_some.mpr ⟨_, hleads,
      run_cons_eq_some.mpr ⟨_, hs, rfl⟩⟩⟩
  | finish status time key phase system hc hs =>
    exact ⟨[_], run_cons_eq_some.mpr ⟨_, hs, rfl⟩⟩

lemma leads_system {c c' : SignalLifecycle} {moves : List Move} (h : c.system.Sound)
    (hr : Leads providers c moves c') : ∃ actions, c.system.Leads actions c'.system := by
  refine run_invariant (P := fun m => ∃ actions, c.system.Leads actions m.system)
    (A := fun _ => True) (fun m _ _ hm _ hstep => ?_) ⟨[], rfl⟩ (fun _ _ => trivial) hr
  obtain ⟨actions, hleads⟩ := hm
  obtain ⟨more, hmore⟩ := step_leads (h.leads hleads) hstep
  exact ⟨actions ++ more, run_append_eq_some.mpr ⟨_, hleads, hmore⟩⟩

lemma callback_ok {c next : SignalLifecycle} {time : SimTime} {record : EventRecord CycleEvent}
    {status : Status} {system : System CycleEvent} (h : c.system.Sound)
    (hc : c.system.control = .calling time record)
    (hcall : c.call providers time record.callback = some (status, next))
    (hs : next.system.step (.finish status) = some system) (hok : ¬ system.Failed) :
    status = .ok () ∧ system.finished = c.system.finished ++ [record] ∧
      system.accepted = next.system.accepted := by
  obtain ⟨actions, hleads, hctl, hexec⟩ := call_leads h (Or.inr ⟨time, record, hc⟩) hcall
  obtain ⟨time', record', hc', hfin, hacc, -⟩ := (h.leads hleads).finish hs
  rw [hctl, hc] at hc'
  cases hc'
  rw [System.finished_congr hctl hexec] at hfin
  rcases status with e | u
  · exact absurd (System.failed_of_finish hs) hok
  · exact ⟨rfl, hfin, hacc⟩

lemma call_txStart_ok {c next : SignalLifecycle} {time : SimTime}
    {request : TransmissionExecutionRequest} (h : c.system.Sound)
    (hc : c.system.CanSchedule)
    (hcall : c.call providers time (.txStart request) = some (.ok (), next)) :
    ∃ session records,
      TransmissionExecutor.Executed c.runtime.workingState request c.runtime.services session
        next.runtime.services ∧
      (∀ s ∈ session.receivedSignals, s.lastEffectEndAt ≤ c.runtime.cycleCloseTime) ∧
      next.runtime = { c.runtime with services := next.runtime.services } ∧
      next.sessions = c.sessions ++ [(request, session)] ∧
      next.system.accepted = c.system.accepted ++ records ∧
      Planned session.receivedSignals records := by
  simp only [call] at hcall
  split at hcall
  · cases hcall
  next session runtime hstart =>
  obtain ⟨-, hexec, hends, hruntime⟩ := CycleSignalRuntime.handleTxStart_ok hstart
  obtain ⟨status, actions, t, ht, -, -, -, hplanned⟩ :=
    System.scheduleSignals_spec h hc session.receivedSignals
  rw [ht] at hcall
  simp only [Option.some.injEq, Prod.mk.injEq] at hcall
  obtain ⟨rfl, rfl⟩ := hcall
  obtain ⟨records, hacc, hrec⟩ := hplanned rfl
  exact ⟨session, records, hexec, hends, hruntime, rfl, hacc, hrec⟩

lemma call_signalArrival_ok {c next : SignalLifecycle} {time : SimTime}
    {signal : ReceivedSignal}
    (hcall : c.call providers time (.signalArrival signal) = some (.ok (), next)) :
    ∃ ledger, next = { c with runtime := { c.runtime with ledger := ledger } } ∧
      ledger.signals.Perm (signal :: c.runtime.ledger.signals) := by
  simp only [call, Option.some.injEq, Prod.mk.injEq] at hcall
  obtain ⟨hstatus, rfl⟩ := hcall
  rcases c.runtime.handleSignalArrival_cases time signal with
    ⟨-, -, ledger, hok, hp⟩ | ⟨-, e, herr⟩
  · exact ⟨ledger, by rw [hok], hp⟩
  · rw [herr] at hstatus; cases hstatus

lemma call_sessionFinalize_ok {c next : SignalLifecycle} {time : SimTime}
    {desiredSignal : ReceivedSignal}
    (hcall : c.call providers time (.sessionFinalize desiredSignal) = some (.ok (), next)) :
    ∃ session services, next = { c with runtime := { c.runtime with
        services := services, results := c.runtime.results.append session } } ∧
      ReceiverProcessor.Processed desiredSignal c.runtime.ledger c.runtime.services session
        services := by
  simp only [call, Option.some.injEq, Prod.mk.injEq] at hcall
  obtain ⟨hstatus, rfl⟩ := hcall
  rcases c.runtime.handleSessionFinalize_cases providers time desiredSignal with
    ⟨session, services, hok, -, hproc⟩ | ⟨e, services, herr⟩
  · exact ⟨session, services, by rw [hok], hproc⟩
  · rw [herr] at hstatus; cases hstatus

lemma call_cycleClose_ok {c next : SignalLifecycle} {time : SimTime}
    (hcall : c.call providers time .cycleClose = some (.ok (), next)) :
    ∃ delta store, c.runtime.committed = false ∧ time = c.runtime.cycleCloseTime ∧
      CommitService.commitCycle c.runtime.store c.runtime.expectedVersion delta =
        (.ok (), store) ∧
      next = { c with runtime := { c.runtime with
        store := store, ledger := .empty, committed := true } } := by
  simp only [call, Option.some.injEq, Prod.mk.injEq] at hcall
  obtain ⟨hstatus, rfl⟩ := hcall
  rcases c.runtime.handleCycleClose_cases time with
    ⟨delta, store, hopen, htime, -, -, hcommit, hok⟩ | ⟨e, herr⟩
  · exact ⟨delta, store, hopen, htime, hcommit, by rw [hok]⟩
  · rw [herr] at hstatus; cases hstatus

end

/-! ### What a move does -/

/-- More events were accepted: those of the signals, and events that are neither arrivals nor
finalizes. -/
def Files (signals : List ReceivedSignal) (s t : System CycleEvent) : Prop :=
  ∃ records, t.accepted = s.accepted ++ records ∧ Planned signals records

lemma files_nil {s t : System CycleEvent} (h : t.accepted = s.accepted) : Files [] s t :=
  ⟨[], by simpa using h, by simp, rfl, rfl⟩

/-- A move that finishes no event of the cycle, and changes at most what the platform shares
with the cycle. -/
structure Quiet (m : Move) (c c' : SignalLifecycle) : Prop where
  runtime : c'.runtime = { c.runtime with
    services := c'.runtime.services
    workingState := c'.runtime.workingState
    store := c'.runtime.store }
  unchanged : m.isChange = false → c'.runtime = c.runtime
  sessions : c'.sessions = c.sessions
  files : Files [] c.system c'.system
  finished : ∃ records, c'.system.finished = c.system.finished ++ records ∧
    startedOf records = [] ∧ arrivedOf records = [] ∧ finalizedOf records = []

namespace Quiet

variable {m : Move} {c c' : SignalLifecycle}

lemma started (h : Quiet m c c') :
    startedOf c'.system.finished = startedOf c.system.finished := by
  obtain ⟨records, hfin, hnone, -, -⟩ := h.finished
  rw [hfin, startedOf, List.filterMap_append]
  exact (congrArg _ hnone).trans (List.append_nil _)

lemma arrived (h : Quiet m c c') :
    arrivedOf c'.system.finished = arrivedOf c.system.finished := by
  obtain ⟨records, hfin, -, hnone, -⟩ := h.finished
  rw [hfin, arrivedOf, List.filterMap_append]
  exact (congrArg _ hnone).trans (List.append_nil _)

lemma finalized (h : Quiet m c c') :
    finalizedOf c'.system.finished = finalizedOf c.system.finished := by
  obtain ⟨records, hfin, -, -, hnone⟩ := h.finished
  rw [hfin, finalizedOf, List.filterMap_append]
  exact (congrArg _ hnone).trans (List.append_nil _)

end Quiet

/-- The callback of an event returns success, and has filed the events of the signals. -/
structure Returns (c : SignalLifecycle) (key : EventKey) (event : CycleEvent)
    (signals : List ReceivedSignal) (system : System CycleEvent) : Prop where
  calling : c.system.control = .calling key.time ⟨key, event⟩
  finished : system.finished = c.system.finished ++ [⟨key, event⟩]
  files : Files signals c.system system

namespace Returns

variable {c : SignalLifecycle} {key : EventKey} {event : CycleEvent}
  {signals : List ReceivedSignal} {system : System CycleEvent}

lemma started (h : Returns c key event signals system) :
    startedOf system.finished = startedOf c.system.finished ++ event.started.toList := by
  rw [h.finished, startedOf_concat]

lemma arrived (h : Returns c key event signals system) :
    arrivedOf system.finished = arrivedOf c.system.finished ++ event.arrived.toList := by
  rw [h.finished, arrivedOf_concat]

lemma finalized (h : Returns c key event signals system) :
    finalizedOf system.finished = finalizedOf c.system.finished ++ event.finalized.toList := by
  rw [h.finished, finalizedOf_concat]

end Returns

section

variable [DoubleArithmetic]

/-- What a move does while nothing fails: it is quiet, or the callback of an event of the cycle
returns success. -/
inductive Outcome (m : Move) (c : SignalLifecycle) : SignalLifecycle → Prop
  | quiet {c'} (hq : Quiet m c c') : Outcome m c c'
  | txStart {key request session services system}
      (hr : Returns c key (.txStart request) session.receivedSignals system)
      (hexec : TransmissionExecutor.Executed c.runtime.workingState request c.runtime.services
        session services)
      (hends : ∀ s ∈ session.receivedSignals, s.lastEffectEndAt ≤ c.runtime.cycleCloseTime) :
      Outcome m c ⟨system, { c.runtime with services := services },
        c.sessions ++ [(request, session)]⟩
  | signalArrival {key signal ledger system}
      (hr : Returns c key (.signalArrival signal) [] system)
      (hledger : ledger.signals.Perm (signal :: c.runtime.ledger.signals)) :
      Outcome m c ⟨system, { c.runtime with ledger := ledger }, c.sessions⟩
  | sessionFinalize {key signal session services system}
      (hr : Returns c key (.sessionFinalize signal) [] system)
      (hproc : ReceiverProcessor.Processed signal c.runtime.ledger c.runtime.services session
        services) :
      Outcome m c ⟨system, { c.runtime with
        services := services, results := c.runtime.results.append session }, c.sessions⟩
  | cycleClose {key delta store system} (hr : Returns c key .cycleClose [] system)
      (hopen : c.runtime.committed = false) (htime : key.time = c.runtime.cycleCloseTime)
      (hcommit : CommitService.commitCycle c.runtime.store c.runtime.expectedVersion delta =
        (.ok (), store)) :
      Outcome m c ⟨system, { c.runtime with
        store := store, ledger := .empty, committed := true }, c.sessions⟩

lemma outcome_of_callback {c next : SignalLifecycle} {time : SimTime}
    {record : EventRecord CycleEvent} {status : Status} {system : System CycleEvent}
    (h : c.system.Sound) (hc : c.system.control = .calling time record)
    (hcall : c.call providers time record.callback = some (status, next))
    (hs : next.system.step (.finish status) = some system) (hok : ¬ system.Failed) :
    Outcome .callback c { next with system := system } := by
  obtain ⟨rfl, hfin, hacc⟩ := callback_ok h hc hcall hs hok
  obtain ⟨-, rfl, -⟩ := h.calling_spec hc
  obtain ⟨key, event⟩ := record
  cases event with
  | txStart request =>
    obtain ⟨session, records, hexec, hends, hruntime, hsessions, hfiled, hplanned⟩ :=
      call_txStart_ok h (Or.inr ⟨_, _, hc⟩) hcall
    rw [hruntime, hsessions]
    exact .txStart ⟨hc, hfin, records, hacc.trans hfiled, hplanned⟩ hexec hends
  | signalArrival signal =>
    obtain ⟨ledger, rfl, hledger⟩ := call_signalArrival_ok hcall
    exact .signalArrival ⟨hc, hfin, files_nil hacc⟩ hledger
  | sessionFinalize signal =>
    obtain ⟨session, services, rfl, hproc⟩ := call_sessionFinalize_ok hcall
    exact .sessionFinalize ⟨hc, hfin, files_nil hacc⟩ hproc
  | cycleClose =>
    obtain ⟨delta, store, hopen, htime, hcommit, rfl⟩ := call_cycleClose_ok hcall
    exact .cycleClose ⟨hc, hfin, files_nil hacc⟩ hopen htime hcommit
  | other phase => cases hcall

lemma step_outcome {c c' : SignalLifecycle} {m : Move} (h : c.system.Sound)
    (hok : ¬ c'.system.Failed) (hstep : c.step providers m = some c') : Outcome m c c' := by
  cases step_sound hstep with
  | schedule time event system hc ho hs =>
    obtain ⟨hfin, hacc⟩ := h.scheduled hs
    refine .quiet ⟨rfl, fun _ => rfl, rfl, ?_, [], by simpa using hfin, rfl, rfl, rfl⟩
    rcases hacc with hacc | ⟨key, -, hphase, hacc⟩
    · exact files_nil hacc
    · exact ⟨_, hacc, planned_of_isOpen ho hphase⟩
  | change services workingState store hc =>
    exact .quiet ⟨rfl, (fun hm => by cases hm), rfl, files_nil rfl, [], by simp, rfl, rfl, rfl⟩
  | drive move action system ha hs hm =>
    obtain ⟨hfin, hacc⟩ := System.finished_of_drives ha hs
    exact .quiet ⟨rfl, fun _ => rfl, rfl, files_nil hacc, [], by simpa using hfin, rfl, rfl, rfl⟩
  | finish status time key phase system hc hs =>
    obtain ⟨time', record, hc', hfin, hacc, -⟩ := h.finish hs
    rw [hc] at hc'
    cases hc'
    exact .quiet ⟨rfl, fun _ => rfl, rfl, files_nil hacc, _, hfin, rfl, rfl, rfl⟩
  | callback time record status next system hc hcall hs =>
    exact outcome_of_callback h hc hcall hs hok

end

end SignalLifecycle

end Ns3Factory
