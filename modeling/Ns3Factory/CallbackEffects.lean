import Ns3Factory.SignalLifecycle

/-!
What the callbacks of a cycle can do.

A callback fails at any point of its handler, or it succeeds. It then has changed the services,
the ledger, the results or the store of the runtime, and no more. What all of this keeps holds
wherever the moves of a cycle lead, also after callbacks have failed. So the store is the one the
cycle was started with until a close has succeeded, and then what one commit has made of it.
-/

namespace Ns3Factory.SignalLifecycle

open Transition

variable [DoubleArithmetic] {providers : Providers}

/-- What the callback of an event can make of the runtime and of the sessions returned. -/
inductive Called (providers : Providers) (r : CycleSignalRuntime)
    (sessions : List (TransmissionExecutionRequest × TransmissionSession)) :
    CycleEvent → CycleSignalRuntime →
      List (TransmissionExecutionRequest × TransmissionSession) → Prop
  | refused (event) : Called providers r sessions event r sessions
  | unsent (request last)
      (hexec : (TransmissionExecutor.executeTransmission providers r.workingState request
        r.services).2 = last) :
      Called providers r sessions (.txStart request) { r with services := last } sessions
  | sent (request session last)
      (hexec : TransmissionExecutor.executeTransmission providers r.workingState request
        r.services = (.ok session, last)) :
      Called providers r sessions (.txStart request) { r with services := last }
        (sessions ++ [(request, session)])
  | arrived (signal ledger) (hledger : ledger.signals.Perm (signal :: r.ledger.signals)) :
      Called providers r sessions (.signalArrival signal) { r with ledger := ledger } sessions
  | unprocessed (signal e last)
      (hproc : ReceiverProcessor.processReceivedSignal providers signal r.ledger r.workingState
        r.services = (.error e, last)) :
      Called providers r sessions (.sessionFinalize signal) { r with services := last } sessions
  | processed (signal session last)
      (hproc : ReceiverProcessor.processReceivedSignal providers signal r.ledger r.workingState
        r.services = (.ok session, last)) :
      Called providers r sessions (.sessionFinalize signal)
        { r with services := last, results := r.results.append session } sessions
  | closed (delta store) (hopen : r.committed = false)
      (hdelta : r.workingState.finalizeDeltaSet r.cycleCloseTime = .ok delta)
      (hcommit : CommitService.commitCycle r.store r.expectedVersion delta = (.ok (), store)) :
      Called providers r sessions .cycleClose
        { r with store := store, ledger := .empty, committed := true } sessions

lemma called_of_call {c next : SignalLifecycle} {time : SimTime} {event : CycleEvent}
    {status : Status} (h : c.call providers time event = some (status, next)) :
    Called providers c.runtime c.sessions event next.runtime next.sessions := by
  cases event with
  | txStart request =>
    have hkeep := CycleSignalRuntime.handleTxStart_snd providers c.runtime time request
    rcases hstart : c.runtime.handleTxStart providers time request with ⟨e | session, runtime⟩
    · have hservices := c.runtime.handleTxStart_services providers time request
      rw [hstart] at hkeep hservices
      simp only [SignalLifecycle.call, hstart, Option.some.injEq, Prod.mk.injEq] at h
      obtain ⟨-, rfl⟩ := h
      rw [show runtime = { c.runtime with services := runtime.services } from hkeep]
      rcases hservices with hsame | ⟨-, hexec⟩
      · rw [show runtime.services = c.runtime.services from hsame]
        exact .refused _
      · exact .unsent request _ hexec.symm
    · have hexec := CycleSignalRuntime.handleTxStart_executed hstart
      rw [hstart] at hkeep
      simp only [SignalLifecycle.call, hstart, Option.some.injEq, Prod.mk.injEq] at h
      obtain ⟨-, rfl⟩ := h
      rw [show runtime = { c.runtime with services := runtime.services } from hkeep]
      exact .sent request session _ hexec
  | signalArrival signal =>
    simp only [SignalLifecycle.call, Option.some.injEq, Prod.mk.injEq] at h
    obtain ⟨-, rfl⟩ := h
    rcases c.runtime.handleSignalArrival_cases time signal with
      ⟨-, -, ledger, hok, hledger⟩ | ⟨-, e, herr⟩
    · rw [hok]
      exact .arrived signal ledger hledger
    · rw [herr]
      exact .refused _
  | sessionFinalize signal =>
    simp only [SignalLifecycle.call, Option.some.injEq, Prod.mk.injEq] at h
    obtain ⟨-, rfl⟩ := h
    unfold CycleSignalRuntime.handleSessionFinalize
    split_ifs
    · exact .refused _
    rcases hproc : ReceiverProcessor.processReceivedSignal providers signal c.runtime.ledger
      c.runtime.workingState c.runtime.services with ⟨e | session, services⟩
    · exact .unprocessed signal e services hproc
    · exact .processed signal session services hproc
  | cycleClose =>
    simp only [SignalLifecycle.call, Option.some.injEq, Prod.mk.injEq] at h
    obtain ⟨-, rfl⟩ := h
    rcases c.runtime.handleCycleClose_cases time with
      ⟨delta, store, hopen, rfl, -, hdelta, hcommit, hok⟩ | ⟨e, herr⟩
    · rw [hok]
      exact .closed delta store hopen hdelta hcommit
    · rw [herr]
      exact .refused _
  | other phase => cases h

/-- **The callback rule.** What every callback keeps, whatever it does, holds of the runtime and
the sessions wherever moves of the cycle lead. -/
lemma leads_of_called
    {P : CycleSignalRuntime → List (TransmissionExecutionRequest × TransmissionSession) → Prop}
    (hcalled : ∀ r sessions event r' sessions', P r sessions →
      Called providers r sessions event r' sessions' → P r' sessions')
    {c c' : SignalLifecycle} {moves : List Move} (h : P c.runtime c.sessions)
    (hmoves : ∀ m ∈ moves, m.isChange = false) (hleads : Leads providers c moves c') :
    P c'.runtime c'.sessions := by
  refine run_invariant (P := fun c => P c.runtime c.sessions) (A := fun m => m.isChange = false)
    (fun c m c' h hm hstep => ?_) h hmoves hleads
  cases step_sound hstep with
  | schedule | drive | finish => exact h
  | change services workingState store hc => cases hm
  | callback time record status next system hc hcall hs =>
    have hmade := called_of_call hcall
    exact hcalled _ _ _ _ _ h hmade

/-- The store is as before, or one commit of the nodes at the close has replaced it. -/
structure Stands (store : WorldStateStore) (w : CycleWorkingState) (closeTime : SimTime)
    (r : CycleSignalRuntime) : Prop where
  workingState : r.workingState = w
  close : r.cycleCloseTime = closeTime
  before : r.committed = false → r.store = store
  after : r.committed = true → ∃ delta, w.finalizeDeltaSet closeTime = .ok delta ∧
    CommitService.commitCycle store w.baseSnapshot.version delta = (.ok (), r.store)

lemma Stands.called {store : WorldStateStore} {w : CycleWorkingState} {closeTime : SimTime}
    {r r' : CycleSignalRuntime}
    {sessions sessions' : List (TransmissionExecutionRequest × TransmissionSession)}
    {event : CycleEvent} (h : Stands store w closeTime r)
    (hcalled : Called providers r sessions event r' sessions') :
    Stands store w closeTime r' := by
  cases hcalled with
  | refused | unsent | sent | arrived | unprocessed | processed =>
    exact ⟨h.workingState, h.close, h.before, h.after⟩
  | closed delta next hopen hdelta hcommit =>
    refine ⟨h.workingState, h.close, fun hnot => (by cases hnot), fun _ => ⟨delta, ?_, ?_⟩⟩
    · rw [← h.workingState, ← h.close]
      exact hdelta
    · -- the expected version is the one the cycle was started from, or nothing is committed
      obtain ⟨haccepts, -⟩ := CommitService.committed_of_ok hcommit
      obtain ⟨-, -, hbase, -⟩ := CycleWorkingState.finalizeDeltaSet_ok.mp hdelta
      rw [h.before hopen] at hcommit haccepts
      rw [← h.workingState, ← hbase, haccepts.base, ← haccepts.expected]
      exact hcommit

lemma stands_of_leads {firstSequence : EventSequenceId} {now : ℤ} {services : Services}
    {w : CycleWorkingState} {store : WorldStateStore} {expectedVersion : SnapshotVersion}
    {cycleCloseTime : SimTime} {moves : List Move} {c : SignalLifecycle}
    (hmoves : ∀ m ∈ moves, m.isChange = false)
    (hleads : Leads providers
      (init firstSequence now services w store expectedVersion cycleCloseTime) moves c) :
    Stands store w cycleCloseTime c.runtime :=
  leads_of_called (P := fun r _ => Stands store w cycleCloseTime r)
    (fun _ _ _ _ _ h hcalled => h.called hcalled)
    ⟨rfl, rfl, fun _ => rfl, fun hnot => by cases hnot⟩ hmoves hleads

end Ns3Factory.SignalLifecycle
