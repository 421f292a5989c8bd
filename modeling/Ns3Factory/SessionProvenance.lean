import Ns3Factory.CallbackEffects
import Ns3Factory.CycleAtomicity
import Ns3Factory.ReceptionProvenance
import Ns3Factory.TransmissionFanOut

/-!
Where the sessions of a cycle come from, whatever the providers answer and whatever fails.

An arrival event is filed for a signal that was produced, and only such an event brings a signal
into the ledger; a session is made of signals in the ledger. So no signal and no reception is
forged: each can be traced to the transmission that was executed for a request.
-/

namespace Ns3Factory.SignalLifecycle

open Transition

section

variable [DoubleArithmetic] {providers : Providers}

/-- A session has been executed for its request, over the working state. -/
structure Executed (providers : Providers) (w : CycleWorkingState)
    (p : TransmissionExecutionRequest × TransmissionSession) : Prop where
  agrees : TransmissionExecutor.Agrees p.1 p.2
  derived : ∀ signal ∈ p.2.receivedSignals,
    TransmissionExecutor.Derived providers w p.2 signal

/-- The parts of a reception are of one signal, which it has received among others of these. -/
structure ReceivedAmong (signals : List ReceivedSignal) (session : ReceptionSession) : Prop where
  provenance : ReceiverProcessor.Provenance session.desiredSignal session
  desired : session.desiredSignal ∈ signals
  overlapping : ∀ signal ∈ session.receiverWindow.overlappingSignals, signal ∈ signals

/-- The signals of some sessions. -/
abbrev signalsOf (sessions : List (TransmissionExecutionRequest × TransmissionSession)) :
    List ReceivedSignal :=
  sessions.flatMap fun p => p.2.receivedSignals

/-- All there is in the runtime comes from the sessions executed. -/
structure Traced (providers : Providers) (w : CycleWorkingState) (r : CycleSignalRuntime)
    (sessions : List (TransmissionExecutionRequest × TransmissionSession)) : Prop where
  workingState : r.workingState = w
  sends : ∀ p ∈ sessions, Executed providers w p
  ledger : ∀ signal ∈ r.ledger.signals, signal ∈ signalsOf sessions
  receptions : ∀ session ∈ r.results.sessions, ReceivedAmong (signalsOf sessions) session

lemma arrivals_of_call {c next : SignalLifecycle} {time : SimTime} {event : CycleEvent}
    {status : Status} (h : c.system.Sound) (hc : c.system.CanSchedule)
    (hcall : c.call providers time event = some (status, next))
    (harrivals : ∀ signal ∈ arrivedOf c.system.accepted, signal ∈ c.produced) :
    ∀ signal ∈ arrivedOf next.system.accepted, signal ∈ next.produced := by
  cases event with
  | txStart request =>
    simp only [call] at hcall
    rcases hstart : c.runtime.handleTxStart providers time request with ⟨e | session, runtime⟩
    · simp only [hstart] at hcall
      cases hcall
      exact harrivals
    · obtain ⟨status', t, records, ht, -, -, -, haccepted, hfiled⟩ :=
        System.scheduleSignals_files h hc session.receivedSignals
      simp only [hstart, ht] at hcall
      cases hcall
      intro signal hsignal
      simp only [arrivedOf, haccepted, List.filterMap_append, List.mem_append] at hsignal
      simp only [produced, List.flatMap_append, List.mem_append]
      rcases hsignal with hsignal | hsignal
      · exact Or.inl (harrivals signal hsignal)
      · obtain ⟨record, hrecord, harrived⟩ := List.mem_filterMap.mp hsignal
        obtain ⟨filed, hmem, -, hevent | hevent⟩ := hfiled record hrecord
        all_goals rw [hevent] at harrived; cases harrived
        exact Or.inr (by simpa using hmem)
  | signalArrival signal =>
    simp only [call, Option.some.injEq, Prod.mk.injEq] at hcall
    obtain ⟨-, rfl⟩ := hcall
    exact harrivals
  | sessionFinalize signal =>
    simp only [call, Option.some.injEq, Prod.mk.injEq] at hcall
    obtain ⟨-, rfl⟩ := hcall
    exact harrivals
  | cycleClose =>
    simp only [call, Option.some.injEq, Prod.mk.injEq] at hcall
    obtain ⟨-, rfl⟩ := hcall
    exact harrivals
  | other phase => cases hcall

lemma receivedAmong_of_process {signal : ReceivedSignal} {ledger : InFlightSignalLedger}
    {w : CycleWorkingState} {services last : Services} {session : ReceptionSession}
    (h : ReceiverProcessor.processReceivedSignal providers signal ledger w services =
      (.ok session, last)) : ReceivedAmong ledger.signals session := by
  rcases ReceiverProcessor.processReceivedSignal_ends providers signal ledger w services with
    ⟨window, state, query, observation, result, id, ids, hreceived, -, hok⟩ | ⟨-, e, calls, -, herr⟩
  swap
  · rw [h] at herr
    cases herr
  rw [h] at hok
  cases hok
  obtain ⟨window', hwindow, -, -, hoverlapping⟩ :=
    ReceiverWindowBuilder.build_of_mem hreceived.inLedger
  obtain rfl := Except.ok.inj (hwindow.symm.trans hreceived.window)
  refine ⟨hreceived.provenance id, hreceived.inLedger, fun other hother => ?_⟩
  exact ((hoverlapping other).mp hother).1

omit [DoubleArithmetic] in
lemma ReceivedAmong.mono {signals signals' : List ReceivedSignal} {session : ReceptionSession}
    (h : ReceivedAmong signals session) (hsub : ∀ signal ∈ signals, signal ∈ signals') :
    ReceivedAmong signals' session :=
  ⟨h.provenance, hsub _ h.desired, fun signal hsignal => hsub _ (h.overlapping signal hsignal)⟩

lemma Traced.called {w : CycleWorkingState} {r r' : CycleSignalRuntime}
    {sessions sessions' : List (TransmissionExecutionRequest × TransmissionSession)}
    {event : CycleEvent} (h : Traced providers w r sessions)
    (hcalled : Called providers r sessions event r' sessions')
    (harrived : ∀ signal, event.arrived = some signal → signal ∈ signalsOf sessions) :
    Traced providers w r' sessions' := by
  cases hcalled with
  | refused | unsent | unprocessed => exact ⟨h.workingState, h.sends, h.ledger, h.receptions⟩
  | sent request session last hexec =>
    rw [h.workingState] at hexec
    have hmore : ∀ signal ∈ signalsOf sessions,
        signal ∈ signalsOf (sessions ++ [(request, session)]) := by
      intro signal hsignal
      rw [signalsOf, List.flatMap_append]
      exact List.mem_append_left _ hsignal
    refine ⟨h.workingState, ?_, fun signal hsignal => hmore _ (h.ledger signal hsignal),
      fun s hs => (h.receptions s hs).mono hmore⟩
    rw [List.forall_mem_append, List.forall_mem_singleton]
    exact ⟨h.sends, TransmissionExecutor.agrees_of_ok hexec,
      fun signal hsignal => TransmissionExecutor.derived_of_ok hexec hsignal⟩
  | arrived signal ledger hledger =>
    refine ⟨h.workingState, h.sends, fun other hother => ?_, h.receptions⟩
    rcases List.mem_cons.mp (hledger.mem_iff.mp hother) with rfl | hother
    · exact harrived other rfl
    · exact h.ledger other hother
  | processed signal session last hproc =>
    refine ⟨h.workingState, h.sends, h.ledger, fun added hadded => ?_⟩
    rcases List.mem_cons.mp ((r.results.append_perm session).mem_iff.mp hadded) with rfl | hadded
    · exact (receivedAmong_of_process hproc).mono h.ledger
    · exact h.receptions added hadded
  | closed delta store hopen hdelta hcommit =>
    refine ⟨h.workingState, h.sends, fun signal hsignal => ?_, h.receptions⟩
    cases hsignal

lemma Traced.step {w : CycleWorkingState} {c c' : SignalLifecycle} {m : Move}
    (hsound : c.system.Sound) (h : Traced providers w c.runtime c.sessions)
    (harrivals : ∀ signal ∈ arrivedOf c.system.accepted, signal ∈ c.produced)
    (hm : m.isChange = false) (hstep : c.step providers m = some c') :
    Traced providers w c'.runtime c'.sessions ∧
      ∀ signal ∈ arrivedOf c'.system.accepted, signal ∈ c'.produced := by
  cases step_sound hstep with
  | schedule time event system hc ho hs =>
    refine ⟨h, fun signal hsignal => harrivals signal ?_⟩
    rcases (hsound.scheduled hs).2 with haccepted | ⟨key, -, hphase, haccepted⟩
    · exact haccepted ▸ hsignal
    · -- an open event is no arrival
      have hopen : Planned [] [⟨key, event⟩] := planned_of_isOpen ho hphase
      have hnone := hopen.arrived
      simp only [arrivedOf, haccepted, List.filterMap_append, List.mem_append] at hsignal hnone
      rw [hnone] at hsignal
      exact hsignal.resolve_right (by simp)
  | change services workingState store hc => cases hm
  | drive move action system ha hs hmove =>
    refine ⟨h, fun signal hsignal => harrivals signal ?_⟩
    exact (System.finished_of_drives ha hs).2 ▸ hsignal
  | finish status time key phase system hc hs =>
    obtain ⟨-, -, -, -, haccepted, -⟩ := hsound.finish hs
    exact ⟨h, fun signal hsignal => harrivals signal (haccepted ▸ hsignal)⟩
  | callback time record status next system hc hcall hs =>
    have hcan : c.system.CanSchedule := Or.inr ⟨time, record, hc⟩
    obtain ⟨hnsound, -⟩ := call_contained hsound hcan hcall
    obtain ⟨-, -, -, -, haccepted, -⟩ := hnsound.finish hs
    have hnext := arrivals_of_call hsound hcan hcall harrivals
    have hcalled := called_of_call hcall
    refine ⟨h.called hcalled fun signal harrived => harrivals signal ?_,
      fun signal hsignal => hnext signal (haccepted ▸ hsignal)⟩
    exact mem_arrivedOf.mpr ⟨record, (hsound.calling_spec hc).1, harrived⟩

/-- **Nothing is forged.** Wherever the moves of a cycle lead, also after callbacks have failed
and whatever the providers answer, each session is executed for its request, the ledger holds
signals of these sessions only, and every part of a reception is of such a signal, with a window
of such signals. -/
theorem session_provenance {firstSequence : EventSequenceId} {now : ℤ}
    (hnow : 0 ≤ now ∧ now ≤ kMax) {services : Services} {workingState : CycleWorkingState}
    {store : WorldStateStore} {expectedVersion : SnapshotVersion} {cycleCloseTime : SimTime}
    {moves : List Move} {c : SignalLifecycle} (hmoves : ∀ m ∈ moves, m.isChange = false)
    (h : Leads providers
      (init firstSequence now services workingState store expectedVersion cycleCloseTime) moves
      c) :
    (∀ p ∈ c.sessions, Executed providers workingState p) ∧
    (∀ signal ∈ c.runtime.ledger.signals, signal ∈ c.produced) ∧
    ∀ session ∈ c.runtime.results.sessions, ReceivedAmong c.produced session := by
  have htraced := run_invariant
    (P := fun c => c.system.Sound ∧ Traced providers workingState c.runtime c.sessions ∧
      ∀ signal ∈ arrivedOf c.system.accepted, signal ∈ c.produced)
    (A := fun m => m.isChange = false)
    (fun c m c' hc hm hstep => by
      obtain ⟨hsound, htraced, harrivals⟩ := hc
      obtain ⟨actions, hleads⟩ := step_leads hsound hstep
      exact ⟨hsound.leads hleads, htraced.step hsound harrivals hm hstep⟩)
    ⟨System.sound_init firstSequence hnow,
      ⟨rfl, by simp [init], (fun signal hsignal => by cases hsignal),
        fun session hsession => by cases hsession⟩, fun signal hsignal => by cases hsignal⟩
    hmoves h
  exact ⟨htraced.2.1.sends, htraced.2.1.ledger, htraced.2.1.receptions⟩

end

/-- Providers that decode one signal and no more. -/
def onceProviders : Providers :=
  { ReceiverProcessor.bandProviders 1000 100 with
    decode := fun calls request =>
      if calls.decodes.isEmpty then
        (ReceiverProcessor.bandProviders 1000 100).decode calls request
      else .error ⟨.kFailedPrecondition, "receiver is off"⟩ }

theorem session_provenance_once :
    ∃ c, Leads onceProviders pairInit (pairMoves.take 21) c ∧
      c.system.kernel.dispatcher.executionError.isSome = true ∧
      c.runtime.results.sessions.length = 1 ∧
      ∀ session ∈ c.runtime.results.sessions, ReceivedAmong c.produced session := by
  have hrun : (run (step onceProviders) pairInit (pairMoves.take 21)).map
      (fun c => (c.system.kernel.dispatcher.executionError.isSome,
        c.runtime.results.sessions.length)) = some (true, 1) := by
    decide +kernel
  obtain ⟨c, hc, hval⟩ := Option.map_eq_some_iff.mp hrun
  simp only [Prod.mk.injEq] at hval
  exact ⟨c, hc, hval.1, hval.2,
    (session_provenance (by decide) (by simp [pairMoves, Move.isChange]) hc).2.2⟩

end Ns3Factory.SignalLifecycle
