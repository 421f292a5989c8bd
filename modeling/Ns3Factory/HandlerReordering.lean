import Ns3Factory.DispatchReplay

/-!
Handlers of one slot can be swapped.

Two arrivals of one time fill the ledger the same way in both orders. Two finalizes of one time
find the same ledger, so with providers that answer by the request alone they make the same
sessions, with the reception ids exchanged. So runtimes are compared up to the ids in their
sessions and the calls made: no handler sees the difference.
-/

namespace Ns3Factory

open StdAlgorithm Transition

/-- The session with its reception id erased. -/
def ReceptionSession.eraseId (session : ReceptionSession) : ReceptionSession :=
  { session with reception := { session.reception with receptionId := ⟨0⟩ } }

namespace ReceiverProcessor

/-- The noise provider and the receive PHY answer by the request alone. -/
structure Stateless (providers : Providers) : Prop where
  noise : ∀ calls calls' query,
    providers.queryNoise calls query = providers.queryNoise calls' query
  decode : ∀ calls calls' request,
    providers.decode calls request = providers.decode calls' request

/-- The session a signal makes, once it has an id. -/
def Makes [DoubleArithmetic] (providers : Providers) (ledger : InFlightSignalLedger)
    (w : CycleWorkingState) (calls : CallLog) (signal : ReceivedSignal)
    (session : ReceptionId → ReceptionSession) : Prop :=
  ∃ receiverWindow receiverState query observation result,
    Received providers signal ledger w calls receiverWindow receiverState query observation
      result ∧
    session = sessionOf signal receiverWindow observation result

variable [DoubleArithmetic]

variable {providers : Providers} {ledger : InFlightSignalLedger} {w : CycleWorkingState}
  {calls : CallLog} {signal : ReceivedSignal} {session : ReceptionId → ReceptionSession}

lemma Makes.after (hproviders : Stateless providers)
    (h : Makes providers ledger w calls signal session) (calls' : CallLog) :
    Makes providers ledger w calls' signal session := by
  obtain ⟨window, state, query, observation, result, hreceived, hsession⟩ := h
  refine ⟨window, state, query, observation, result,
    ⟨⟨hreceived.toQueried, ?_, hreceived.observes⟩, ?_, hreceived.decodes⟩, hsession⟩
  · rw [hproviders.noise calls' calls]
    exact hreceived.answered
  · rw [hproviders.decode _ (noiseQueried calls query)]
    exact hreceived.decoded

lemma Makes.unique {session' : ReceptionId → ReceptionSession}
    (h : Makes providers ledger w calls signal session)
    (h' : Makes providers ledger w calls signal session') : session' = session := by
  obtain ⟨window, state, query, observation, result, hreceived, rfl⟩ := h
  obtain ⟨window', state', query', observation', result', hreceived', rfl⟩ := h'
  obtain ⟨rfl, rfl, rfl⟩ := hreceived.toQueried.unique hreceived'.toQueried
  obtain rfl := Except.ok.inj (hreceived'.answered.symm.trans hreceived.answered)
  obtain rfl := Except.ok.inj (hreceived'.decoded.symm.trans hreceived.decoded)
  rfl

lemma Makes.eraseId (h : Makes providers ledger w calls signal session) (id id' : ReceptionId) :
    (session id).eraseId = (session id').eraseId := by
  obtain ⟨window, state, query, observation, result, hreceived, rfl⟩ := h
  rfl

lemma Makes.receptionId (h : Makes providers ledger w calls signal session) (id : ReceptionId) :
    (session id).reception.receptionId = id := by
  obtain ⟨window, state, query, observation, result, hreceived, rfl⟩ := h
  rfl

end ReceiverProcessor

namespace CycleSignalRuntime

open ReceiverProcessor
open scoped List

variable [DoubleArithmetic] {providers : Providers} {r r' t : CycleSignalRuntime} {time : SimTime}

/-! ### What the handlers do -/

lemma handle_signalArrival {signal : ReceivedSignal} :
    r.handle providers (time, .signalArrival signal) = some t ↔
      time = signal.firstArrivalAt ∧ (∀ s ∈ r.ledger.signals, ¬ samePair s signal) ∧
        ∃ ledger : InFlightSignalLedger, ledger.signals.Perm (signal :: r.ledger.signals) ∧
          t = { r with ledger := ledger } := by
  simp only [handle]
  rcases r.handleSignalArrival_cases time signal with
    ⟨htime, hnew, ledger, hok, hp⟩ | ⟨hnot, e, herr⟩
  · rw [hok]
    constructor
    · intro h
      exact ⟨htime, hnew, ledger, hp, (Option.some.inj h).symm⟩
    · rintro ⟨-, -, ledger', hp', rfl⟩
      obtain rfl := InFlightSignalLedger.eq_of_perm (hp.trans hp'.symm)
      rfl
  · rw [herr]
    refine ⟨(fun h => by cases h), ?_⟩
    rintro ⟨htime, hnew, -⟩
    exact absurd ⟨htime, hnew⟩ hnot

lemma of_handle_sessionFinalize {signal : ReceivedSignal}
    (h : r.handle providers (time, .sessionFinalize signal) = some t) :
    time = signal.lastEffectEndAt ∧ ∃ session id ids calls,
      Makes providers r.ledger r.workingState r.services.calls signal session ∧
      r.services.ids.nextReceptionId = (.ok id, ids) ∧
      t = { r with services := ⟨ids, calls⟩, results := r.results.append (session id) } := by
  simp only [handle, handleSessionFinalize] at h
  split_ifs at h with htime
  · cases h
  rcases processReceivedSignal_ends providers signal r.ledger r.workingState r.services with
    ⟨window, state, query, observation, result, id, ids, hreceived, hid, hok⟩ |
    ⟨-, e, calls, -, herr⟩
  · rw [hok] at h
    exact ⟨not_not.mp htime, _, id, ids, _,
      ⟨window, state, query, observation, result, hreceived, rfl⟩, hid,
      (Option.some.inj h).symm⟩
  · rw [herr] at h
    cases h

lemma handle_sessionFinalize_of {signal : ReceivedSignal} (htime : time = signal.lastEffectEndAt)
    {session : ReceptionId → ReceptionSession}
    (hmakes : Makes providers r.ledger r.workingState r.services.calls signal session)
    {id : ReceptionId} {ids : CommunicationIdAllocator}
    (hid : r.services.ids.nextReceptionId = (.ok id, ids)) :
    ∃ calls, r.handle providers (time, .sessionFinalize signal) =
      some { r with services := ⟨ids, calls⟩, results := r.results.append (session id) } := by
  simp only [handle, handleSessionFinalize, if_neg (not_not.mpr htime)]
  rcases processReceivedSignal_ends providers signal r.ledger r.workingState r.services with
    ⟨window, state, query, observation, result, id', ids', hreceived, hid', hok⟩ | ⟨hnot, -⟩
  · obtain rfl := hmakes.unique ⟨window, state, query, observation, result, hreceived, rfl⟩
    have heq := hid.symm.trans hid'
    simp only [Prod.mk.injEq, Except.ok.injEq] at heq
    obtain ⟨rfl, rfl⟩ := heq
    rw [hok]
    exact ⟨_, rfl⟩
  · obtain ⟨window, state, query, observation, result, hreceived, -⟩ := hmakes
    exact absurd ⟨⟨id, ids, hid⟩, window, state, query, observation, result, hreceived⟩ hnot

lemma handleCycleClose_frame (services : Services) (results : ReceptionResultAccumulator) :
    ({ r with services := services, results := results } : CycleSignalRuntime).handleCycleClose
        time =
      ((r.handleCycleClose time).1,
        { (r.handleCycleClose time).2 with services := services, results := results }) := by
  unfold handleCycleClose
  dsimp only
  split_ifs
  · rfl
  · rfl
  split
  · rfl
  split
  · rfl
  split <;> rfl

lemma handle_cycleClose (h : r.handle providers (time, .cycleClose) = some t)
    (services : Services) (results : ReceptionResultAccumulator) :
    ({ r with services := services, results := results } : CycleSignalRuntime).handle providers
        (time, .cycleClose) = some { t with services := services, results := results } := by
  simp only [handle] at h ⊢
  rw [handleCycleClose_frame]
  rcases hclose : r.handleCycleClose time with ⟨e | u, next⟩
  · rw [hclose] at h
    cases h
  · rw [hclose] at h
    obtain rfl := Option.some.inj h
    rfl

lemma handle_cycleClose_keeps (h : r.handle providers (time, .cycleClose) = some t) :
    t.services = r.services ∧ t.results = r.results := by
  have hown : r.handle providers (time, .cycleClose) =
      some { t with services := r.services, results := r.results } :=
    handle_cycleClose h r.services r.results
  have hkeep := Option.some.inj (h.symm.trans hown)
  constructor <;> rw [hkeep]

/-! ### Runtimes that agree -/

/-- Two runtimes agree but for the reception ids of their sessions and the calls made. -/
structure Alike (r r' : CycleSignalRuntime) : Prop where
  frame : r' = { r with services := r'.services, results := r'.results }
  ids : r'.services.ids = r.services.ids
  sessions : (r.results.sessions.map ReceptionSession.eraseId).Perm
    (r'.results.sessions.map ReceptionSession.eraseId)
  receptionIds : (r.results.sessions.map fun s => s.reception.receptionId).Perm
    (r'.results.sessions.map fun s => s.reception.receptionId)

omit [DoubleArithmetic] in
lemma Alike.refl (r : CycleSignalRuntime) : Alike r r := ⟨rfl, rfl, .refl _, .refl _⟩

omit [DoubleArithmetic] in
lemma Alike.trans {r r' r'' : CycleSignalRuntime} (h : Alike r r') (h' : Alike r' r'') :
    Alike r r'' := by
  refine ⟨?_, h'.ids.trans h.ids, h.sessions.trans h'.sessions,
    h.receptionIds.trans h'.receptionIds⟩
  have hframe := h'.frame
  rw [h.frame] at hframe
  exact hframe

omit [DoubleArithmetic] in
lemma Alike.append (h : Alike r r') (session : ReceptionSession)
    (ids : CommunicationIdAllocator) (log log' : CallLog) :
    Alike { r with services := ⟨ids, log⟩, results := r.results.append session }
      { r' with services := ⟨ids, log'⟩, results := r'.results.append session } := by
  have hp := r.results.append_perm session
  have hp' := r'.results.append_perm session
  refine ⟨?_, rfl, ?_, ?_⟩
  · rw [h.frame]
  · exact (hp.map ReceptionSession.eraseId).trans
      ((h.sessions.cons session.eraseId).trans (hp'.map ReceptionSession.eraseId).symm)
  · exact (hp.map fun s : ReceptionSession => s.reception.receptionId).trans
      ((h.receptionIds.cons session.reception.receptionId).trans
        (hp'.map fun s : ReceptionSession => s.reception.receptionId).symm)

lemma Alike.handle (hproviders : Stateless providers) {e : SimTime × CycleEvent}
    (h : Alike r r') (hr : r.handle providers e = some t) :
    ∃ t', r'.handle providers e = some t' ∧ Alike t t' := by
  have hledger : r'.ledger = r.ledger := by rw [h.frame]
  have hworking : r'.workingState = r.workingState := by rw [h.frame]
  obtain ⟨time, event⟩ := e
  cases event with
  | signalArrival signal =>
    obtain ⟨htime, hnew, ledger, hp, rfl⟩ := handle_signalArrival.mp hr
    refine ⟨{ r' with ledger := ledger }, handle_signalArrival.mpr ⟨htime, ?_, ledger, ?_, rfl⟩,
      ?_, h.ids, h.sessions, h.receptionIds⟩
    · rw [hledger]; exact hnew
    · rw [hledger]; exact hp
    · rw [h.frame]
  | sessionFinalize signal =>
    obtain ⟨htime, session, id, ids, calls, hmakes, hid, rfl⟩ := of_handle_sessionFinalize hr
    rw [← hledger, ← hworking] at hmakes
    rw [← h.ids] at hid
    obtain ⟨calls', hok⟩ :=
      handle_sessionFinalize_of htime (hmakes.after hproviders r'.services.calls) hid
    exact ⟨_, hok, h.append (session id) ids calls calls'⟩
  | cycleClose =>
    have hok := handle_cycleClose hr r'.services r'.results
    rw [← h.frame] at hok
    obtain ⟨hservices, hresults⟩ := handle_cycleClose_keeps hr
    exact ⟨_, hok, rfl, hservices ▸ h.ids, hresults ▸ h.sessions, hresults ▸ h.receptionIds⟩
  | txStart request => cases hr
  | other phase => cases hr

/-! ### Handlers of one slot -/

lemma swap_signalArrival {a b : ReceivedSignal} {time' : SimTime}
    (h : Transition.run (handle providers) r
      [(time, .signalArrival a), (time', .signalArrival b)] = some t) :
    Transition.run (handle providers) r
      [(time', .signalArrival b), (time, .signalArrival a)] = some t := by
  obtain ⟨m, hm, ht⟩ := run_pair_eq_some.mp h
  obtain ⟨hatime, hanew, first, hfirst, rfl⟩ := handle_signalArrival.mp hm
  obtain ⟨hbtime, hbnew, both, hboth, rfl⟩ := handle_signalArrival.mp ht
  have hab : ¬ samePair a b := hbnew a (hfirst.mem_iff.mpr (by simp))
  have hbfree : ∀ s ∈ r.ledger.signals, ¬ samePair s b := fun s hs =>
    hbnew s (hfirst.mem_iff.mpr (List.mem_cons_of_mem a hs))
  obtain ⟨second, hsecond⟩ := InFlightSignalLedger.exists_added hbfree
  refine run_pair_eq_some.mpr ⟨{ r with ledger := second },
    handle_signalArrival.mpr ⟨hbtime, hbfree, second, hsecond, rfl⟩,
    handle_signalArrival.mpr ⟨hatime, ?_, both, ?_, rfl⟩⟩
  · intro s hs
    rcases List.mem_cons.mp (hsecond.mem_iff.mp hs) with rfl | hs
    · exact samePair_symm hab
    · exact hanew s hs
  · calc both.signals
        _ ~ b :: first.signals := hboth
        _ ~ b :: a :: r.ledger.signals := hfirst.cons b
        _ ~ a :: b :: r.ledger.signals := List.Perm.swap a b _
        _ ~ a :: second.signals := (hsecond.symm.cons a)

lemma swap_sessionFinalize (hproviders : Stateless providers) {a b : ReceivedSignal}
    {time' : SimTime}
    (h : Transition.run (handle providers) r
      [(time, .sessionFinalize a), (time', .sessionFinalize b)] = some t) :
    ∃ t', Transition.run (handle providers) r
      [(time', .sessionFinalize b), (time, .sessionFinalize a)] = some t' ∧ Alike t t' := by
  obtain ⟨m, hm, ht⟩ := run_pair_eq_some.mp h
  obtain ⟨hatime, sessionA, id, ids, calls, hamakes, hid, rfl⟩ := of_handle_sessionFinalize hm
  obtain ⟨hbtime, sessionB, id', ids', calls', hbmakes, hid', rfl⟩ := of_handle_sessionFinalize ht
  obtain ⟨log, hfirst⟩ :=
    handle_sessionFinalize_of hbtime (hbmakes.after hproviders r.services.calls) hid
  have hamakes' := hamakes.after hproviders log
  have hsecond : ∃ log', ({ r with
        services := ⟨ids, log⟩
        results := r.results.append (sessionB id) } : CycleSignalRuntime).handle providers
          (time, .sessionFinalize a) =
      some { r with
        services := ⟨ids', log'⟩
        results := (r.results.append (sessionB id)).append (sessionA id') } :=
    handle_sessionFinalize_of hatime hamakes' hid'
  obtain ⟨log', hsecond⟩ := hsecond
  have hp := r.results.append_append_perm (sessionA id) (sessionB id')
  have hp' := r.results.append_append_perm (sessionB id) (sessionA id')
  refine ⟨_, run_pair_eq_some.mpr ⟨_, hfirst, hsecond⟩, rfl, rfl, ?_, ?_⟩
  · have hswap : ([sessionB id', sessionA id].map ReceptionSession.eraseId).Perm
        ([sessionA id', sessionB id].map ReceptionSession.eraseId) := by
      simp only [List.map_cons, hamakes.eraseId id id', hbmakes.eraseId id' id]
      exact List.Perm.swap _ _ _
    calc ((r.results.append (sessionA id)).append (sessionB id')).sessions.map
          ReceptionSession.eraseId
        _ ~ [sessionB id', sessionA id].map ReceptionSession.eraseId ++
            r.results.sessions.map ReceptionSession.eraseId := hp.map ReceptionSession.eraseId
        _ ~ [sessionA id', sessionB id].map ReceptionSession.eraseId ++
            r.results.sessions.map ReceptionSession.eraseId := hswap.append_right _
        _ ~ ((r.results.append (sessionB id)).append (sessionA id')).sessions.map
            ReceptionSession.eraseId := (hp'.map ReceptionSession.eraseId).symm
  · refine (hp.map fun s : ReceptionSession => s.reception.receptionId).trans
      (List.Perm.trans ?_ (hp'.map fun s : ReceptionSession => s.reception.receptionId).symm)
    -- whichever comes first takes the first id
    simp only [List.map_cons, hamakes.receptionId, hbmakes.receptionId]
    exact List.Perm.refl _

omit [DoubleArithmetic] in
lemma isHandled_cases {a b : CycleEvent} (ha : a.isHandled = true) (hb : b.isHandled = true)
    (hphase : a.phase = b.phase) :
    (∃ s s', a = .signalArrival s ∧ b = .signalArrival s') ∨
    (∃ s s', a = .sessionFinalize s ∧ b = .sessionFinalize s') ∨
    a = .cycleClose ∧ b = .cycleClose := by
  cases a with
  | txStart | other => cases ha
  | signalArrival s =>
    cases b with
    | txStart | other => cases hb
    | signalArrival s' => exact Or.inl ⟨s, s', rfl, rfl⟩
    | sessionFinalize | cycleClose =>
      simp only [CycleEvent.phase] at hphase
      exact absurd hphase (by decide)
  | sessionFinalize s =>
    cases b with
    | txStart | other => cases hb
    | sessionFinalize s' => exact Or.inr (Or.inl ⟨s, s', rfl, rfl⟩)
    | signalArrival | cycleClose =>
      simp only [CycleEvent.phase] at hphase
      exact absurd hphase (by decide)
  | cycleClose =>
    cases b with
    | txStart | other => cases hb
    | cycleClose => exact Or.inr (Or.inr ⟨rfl, rfl⟩)
    | signalArrival | sessionFinalize =>
      simp only [CycleEvent.phase] at hphase
      exact absurd hphase (by decide)

lemma isHandled_of_handle {e : SimTime × CycleEvent} (h : r.handle providers e = some t) :
    e.2.isHandled = true := by
  obtain ⟨time, event⟩ := e
  cases event with
  | txStart request => cases h
  | other phase => cases h
  | signalArrival | sessionFinalize | cycleClose => rfl

lemma handle_swap (hproviders : Stateless providers) {a b : SimTime × CycleEvent}
    (hslot : slot a = slot b)
    (h : Transition.run (handle providers) r [a, b] = some t) :
    ∃ t', Transition.run (handle providers) r [b, a] = some t' ∧ Alike t t' := by
  obtain ⟨m, hm, ht⟩ := run_pair_eq_some.mp h
  obtain ⟨time, event⟩ := a
  obtain ⟨time', event'⟩ := b
  simp only [slot, EmbeddingLike.apply_eq_iff_eq, Prod.mk.injEq] at hslot
  obtain ⟨rfl, hphase⟩ := hslot
  rcases isHandled_cases (isHandled_of_handle hm) (isHandled_of_handle ht) hphase with
    ⟨s, s', rfl, rfl⟩ | ⟨s, s', rfl, rfl⟩ | ⟨rfl, rfl⟩
  · exact ⟨t, swap_signalArrival h, Alike.refl t⟩
  · exact swap_sessionFinalize hproviders h
  · exact ⟨t, h, Alike.refl t⟩

/-- **The order within a slot does not matter**: runtimes that agree are led to runtimes that
agree by the same events in two orders of their slots. -/
theorem run_handle_reorder (hproviders : Stateless providers) {as bs : List (SimTime × CycleEvent)}
    (hp : as.Perm bs) (ha : as.Pairwise fun a b => slot a ≤ slot b)
    (hb : bs.Pairwise fun a b => slot a ≤ slot b) (h : Alike r r')
    (hrun : Transition.run (handle providers) r as = some t) :
    ∃ t', Transition.run (handle providers) r' bs = some t' ∧ Alike t t' := by
  have hswap : ∀ r a b t, slot a = slot b → Transition.run (handle providers) r [a, b] = some t →
      ∃ t', Transition.run (handle providers) r [b, a] = some t' ∧ Alike t t' :=
    fun _ _ _ _ => handle_swap hproviders
  have hsim : ∀ r r' a t, Alike r r' → handle providers r a = some t →
      ∃ t', handle providers r' a = some t' ∧ Alike t t' :=
    fun _ _ _ _ => Alike.handle hproviders
  exact run_reorder Alike.refl (fun _ _ _ => Alike.trans) hsim hswap hp ha hb h hrun

/-! ### The sessions of a replay -/

/-- The reception is of the desired signal. -/
def OfDesired (session : ReceptionSession) : Prop :=
  session.reception.receiverNodeId = session.desiredSignal.receiverNodeId ∧
    session.reception.transmissionId = session.desiredSignal.transmissionId

/-- The signals of the finalizes among the events. -/
def finalizedIn (events : List (SimTime × CycleEvent)) : List ReceivedSignal :=
  events.filterMap fun e => e.2.finalized

omit [DoubleArithmetic] in
lemma finalizedIn_cons (e : SimTime × CycleEvent) (events : List (SimTime × CycleEvent)) :
    finalizedIn (e :: events) = e.2.finalized.toList ++ finalizedIn events := by
  rw [finalizedIn, List.filterMap_cons]
  cases e.2.finalized <;> rfl

lemma handle_results {e : SimTime × CycleEvent} (h : r.handle providers e = some t) :
    (e.2.finalized = none ∧ t.results = r.results) ∨
    ∃ session, e.2.finalized = some session.desiredSignal ∧ OfDesired session ∧
      t.results = r.results.append session := by
  obtain ⟨time, event⟩ := e
  cases event with
  | signalArrival signal =>
    obtain ⟨-, -, ledger, -, rfl⟩ := handle_signalArrival.mp h
    exact Or.inl ⟨rfl, rfl⟩
  | sessionFinalize signal =>
    obtain ⟨-, session, id, ids, calls, hmakes, -, rfl⟩ := of_handle_sessionFinalize h
    obtain ⟨window, state, query, observation, result, -, rfl⟩ := hmakes
    exact Or.inr ⟨_, rfl, ⟨rfl, rfl⟩, rfl⟩
  | cycleClose => exact Or.inl ⟨rfl, (handle_cycleClose_keeps h).2⟩
  | txStart request => cases h
  | other phase => cases h

lemma run_results {events : List (SimTime × CycleEvent)}
    (h : Transition.run (handle providers) r events = some t) :
    (t.results.sessions.map ReceptionSession.desiredSignal).Perm
      (finalizedIn events ++ r.results.sessions.map ReceptionSession.desiredSignal) := by
  induction events generalizing r with
  | nil =>
    rw [run_nil, Option.some.injEq] at h
    rw [h]
    exact List.Perm.refl _
  | cons e events ih =>
    obtain ⟨m, hm, hrest⟩ := run_cons_eq_some.mp h
    rcases handle_results hm with ⟨hnone, hkeep⟩ | ⟨session, hsome, -, happend⟩
    · rw [finalizedIn_cons, hnone, ← hkeep]
      exact ih hrest
    · have hp := (r.results.append_perm session).map ReceptionSession.desiredSignal
      rw [← happend] at hp
      rw [finalizedIn_cons, hsome]
      calc t.results.sessions.map ReceptionSession.desiredSignal
          _ ~ finalizedIn events ++ m.results.sessions.map ReceptionSession.desiredSignal :=
            ih hrest
          _ ~ finalizedIn events ++
              session.desiredSignal :: r.results.sessions.map ReceptionSession.desiredSignal :=
            hp.append_left _
          _ ~ session.desiredSignal ::
              (finalizedIn events ++ r.results.sessions.map ReceptionSession.desiredSignal) :=
            List.perm_middle

/-- The order of the sessions, but for the ids. -/
def arrivalOrder (s : ReceptionSession) : SimTime ×ₗ NodeId ×ₗ TransmissionId :=
  toLex (s.reception.arrivalAt, toLex (s.reception.receiverNodeId, s.reception.transmissionId))

omit [DoubleArithmetic] in
lemma arrivalOrder_lt {s s' : ReceptionSession} (hs : OfDesired s) (hs' : OfDesired s')
    (hle : sessionOrder s ≤ sessionOrder s')
    (hne : ¬ samePair s.desiredSignal s'.desiredSignal) : arrivalOrder s < arrivalOrder s' := by
  unfold sessionOrder at hle
  unfold arrivalOrder
  rw [Prod.Lex.toLex_le_toLex, Prod.Lex.toLex_le_toLex, Prod.Lex.toLex_le_toLex] at hle
  rw [Prod.Lex.toLex_lt_toLex, Prod.Lex.toLex_lt_toLex]
  rcases hle with hlt | ⟨harrival, hlt | ⟨hreceiver, hlt | ⟨htransmission, -⟩⟩⟩
  · exact Or.inl hlt
  · exact Or.inr ⟨harrival, Or.inl hlt⟩
  · exact Or.inr ⟨harrival, Or.inr ⟨hreceiver, hlt⟩⟩
  · refine absurd (samePair_iff.mpr ⟨?_, ?_⟩) hne
    · rw [← hs.1, ← hs'.1]; exact hreceiver
    · rw [← hs.2, ← hs'.2]; exact htransmission

omit [DoubleArithmetic] in
lemma eraseId_ascending {results : ReceptionResultAccumulator}
    (hof : ∀ s ∈ results.sessions, OfDesired s)
    (hdistinct : (results.sessions.map ReceptionSession.desiredSignal).Pairwise
      fun s s' => ¬ samePair s s') :
    Ascending arrivalOrder (results.sessions.map ReceptionSession.eraseId) := by
  have hpairs := List.pairwise_map.mp hdistinct
  refine List.pairwise_map.mpr ((results.canonical.and hpairs).imp_of_mem ?_)
  intro s s' hs hs' h
  have hlt : arrivalOrder s < arrivalOrder s' := arrivalOrder_lt (hof s hs) (hof s' hs') h.1 h.2
  exact hlt

end CycleSignalRuntime

end Ns3Factory
