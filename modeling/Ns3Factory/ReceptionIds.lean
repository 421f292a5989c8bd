import Ns3Factory.ReceiverProcessor
import Ns3Factory.TransmissionEffects

/-!
The reception ids given out, over sends and receptions in any order.

Processing takes its reception id last, so a call that fails takes none, and a send never
does. The ids returned are then the first ones, in order and without a gap, up to the last of
64 bits; after that, or with none configured, no signal is processed.
-/

namespace Ns3Factory.ReceiverProcessor

open StdAlgorithm Transition TransmissionExecutor

variable [DoubleArithmetic]

/-- A call of `ExecuteTransmission` or of `ProcessReceivedSignal`, each with providers of its
own. -/
inductive ServiceCall
  | send (s : Send)
  | process (providers : Providers) (desiredSignal : ReceivedSignal)
      (ledger : InFlightSignalLedger) (workingState : CycleWorkingState)

inductive ServiceOutcome
  | sent (result : Result TransmissionSession)
  | processed (result : Result ReceptionSession)

/-- The calls share the ids and the log. -/
def serve (services : Services) : ServiceCall → ServiceOutcome × Services
  | .send s =>
    let (result, last) := send services s
    (.sent result, last)
  | .process providers desiredSignal ledger workingState =>
    let (result, last) := processReceivedSignal providers desiredSignal ledger workingState
      services
    (.processed result, last)

/-- The reception id of a call that processed a signal. -/
def ServiceOutcome.receptionId : ServiceOutcome → Option ReceptionId
  | .processed (.ok session) => some session.reception.receptionId
  | _ => none

/-- The reception ids returned, in order. -/
def receptionIds (trace : List (ServiceCall × ServiceOutcome)) : List ReceptionId :=
  trace.filterMap fun p => p.2.receptionId

omit [DoubleArithmetic] in
lemma receptionIds_concat (trace : List (ServiceCall × ServiceOutcome)) (c : ServiceCall)
    (outcome : ServiceOutcome) :
    receptionIds (trace ++ [(c, outcome)]) =
      receptionIds trace ++ outcome.receptionId.toList := by
  rw [receptionIds, List.filterMap_append]
  cases h : outcome.receptionId <;> simp [h, receptionIds]

lemma send_reception (services : Services) (s : Send) :
    (send services s).2.ids.nextReception = services.ids.nextReception ∧
      (send services s).2.ids.receptionIdsExhausted = services.ids.receptionIdsExhausted := by
  rcases send_cases services s with
    ⟨-, e, herr⟩ | ⟨-, -, herr⟩ | ⟨-, transmissionId, queries, result, last, hsend, hconsumes⟩
  · rw [herr]; exact ⟨rfl, rfl⟩
  · rw [herr]; exact ⟨rfl, rfl⟩
  rw [hsend]
  rcases services.ids.nextTransmissionId_cases with
    ⟨-, herr⟩ | ⟨-, id, ids, hid, -, -, hreception, hexhausted, -⟩
  · rw [hconsumes.id] at herr; cases herr
  · have heq := congrArg Prod.snd (hconsumes.id.symm.trans hid)
    dsimp only at heq
    exact ⟨heq ▸ hreception, heq ▸ hexhausted⟩

lemma ids_of_error {providers : Providers} {desiredSignal : ReceivedSignal}
    {ledger : InFlightSignalLedger} {w : CycleWorkingState} {services : Services} {e : Error}
    (h : (processReceivedSignal providers desiredSignal ledger w services).1 = .error e) :
    (processReceivedSignal providers desiredSignal ledger w services).2.ids = services.ids := by
  rcases processReceivedSignal_ends providers desiredSignal ledger w services with
    ⟨window, state, query, observation, result, id, ids, -, -, hok⟩ | ⟨-, e, calls, -, herr⟩
  · rw [hok] at h; cases h
  · rw [herr]

lemma process_of_unavailable {services : Services}
    (h : services.ids.nextReception = none ∨ services.ids.receptionIdsExhausted = true)
    (providers : Providers) (desiredSignal : ReceivedSignal) (ledger : InFlightSignalLedger)
    (w : CycleWorkingState) :
    ∃ e, (processReceivedSignal providers desiredSignal ledger w services).1 = .error e := by
  rcases services.ids.nextReceptionId_cases with ⟨-, e, herr⟩ | ⟨hsome, hx, -⟩
  · rcases processReceivedSignal_ends providers desiredSignal ledger w services with
      ⟨_, _, _, _, _, id, ids, -, hid, -⟩ | ⟨-, e, calls, -, hfail⟩
    · rw [hid] at herr; cases herr
    · exact ⟨e, by rw [hfail]⟩
  · rcases h with h | h
    · rw [h] at hsome; cases hsome
    · rw [h] at hx; cases hx

/-- After some calls the ids returned are the first ones, and all that are taken. -/
structure Counted (first : ReceptionId) (ids : List ReceptionId) (services : Services) :
    Prop where
  values : ids.map (fun id => id.value.val) = List.range' first.value.val ids.length
  configured : services.ids.nextReception.isSome
  taken : services.ids.receptionIdsTaken = first.value.val + ids.length
  room : first.value.val + ids.length ≤ 2 ^ 64
  exhausted : services.ids.receptionIdsExhausted = true ↔
    first.value.val + ids.length = 2 ^ 64

omit [DoubleArithmetic] in
lemma counted_create (firstTransmission : TransmissionId) (first : ReceptionId)
    (log : CallLog) : Counted first [] ⟨.create firstTransmission (some first), log⟩ := by
  have hlt := first.value.isLt
  refine ⟨rfl, rfl, rfl, hlt.le, ?_⟩
  simpa [CommunicationIdAllocator.create] using hlt.ne

omit [DoubleArithmetic] in
lemma Counted.congr {first : ReceptionId} {ids : List ReceptionId} {services last : Services}
    (h : Counted first ids services)
    (hnext : last.ids.nextReception = services.ids.nextReception)
    (hexhausted : last.ids.receptionIdsExhausted = services.ids.receptionIdsExhausted) :
    Counted first ids last := by
  refine ⟨h.values, hnext ▸ h.configured, ?_, h.room, hexhausted ▸ h.exhausted⟩
  rw [← h.taken]
  simp only [CommunicationIdAllocator.receptionIdsTaken, hnext, hexhausted]

omit [DoubleArithmetic] in
lemma Counted.take {first id : ReceptionId} {ids : List ReceptionId} {services last : Services}
    (h : Counted first ids services)
    (hid : services.ids.nextReceptionId = (.ok id, last.ids)) :
    Counted first (ids ++ [id]) last := by
  rcases services.ids.nextReceptionId_cases with
    ⟨-, e, herr⟩ | ⟨-, -, id', next, hid', hval, htaken, hconfigured, -, -, hexhausted⟩
  · rw [hid] at herr; cases herr
  have heq := hid.symm.trans hid'
  simp only [Prod.mk.injEq, Except.ok.injEq] at heq
  obtain ⟨rfl, hlast⟩ := heq
  rw [← hlast] at htaken hconfigured hexhausted
  have hlt := id.value.isLt
  refine ⟨?_, hconfigured, ?_, ?_, ?_⟩
  · rw [List.map_append, h.values, List.length_append, List.length_singleton,
      List.range'_concat]
    simp [hval, h.taken]
  · rw [htaken, h.taken, List.length_append, List.length_singleton, Nat.add_assoc]
  · rw [hval, h.taken] at hlt
    rwa [List.length_append, List.length_singleton, ← Nat.add_assoc]
  · rw [hexhausted, htaken, h.taken, List.length_append, List.length_singleton, Nat.add_assoc]

lemma Counted.serve {first : ReceptionId} {trace : List (ServiceCall × ServiceOutcome)}
    {services : Services} (h : Counted first (receptionIds trace) services) (c : ServiceCall) :
    Counted first (receptionIds (trace ++ [(c, (serve services c).1)])) (serve services c).2 := by
  rw [receptionIds_concat]
  cases c with
  | send s =>
    obtain ⟨hnext, hexhausted⟩ := send_reception services s
    simpa [ReceiverProcessor.serve, ServiceOutcome.receptionId] using h.congr hnext hexhausted
  | process providers desiredSignal ledger w =>
    rcases processReceivedSignal_ends providers desiredSignal ledger w services with
      ⟨window, state, query, observation, result, id, ids, -, hid, hok⟩ | ⟨-, e, calls, -, herr⟩
    · simp only [ReceiverProcessor.serve, hok]
      exact h.take hid
    · simp only [ReceiverProcessor.serve, herr, ServiceOutcome.receptionId, Option.toList_none,
        List.append_nil]
      exact h.congr rfl rfl

lemma counted_exec (firstTransmission : TransmissionId) (first : ReceptionId) (log : CallLog)
    (calls : List ServiceCall) :
    let outcome := exec serve ⟨.create firstTransmission (some first), log⟩ calls
    Counted first (receptionIds outcome.1) outcome.2 :=
  exec_invariant serve (P := fun trace services => Counted first (receptionIds trace) services)
    (A := fun _ => True) (fun _ _ c h _ => h.serve c) (counted_create firstTransmission first log)
    (fun _ _ => trivial)

lemma unconfigured_exec (firstTransmission : TransmissionId) (log : CallLog)
    (calls : List ServiceCall) :
    (exec serve ⟨.create firstTransmission none, log⟩ calls).2.ids.nextReception = none := by
  refine exec_invariant serve (P := fun _ services => services.ids.nextReception = none)
    (A := fun _ => True) (fun _ services c h _ => ?_) rfl (fun _ _ => trivial)
  cases c with
  | send s => exact (send_reception services s).1.trans h
  | process providers desiredSignal ledger w =>
    obtain ⟨e, he⟩ := process_of_unavailable (Or.inl h) providers desiredSignal ledger w
    change (processReceivedSignal providers desiredSignal ledger w services).2.ids.nextReception =
      none
    rw [ids_of_error he]
    exact h

/-- **Reception ids are gap-free and taken last.** After any calls, the reception ids returned
are the first ones in order; a processing that fails leaves both counters as they are; and once
the last id was returned, or with none configured, every processing fails. -/
theorem receptionIds_gapFree (firstTransmission : TransmissionId)
    (firstReception : Option ReceptionId) (log : CallLog) (calls : List ServiceCall) :
    let outcome := exec serve ⟨.create firstTransmission firstReception, log⟩ calls
    let returned := receptionIds outcome.1
    (∀ first, firstReception = some first →
      returned.map (fun id => id.value.val) = List.range' first.value.val returned.length) ∧
    ∀ providers desiredSignal ledger w,
      let processed := processReceivedSignal providers desiredSignal ledger w outcome.2
      (∀ e, processed.1 = .error e → processed.2.ids = outcome.2.ids) ∧
      (firstReception = none ∨ (⟨maxIdentity⟩ : ReceptionId) ∈ returned →
        ∃ e, processed.1 = .error e) := by
  intro outcome returned
  refine ⟨?_, fun providers desiredSignal ledger w => ⟨fun e he => ids_of_error he, ?_⟩⟩
  · rintro first rfl
    exact (counted_exec firstTransmission first log calls).values
  · intro hnone
    refine process_of_unavailable ?_ providers desiredSignal ledger w
    rcases hfirst : firstReception with _ | first
    · subst hfirst
      exact Or.inl (unconfigured_exec firstTransmission log calls)
    · subst hfirst
      have h := counted_exec firstTransmission first log calls
      have hmem := hnone.resolve_left (by simp)
      -- the last id is the one before `first + length`
      have hval : (maxIdentity : IdentityValue).val ∈
          returned.map (fun id => id.value.val) := List.mem_map_of_mem hmem
      rw [h.values, List.mem_range'_1] at hval
      have hmax : (maxIdentity : IdentityValue).val = 2 ^ 64 - 1 := rfl
      have hroom := h.room
      exact Or.inr (h.exhausted.mpr (by omega))

end Ns3Factory.ReceiverProcessor
