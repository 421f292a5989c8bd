import Ns3Factory.ClosableCycle
import Ns3Factory.CycleAtomicity
import Ns3Factory.DispatchReplay
import Ns3Factory.GrantedRequests

/-!
A plan for a cycle: the requests that are to be sent, and the close.

The platform schedules a `TxStart` for each request and one close, in any order, and calls
`Run`. All other events are filed by the callbacks, two for each signal. A plan is feasible if
its requests are granted, the receive side answers, and there are ids for everything.
-/

namespace Ns3Factory

open StdAlgorithm Transition

/-! ### A plan -/

/-- A cycle to be run: what it starts from, when it closes, and what is to be sent. -/
structure CyclePlan where
  services : Services
  workingState : CycleWorkingState
  store : WorldStateStore
  expectedVersion : SnapshotVersion
  cycleCloseTime : SimTime
  requests : List TransmissionExecutionRequest

/-- How many signals the requests make: one for each candidate receiver. -/
def receiverCount (requests : List TransmissionExecutionRequest) : ℕ :=
  (requests.map fun request => request.candidateReceivers.length).sum

@[simp] lemma receiverCount_append (requests more : List TransmissionExecutionRequest) :
    receiverCount (requests ++ more) = receiverCount requests + receiverCount more := by
  simp [receiverCount]

@[simp] lemma receiverCount_cons (request : TransmissionExecutionRequest)
    (requests : List TransmissionExecutionRequest) :
    receiverCount (request :: requests) =
      request.candidateReceivers.length + receiverCount requests := rfl

lemma receiverCount_perm {requests requests' : List TransmissionExecutionRequest}
    (h : requests.Perm requests') : receiverCount requests = receiverCount requests' :=
  (h.map _).sum_eq

namespace CyclePlan

/-- The events that the platform schedules before `Run`. -/
def events (plan : CyclePlan) : List (SimTime × CycleEvent) :=
  (plan.cycleCloseTime, .cycleClose) ::
    plan.requests.map fun request => (request.startedAt, .txStart request)

/-- All events of the cycle: a signal has an arrival and a finalize. -/
def eventCount (plan : CyclePlan) : ℕ :=
  plan.requests.length + 1 + 2 * receiverCount plan.requests

/-- The cycle before anything is scheduled. -/
def init (plan : CyclePlan) (firstSequence : EventSequenceId) (now : ℤ) : SignalLifecycle :=
  .init firstSequence now plan.services plan.workingState plan.store plan.expectedVersion
    plan.cycleCloseTime

/-- The calls of `Schedule` for some events. -/
def filing (events : List (SimTime × CycleEvent)) : List Move :=
  events.map fun e => .schedule e.1 e.2

/-- The plan can be carried out: its cycle can be closed, its requests are granted and not past,
the receive side answers, and the ids suffice. -/
structure Feasible (plan : CyclePlan) (providers : Providers) (firstSequence : EventSequenceId)
    (now : ℤ) : Prop where
  wellFormed : CycleSignalRuntime.WellFormed plan.workingState plan.store plan.expectedVersion
    plan.cycleCloseTime
  answers : ReceiverProcessor.Answers providers
  granted : ∀ request ∈ plan.requests, TransmissionExecutor.Granted providers plan.workingState
    plan.cycleCloseTime request
  future : ∀ e ∈ plan.events, now ≤ e.1.nanoseconds
  transmissionIds : plan.requests.length ≤ plan.services.ids.transmissionIdsLeft
  receptionIds : receiverCount plan.requests ≤ plan.services.ids.receptionIdsLeft
  sequenceIds : firstSequence.value.val + plan.eventCount ≤ 2 ^ 64

lemma mem_events {plan : CyclePlan} {e : SimTime × CycleEvent} :
    e ∈ plan.events ↔ e = (plan.cycleCloseTime, .cycleClose) ∨
      ∃ request ∈ plan.requests, e = (request.startedAt, .txStart request) := by
  simp [events, eq_comm]

/-- The accepted events are those of the plan, and events of signals. -/
structure Files (plan : CyclePlan) (accepted : List (EventRecord CycleEvent)) : Prop where
  started : (startedOf accepted).Perm plan.requests
  closes : (accepted.countP fun record => SignalLifecycle.isClose record.callback) = 1
  planned : ∀ record ∈ accepted, record.callback.isOpen = true → record.timed ∈ plan.events

lemma started_events (plan : CyclePlan) :
    (plan.events.filterMap fun e => e.2.started) = plan.requests := by
  simp [events, CycleEvent.started, List.filterMap_map]

lemma closes_events (plan : CyclePlan) :
    (plan.events.countP fun e => SignalLifecycle.isClose e.2) = 1 := by
  simp [events, SignalLifecycle.isClose, List.countP_map, Function.comp_def]

lemma files_of_timed {plan : CyclePlan} {order : List (SimTime × CycleEvent)}
    (horder : order.Perm plan.events) {accepted : List (EventRecord CycleEvent)}
    (h : accepted.map EventRecord.timed = order) : plan.Files accepted := by
  have hp : (accepted.map EventRecord.timed).Perm plan.events := h ▸ horder
  refine ⟨?_, ?_, fun record hmem _ => hp.mem_iff.mp (List.mem_map_of_mem hmem)⟩
  · have hstarted := hp.filterMap fun e => e.2.started
    rwa [plan.started_events, List.filterMap_map] at hstarted
  · have hcloses := hp.countP_eq fun e => SignalLifecycle.isClose e.2
    rwa [plan.closes_events, List.countP_map] at hcloses

lemma startedOf_eq_nil {records : List (EventRecord CycleEvent)}
    (hrecords : ∀ record ∈ records, record.callback.isOpen = false) : startedOf records = [] := by
  refine List.filterMap_eq_nil_iff.mpr fun record hmem => ?_
  have hopen := hrecords record hmem
  rcases hcb : record.callback with _ | _ | _ | _ | _ <;>
    simp_all [CycleEvent.isOpen, CycleEvent.started]

lemma startedOf_append (records more : List (EventRecord CycleEvent)) :
    startedOf (records ++ more) = startedOf records ++ startedOf more := List.filterMap_append

lemma Files.append {plan : CyclePlan} {accepted records : List (EventRecord CycleEvent)}
    (h : plan.Files accepted) (hrecords : ∀ record ∈ records, record.callback.isOpen = false) :
    plan.Files (accepted ++ records) := by
  have hcloses : (records.countP fun record => SignalLifecycle.isClose record.callback) = 0 := by
    refine List.countP_eq_zero.mpr fun record hmem hclose => ?_
    have hopen := hrecords record hmem
    rw [SignalLifecycle.isClose_iff.mp hclose] at hopen
    cases hopen
  refine ⟨?_, ?_, fun record hmem hopen => ?_⟩
  · rw [startedOf_append, startedOf_eq_nil hrecords, List.append_nil]
    exact h.started
  · rw [List.countP_append, hcloses]
    exact h.closes
  · rcases List.mem_append.mp hmem with hmem | hmem
    · exact h.planned record hmem hopen
    · rw [hrecords record hmem] at hopen
      cases hopen

end CyclePlan

end Ns3Factory
