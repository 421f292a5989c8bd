import Ns3Factory.KernelGateway
import Ns3Factory.StdAlgorithm

/-!
The event dispatcher: one ns-3 callback for each time with events, which runs the events
of that time in the order of their keys.

`ScheduleAt` files an event under its time and hands ns-3 a callback for a time it had no
bucket for. `DispatchTime` is the loop of that callback, cut at the places where an event
callback runs, since that callback may call `ScheduleAt` again.
-/

namespace Ns3Factory

open StdAlgorithm

/-- An `EventPhase`, of underlying type `uint8_t`: any value of that type can be cast to it. -/
structure EventPhase where
  value : Fin 256
  deriving DecidableEq

namespace EventPhase

lemma value_injective : Function.Injective value := fun ⟨_⟩ ⟨_⟩ h => congrArg _ h

instance : LinearOrder EventPhase := LinearOrder.lift' value value_injective

def kSessionFinalize : EventPhase := ⟨10⟩
def kSignalArrival : EventPhase := ⟨20⟩
def kInputReady : EventPhase := ⟨30⟩
def kRuntimeDecision : EventPhase := ⟨40⟩
def kTxStart : EventPhase := ⟨50⟩
def kCycleClose : EventPhase := ⟨90⟩

end EventPhase

/-- `EventDispatcher::IsValidPhase`. -/
def isValidPhase (phase : EventPhase) : Bool :=
  phase = .kSessionFinalize || phase = .kSignalArrival || phase = .kInputReady ||
    phase = .kRuntimeDecision || phase = .kTxStart || phase = .kCycleClose

structure EventSequenceId where
  value : IdentityValue
  deriving DecidableEq

namespace EventSequenceId

lemma value_injective : Function.Injective value := fun ⟨_⟩ ⟨_⟩ h => congrArg _ h

instance : LinearOrder EventSequenceId := LinearOrder.lift' value value_injective

end EventSequenceId

structure EventKey where
  time : SimTime
  phase : EventPhase
  sequence : EventSequenceId
  deriving DecidableEq

namespace EventKey

/-- The members in the order the defaulted comparison takes them. -/
def lex (k : EventKey) : SimTime ×ₗ EventPhase ×ₗ EventSequenceId :=
  toLex (k.time, toLex (k.phase, k.sequence))

lemma lex_injective : Function.Injective lex := by
  rintro ⟨t, p, s⟩ ⟨t', p', s'⟩ h
  simpa [lex] using h

instance : LinearOrder EventKey := LinearOrder.lift' lex lex_injective

lemma lt_iff {a b : EventKey} :
    a < b ↔ a.time < b.time ∨ a.time = b.time ∧
      (a.phase < b.phase ∨ a.phase = b.phase ∧ a.sequence < b.sequence) := by
  change lex a < lex b ↔ _
  simp only [lex, Prod.Lex.toLex_lt_toLex]

lemma time_le_of_lt {a b : EventKey} (h : a < b) : a.time ≤ b.time := by
  rcases lt_iff.mp h with h | h
  · exact h.le
  · exact h.1.le

end EventKey

variable {κ : Type*}

/-- An event waiting to run; `κ` is the type of the callbacks. -/
structure EventRecord (κ : Type*) where
  key : EventKey
  callback : κ

structure TimeBucket (κ : Type*) where
  time : SimTime
  records : List (EventRecord κ)

structure EventDispatcher (κ : Type*) where
  nextSequence : IdentityValue
  sequenceExhausted : Bool
  dispatching : Bool
  dispatchTime : Option SimTime
  currentPhase : Option EventPhase
  lastDispatchTime : Option SimTime
  lastPhaseAtTime : Option EventPhase
  executionError : Option Error
  buckets : List (TimeBucket κ)

namespace EventDispatcher

/-- The constructor. -/
def create (firstSequence : EventSequenceId) : EventDispatcher κ where
  nextSequence := firstSequence.value
  sequenceExhausted := false
  dispatching := false
  dispatchTime := none
  currentPhase := none
  lastDispatchTime := none
  lastPhaseAtTime := none
  executionError := none
  buckets := []

def allocateSequence (d : EventDispatcher κ) : Result EventSequenceId × EventDispatcher κ :=
  if d.sequenceExhausted then
    (.error ⟨.kOverflow, "EventSequenceId allocation exhausted"⟩, d)
  else if h : d.nextSequence = maxIdentity then
    (.ok ⟨d.nextSequence⟩, { d with sequenceExhausted := true })
  else
    (.ok ⟨d.nextSequence⟩, { d with nextSequence := d.nextSequence.next h })

/-- The bucket `FindBucket` points at, when it is one for `time`. -/
def findBucket (d : EventDispatcher κ) (time : SimTime) : Option (TimeBucket κ) :=
  lookup TimeBucket.time time d.buckets

/-- The phase an event scheduled for `time` has to exceed, if there is one. -/
def phaseFloor (d : EventDispatcher κ) (time : SimTime) : Option EventPhase :=
  if d.dispatching && d.dispatchTime = some time then d.currentPhase
  else if d.lastDispatchTime = some time then d.lastPhaseAtTime
  else none

def pendingRecords (d : EventDispatcher κ) : List (EventRecord κ) :=
  d.buckets.flatMap TimeBucket.records

def pendingEventCount (d : EventDispatcher κ) : ℕ :=
  d.buckets.foldl (fun count bucket => count + bucket.records.length) 0

end EventDispatcher

/-- A dispatcher and the simulator its gateway operates. -/
structure Kernel (κ : Type*) where
  dispatcher : EventDispatcher κ
  simulator : Simulator

namespace Kernel

/-- The end of `ScheduleAt`: files the record, and hands ns-3 a callback for a new bucket. -/
def insertRecord (k : Kernel κ) (record : EventRecord κ) : Result EventKey × Kernel κ :=
  let time := record.key.time
  match k.dispatcher.findBucket time with
  | some bucket =>
    let pushed := { bucket with records := bucket.records ++ [record] }
    (.ok record.key,
      { k with dispatcher.buckets := upsert TimeBucket.time pushed k.dispatcher.buckets })
  | none =>
    let inserted := upsert TimeBucket.time ⟨time, [record]⟩ k.dispatcher.buckets
    match k.simulator.scheduleAt time time with
    | (.error e, sim) =>
      (.error e, { k with
        dispatcher.buckets := eraseKey TimeBucket.time time inserted, simulator := sim })
    | (.ok _, sim) =>
      (.ok record.key, { k with dispatcher.buckets := inserted, simulator := sim })

/-- `EventDispatcher::ScheduleAt`; an empty callback is `none`. -/
def scheduleAt (k : Kernel κ) (time : SimTime) (phase : EventPhase) (callback : Option κ) :
    Result EventKey × Kernel κ :=
  match isValidPhase phase, callback with
  | true, some callback =>
    match k.simulator.platformNow with
    | .error e => (.error e, k)
    | .ok now =>
      if time < now then
        (.error ⟨.kOutOfRange, "EventDispatcher cannot schedule into the past"⟩, k)
      else if (k.dispatcher.phaseFloor time).any fun floor => phase.value ≤ floor.value then
        (.error ⟨.kFailedPrecondition, "Same-time dynamic event must use a later phase"⟩, k)
      else
        match k.dispatcher.allocateSequence with
        | (.error e, d) => (.error e, { k with dispatcher := d })
        | (.ok sequence, d) =>
          { k with dispatcher := d }.insertRecord ⟨⟨time, phase, sequence⟩, callback⟩
  | _, _ =>
    (.error ⟨.kInvalidArgument, "EventDispatcher requires a valid phase/callback"⟩, k)

/-- `DispatchTime` before its loop. -/
def enterDispatchTime (k : Kernel κ) (time : SimTime) : Kernel κ :=
  { k with
    dispatcher.dispatching := true
    dispatcher.dispatchTime := some time
    dispatcher.currentPhase := none }

/-- One turn of the loop of `DispatchTime`, up to the callback it runs: the record to run,
or `none` when the loop ends. -/
def nextRecord (k : Kernel κ) (time : SimTime) : Option (EventRecord κ) × Kernel κ :=
  if k.dispatcher.executionError.isSome then (none, k)
  else
    match k.dispatcher.findBucket time with
    | none => (none, k)
    | some bucket =>
      match extractMin (fun lhs rhs => lhs.key < rhs.key) bucket.records with
      | none =>
        (none, { k with
          dispatcher.buckets := eraseKey TimeBucket.time time k.dispatcher.buckets })
      | some (record, rest) =>
        (some record, { k with
          dispatcher.buckets :=
            upsert TimeBucket.time { bucket with records := rest } k.dispatcher.buckets
          dispatcher.currentPhase := some record.key.phase
          dispatcher.lastDispatchTime := some time
          dispatcher.lastPhaseAtTime := some record.key.phase })

/-- The end of a turn: what the loop does with the status its callback returned. -/
def finishCallback (k : Kernel κ) (status : Status) : Kernel κ :=
  match status with
  | .ok _ => k
  | .error e => { k with dispatcher.executionError := some e, simulator := k.simulator.stop }

/-- `DispatchTime` after its loop. -/
def leaveDispatchTime (k : Kernel κ) : Kernel κ :=
  { k with
    dispatcher.dispatching := false
    dispatcher.dispatchTime := none
    dispatcher.currentPhase := none }

/-- `EventDispatcher::Run` up to the first callback of ns-3. -/
def beginRun (k : Kernel κ) : Kernel κ :=
  { k with dispatcher.executionError := none, simulator.stopped := false }

/-- What `EventDispatcher::Run` returns once ns-3 has returned. -/
def runStatus (k : Kernel κ) : Status :=
  match k.dispatcher.executionError with
  | some e => .error e
  | none => .ok ()

end Kernel

end Ns3Factory
