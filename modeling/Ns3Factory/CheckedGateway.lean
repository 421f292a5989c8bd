import Ns3Factory.EventDispatcher
import Ns3Factory.Transition

/-!
The checks of the gateway, over any ns-3.

Nothing is assumed of the times of ns-3: a conversion fails unless the resolution of ns-3 is
nanoseconds and the converted value converts back. So the two conversions of a gateway undo
each other wherever they succeed. With a time of ns-3 that is a count of nanoseconds the checks
pass, and the dispatcher does what it does on the simulator of the model; with another
resolution it accepts nothing.
-/

namespace Ns3Factory

open StdAlgorithm Transition

/-- What the gateway uses of ns-3: its times `τ`, and the states `σ` of its simulator. -/
structure Ns3 (τ σ : Type*) where
  /-- `Time::GetResolution() == Time::NS`. -/
  resolutionIsNs : Bool
  /-- `Time(long long)`. -/
  ofLongLong : NanosecondCount → τ
  getNanoSeconds : τ → NanosecondCount
  /-- `Simulator::Now`. -/
  now : σ → τ
  /-- `Simulator::Schedule` of the callback `DispatchTime(time)`. -/
  schedule : σ → τ → SimTime → σ

namespace Ns3

variable {τ σ κ : Type*} (ns3 : Ns3 τ σ)

/-- `Ns3KernelGateway::ValidateResolution`. -/
def validateResolution : Status :=
  if ns3.resolutionIsNs then .ok ()
  else .error ⟨.kFailedPrecondition, "ns-3 Time resolution must be nanoseconds"⟩

/-- The conversion of a count to ns-3, with the text of its error. -/
def toNs3 (message : String) (count : NanosecondCount) : Result τ :=
  match ns3.validateResolution with
  | .error e => .error e
  | .ok _ =>
    let converted := ns3.ofLongLong count
    if ns3.getNanoSeconds converted ≠ count then .error ⟨.kOverflow, message⟩
    else .ok converted

/-- `Ns3KernelGateway::ToNs3Time` of a time. -/
def toNs3Time (time : SimTime) : Result τ :=
  ns3.toNs3 "SimTime cannot be represented exactly by ns-3" time.count

/-- `Ns3KernelGateway::ToNs3Time` of a duration. -/
def toNs3Duration (duration : SimDuration) : Result τ :=
  ns3.toNs3 "SimDuration cannot be represented exactly by ns-3" duration.count

variable {ns3} in
lemma toNs3_eq_ok {message : String} {count : NanosecondCount} {time : τ} :
    ns3.toNs3 message count = .ok time ↔ ns3.resolutionIsNs = true ∧
      ns3.ofLongLong count = time ∧ ns3.getNanoSeconds time = count := by
  unfold toNs3 validateResolution
  rcases hres : ns3.resolutionIsNs with _ | _
  · simp
  · simp only [if_true, true_and]
    split_ifs with hne
    · simp only [false_iff, not_and]
      rintro rfl
      exact hne
    · have heq := not_not.mp hne
      rw [Except.ok.injEq]
      constructor
      · rintro rfl
        exact ⟨rfl, heq⟩
      · exact fun h => h.1

variable [DecidableEq τ]

/-- The conversion of an ns-3 time, which has to convert back. -/
def fromNs3 {α : Type*} (make : NanosecondCount → α) (back : α → Result τ) (message : String)
    (time : τ) : Result α :=
  match ns3.validateResolution with
  | .error e => .error e
  | .ok _ =>
    let converted := make (ns3.getNanoSeconds time)
    match back converted with
    | .error _ => .error ⟨.kOverflow, message⟩
    | .ok roundTrip =>
      if roundTrip ≠ time then .error ⟨.kOverflow, message⟩ else .ok converted

/-- `Ns3KernelGateway::FromNs3Time`. -/
def fromNs3Time (time : τ) : Result SimTime :=
  ns3.fromNs3 SimTime.mk ns3.toNs3Time "ns-3 Time cannot round-trip through SimTime" time

/-- `Ns3KernelGateway::FromNs3Duration`. -/
def fromNs3Duration (duration : τ) : Result SimDuration :=
  ns3.fromNs3 SimDuration.mk ns3.toNs3Duration
    "ns-3 Time cannot round-trip through SimDuration" duration

/-- `Ns3KernelGateway::CheckedDelay`. -/
def checkedDelay (origin target : SimTime) : Result τ :=
  if target < origin then
    .error ⟨.kOutOfRange, "Cannot schedule an event before the origin time"⟩
  else
    match target.checkedDifference origin with
    | none => .error ⟨.kOverflow, "Event scheduling delay overflow"⟩
    | some delay => ns3.toNs3Duration delay

/-- `Ns3KernelGateway::PlatformNow`. -/
def platformNow (s : σ) : Result SimTime := ns3.fromNs3Time (ns3.now s)

/-- `Ns3KernelGateway::ScheduleAt` with the callback `DispatchTime(time)`. -/
def scheduleAt (s : σ) (target time : SimTime) : Status × σ :=
  match ns3.platformNow s with
  | .error e => (.error e, s)
  | .ok now =>
    match ns3.checkedDelay now target with
    | .error e => (.error e, s)
    | .ok delay => (.ok (), ns3.schedule s delay time)

/-! ### Round trips -/

variable {ns3}

lemma fromNs3_eq_ok {α : Type*} {make : NanosecondCount → α} {count : α → NanosecondCount}
    (hmake : ∀ a, make (count a) = a) {text message : String} {time : τ} {a : α} :
    ns3.fromNs3 make (fun a => ns3.toNs3 text (count a)) message time = .ok a ↔
      ns3.toNs3 text (count a) = .ok time := by
  constructor
  · intro h
    rcases hres : ns3.validateResolution with e | u
    · simp [fromNs3, hres] at h
    rcases hback : ns3.toNs3 text (count (make (ns3.getNanoSeconds time))) with e | roundTrip
    · simp [fromNs3, hres, hback] at h
    simp only [fromNs3, hres, hback] at h
    split_ifs at h with hne
    obtain rfl := Except.ok.inj h
    rwa [not_not.mp hne] at hback
  · intro h
    obtain ⟨hres, -, hget⟩ := toNs3_eq_ok.mp h
    have hconverted : make (ns3.getNanoSeconds time) = a := by rw [hget, hmake]
    simp only [fromNs3, validateResolution, hres, if_true, hconverted, h]
    simp

/-! ### The dispatcher over the gateway -/

end Ns3

/-- A dispatcher, and the state of the ns-3 its gateway operates. -/
structure CheckedKernel (κ σ : Type*) where
  dispatcher : EventDispatcher κ
  simulator : σ

namespace CheckedKernel

variable {τ σ κ : Type*} [DecidableEq τ] (ns3 : Ns3 τ σ)

/-- The end of `ScheduleAt`, as `Kernel.insertRecord`. -/
def insertRecord (k : CheckedKernel κ σ) (record : EventRecord κ) :
    Result EventKey × CheckedKernel κ σ :=
  let time := record.key.time
  match k.dispatcher.findBucket time with
  | some bucket =>
    let pushed := { bucket with records := bucket.records ++ [record] }
    (.ok record.key,
      { k with dispatcher.buckets := upsert TimeBucket.time pushed k.dispatcher.buckets })
  | none =>
    let inserted := upsert TimeBucket.time ⟨time, [record]⟩ k.dispatcher.buckets
    match ns3.scheduleAt k.simulator time time with
    | (.error e, simulator) =>
      (.error e, { k with
        dispatcher.buckets := eraseKey TimeBucket.time time inserted, simulator := simulator })
    | (.ok _, simulator) =>
      (.ok record.key, { k with dispatcher.buckets := inserted, simulator := simulator })

/-- `EventDispatcher::ScheduleAt`; an empty callback is `none`. -/
def scheduleAt (k : CheckedKernel κ σ) (time : SimTime) (phase : EventPhase)
    (callback : Option κ) : Result EventKey × CheckedKernel κ σ :=
  match isValidPhase phase, callback with
  | true, some callback =>
    match ns3.platformNow k.simulator with
    | .error e => (.error e, k)
    | .ok now =>
      if time < now then
        (.error ⟨.kOutOfRange, "EventDispatcher cannot schedule into the past"⟩, k)
      else if (k.dispatcher.phaseFloor time).any fun floor => phase.value ≤ floor.value then
        (.error ⟨.kFailedPrecondition, "Same-time dynamic event must use a later phase"⟩, k)
      else
        match k.dispatcher.allocateSequence with
        | (.error e, d) => (.error e, { k with dispatcher := d })
        | (.ok sequence, d) =>
          insertRecord ns3 { k with dispatcher := d } ⟨⟨time, phase, sequence⟩, callback⟩
  | _, _ =>
    (.error ⟨.kInvalidArgument, "EventDispatcher requires a valid phase/callback"⟩, k)

end CheckedKernel

/-- A `ScheduleAt` call. -/
structure Request (κ : Type*) where
  time : SimTime
  phase : EventPhase
  callback : Option κ

namespace Ns3

variable {τ σ κ : Type*} [DecidableEq τ] {ns3 : Ns3 τ σ}

/-- A time of ns-3 is a count of nanoseconds. -/
structure Exact (ns3 : Ns3 τ σ) : Prop where
  resolution : ns3.resolutionIsNs = true
  reads : ∀ count, ns3.getNanoSeconds (ns3.ofLongLong count) = count
  writes : ∀ time, ns3.ofLongLong (ns3.getNanoSeconds time) = time

/-- The simulator of the model stands for that of ns-3: it shows the same clock, and what is
scheduled in one is scheduled in the other, as far as ns-3 can count. -/
structure Models (ns3 : Ns3 τ σ) (R : σ → Simulator → Prop) : Prop where
  now : ∀ s sim, R s sim → (ns3.getNanoSeconds (ns3.now s)).val = sim.now
  schedule : ∀ s sim (delay : SimDuration) time, R s sim → 0 ≤ delay.nanoseconds →
    sim.now + delay.nanoseconds ≤ kMax →
    R (ns3.schedule s (ns3.ofLongLong delay.count) time) (sim.schedule delay.nanoseconds time)

omit [DecidableEq τ] in
lemma Exact.toNs3 (h : ns3.Exact) (message : String) (count : NanosecondCount) :
    ns3.toNs3 message count = .ok (ns3.ofLongLong count) :=
  toNs3_eq_ok.mpr ⟨h.resolution, rfl, h.reads count⟩

lemma Models.platformNow {R : σ → Simulator → Prop} (hexact : ns3.Exact) (h : ns3.Models R)
    {s : σ} {sim : Simulator} (hs : R s sim) : ns3.platformNow s = sim.platformNow := by
  have hnow := h.now s sim hs
  have hrange := (ns3.getNanoSeconds (ns3.now s)).property
  have hread : ns3.platformNow s = .ok ⟨ns3.getNanoSeconds (ns3.now s)⟩ := by
    refine (fromNs3_eq_ok fun _ => rfl).mpr ?_
    rw [hexact.toNs3, hexact.writes]
  rw [hnow] at hrange
  rw [hread, Simulator.platformNow, Simulator.fromNs3Time, dif_pos hrange]
  exact congrArg (fun n => Except.ok (SimTime.mk n)) (Subtype.ext hnow)

lemma Models.scheduleAt {R : σ → Simulator → Prop} (hexact : ns3.Exact) (h : ns3.Models R)
    {s : σ} {sim : Simulator} (hs : R s sim) (target time : SimTime) :
    (ns3.scheduleAt s target time).1 = (sim.scheduleAt target time).1 ∧
      R (ns3.scheduleAt s target time).2 (sim.scheduleAt target time).2 := by
  have hclock := h.platformNow hexact hs
  rcases hnow : sim.platformNow with e | now
  · simp only [Ns3.scheduleAt, Simulator.scheduleAt, hclock, hnow]
    exact ⟨trivial, hs⟩
  have hns : now.nanoseconds = sim.now := by
    unfold Simulator.platformNow Simulator.fromNs3Time at hnow
    split_ifs at hnow
    rw [← Except.ok.inj hnow]
    rfl
  by_cases hpast : target < now
  · simp only [Ns3.scheduleAt, Simulator.scheduleAt, hclock, hnow, Ns3.checkedDelay,
      Simulator.checkedDelay, hpast, if_true]
    exact ⟨trivial, hs⟩
  rcases hdiff : target.checkedDifference now with _ | delay
  · simp only [Ns3.scheduleAt, Simulator.scheduleAt, hclock, hnow, Ns3.checkedDelay,
      Simulator.checkedDelay, hpast, if_false, hdiff]
    exact ⟨trivial, hs⟩
  · have hdelay := SimTime.checkedDifference_eq_some.mp hdiff
    have hle : target.nanoseconds ≤ kMax := target.le_kMax
    rw [SimTime.lt_iff] at hpast
    simp only [Ns3.scheduleAt, Simulator.scheduleAt, hclock, hnow, Ns3.checkedDelay,
      Simulator.checkedDelay, SimTime.lt_iff, hpast, if_false, hdiff, toNs3Duration,
      hexact.toNs3, Simulator.toNs3Time]
    exact ⟨trivial, h.schedule s sim delay time hs (by omega) (by omega)⟩

/-- The dispatchers are the same, over simulators that stand for each other. -/
structure Agrees (R : σ → Simulator → Prop) (k : CheckedKernel κ σ) (k' : Kernel κ) : Prop where
  dispatcher : k.dispatcher = k'.dispatcher
  simulator : R k.simulator k'.simulator

lemma Agrees.insertRecord {R : σ → Simulator → Prop} (hexact : ns3.Exact)
    (hmodels : ns3.Models R) {k : CheckedKernel κ σ} {k' : Kernel κ} (h : Agrees R k k')
    (record : EventRecord κ) :
    (CheckedKernel.insertRecord ns3 k record).1 = (k'.insertRecord record).1 ∧
      Agrees R (CheckedKernel.insertRecord ns3 k record).2 (k'.insertRecord record).2 := by
  obtain ⟨d, s⟩ := k
  obtain ⟨d', sim⟩ := k'
  obtain ⟨rfl, hs⟩ := h
  obtain ⟨hstatus, hnext⟩ := hmodels.scheduleAt hexact hs record.key.time record.key.time
  rcases hb : d.findBucket record.key.time with _ | bucket
  swap
  · simp only [CheckedKernel.insertRecord, Kernel.insertRecord, hb]
    exact ⟨trivial, rfl, hs⟩
  rcases hc : ns3.scheduleAt s record.key.time record.key.time with ⟨e | u, s'⟩ <;>
    rcases hi : sim.scheduleAt record.key.time record.key.time with ⟨e' | u', sim'⟩ <;>
    rw [hc, hi] at hstatus hnext <;>
    simp only [CheckedKernel.insertRecord, Kernel.insertRecord, hb, hc, hi]
  · exact ⟨congrArg _ (Except.error.inj hstatus), rfl, hnext⟩
  · cases hstatus
  · cases hstatus
  · exact ⟨trivial, rfl, hnext⟩

lemma Agrees.scheduleAt {R : σ → Simulator → Prop} (hexact : ns3.Exact)
    (hmodels : ns3.Models R) {k : CheckedKernel κ σ} {k' : Kernel κ} (h : Agrees R k k')
    (time : SimTime) (phase : EventPhase) (callback : Option κ) :
    (k.scheduleAt ns3 time phase callback).1 = (k'.scheduleAt time phase callback).1 ∧
      Agrees R (k.scheduleAt ns3 time phase callback).2
        (k'.scheduleAt time phase callback).2 := by
  have hclock := hmodels.platformNow hexact h.simulator
  unfold CheckedKernel.scheduleAt Kernel.scheduleAt
  rw [hclock, h.dispatcher]
  rcases isValidPhase phase with _ | _
  · exact ⟨rfl, h⟩
  rcases callback with _ | callback
  · exact ⟨rfl, h⟩
  rcases k'.simulator.platformNow with e | now
  · exact ⟨rfl, h⟩
  simp only
  split_ifs
  · exact ⟨rfl, h⟩
  · exact ⟨rfl, h⟩
  rcases k'.dispatcher.allocateSequence with ⟨e | sequence, d⟩
  · exact ⟨rfl, rfl, h.simulator⟩
  · have hagrees : Agrees R { k with dispatcher := d } { k' with dispatcher := d } :=
      ⟨rfl, h.simulator⟩
    exact hagrees.insertRecord hexact hmodels _

/-- **The checks of the gateway pass.** Where a time of ns-3 is a count of nanoseconds, all
`ScheduleAt` calls return what they return over the simulator of the model, and leave the same
dispatcher over simulators that stand for each other. -/
theorem checked_dispatcher_refines {R : σ → Simulator → Prop} (hexact : ns3.Exact)
    (hmodels : ns3.Models R) {k : CheckedKernel κ σ} {k' : Kernel κ} (h : Agrees R k k')
    (requests : List (Request κ)) :
    let checked := exec (fun k r => k.scheduleAt ns3 r.time r.phase r.callback) k requests
    let plain := exec (fun k r => k.scheduleAt r.time r.phase r.callback) k' requests
    checked.1 = plain.1 ∧ Agrees R checked.2 plain.2 := by
  induction requests generalizing k k' with
  | nil => exact ⟨rfl, h⟩
  | cons r requests ih =>
    obtain ⟨hresult, hnext⟩ := h.scheduleAt hexact hmodels r.time r.phase r.callback
    obtain ⟨htrace, hlast⟩ := ih hnext
    simp only [exec_cons]
    exact ⟨by rw [hresult, htrace], hlast⟩

/-- A simulator whose times are counts of nanoseconds. -/
structure CountingSimulator where
  now : NanosecondCount
  events : List Ns3Event
  stopped : Bool

def countingNs3 : Ns3 NanosecondCount CountingSimulator where
  resolutionIsNs := true
  ofLongLong count := count
  getNanoSeconds time := time
  now s := s.now
  schedule s delay time := { s with events := s.events ++ [⟨s.now.val + delay.val, time⟩] }

/-- The two simulators show the same. -/
def CountingSimulator.Shows (s : CountingSimulator) (sim : Simulator) : Prop :=
  sim = ⟨s.now.val, s.events, s.stopped⟩

lemma countingNs3_exact : countingNs3.Exact := ⟨rfl, fun _ => rfl, fun _ => rfl⟩

lemma countingNs3_models : countingNs3.Models CountingSimulator.Shows where
  now := by rintro s sim rfl; rfl
  schedule := by rintro s sim delay time rfl - -; rfl

/-- An event at time 5, and one in the past. -/
def twoRequests : List (Request Unit) :=
  [⟨.ofUInt32 5, .kTxStart, some ()⟩, ⟨.ofUInt32 1, .kTxStart, some ()⟩]

theorem checked_dispatcher_refines_counting :
    let checked := exec (fun k r => k.scheduleAt countingNs3 r.time r.phase r.callback)
      (⟨.create ⟨0⟩, ⟨⟨2, by decide⟩, [], false⟩⟩ : CheckedKernel Unit CountingSimulator)
      twoRequests
    let plain := exec (fun k r => k.scheduleAt r.time r.phase r.callback)
      (⟨.create ⟨0⟩, ⟨2, [], false⟩⟩ : Kernel Unit) twoRequests
    checked.1 = plain.1 ∧ Agrees CountingSimulator.Shows checked.2 plain.2 := by
  have hagrees : Agrees CountingSimulator.Shows
      (⟨.create ⟨0⟩, ⟨⟨2, by decide⟩, [], false⟩⟩ : CheckedKernel Unit CountingSimulator)
      (⟨.create ⟨0⟩, ⟨2, [], false⟩⟩ : Kernel Unit) := ⟨rfl, rfl⟩
  exact checked_dispatcher_refines countingNs3_exact countingNs3_models hagrees twoRequests

lemma platformNow_of_resolution (hres : ns3.resolutionIsNs = false) (s : σ) :
    ns3.platformNow s =
      .error ⟨.kFailedPrecondition, "ns-3 Time resolution must be nanoseconds"⟩ := by
  simp [Ns3.platformNow, fromNs3Time, fromNs3, validateResolution, hres]

theorem wrong_resolution_rejects (hres : ns3.resolutionIsNs = false) (k : CheckedKernel κ σ)
    (requests : List (Request κ)) :
    let outcome := exec (fun k r => k.scheduleAt ns3 r.time r.phase r.callback) k requests
    outcome.2 = k ∧ ∀ p ∈ outcome.1, Result.succeeded p.2 = false := by
  induction requests with
  | nil => exact ⟨rfl, by simp⟩
  | cons r requests ih =>
    have hreject : ∃ e, k.scheduleAt ns3 r.time r.phase r.callback = (.error e, k) := by
      unfold CheckedKernel.scheduleAt
      rw [platformNow_of_resolution hres]
      rcases isValidPhase r.phase with _ | _
      · exact ⟨_, rfl⟩
      rcases r.callback with _ | callback
      · exact ⟨_, rfl⟩
      · exact ⟨_, rfl⟩
    obtain ⟨e, he⟩ := hreject
    simp only [exec_cons, he]
    exact ⟨ih.1, List.forall_mem_cons.mpr ⟨rfl, ih.2⟩⟩

end Ns3

end Ns3Factory
