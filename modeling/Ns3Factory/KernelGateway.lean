import Ns3Factory.Time

/-!
The ns-3 simulator as the platform uses it, and the gateway in front of it.

ns-3 keeps the callbacks scheduled so far, each with the nanosecond it fires at; running
one sets the clock to that nanosecond and takes it out of the queue. The only callback the
platform hands to ns-3 is `DispatchTime`, so a queued callback is the time it was given.
Platform times convert to ns-3 times exactly.
-/

namespace Ns3Factory

/-- A callback in the ns-3 queue: when it fires, and the time it will dispatch. -/
structure Ns3Event where
  fireAt : ℤ
  time : SimTime
  deriving DecidableEq

structure Simulator where
  now : ℤ
  events : List Ns3Event
  stopped : Bool

namespace Simulator

/-- `ns3::Simulator::Schedule`. -/
def schedule (sim : Simulator) (delay : ℤ) (time : SimTime) : Simulator :=
  { sim with events := sim.events ++ [⟨sim.now + delay, time⟩] }

/-- `ns3::Simulator::Stop`. -/
def stop (sim : Simulator) : Simulator := { sim with stopped := true }

/-- ns-3 may run `event` next: it was not stopped, and nothing queued fires earlier. -/
def CanFire (sim : Simulator) (event : Ns3Event) : Prop :=
  sim.stopped = false ∧ event ∈ sim.events ∧ ∀ other ∈ sim.events, event.fireAt ≤ other.fireAt

instance (sim : Simulator) (event : Ns3Event) : Decidable (sim.CanFire event) :=
  inferInstanceAs (Decidable (_ ∧ _ ∧ _))

lemma exists_canFire {sim : Simulator} (hrun : sim.stopped = false) (h : sim.events ≠ []) :
    ∃ event, sim.CanFire event := by
  obtain ⟨event, hmem, hmin⟩ := sim.events.toFinset.exists_min_image Ns3Event.fireAt
    (List.toFinset_nonempty_iff _ |>.mpr h)
  simp only [List.mem_toFinset] at hmem hmin
  exact ⟨event, hrun, hmem, hmin⟩

/-- The clock moves to the callback ns-3 runs, which leaves the queue. -/
def fire (sim : Simulator) (event : Ns3Event) : Simulator :=
  { sim with now := event.fireAt, events := sim.events.erase event }

/-- `ns3::Simulator::Run` ends: it was stopped, or nothing is queued. -/
def CanReturn (sim : Simulator) : Prop := sim.stopped = true ∨ sim.events = []

instance (sim : Simulator) : Decidable sim.CanReturn := inferInstanceAs (Decidable (_ ∨ _))

/-! ### The gateway -/

def toNs3Time (duration : SimDuration) : ℤ := duration.nanoseconds

def fromNs3Time (time : ℤ) : Result SimTime :=
  if h : kMin ≤ time ∧ time ≤ kMax then .ok ⟨time, h⟩
  else .error ⟨.kOverflow, "ns-3 Time cannot round-trip through SimTime"⟩

def checkedDelay (origin target : SimTime) : Result ℤ :=
  if target < origin then
    .error ⟨.kOutOfRange, "Cannot schedule an event before the origin time"⟩
  else
    match target.checkedDifference origin with
    | none => .error ⟨.kOverflow, "Event scheduling delay overflow"⟩
    | some delay => .ok (toNs3Time delay)

def platformNow (sim : Simulator) : Result SimTime := fromNs3Time sim.now

/-- `Ns3KernelGateway::ScheduleAt` with the callback `DispatchTime(time)`. -/
def scheduleAt (sim : Simulator) (target time : SimTime) : Status × Simulator :=
  match sim.platformNow with
  | .error e => (.error e, sim)
  | .ok now =>
    match checkedDelay now target with
    | .error e => (.error e, sim)
    | .ok delay => (.ok (), sim.schedule delay time)

/-- The clock shows a platform time that is not negative. -/
def Readable (sim : Simulator) : Prop := 0 ≤ sim.now ∧ sim.now ≤ kMax

lemma Readable.platformNow {sim : Simulator} (h : sim.Readable) :
    ∃ now, sim.platformNow = .ok now ∧ now.nanoseconds = sim.now := by
  have hr : kMin ≤ sim.now ∧ sim.now ≤ kMax := ⟨le_trans (by norm_num) h.1, h.2⟩
  exact ⟨⟨sim.now, hr⟩, by simp [Simulator.platformNow, fromNs3Time, hr], rfl⟩

lemma Readable.scheduleAt {sim : Simulator} (h : sim.Readable) {target : SimTime}
    (ht : sim.now ≤ target.nanoseconds) (time : SimTime) :
    sim.scheduleAt target time =
      (.ok (), { sim with events := sim.events ++ [⟨target.nanoseconds, time⟩] }) := by
  obtain ⟨now, hnow, hns⟩ := h.platformNow
  have hnlt : ¬ target < now := by rw [SimTime.lt_iff, hns]; omega
  have hle := target.le_kMax
  have h0 := h.1
  have hsome : (target.checkedDifference now).isSome := by
    rw [SimTime.checkedDifference_isSome, hns]
    constructor <;> simp only [kMin, kMax] <;> omega
  obtain ⟨delay, hd⟩ := Option.isSome_iff_exists.mp hsome
  have hdn := SimTime.checkedDifference_eq_some.mp hd
  have hfire : sim.now + delay.nanoseconds = target.nanoseconds := by omega
  simp [Simulator.scheduleAt, hnow, checkedDelay, hnlt, hd, toNs3Time, schedule, hfire]

end Simulator

end Ns3Factory
