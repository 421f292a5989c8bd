import Ns3Factory.EventDispatcher
import Ns3Factory.Transition

/-!
Histories of one dispatcher.

Control is outside `Run`, inside `Run` between two ns-3 callbacks, at the head of the loop
of `DispatchTime`, or inside an event callback. The caller and the event callbacks are free:
outside `Run` and inside a callback any `ScheduleAt` call can come next, and a callback can
return any status. ns-3 is free to choose among the earliest of its queued callbacks. What
was accepted, executed and returned is recorded beside the state.
-/

namespace Ns3Factory

open StdAlgorithm Transition

variable {κ : Type*}

inductive Control (κ : Type*)
  | idle
  | running
  | dispatching (time : SimTime)
  | calling (time : SimTime) (record : EventRecord κ)

/-- One call of `Run` that has returned: the callbacks it executed with what they returned,
and its own status. -/
structure RunRecord where
  returned : List (EventKey × Status)
  result : Status

structure System (κ : Type*) where
  kernel : Kernel κ
  control : Control κ
  /-- The events `ScheduleAt` accepted, in order. -/
  accepted : List (EventRecord κ)
  /-- The events whose callback was called, in order. -/
  executed : List (EventRecord κ)
  /-- The callbacks that have returned in the current `Run`. -/
  current : List (EventKey × Status)
  runs : List RunRecord

inductive Action (κ : Type*)
  | scheduleAt (time : SimTime) (phase : EventPhase) (callback : Option κ)
  | run
  | fire (event : Ns3Event)
  | next
  | finish (status : Status)
  | finishRun

namespace System

/-- A fresh dispatcher on a simulator that has nothing queued. -/
def init (firstSequence : EventSequenceId) (now : ℤ) : System κ where
  kernel := ⟨EventDispatcher.create firstSequence, ⟨now, [], false⟩⟩
  control := .idle
  accepted := []
  executed := []
  current := []
  runs := []

/-- Platform code runs, and may call `ScheduleAt`. -/
def CanSchedule (s : System κ) : Prop :=
  s.control = .idle ∨ ∃ time record, s.control = .calling time record

/-- No `DispatchTime` is running. -/
def OutsideDispatch (s : System κ) : Prop := s.control = .idle ∨ s.control = .running

def scheduleAt (s : System κ) (time : SimTime) (phase : EventPhase) (callback : Option κ) :
    Result EventKey × System κ :=
  match s.kernel.scheduleAt time phase callback, callback with
  | (.ok key, kernel), some callback =>
    (.ok key, { s with kernel := kernel, accepted := s.accepted ++ [⟨key, callback⟩] })
  | (result, kernel), _ => (result, { s with kernel := kernel })

def step (s : System κ) : Action κ → Option (System κ)
  | .scheduleAt time phase callback =>
    match s.control with
    | .idle | .calling _ _ => some (s.scheduleAt time phase callback).2
    | _ => none
  | .run =>
    match s.control with
    | .idle => some { s with kernel := s.kernel.beginRun, control := .running, current := [] }
    | _ => none
  | .fire event =>
    match s.control with
    | .running =>
      if s.kernel.simulator.CanFire event then
        some { s with
          kernel := Kernel.enterDispatchTime
            { s.kernel with simulator := s.kernel.simulator.fire event } event.time
          control := .dispatching event.time }
      else none
    | _ => none
  | .next =>
    match s.control with
    | .dispatching time =>
      match s.kernel.nextRecord time with
      | (none, kernel) =>
        some { s with kernel := kernel.leaveDispatchTime, control := .running }
      | (some record, kernel) =>
        some { s with
          kernel := kernel
          control := .calling time record
          executed := s.executed ++ [record] }
    | _ => none
  | .finish status =>
    match s.control with
    | .calling time record =>
      some { s with
        kernel := s.kernel.finishCallback status
        control := .dispatching time
        current := s.current ++ [(record.key, status)] }
    | _ => none
  | .finishRun =>
    match s.control with
    | .running =>
      if s.kernel.simulator.CanReturn then
        some { s with
          control := .idle
          runs := s.runs ++ [⟨s.current, s.kernel.runStatus⟩] }
      else none
    | _ => none

/-- The enabled steps, one constructor for each action. -/
inductive Step (s : System κ) : Action κ → System κ → Prop
  | scheduleAt (time phase callback) (hc : s.CanSchedule) :
      Step s (.scheduleAt time phase callback) (s.scheduleAt time phase callback).2
  | run (hc : s.control = .idle) :
      Step s .run { s with kernel := s.kernel.beginRun, control := .running, current := [] }
  | fire (event) (hc : s.control = .running) (hf : s.kernel.simulator.CanFire event) :
      Step s (.fire event) { s with
        kernel := Kernel.enterDispatchTime
          { s.kernel with simulator := s.kernel.simulator.fire event } event.time
        control := .dispatching event.time }
  | leave (time kernel) (hc : s.control = .dispatching time)
      (hn : s.kernel.nextRecord time = (none, kernel)) :
      Step s .next { s with kernel := kernel.leaveDispatchTime, control := .running }
  | call (time kernel record) (hc : s.control = .dispatching time)
      (hn : s.kernel.nextRecord time = (some record, kernel)) :
      Step s .next { s with
        kernel := kernel
        control := .calling time record
        executed := s.executed ++ [record] }
  | finish (status time record) (hc : s.control = .calling time record) :
      Step s (.finish status) { s with
        kernel := s.kernel.finishCallback status
        control := .dispatching time
        current := s.current ++ [(record.key, status)] }
  | finishRun (hc : s.control = .running) (hr : s.kernel.simulator.CanReturn) :
      Step s .finishRun { s with
        control := .idle
        runs := s.runs ++ [⟨s.current, s.kernel.runStatus⟩] }

lemma step_sound {s t : System κ} {a : Action κ} (h : s.step a = some t) : Step s a t := by
  cases a with
  | scheduleAt time phase callback =>
    simp only [step] at h
    split at h
    · next hc => cases h; exact .scheduleAt _ _ _ (Or.inl hc)
    · next hc => cases h; exact .scheduleAt _ _ _ (Or.inr ⟨_, _, hc⟩)
    · cases h
  | run =>
    simp only [step] at h
    split at h
    · next hc => cases h; exact .run hc
    · cases h
  | fire event =>
    simp only [step] at h
    split at h
    · next hc =>
      split_ifs at h with hf
      cases h; exact .fire event hc hf
    · cases h
  | next =>
    simp only [step] at h
    split at h
    · next time hc =>
      split at h
      · next kernel hn => cases h; exact .leave time kernel hc hn
      · next record kernel hn => cases h; exact .call time kernel record hc hn
    · cases h
  | finish status =>
    simp only [step] at h
    split at h
    · next time record hc => cases h; exact .finish status time record hc
    · cases h
  | finishRun =>
    simp only [step] at h
    split at h
    · next hc =>
      split_ifs at h with hr
      cases h; exact .finishRun hc hr
    · cases h

lemma step_iff {s t : System κ} {a : Action κ} : s.step a = some t ↔ Step s a t := by
  refine ⟨step_sound, fun h => ?_⟩
  cases h with
  | scheduleAt time phase callback hc =>
    rcases hc with hc | ⟨t, r, hc⟩ <;> simp only [step, hc]
  | leave time kernel hc hn => simp only [step, hc, hn]
  | call time kernel record hc hn => simp only [step, hc, hn]
  | run hc => simp only [step, hc]
  | fire event hc hf => simp only [step, hc, if_pos hf]
  | finish status time record hc => simp only [step, hc]
  | finishRun hc hr => simp only [step, hc, if_pos hr]

/-- The actions lead from `s` to `t`. -/
abbrev Leads (s : System κ) (h : List (Action κ)) (t : System κ) : Prop := run step s h = some t

/-- The histories from a fresh dispatcher. -/
abbrev Runs (firstSequence : EventSequenceId) (now : ℤ) (h : List (Action κ))
    (s : System κ) : Prop :=
  (init firstSequence now).Leads h s

end System

end Ns3Factory
