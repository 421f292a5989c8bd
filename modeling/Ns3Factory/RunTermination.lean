import Ns3Factory.DispatchConservation

/-!
A `Run` neither spins nor gets stuck.

Every step of the dispatcher uses up one unit of what is left to do, and only an accepted event
adds to it: two units for its callback and two for the ns-3 callback of its time. So the steps
of a history are bounded by the events it accepted, and a `Run` whose callbacks schedule
finitely many events returns.
-/

namespace Ns3Factory

open StdAlgorithm Transition

variable {κ : Type*}

/-- A step of ns-3 or of the dispatch loop, or the return of a callback. -/
def Action.dispatches : Action κ → Bool
  | .fire _ | .next | .finish _ => true
  | _ => false

/-- The two actions differ at most in the callback ns-3 chooses to run. -/
def Action.SameScript : Action κ → Action κ → Prop
  | .fire _, .fire _ => True
  | a, b => a = b

namespace System

/-- The steps still to come: two for each ns-3 callback, two for each pending event, and those
of the callback and the loop that are running. -/
def stepsLeft (s : System κ) : ℕ :=
  2 * s.kernel.simulator.events.length + 2 * s.kernel.dispatcher.pendingRecords.length +
    match s.control with
    | .idle | .running => 0
    | .dispatching _ => 1
    | .calling _ _ => 2

lemma pending_accept (k : Kernel κ) (next : IdentityValue) (exhausted : Bool)
    (record : EventRecord κ) :
    (k.accept next exhausted record).dispatcher.pendingRecords.length =
      k.dispatcher.pendingRecords.length + 1 := by
  rw [(k.pendingRecords_accept next exhausted record).length_eq, List.length_append,
    List.length_singleton]

lemma events_accept (k : Kernel κ) (next : IdentityValue) (exhausted : Bool)
    (record : EventRecord κ) :
    (k.accept next exhausted record).simulator.events.length ≤
      k.simulator.events.length + 1 := by
  unfold Kernel.accept
  split_ifs <;> simp

lemma scheduleAt_stepsLeft {s : System κ} (hinv : s.Inv) (time : SimTime) (phase : EventPhase)
    (callback : Option κ) :
    (s.scheduleAt time phase callback).2.stepsLeft + 4 * s.accepted.length ≤
      s.stepsLeft + 4 * (s.scheduleAt time phase callback).2.accepted.length := by
  rcases scheduleAt_cases hinv.queue.readable time phase callback with
    ⟨⟨e, he⟩, -⟩ | ⟨cb, next, exhausted, -, -, -, -, -, hok⟩
  · rw [he]
  · rw [hok]
    have hpending := pending_accept s.kernel next exhausted
      ⟨⟨time, phase, ⟨s.kernel.dispatcher.nextSequence⟩⟩, cb⟩
    have hevents := events_accept s.kernel next exhausted
      ⟨⟨time, phase, ⟨s.kernel.dispatcher.nextSequence⟩⟩, cb⟩
    simp only [stepsLeft, hpending, List.length_append, List.length_singleton]
    omega

lemma pending_call {s : System κ} (hinv : s.Inv) {time : SimTime} {kernel : Kernel κ}
    {record : EventRecord κ} (hn : s.kernel.nextRecord time = (some record, kernel)) :
    kernel.simulator = s.kernel.simulator ∧
      s.kernel.dispatcher.pendingRecords.Perm (record :: kernel.dispatcher.pendingRecords) := by
  rcases nextRecord_cases hinv.buckets.ascending time with
    ⟨-, he⟩ | ⟨-, -, he⟩ | ⟨-, m, rest, hperm, -, he⟩ <;> rw [he] at hn <;> cases hn
  obtain ⟨others, hbefore, hafter⟩ := setRecords_perm time rest s.kernel.dispatcher.buckets
  exact ⟨rfl, (hbefore.trans (hperm.append_right _)).trans (hafter.cons record).symm⟩

lemma pending_leave {s : System κ} (hinv : s.Inv) {time : SimTime} {kernel : Kernel κ}
    (hn : s.kernel.nextRecord time = (none, kernel)) :
    kernel.simulator = s.kernel.simulator ∧
      kernel.dispatcher.pendingRecords = s.kernel.dispatcher.pendingRecords := by
  rcases nextRecord_cases hinv.buckets.ascending time with
    ⟨-, he⟩ | ⟨-, hempty, he⟩ | ⟨-, m, rest, -, -, he⟩ <;> rw [he] at hn <;> cases hn
  · exact ⟨rfl, rfl⟩
  · exact ⟨rfl, eraseKey_pending hempty⟩

lemma dispatch_stepsLeft {s t : System κ} {a : Action κ} (hinv : s.Inv)
    (ha : a.dispatches = true) (hstep : s.step a = some t) :
    t.stepsLeft + 1 = s.stepsLeft ∧ t.accepted = s.accepted := by
  cases step_sound hstep with
  | scheduleAt time phase callback hc => cases ha
  | run hc => cases ha
  | finishRun hc hr => cases ha
  | fire event hc hf =>
    have hlen := List.length_erase_of_mem hf.2.1
    have hpos := List.length_pos_of_mem hf.2.1
    refine ⟨?_, rfl⟩
    simp only [stepsLeft, hc, Kernel.enterDispatchTime, Simulator.fire, hlen,
      EventDispatcher.pendingRecords]
    omega
  | leave time kernel hc hn =>
    obtain ⟨hsim, hpending⟩ := pending_leave hinv hn
    refine ⟨?_, rfl⟩
    have hkeep : (kernel.leaveDispatchTime).dispatcher.pendingRecords =
        s.kernel.dispatcher.pendingRecords := hpending
    have hsim' : (kernel.leaveDispatchTime).simulator = s.kernel.simulator := hsim
    simp only [stepsLeft, hc, hkeep, hsim']
  | call time kernel record hc hn =>
    obtain ⟨hsim, hpending⟩ := pending_call hinv hn
    have hlen := hpending.length_eq
    refine ⟨?_, rfl⟩
    simp only [stepsLeft, hc, hsim, hlen, List.length_cons]
    omega
  | finish status time record hc =>
    have hevents : (s.kernel.finishCallback status).simulator.events =
        s.kernel.simulator.events := by rcases status with e | u <;> rfl
    have hpending : (s.kernel.finishCallback status).dispatcher.pendingRecords =
        s.kernel.dispatcher.pendingRecords := by rcases status with e | u <;> rfl
    refine ⟨?_, rfl⟩
    simp only [stepsLeft, hc, hevents, hpending]

lemma Inv.steps_le {s t : System κ} (hinv : s.Inv) {h : List (Action κ)} (hr : s.Leads h t) :
    h.countP Action.dispatches + t.stepsLeft + 4 * s.accepted.length ≤
      s.stepsLeft + 4 * t.accepted.length := by
  induction h generalizing s with
  | nil =>
    obtain rfl : s = t := Option.some.inj hr
    simp
  | cons a h ih =>
    obtain ⟨m, hm, hrest⟩ := run_cons_eq_some.mp hr
    have hle := ih (hinv.step hm) hrest
    rw [List.countP_cons]
    rcases ha : a.dispatches with _ | _
    · have hstep : m.stepsLeft + 4 * s.accepted.length ≤ s.stepsLeft + 4 * m.accepted.length := by
        cases step_sound hm with
        | scheduleAt time phase callback hc => exact scheduleAt_stepsLeft hinv time phase callback
        | run hc => simp [stepsLeft, hc, Kernel.beginRun, EventDispatcher.pendingRecords]
        | finishRun hc hreturn => simp [stepsLeft, hc]
        | _ => cases ha
      simp only [Bool.false_eq_true, if_false]
      omega
    · obtain ⟨hone, hacc⟩ := dispatch_stepsLeft hinv ha hm
      rw [hacc] at hle
      simp only [if_true]
      omega

/-! ### A `Run` that returns -/

lemma enabled {s : System κ} (hc : s.control ≠ .idle) :
    (∃ t, s.step .finishRun = some t) ∨
      ∃ a t, a.dispatches = true ∧ a.Succeeds ∧ s.step a = some t ∧ t.control ≠ .idle := by
  rcases hctl : s.control with _ | _ | time | ⟨time, record⟩
  · exact absurd hctl hc
  · by_cases hreturn : s.kernel.simulator.CanReturn
    · exact Or.inl ⟨_, step_iff.mpr (.finishRun hctl hreturn)⟩
    · obtain ⟨hrunning, hevents⟩ := not_or.mp hreturn
      obtain ⟨event, hf⟩ := Simulator.exists_canFire (Bool.eq_false_iff.mpr hrunning) hevents
      exact Or.inr ⟨.fire event, _, rfl, trivial, step_iff.mpr (.fire event hctl hf), by simp⟩
  · refine Or.inr ⟨.next, ?_⟩
    rcases hn : s.kernel.nextRecord time with ⟨_ | record, kernel⟩
    · exact ⟨_, rfl, trivial, step_iff.mpr (.leave time kernel hctl hn), by simp⟩
    · exact ⟨_, rfl, trivial, step_iff.mpr (.call time kernel record hctl hn), by simp⟩
  · exact Or.inr ⟨.finish (.ok ()), _, rfl, rfl, step_iff.mpr (.finish _ time record hctl),
      by simp⟩

lemma Inv.returns {s : System κ} (hinv : s.Inv) (hc : s.control ≠ .idle) :
    ∃ later t, (∀ a ∈ later, a.dispatches = true ∧ a.Succeeds) ∧
      later.length ≤ s.stepsLeft ∧ s.Leads (later ++ [.finishRun]) t := by
  induction hn : s.stepsLeft generalizing s with
  | zero =>
    rcases enabled hc with ⟨t, ht⟩ | ⟨a, m, ha, -, hm, -⟩
    · exact ⟨[], t, by simp, le_rfl, run_cons_eq_some.mpr ⟨t, ht, rfl⟩⟩
    · have hone := (dispatch_stepsLeft hinv ha hm).1
      omega
  | succ n ih =>
    rcases enabled hc with ⟨t, ht⟩ | ⟨a, m, ha, hok, hm, hmc⟩
    · exact ⟨[], t, by simp, Nat.zero_le _, run_cons_eq_some.mpr ⟨t, ht, rfl⟩⟩
    · have hone := (dispatch_stepsLeft hinv ha hm).1
      obtain ⟨later, t, hlater, hlen, ht⟩ := ih (hinv.step hm) hmc (by omega)
      refine ⟨a :: later, t, List.forall_mem_cons.mpr ⟨⟨ha, hok⟩, hlater⟩, ?_,
        run_cons_eq_some.mpr ⟨m, hm, ht⟩⟩
      rw [List.length_cons]
      omega

/-- **Termination.** A history takes at most four steps of the dispatcher for each event it has
accepted. Inside `Run` the dispatcher is never stuck, whatever the callbacks returned: it can
return or take a step; and with callbacks that return success and schedule nothing more it
returns after the steps that are left. -/
theorem dispatch_terminates {firstSequence : EventSequenceId} {now : ℤ}
    (hnow : 0 ≤ now ∧ now ≤ kMax) {h : List (Action κ)} {s : System κ}
    (hr : Runs firstSequence now h s) :
    h.countP Action.dispatches + s.stepsLeft ≤ 4 * s.accepted.length ∧
    (s.control ≠ .idle →
      ((∃ t, s.step .finishRun = some t) ∨
        ∃ a t, a.dispatches = true ∧ s.step a = some t ∧ t.control ≠ .idle) ∧
      ∃ later t, (∀ a ∈ later, a.dispatches = true ∧ a.Succeeds) ∧
        later.length ≤ s.stepsLeft ∧ s.Leads (later ++ [.finishRun]) t) := by
  have hinv := hr.inv hnow
  refine ⟨?_, fun hc => ⟨?_, hinv.returns hc⟩⟩
  · have hle := (inv_init firstSequence hnow).steps_le hr
    have hfresh : (init (κ := κ) firstSequence now).stepsLeft = 0 := rfl
    have hnone : (init (κ := κ) firstSequence now).accepted.length = 0 := rfl
    omega
  · refine (enabled hc).imp_right ?_
    rintro ⟨a, t, ha, -, ht, htc⟩
    exact ⟨a, t, ha, ht, htc⟩

lemma Inv.fire_unique {s : System κ} (hinv : s.Inv) {event event' : Ns3Event}
    (hf : s.kernel.simulator.CanFire event) (hf' : s.kernel.simulator.CanFire event') :
    event = event' := by
  have hle := hf.2.2 event' hf'.2.1
  have hge := hf'.2.2 event hf.2.1
  have hat := (hinv.queue.queued event hf.2.1).1
  have hat' := (hinv.queue.queued event' hf'.2.1).1
  have htime : event.time = event'.time := SimTime.nanoseconds_injective (by omega)
  by_contra hne
  have : Std.Symm fun e e' : Ns3Event => e.time ≠ e'.time := ⟨fun _ _ hne => hne.symm⟩
  exact hinv.queue.queuedOnce.forall hf.2.1 hf'.2.1 hne htime

lemma Inv.script_step {s t t' : System κ} (hinv : s.Inv) {a a' : Action κ}
    (hscript : a.SameScript a') (hstep : s.step a = some t) (hstep' : s.step a' = some t') :
    a = a' ∧ t = t' := by
  have heq : a = a' := by
    cases a with
    | fire event =>
      cases a' with
      | fire event' =>
        have hf : s.kernel.simulator.CanFire event := by
          cases step_sound hstep with
          | fire _ _ hf => exact hf
        have hf' : s.kernel.simulator.CanFire event' := by
          cases step_sound hstep' with
          | fire _ _ hf => exact hf
        rw [hinv.fire_unique hf hf']
      | _ => cases hscript
    | _ => exact hscript
  subst heq
  exact ⟨rfl, Option.some.inj (hstep.symm.trans hstep')⟩

/-- **The order is the platform's own.** ns-3 may run any of its earliest callbacks, but two
histories in which callers and callbacks do the same are the same: the callbacks ns-3 ran, and
all that came of them, agree. -/
theorem ns3_choice_immaterial {firstSequence : EventSequenceId} {now : ℤ}
    (hnow : 0 ≤ now ∧ now ≤ kMax) {h h' : List (Action κ)} {s s' : System κ}
    (hr : Runs firstSequence now h s) (hr' : Runs firstSequence now h' s')
    (hscript : List.Forall₂ Action.SameScript h h') : h = h' ∧ s = s' := by
  have hinv := inv_init (κ := κ) firstSequence hnow
  unfold Runs Leads at hr hr'
  generalize init (κ := κ) firstSequence now = start at hinv hr hr'
  induction hscript generalizing start with
  | nil =>
    have hsame : some s = some s' := hr.symm.trans hr'
    exact ⟨rfl, Option.some.inj hsame⟩
  | @cons a a' h h' hfirst hrest ih =>
    obtain ⟨m, hm, hr⟩ := run_cons_eq_some.mp hr
    obtain ⟨m', hm', hr'⟩ := run_cons_eq_some.mp hr'
    obtain ⟨rfl, rfl⟩ := hinv.script_step hfirst hm hm'
    obtain ⟨rfl, hs⟩ := ih m (hinv.step hm) hr hr'
    exact ⟨rfl, hs⟩

/-- Three callbacks wait in ns-3, not in the order of their times, and the first one adds another
that comes before the last. -/
def waitingHistory : List (Action Unit) :=
  let at1 : SimTime := .ofUInt32 1
  let at3 : SimTime := .ofUInt32 3
  let at4 : SimTime := .ofUInt32 4
  let at5 : SimTime := .ofUInt32 5
  [.scheduleAt at5 .kInputReady (some ()), .scheduleAt at1 .kTxStart (some ()),
    .scheduleAt at3 .kTxStart (some ()), .run,
    .fire ⟨1, at1⟩, .next, .scheduleAt at4 .kCycleClose (some ()), .finish (.ok ()), .next,
    .fire ⟨3, at3⟩, .next, .finish (.ok ()), .next, .fire ⟨4, at4⟩, .next, .finish (.ok ()), .next,
    .fire ⟨5, at5⟩, .next, .finish (.ok ()), .next, .finishRun]

theorem ns3_choice_immaterial_waiting :
    ∃ m s s' : System Unit, Runs ⟨0⟩ 0 (waitingHistory.take 4) m ∧
      m.kernel.simulator.events.map Ns3Event.fireAt = [5, 1, 3] ∧
      Runs ⟨0⟩ 0 waitingHistory s ∧ Runs ⟨0⟩ 0 waitingHistory s' ∧ s.executed.length = 4 ∧
      s = s' := by
  have hstart : (run step (init ⟨0⟩ 0) (waitingHistory.take 4)).map
      (fun m => m.kernel.simulator.events.map Ns3Event.fireAt) = some [5, 1, 3] := by
    decide +kernel
  have hend : (run step (init ⟨0⟩ 0) waitingHistory).map (fun s => s.executed.length) =
      some 4 := by decide +kernel
  obtain ⟨m, hm, hwaiting⟩ := Option.map_eq_some_iff.mp hstart
  obtain ⟨s, hs, hlength⟩ := Option.map_eq_some_iff.mp hend
  have hscript : List.Forall₂ Action.SameScript waitingHistory waitingHistory := by
    unfold waitingHistory
    repeat constructor
  exact ⟨m, s, s, hm, hwaiting, hs, hs, hlength, (ns3_choice_immaterial (by decide) hs hs
    hscript).2⟩

/-- The callback of the first of two events has failed; `Run` has not returned yet. -/
def failingHistory : List (Action Unit) := failedHistory.take 6

theorem dispatch_terminates_failing :
    ∃ s : System Unit, Runs ⟨0⟩ 0 failingHistory s ∧
      failingHistory.countP Action.dispatches + s.stepsLeft ≤ 4 * s.accepted.length ∧
      ∃ later t, (∀ a ∈ later, a.dispatches = true ∧ a.Succeeds) ∧
        later.length ≤ s.stepsLeft ∧ s.Leads (later ++ [.finishRun]) t := by
  obtain ⟨t, ht⟩ : ∃ t, Runs ⟨0⟩ 0 (failingHistory ++ [.next]) t :=
    Option.isSome_iff_exists.mp (by decide +kernel)
  obtain ⟨s, hs, hnext⟩ := run_concat_eq_some.mp ht
  have hc : s.control ≠ .idle := fun hc => by simp [step, hc] at hnext
  obtain ⟨hle, hinside⟩ := dispatch_terminates (by decide) hs
  exact ⟨s, hs, hle, (hinside hc).2⟩

end System

end Ns3Factory
