import Ns3Factory.KernelHistory

/-!
What the dispatcher and ns-3 keep in agreement.

Each operation of the kernel has one lemma saying everything it can do. From these the
invariant of a history is kept: buckets ascend in time and hold the records of their time,
every queued ns-3 callback has a bucket and is not past, and every record whose time is not
past has a key above all executed ones.
-/

namespace Ns3Factory

open StdAlgorithm Transition

variable {κ : Type*}

/-! ### Buckets -/

/-- The records filed under a time. -/
def recordsAt (time : SimTime) (buckets : List (TimeBucket κ)) : List (EventRecord κ) :=
  ((lookup TimeBucket.time time buckets).map TimeBucket.records).getD []

/-- Files the records of a time. -/
def setRecords (time : SimTime) (records : List (EventRecord κ))
    (buckets : List (TimeBucket κ)) : List (TimeBucket κ) :=
  upsert TimeBucket.time ⟨time, records⟩ buckets

lemma mem_setRecords {buckets : List (TimeBucket κ)} (h : Ascending TimeBucket.time buckets)
    {time : SimTime} {records : List (EventRecord κ)} {b : TimeBucket κ} :
    b ∈ setRecords time records buckets ↔ b = ⟨time, records⟩ ∨ (b ∈ buckets ∧ b.time ≠ time) :=
  mem_upsert h

lemma setRecords_ascending {buckets : List (TimeBucket κ)}
    (h : Ascending TimeBucket.time buckets) (time : SimTime) (records : List (EventRecord κ)) :
    Ascending TimeBucket.time (setRecords time records buckets) := upsert_ascending h _

lemma setRecords_perm (time : SimTime) (records : List (EventRecord κ))
    (buckets : List (TimeBucket κ)) :
    ∃ others, (buckets.flatMap TimeBucket.records).Perm (recordsAt time buckets ++ others) ∧
      ((setRecords time records buckets).flatMap TimeBucket.records).Perm
        (records ++ others) := by
  rcases hl : lookup TimeBucket.time time buckets with _ | b
  · obtain ⟨before, after, rfl, hup⟩ := lookup_none_split hl
    refine ⟨(before ++ after).flatMap TimeBucket.records, ?_, ?_⟩
    · simp [recordsAt, hl]
    · rw [setRecords, hup _ rfl]
      simp only [List.flatMap_append, List.flatMap_cons]
      exact List.perm_append_comm_assoc _ _ _
  · obtain ⟨before, after, rfl, -, hup, -⟩ := lookup_split hl
    refine ⟨(before ++ after).flatMap TimeBucket.records, ?_, ?_⟩
    · simp only [recordsAt, hl, Option.map_some, Option.getD_some, List.flatMap_append,
        List.flatMap_cons]
      exact List.perm_append_comm_assoc _ _ _
    · rw [setRecords, hup _ rfl]
      simp only [List.flatMap_append, List.flatMap_cons]
      exact List.perm_append_comm_assoc _ _ _

lemma mem_recordsAt {buckets : List (TimeBucket κ)} {time : SimTime} {r : EventRecord κ}
    (hr : r ∈ recordsAt time buckets) : ∃ b ∈ buckets, b.time = time ∧ r ∈ b.records := by
  unfold recordsAt at hr
  rcases hl : lookup TimeBucket.time time buckets with _ | b
  · simp [hl] at hr
  · obtain ⟨before, after, rfl, ht, -⟩ := lookup_split hl
    exact ⟨b, by simp, ht, by simpa [hl] using hr⟩

/-! ### What the operations do -/

lemma allocateSequence_cases (d : EventDispatcher κ) :
    (∃ e, d.allocateSequence = (.error e, d)) ∧ d.sequenceExhausted = true ∨
    ∃ next exhausted, d.allocateSequence = (.ok ⟨d.nextSequence⟩,
        { d with nextSequence := next, sequenceExhausted := exhausted }) ∧
      d.sequenceExhausted = false ∧
      (exhausted = true ∧ d.nextSequence = maxIdentity ∨
        exhausted = false ∧ next.val = d.nextSequence.val + 1) := by
  unfold EventDispatcher.allocateSequence
  by_cases hx : d.sequenceExhausted = true
  · exact Or.inl ⟨⟨_, by simp [hx]; rfl⟩, hx⟩
  · rw [Bool.not_eq_true] at hx
    refine Or.inr ?_
    by_cases hm : d.nextSequence = maxIdentity
    · exact ⟨d.nextSequence, true, by simp [hx, hm], hx, Or.inl ⟨rfl, hm⟩⟩
    · exact ⟨d.nextSequence.next hm, false, by simp [hx, hm], hx, Or.inr ⟨rfl, rfl⟩⟩

/-- The kernel once it has filed `record`: ns-3 gets a callback for a new time only. -/
def Kernel.accept (k : Kernel κ) (next : IdentityValue) (exhausted : Bool)
    (record : EventRecord κ) : Kernel κ where
  dispatcher := { k.dispatcher with
    nextSequence := next
    sequenceExhausted := exhausted
    buckets := setRecords record.key.time
      (recordsAt record.key.time k.dispatcher.buckets ++ [record]) k.dispatcher.buckets }
  simulator :=
    if (k.dispatcher.findBucket record.key.time).isSome then k.simulator
    else { k.simulator with
      events := k.simulator.events ++ [⟨record.key.time.nanoseconds, record.key.time⟩] }

@[simp] lemma Kernel.accept_now (k : Kernel κ) (next : IdentityValue) (exhausted : Bool)
    (record : EventRecord κ) :
    (k.accept next exhausted record).simulator.now = k.simulator.now := by
  unfold Kernel.accept
  split_ifs <;> rfl

lemma Kernel.accept_simulator (k : Kernel κ) (next : IdentityValue) (exhausted : Bool)
    {record : EventRecord κ} {bucket : TimeBucket κ}
    (hb : k.dispatcher.findBucket record.key.time = some bucket) :
    (k.accept next exhausted record).simulator = k.simulator := by
  simp [Kernel.accept, hb]

lemma insertRecord_eq {k : Kernel κ} (hr : k.simulator.Readable) (next : IdentityValue)
    (exhausted : Bool) {record : EventRecord κ}
    (ht : k.simulator.now ≤ record.key.time.nanoseconds) :
    Kernel.insertRecord { k with
        dispatcher.nextSequence := next, dispatcher.sequenceExhausted := exhausted } record =
      (.ok record.key, k.accept next exhausted record) := by
  unfold Kernel.insertRecord Kernel.accept EventDispatcher.findBucket
  rcases hl : lookup TimeBucket.time record.key.time k.dispatcher.buckets with _ | bucket
  · simp [hr.scheduleAt ht, setRecords, recordsAt, hl]
  · obtain ⟨_, _, _, htime, -⟩ := lookup_split hl
    obtain ⟨t, rs⟩ := bucket
    subst htime
    simp [setRecords, recordsAt, hl]

lemma Kernel.pendingRecords_accept (k : Kernel κ) (next : IdentityValue) (exhausted : Bool)
    (record : EventRecord κ) :
    (k.accept next exhausted record).dispatcher.pendingRecords.Perm
      (k.dispatcher.pendingRecords ++ [record]) := by
  obtain ⟨others, h1, h2⟩ := setRecords_perm record.key.time
    (recordsAt record.key.time k.dispatcher.buckets ++ [record]) k.dispatcher.buckets
  have hmove : (recordsAt record.key.time k.dispatcher.buckets ++ [record] ++ others).Perm
      (recordsAt record.key.time k.dispatcher.buckets ++ others ++ [record]) := by
    simp only [List.append_assoc]
    exact List.Perm.append_left _ List.perm_append_comm
  exact h2.trans (hmove.trans (h1.append_right [record]).symm)

/-- The phases `ScheduleAt` refuses at `time` are those up to the floor. -/
def EventDispatcher.Admits (d : EventDispatcher κ) (time : SimTime) (phase : EventPhase) : Prop :=
  ∀ floor, d.phaseFloor time = some floor → floor < phase

lemma EventDispatcher.admits_iff {d : EventDispatcher κ} {time : SimTime} {phase : EventPhase} :
    ((d.phaseFloor time).any fun floor => phase.value ≤ floor.value) = false ↔
      d.Admits time phase := by
  unfold EventDispatcher.Admits
  rcases d.phaseFloor time with _ | floor
  · simp
  · simp only [Option.any_some, decide_eq_false_iff_not, Option.some.injEq, forall_eq']
    exact not_le

lemma scheduleAt_cases {k : Kernel κ} (hr : k.simulator.Readable) (time : SimTime)
    (phase : EventPhase) (callback : Option κ) :
    ((∃ e, k.scheduleAt time phase callback = (.error e, k)) ∧
      ¬ (isValidPhase phase = true ∧ callback.isSome ∧
        k.simulator.now ≤ time.nanoseconds ∧ k.dispatcher.Admits time phase ∧
        k.dispatcher.sequenceExhausted = false)) ∨
    ∃ cb next exhausted, callback = some cb ∧ isValidPhase phase = true ∧
      k.simulator.now ≤ time.nanoseconds ∧ k.dispatcher.Admits time phase ∧
      k.dispatcher.sequenceExhausted = false ∧
      (exhausted = true ∧ k.dispatcher.nextSequence = maxIdentity ∨
        exhausted = false ∧ next.val = k.dispatcher.nextSequence.val + 1) ∧
      k.scheduleAt time phase callback =
        (.ok ⟨time, phase, ⟨k.dispatcher.nextSequence⟩⟩,
          k.accept next exhausted ⟨⟨time, phase, ⟨k.dispatcher.nextSequence⟩⟩, cb⟩) := by
  obtain ⟨now, hnow, hns⟩ := hr.platformNow
  unfold Kernel.scheduleAt
  rcases hv : isValidPhase phase with _ | _
  · exact Or.inl ⟨⟨_, rfl⟩, by simp⟩
  rcases callback with _ | cb
  · exact Or.inl ⟨⟨_, rfl⟩, by simp⟩
  by_cases hpast : time < now
  · refine Or.inl ⟨⟨_, by simp only [hnow, hpast, if_true]; rfl⟩, ?_⟩
    rw [SimTime.lt_iff, hns] at hpast
    rintro ⟨-, -, h, -⟩
    omega
  have htime : k.simulator.now ≤ time.nanoseconds := by
    rw [SimTime.lt_iff, hns] at hpast; omega
  by_cases hadm : k.dispatcher.Admits time phase
  swap
  · have hfloor := mt EventDispatcher.admits_iff.mp hadm
    rw [Bool.not_eq_false] at hfloor
    exact Or.inl ⟨⟨_, by simp only [hnow, hpast, hfloor, if_true, if_false]; rfl⟩,
      fun h => hadm h.2.2.2.1⟩
  have hfloor := EventDispatcher.admits_iff.mpr hadm
  rcases allocateSequence_cases k.dispatcher with ⟨⟨e, he⟩, hx⟩ | ⟨next, exhausted, ha, hx, hn⟩
  · refine Or.inl ⟨⟨e, by simp [hnow, hpast, hfloor, he]⟩, ?_⟩
    rintro ⟨-, -, -, -, h⟩
    rw [hx] at h; exact absurd h (by simp)
  · refine Or.inr ⟨cb, next, exhausted, rfl, rfl, htime, hadm, hx, hn, ?_⟩
    simp only [hnow, hpast, hfloor, if_false, Bool.false_eq_true, ha]
    exact insertRecord_eq hr next exhausted htime

lemma nextRecord_cases {k : Kernel κ} (h : Ascending TimeBucket.time k.dispatcher.buckets)
    (time : SimTime) :
    (k.dispatcher.executionError.isSome ∧ k.nextRecord time = (none, k)) ∨
    (k.dispatcher.executionError = none ∧ recordsAt time k.dispatcher.buckets = [] ∧
      k.nextRecord time = (none, { k with
        dispatcher.buckets := eraseKey TimeBucket.time time k.dispatcher.buckets })) ∨
    (k.dispatcher.executionError = none ∧ ∃ record rest,
      (recordsAt time k.dispatcher.buckets).Perm (record :: rest) ∧
      (∀ x ∈ rest, record.key ≤ x.key) ∧
      k.nextRecord time = (some record, { k with
        dispatcher.buckets := setRecords time rest k.dispatcher.buckets
        dispatcher.currentPhase := some record.key.phase
        dispatcher.lastDispatchTime := some time
        dispatcher.lastPhaseAtTime := some record.key.phase })) := by
  unfold Kernel.nextRecord
  rcases herr : k.dispatcher.executionError with _ | e
  swap
  · exact Or.inl ⟨rfl, by simp⟩
  refine Or.inr ?_
  rcases hb : k.dispatcher.findBucket time with _ | bucket
  · have hl : lookup TimeBucket.time time k.dispatcher.buckets = none := hb
    refine Or.inl ⟨rfl, by simp [recordsAt, hl], ?_⟩
    simp [eraseKey_of_lookup_none hl]
  have hl : lookup TimeBucket.time time k.dispatcher.buckets = some bucket := hb
  have hrec : recordsAt time k.dispatcher.buckets = bucket.records := by simp [recordsAt, hl]
  rcases hm : extractMin (fun lhs rhs : EventRecord κ => lhs.key < rhs.key) bucket.records
    with _ | ⟨record, rest⟩
  · rw [extractMin_eq_none] at hm
    exact Or.inl ⟨rfl, by rw [hrec, hm], by simp [hm, extractMin]⟩
  · have hp := extractMin_perm hm
    have hle := extractMin_le EventRecord.key (fun a b => by simp) hm
    have htime := ((lookup_eq_some h).mp hl).2
    refine Or.inr ⟨rfl, record, rest, hrec ▸ hp, fun x hx => hle x ?_, ?_⟩
    · exact hp.mem_iff.mpr (List.mem_cons_of_mem _ hx)
    · obtain ⟨t, rs⟩ := bucket
      subst htime
      simp [hm, setRecords]

lemma nextRecord_executionError {k kernel : Kernel κ} {time : SimTime}
    {record : Option (EventRecord κ)}
    (h : Ascending TimeBucket.time k.dispatcher.buckets)
    (hn : k.nextRecord time = (record, kernel)) :
    kernel.dispatcher.executionError = k.dispatcher.executionError := by
  rcases nextRecord_cases h time with ⟨-, he⟩ | ⟨-, -, he⟩ | ⟨-, m, rest, -, -, he⟩ <;>
    rw [he] at hn <;> cases hn <;> rfl

lemma nextRecord_sequence {k kernel : Kernel κ} {time : SimTime}
    {record : Option (EventRecord κ)}
    (h : Ascending TimeBucket.time k.dispatcher.buckets)
    (hn : k.nextRecord time = (record, kernel)) :
    kernel.dispatcher.nextSequence = k.dispatcher.nextSequence ∧
      kernel.dispatcher.sequenceExhausted = k.dispatcher.sequenceExhausted := by
  rcases nextRecord_cases h time with ⟨-, he⟩ | ⟨-, -, he⟩ | ⟨-, m, rest, -, -, he⟩ <;>
    rw [he] at hn <;> cases hn <;> exact ⟨rfl, rfl⟩

namespace System

/-! ### The invariant -/

/-- The buckets ascend in time and hold different records of their time, all with sequence
ids already given out. -/
structure BucketsInv (d : EventDispatcher κ) : Prop where
  ascending : Ascending TimeBucket.time d.buckets
  keyed : ∀ b ∈ d.buckets, ∀ r ∈ b.records, r.key.time = b.time
  distinct : ∀ b ∈ d.buckets, b.records.Pairwise fun r r' => r.key ≠ r'.key
  fresh : d.sequenceExhausted = false →
    ∀ b ∈ d.buckets, ∀ r ∈ b.records, r.key.sequence.value < d.nextSequence

/-- ns-3 has at most one callback for a time, not past, and only for times with a bucket. -/
structure QueueInv (k : Kernel κ) : Prop where
  readable : k.simulator.Readable
  queued : ∀ e ∈ k.simulator.events,
    e.fireAt = e.time.nanoseconds ∧ k.simulator.now ≤ e.fireAt
  queuedOnce : k.simulator.events.Pairwise fun e e' => e.time ≠ e'.time
  registered : ∀ e ∈ k.simulator.events, ∃ b ∈ k.dispatcher.buckets, b.time = e.time

/-- `DispatchTime(time)` is running: its bucket is there and ns-3 has no callback for it. -/
structure Dispatching (k : Kernel κ) (time : SimTime) : Prop where
  flag : k.dispatcher.dispatching = true
  dispatchTime : k.dispatcher.dispatchTime = some time
  now : time.nanoseconds = k.simulator.now
  bucket : ∃ b ∈ k.dispatcher.buckets, b.time = time
  unqueued : ∀ e ∈ k.simulator.events, e.time ≠ time

def ControlInv (s : System κ) : Prop :=
  match s.control with
  | .idle | .running => s.kernel.dispatcher.dispatching = false
  | .dispatching time => Dispatching s.kernel time
  | .calling time record =>
    Dispatching s.kernel time ∧ s.kernel.dispatcher.executionError = none ∧
      s.kernel.dispatcher.currentPhase = some record.key.phase ∧
      s.kernel.dispatcher.lastDispatchTime = some time ∧
      s.kernel.dispatcher.lastPhaseAtTime = some record.key.phase

/-- The dispatcher remembers the time and phase of the last event executed. -/
def LastInv (s : System κ) : Prop :=
  match s.executed.getLast? with
  | none => s.kernel.dispatcher.lastDispatchTime = none
  | some last =>
    s.kernel.dispatcher.lastDispatchTime = some last.key.time ∧
      s.kernel.dispatcher.lastPhaseAtTime = some last.key.phase ∧
      last.key.time.nanoseconds ≤ s.kernel.simulator.now

lemma LastInv.mono {s t : System κ} (h : s.LastInv) (hexec : t.executed = s.executed)
    (htime : t.kernel.dispatcher.lastDispatchTime = s.kernel.dispatcher.lastDispatchTime)
    (hphase : t.kernel.dispatcher.lastPhaseAtTime = s.kernel.dispatcher.lastPhaseAtTime)
    (hnow : s.kernel.simulator.now ≤ t.kernel.simulator.now) : t.LastInv := by
  unfold LastInv at h ⊢
  rw [hexec, htime, hphase]
  rcases hl : s.executed.getLast? with _ | last <;> rw [hl] at h
  · exact h
  · exact ⟨h.1, h.2.1, h.2.2.trans hnow⟩

structure Inv (s : System κ) : Prop where
  buckets : BucketsInv s.kernel.dispatcher
  queue : QueueInv s.kernel
  control : s.ControlInv
  last : s.LastInv
  increasing : s.executed.Pairwise fun r r' => r.key < r'.key
  ahead : ∀ b ∈ s.kernel.dispatcher.buckets, s.kernel.simulator.now ≤ b.time.nanoseconds →
    ∀ r ∈ b.records, ∀ x ∈ s.executed, x.key < r.key
  conserved : s.accepted.Perm (s.executed ++ s.kernel.dispatcher.pendingRecords)

lemma inv_init (firstSequence : EventSequenceId) {now : ℤ} (h : 0 ≤ now ∧ now ≤ kMax) :
    Inv (init (κ := κ) firstSequence now) where
  buckets :=
    { ascending := List.Pairwise.nil
      keyed := by simp [init, EventDispatcher.create]
      distinct := by simp [init, EventDispatcher.create]
      fresh := by simp [init, EventDispatcher.create] }
  queue :=
    { readable := h
      queued := by simp [init]
      queuedOnce := List.Pairwise.nil
      registered := by simp [init] }
  control := rfl
  last := rfl
  increasing := List.Pairwise.nil
  ahead := by simp [init, EventDispatcher.create]
  conserved := by simp [init, EventDispatcher.create, EventDispatcher.pendingRecords]

lemma Inv.phaseFloor_eq {s : System κ} (h : s.Inv) (hc : s.CanSchedule) (time : SimTime) :
    s.kernel.dispatcher.phaseFloor time =
      if s.kernel.dispatcher.lastDispatchTime = some time
      then s.kernel.dispatcher.lastPhaseAtTime else none := by
  have hctl := h.control
  unfold ControlInv at hctl
  unfold EventDispatcher.phaseFloor
  rcases hc with hc | ⟨t, r, hc⟩ <;> rw [hc] at hctl
  · simp [hctl]
  · obtain ⟨hd, -, hphase, hlast, hlastPhase⟩ := hctl
    rw [hd.flag, hd.dispatchTime, hphase, hlast, hlastPhase]
    by_cases ht : t = time <;> simp [ht]

lemma Inv.le_last {s : System κ} (h : s.Inv) {last x : EventRecord κ}
    (hl : s.executed.getLast? = some last) (hx : x ∈ s.executed) : x.key ≤ last.key :=
  Ascending.le_getLast h.increasing hl hx

/-- **A request the dispatcher admits comes after everything executed.** -/
lemma Inv.executed_lt {s : System κ} (h : s.Inv) (hc : s.CanSchedule) {time : SimTime}
    {phase : EventPhase} (htime : s.kernel.simulator.now ≤ time.nanoseconds)
    (hadm : s.kernel.dispatcher.Admits time phase) (sequence : EventSequenceId) :
    ∀ x ∈ s.executed, x.key < ⟨time, phase, sequence⟩ := by
  intro x hx
  have hlast := h.last
  unfold LastInv at hlast
  rcases hl : s.executed.getLast? with _ | last
  · rw [List.getLast?_eq_none_iff.mp hl] at hx
    simp at hx
  rw [hl] at hlast
  obtain ⟨h1, h2, h3⟩ := hlast
  refine lt_of_le_of_lt (h.le_last hl hx) (EventKey.lt_iff.mpr ?_)
  rcases lt_or_ge last.key.time time with hlt | hge
  · exact Or.inl hlt
  · have heq : last.key.time = time :=
      le_antisymm (SimTime.le_iff.mpr (le_trans h3 htime)) hge
    refine Or.inr ⟨heq, Or.inl (hadm _ ?_)⟩
    rw [h.phaseFloor_eq hc, h1, h2, heq, if_pos rfl]

/-! ### What keeps the invariant -/

lemma BucketsInv.congr {d d' : EventDispatcher κ} (h : BucketsInv d)
    (hbuckets : d'.buckets = d.buckets) (hnext : d'.nextSequence = d.nextSequence)
    (hexhausted : d'.sequenceExhausted = d.sequenceExhausted) : BucketsInv d' where
  ascending := hbuckets ▸ h.ascending
  keyed := hbuckets ▸ h.keyed
  distinct := hbuckets ▸ h.distinct
  fresh := by
    rw [hexhausted, hbuckets, hnext]
    exact h.fresh

lemma QueueInv.congr {k k' : Kernel κ} (h : QueueInv k)
    (hbuckets : k'.dispatcher.buckets = k.dispatcher.buckets)
    (hnow : k'.simulator.now = k.simulator.now)
    (hevents : k'.simulator.events = k.simulator.events) : QueueInv k' where
  readable := by
    unfold Simulator.Readable
    rw [hnow]
    exact h.readable
  queued := by
    rw [hevents, hnow]
    exact h.queued
  queuedOnce := hevents ▸ h.queuedOnce
  registered := by
    rw [hevents, hbuckets]
    exact h.registered

lemma BucketsInv.keyed_recordsAt {d : EventDispatcher κ} (h : BucketsInv d) {time : SimTime}
    {r : EventRecord κ} (hr : r ∈ recordsAt time d.buckets) : r.key.time = time := by
  obtain ⟨b, hb, hbt, hr⟩ := mem_recordsAt hr
  rw [h.keyed b hb r hr, hbt]

lemma BucketsInv.distinct_recordsAt {d : EventDispatcher κ} (h : BucketsInv d)
    (time : SimTime) :
    (recordsAt time d.buckets).Pairwise fun r r' => r.key ≠ r'.key := by
  rcases hl : lookup TimeBucket.time time d.buckets with _ | b
  · simp [recordsAt, hl]
  · simpa [recordsAt, hl] using h.distinct b ((lookup_eq_some h.ascending).mp hl).1

lemma BucketsInv.fresh_recordsAt {d : EventDispatcher κ} (h : BucketsInv d)
    (hx : d.sequenceExhausted = false) {time : SimTime} {r : EventRecord κ}
    (hr : r ∈ recordsAt time d.buckets) : r.key.sequence.value < d.nextSequence := by
  obtain ⟨b, hb, -, hr⟩ := mem_recordsAt hr
  exact h.fresh hx b hb r hr

lemma BucketsInv.setRecords {d d' : EventDispatcher κ} (h : BucketsInv d) {time : SimTime}
    {records : List (EventRecord κ)}
    (hb : d'.buckets = Ns3Factory.setRecords time records d.buckets)
    (hkeyed : ∀ r ∈ records, r.key.time = time)
    (hdistinct : records.Pairwise fun r r' => r.key ≠ r'.key)
    (hfresh : d'.sequenceExhausted = false →
      (d.sequenceExhausted = false ∧ d.nextSequence ≤ d'.nextSequence) ∧
        ∀ r ∈ records, r.key.sequence.value < d'.nextSequence) : BucketsInv d' where
  ascending := by rw [hb]; exact setRecords_ascending h.ascending _ _
  keyed := by
    intro b hb' r hr
    rw [hb, mem_setRecords h.ascending] at hb'
    rcases hb' with rfl | ⟨hb', -⟩
    · exact hkeyed r hr
    · exact h.keyed b hb' r hr
  distinct := by
    intro b hb'
    rw [hb, mem_setRecords h.ascending] at hb'
    rcases hb' with rfl | ⟨hb', -⟩
    · exact hdistinct
    · exact h.distinct b hb'
  fresh := by
    intro hx b hb' r hr
    obtain ⟨⟨hx', hle⟩, hnew⟩ := hfresh hx
    rw [hb, mem_setRecords h.ascending] at hb'
    rcases hb' with rfl | ⟨hb', -⟩
    · exact hnew r hr
    · exact lt_of_lt_of_le (h.fresh hx' b hb' r hr) hle

lemma exists_setRecords {buckets : List (TimeBucket κ)}
    (h : Ascending TimeBucket.time buckets) {time t : SimTime}
    {records : List (EventRecord κ)} (ht : t = time ∨ ∃ b ∈ buckets, b.time = t) :
    ∃ b ∈ setRecords time records buckets, b.time = t := by
  by_cases heq : t = time
  · exact ⟨⟨time, records⟩, (mem_setRecords h).mpr (Or.inl rfl), heq.symm⟩
  · obtain ⟨b, hb, hbt⟩ := ht.resolve_left heq
    exact ⟨b, (mem_setRecords h).mpr (Or.inr ⟨hb, by rw [hbt]; exact heq⟩), hbt⟩

lemma BucketsInv.accept {k : Kernel κ} (h : BucketsInv k.dispatcher) {next : IdentityValue}
    {exhausted : Bool} (hx : k.dispatcher.sequenceExhausted = false)
    (hn : exhausted = true ∧ k.dispatcher.nextSequence = maxIdentity ∨
      exhausted = false ∧ next.val = k.dispatcher.nextSequence.val + 1)
    (time : SimTime) (phase : EventPhase) (cb : κ) :
    BucketsInv (k.accept next exhausted
      ⟨⟨time, phase, ⟨k.dispatcher.nextSequence⟩⟩, cb⟩).dispatcher := by
  refine h.setRecords rfl ?_ ?_ ?_
  · intro r hr
    rcases List.mem_append.mp hr with hr | hr
    · exact h.keyed_recordsAt hr
    · rw [List.mem_singleton.mp hr]
  · refine List.pairwise_append.mpr ⟨h.distinct_recordsAt time, by simp, ?_⟩
    intro r hr r' hr' heq
    have hlt := h.fresh_recordsAt hx hr
    rw [heq, List.mem_singleton.mp hr'] at hlt
    exact lt_irrefl _ hlt
  · intro hx'
    have hx' : exhausted = false := hx'
    obtain ⟨-, hnext⟩ := hn.resolve_left fun hn => by simp [hx'] at hn
    have hlt : k.dispatcher.nextSequence < next := by rw [Fin.lt_def]; omega
    refine ⟨⟨hx, hlt.le⟩, fun r hr => ?_⟩
    rcases List.mem_append.mp hr with hr | hr
    · exact (h.fresh_recordsAt hx hr).trans hlt
    · rw [List.mem_singleton.mp hr]; exact hlt

lemma QueueInv.accept {k : Kernel κ} (h : QueueInv k)
    (hasc : Ascending TimeBucket.time k.dispatcher.buckets) (next : IdentityValue)
    (exhausted : Bool) {record : EventRecord κ}
    (ht : k.simulator.now ≤ record.key.time.nanoseconds) :
    QueueInv (k.accept next exhausted record) := by
  have hkeep : ∀ t, (∃ b ∈ k.dispatcher.buckets, b.time = t) →
      ∃ b ∈ (k.accept next exhausted record).dispatcher.buckets, b.time = t :=
    fun t ht => exists_setRecords hasc (Or.inr ht)
  rcases hb : k.dispatcher.findBucket record.key.time with _ | bucket
  · have hnone := (lookup_eq_none hasc).mp hb
    have hevents : (k.accept next exhausted record).simulator.events =
        k.simulator.events ++ [⟨record.key.time.nanoseconds, record.key.time⟩] := by
      simp [Kernel.accept, hb]
    refine ⟨?_, ?_, ?_, ?_⟩
    · unfold Simulator.Readable
      rw [Kernel.accept_now]; exact h.readable
    · intro e he
      rw [hevents, List.mem_append, List.mem_singleton] at he
      rw [Kernel.accept_now]
      rcases he with he | rfl
      · exact h.queued e he
      · exact ⟨rfl, ht⟩
    · rw [hevents]
      refine List.pairwise_append.mpr ⟨h.queuedOnce, by simp, ?_⟩
      intro e he e' he'
      obtain ⟨b, hb, hbt⟩ := h.registered e he
      rw [List.mem_singleton.mp he', ← hbt]
      exact hnone b hb
    · intro e he
      rw [hevents, List.mem_append, List.mem_singleton] at he
      rcases he with he | rfl
      · exact hkeep _ (h.registered e he)
      · exact exists_setRecords hasc (Or.inl rfl)
  · have hsim := k.accept_simulator next exhausted hb
    exact ⟨hsim ▸ h.readable, by rw [hsim]; exact h.queued, by rw [hsim]; exact h.queuedOnce,
      fun e he => hkeep _ (h.registered e (hsim ▸ he))⟩

lemma Dispatching.accept {k : Kernel κ} {t : SimTime} (h : Dispatching k t)
    (hasc : Ascending TimeBucket.time k.dispatcher.buckets) (next : IdentityValue)
    (exhausted : Bool) (record : EventRecord κ) :
    Dispatching (k.accept next exhausted record) t := by
  obtain ⟨hflag, htime, hnow, hbucket, hun⟩ := h
  have hbucket' : ∃ b ∈ (k.accept next exhausted record).dispatcher.buckets, b.time = t :=
    exists_setRecords hasc (Or.inr hbucket)
  rcases hb : k.dispatcher.findBucket record.key.time with _ | bucket
  · refine ⟨hflag, htime, by simpa [Kernel.accept, hb] using hnow, hbucket', ?_⟩
    intro e he
    simp only [Kernel.accept, hb, Option.isSome_none, Bool.false_eq_true, if_false,
      List.mem_append, List.mem_singleton] at he
    rcases he with he | rfl
    · exact hun e he
    · obtain ⟨b, hmem, hbt⟩ := hbucket
      rw [← hbt]
      exact ((lookup_eq_none hasc).mp hb b hmem).symm
  · have hsim := k.accept_simulator next exhausted hb
    exact ⟨hflag, htime, by rw [hsim]; exact hnow, hbucket', by rw [hsim]; exact hun⟩

lemma scheduleAt_cases {s : System κ} (hr : s.kernel.simulator.Readable) (time : SimTime)
    (phase : EventPhase) (callback : Option κ) :
    ((∃ e, s.scheduleAt time phase callback = (.error e, s)) ∧
      ¬ (isValidPhase phase = true ∧ callback.isSome ∧
        s.kernel.simulator.now ≤ time.nanoseconds ∧ s.kernel.dispatcher.Admits time phase ∧
        s.kernel.dispatcher.sequenceExhausted = false)) ∨
    ∃ cb next exhausted, callback = some cb ∧
      s.kernel.simulator.now ≤ time.nanoseconds ∧ s.kernel.dispatcher.Admits time phase ∧
      s.kernel.dispatcher.sequenceExhausted = false ∧
      (exhausted = true ∧ s.kernel.dispatcher.nextSequence = maxIdentity ∨
        exhausted = false ∧ next.val = s.kernel.dispatcher.nextSequence.val + 1) ∧
      s.scheduleAt time phase callback =
        (.ok ⟨time, phase, ⟨s.kernel.dispatcher.nextSequence⟩⟩, { s with
          kernel := s.kernel.accept next exhausted
            ⟨⟨time, phase, ⟨s.kernel.dispatcher.nextSequence⟩⟩, cb⟩
          accepted := s.accepted ++
            [⟨⟨time, phase, ⟨s.kernel.dispatcher.nextSequence⟩⟩, cb⟩] }) := by
  rcases Ns3Factory.scheduleAt_cases hr time phase callback with
    ⟨⟨e, he⟩, hnot⟩ | ⟨cb, next, exhausted, rfl, -, htime, hadm, hx, hn, hok⟩
  · exact Or.inl ⟨⟨e, by simp [scheduleAt, he]⟩, hnot⟩
  · exact Or.inr ⟨cb, next, exhausted, rfl, htime, hadm, hx, hn, by simp [scheduleAt, hok]⟩

lemma Inv.scheduleAt {s : System κ} (h : s.Inv) (hc : s.CanSchedule) (time : SimTime)
    (phase : EventPhase) (callback : Option κ) :
    (s.scheduleAt time phase callback).2.Inv := by
  rcases scheduleAt_cases h.queue.readable time phase callback with
    ⟨⟨e, he⟩, -⟩ | ⟨cb, next, exhausted, -, htime, hadm, hx, hn, hok⟩
  · rw [he]; exact h
  rw [hok]
  have hasc := h.buckets.ascending
  refine ⟨h.buckets.accept hx hn time phase cb, h.queue.accept hasc next exhausted htime,
    ?_, ?_, h.increasing, ?_, ?_⟩
  · have hctl := h.control
    unfold ControlInv at hctl ⊢
    rcases hcc : s.control with _ | _ | t | ⟨t, r⟩ <;> rw [hcc] at hctl <;> simp only
    · exact hctl
    · exact hctl
    · exact hctl.accept hasc next exhausted _
    · exact ⟨hctl.1.accept hasc next exhausted _, hctl.2⟩
  · exact h.last.mono rfl rfl rfl (le_of_eq (Kernel.accept_now ..).symm)
  · intro b hb hnow r hr x hx'
    rw [Kernel.accept_now] at hnow
    rcases (mem_setRecords hasc).mp hb with rfl | ⟨hb, -⟩
    · rcases List.mem_append.mp hr with hr | hr
      · obtain ⟨b, hb, hbt, hr⟩ := mem_recordsAt hr
        exact h.ahead b hb (by rw [hbt]; exact htime) r hr x hx'
      · rw [List.mem_singleton.mp hr]
        exact h.executed_lt hc htime hadm _ x hx'
    · exact h.ahead b hb hnow r hr x hx'
  · refine (h.conserved.append_right _).trans ?_
    rw [List.append_assoc]
    exact (Kernel.pendingRecords_accept ..).symm.append_left _

lemma QueueInv.fire {k : Kernel κ} (h : QueueInv k) {event : Ns3Event}
    (hf : k.simulator.CanFire event) :
    QueueInv (Kernel.enterDispatchTime
      { k with simulator := k.simulator.fire event } event.time) ∧
    Dispatching (Kernel.enterDispatchTime
      { k with simulator := k.simulator.fire event } event.time) event.time := by
  obtain ⟨-, hmem, hmin⟩ := hf
  obtain ⟨hat, hnow⟩ := h.queued event hmem
  have hsub : (k.simulator.events.erase event).Sublist k.simulator.events := List.erase_sublist
  have hnodup : k.simulator.events.Nodup := h.queuedOnce.imp fun hne heq => hne (congrArg _ heq)
  have hmax : event.fireAt ≤ kMax := hat.trans_le event.time.le_kMax
  refine ⟨⟨⟨h.readable.1.trans hnow, hmax⟩, fun e he => ?_, h.queuedOnce.sublist hsub,
    fun e he => h.registered e (hsub.subset he)⟩,
    ⟨rfl, rfl, hat.symm, h.registered event hmem, fun e he => ?_⟩⟩
  · have hin := hsub.subset he
    exact ⟨(h.queued e hin).1, hmin e hin⟩
  · obtain ⟨hne, hin⟩ := hnodup.mem_erase_iff.mp he
    have : Std.Symm fun e e' : Ns3Event => e.time ≠ e'.time := ⟨fun _ _ hne => hne.symm⟩
    exact h.queuedOnce.forall hin hmem hne

lemma Inv.fire {s : System κ} (h : s.Inv) {event : Ns3Event}
    (hf : s.kernel.simulator.CanFire event) :
    Inv { s with
      kernel := Kernel.enterDispatchTime
        { s.kernel with simulator := s.kernel.simulator.fire event } event.time
      control := .dispatching event.time } := by
  obtain ⟨hqueue, hdispatching⟩ := h.queue.fire hf
  have hnow : s.kernel.simulator.now ≤ event.fireAt := (h.queue.queued event hf.2.1).2
  exact ⟨h.buckets.congr rfl rfl rfl, hqueue, hdispatching, h.last.mono rfl rfl rfl hnow,
    h.increasing, fun b hb hle => h.ahead b hb (hnow.trans hle), h.conserved⟩

lemma eraseKey_pending {buckets : List (TimeBucket κ)} {time : SimTime}
    (h : recordsAt time buckets = []) :
    (eraseKey TimeBucket.time time buckets).flatMap TimeBucket.records =
      buckets.flatMap TimeBucket.records := by
  rcases hl : lookup TimeBucket.time time buckets with _ | b
  · rw [eraseKey_of_lookup_none hl]
  · have hb : b.records = [] := by simpa [recordsAt, hl] using h
    obtain ⟨before, after, rfl, -, -, he⟩ := lookup_split hl
    simp [he, hb]

lemma Inv.leave {s : System κ} (h : s.Inv) {time : SimTime} {kernel : Kernel κ}
    (hc : s.control = .dispatching time)
    (hn : s.kernel.nextRecord time = (none, kernel)) :
    Inv { s with kernel := kernel.leaveDispatchTime, control := .running } := by
  have hctl := h.control
  rw [ControlInv, hc] at hctl
  have hasc := h.buckets.ascending
  rcases nextRecord_cases hasc time with ⟨-, he⟩ | ⟨-, hemp, he⟩ | ⟨-, record, rest, -, -, he⟩ <;>
    rw [he] at hn <;> cases hn
  · exact ⟨h.buckets.congr rfl rfl rfl, h.queue.congr rfl rfl rfl, rfl, h.last, h.increasing,
      h.ahead, h.conserved⟩
  · have hsub := (eraseKey_sublist TimeBucket.time time
      s.kernel.dispatcher.buckets).subset
    refine ⟨⟨eraseKey_ascending hasc time, fun b hb => h.buckets.keyed b (hsub hb),
      fun b hb => h.buckets.distinct b (hsub hb),
      fun hx b hb => h.buckets.fresh hx b (hsub hb)⟩,
      ⟨h.queue.1, h.queue.2, h.queue.3, ?_⟩, rfl, h.last, h.increasing,
      fun b hb => h.ahead b (hsub hb), ?_⟩
    · intro e he
      obtain ⟨b, hb, hbt⟩ := h.queue.registered e he
      exact ⟨b, (mem_eraseKey hasc).mpr ⟨hb, by rw [hbt]; exact hctl.unqueued e he⟩, hbt⟩
    · refine h.conserved.trans (List.Perm.append_left _ (List.Perm.of_eq ?_))
      exact (eraseKey_pending hemp).symm

lemma Inv.records_ahead {s : System κ} (h : s.Inv) {time : SimTime}
    (hc : s.control = .dispatching time) :
    ∀ r ∈ recordsAt time s.kernel.dispatcher.buckets, ∀ x ∈ s.executed, x.key < r.key := by
  have hctl := h.control
  rw [ControlInv, hc] at hctl
  intro r hr
  obtain ⟨b, hb, hbt, hr⟩ := mem_recordsAt hr
  exact h.ahead b hb (by rw [hbt, hctl.now]) r hr

lemma Inv.call {s : System κ} (h : s.Inv) {time : SimTime} {kernel : Kernel κ}
    {record : EventRecord κ} (hc : s.control = .dispatching time)
    (hn : s.kernel.nextRecord time = (some record, kernel)) :
    Inv { s with
      kernel := kernel
      control := .calling time record
      executed := s.executed ++ [record] } := by
  have hctl := h.control
  rw [ControlInv, hc] at hctl
  have hasc := h.buckets.ascending
  rcases nextRecord_cases hasc time with ⟨-, he⟩ | ⟨-, -, he⟩ | ⟨herr, m, rest, hperm, hle, he⟩ <;>
    rw [he] at hn <;> cases hn
  have hmem : ∀ r, r = record ∨ r ∈ rest → r ∈ recordsAt time s.kernel.dispatcher.buckets :=
    fun r hr => hperm.mem_iff.mpr (List.mem_cons.mpr hr)
  have hdistinct := (h.buckets.distinct_recordsAt time).perm hperm fun {a b} hne => hne.symm
  have hne := (List.pairwise_cons.mp hdistinct).1
  have hrec : record.key.time = time := h.buckets.keyed_recordsAt (hmem _ (Or.inl rfl))
  have hahead : ∀ r, r = record ∨ r ∈ rest → ∀ x ∈ s.executed, x.key < r.key :=
    fun r hr => h.records_ahead hc r (hmem r hr)
  have hinc : (s.executed ++ [record]).Pairwise fun r r' => r.key < r'.key := by
    refine List.pairwise_append.mpr ⟨h.increasing, by simp, fun x hx r hr => ?_⟩
    rw [List.mem_singleton.mp hr]
    exact hahead record (Or.inl rfl) x hx
  refine ⟨h.buckets.setRecords rfl ?_ ?_ ?_, ⟨h.queue.1, h.queue.2, h.queue.3, ?_⟩, ?_, ?_, hinc,
    ?_, ?_⟩
  · exact fun r hr => h.buckets.keyed_recordsAt (hmem r (Or.inr hr))
  · exact (List.pairwise_cons.mp hdistinct).2
  · exact fun hx => ⟨⟨hx, le_rfl⟩,
      fun r hr => h.buckets.fresh_recordsAt hx (hmem r (Or.inr hr))⟩
  · exact fun e he => exists_setRecords hasc (Or.inr (h.queue.registered e he))
  · exact ⟨⟨hctl.1, hctl.2, hctl.3, exists_setRecords hasc (Or.inl rfl), hctl.5⟩, herr, rfl,
      rfl, rfl⟩
  · simp only [LastInv, List.getLast?_append, List.getLast?_singleton, Option.some_or]
    exact ⟨by rw [hrec], trivial, by rw [hrec, hctl.now]⟩
  · intro b hb hnow r hr x hx
    -- a later bucket is past the time of `record`
    rcases (mem_setRecords hasc).mp hb with rfl | ⟨hb, hbt⟩
    · rcases List.mem_append.mp hx with hx | hx
      · exact hahead r (Or.inr hr) x hx
      · rw [List.mem_singleton.mp hx]
        exact lt_of_le_of_ne (hle r hr) (hne r hr)
    · rcases List.mem_append.mp hx with hx | hx
      · exact h.ahead b hb hnow r hr x hx
      · rw [List.mem_singleton.mp hx]
        have hlt : time < b.time := lt_of_le_of_ne
          (SimTime.le_iff.mpr (hctl.now.trans_le hnow)) (Ne.symm hbt)
        refine EventKey.lt_iff.mpr (Or.inl ?_)
        rw [hrec, h.buckets.keyed b hb r hr]
        exact hlt
  · obtain ⟨others, h1, h2⟩ := setRecords_perm time rest s.kernel.dispatcher.buckets
    refine h.conserved.trans ?_
    rw [List.append_assoc]
    refine List.Perm.append_left _ ((h1.trans (hperm.append_right _)).trans ?_)
    exact (h2.cons record).symm

lemma Inv.finish {s : System κ} (h : s.Inv) {time : SimTime} {record : EventRecord κ}
    (hc : s.control = .calling time record) (status : Status) :
    Inv { s with
      kernel := s.kernel.finishCallback status
      control := .dispatching time
      current := s.current ++ [(record.key, status)] } := by
  have hctl := h.control
  rw [ControlInv, hc] at hctl
  obtain ⟨hd, -⟩ := hctl
  rcases status with e | u
  · exact ⟨h.buckets.congr rfl rfl rfl, h.queue.congr rfl rfl rfl,
      ⟨hd.1, hd.2, hd.3, hd.4, hd.5⟩, h.last, h.increasing, h.ahead, h.conserved⟩
  · exact ⟨h.buckets, h.queue, hd, h.last, h.increasing, h.ahead, h.conserved⟩

theorem Inv.step {s t : System κ} {a : Action κ} (h : s.Inv) (hstep : s.step a = some t) :
    t.Inv := by
  cases step_sound hstep with
  | scheduleAt time phase callback hc => exact h.scheduleAt hc time phase callback
  | run hc =>
    have hctl := h.control
    rw [ControlInv, hc] at hctl
    exact ⟨h.buckets.congr rfl rfl rfl, h.queue.congr rfl rfl rfl, hctl, h.last, h.increasing,
      h.ahead, h.conserved⟩
  | fire event hc hf => exact h.fire hf
  | leave time kernel hc hn => exact h.leave hc hn
  | call time kernel record hc hn => exact h.call hc hn
  | finish status time record hc => exact h.finish hc status
  | finishRun hc hr =>
    have hctl := h.control
    rw [ControlInv, hc] at hctl
    exact ⟨h.buckets, h.queue, hctl, h.last, h.increasing, h.ahead, h.conserved⟩

theorem Runs.inv {firstSequence : EventSequenceId} {now : ℤ} (hnow : 0 ≤ now ∧ now ≤ kMax)
    {h : List (Action κ)} {s : System κ} (hr : Runs firstSequence now h s) : s.Inv :=
  run_invariant (A := fun _ => True) (fun _ _ _ hs _ hstep => hs.step hstep)
    (inv_init firstSequence hnow) (fun _ _ => trivial) hr

end System

end Ns3Factory
