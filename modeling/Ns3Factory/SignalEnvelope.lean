import Ns3Factory.ReceivedSignal

/-!
The time envelope of a signal in exact integers.

`Create` checks that three sums are representable, and the accessors compute the sums again
without a check. The delays and the duration are not negative, so that the sums only grow
and the last one decides.
-/

namespace Ns3Factory

namespace ReceivedSignal

/-! ### The accessors as they are written -/

/-- `first_arrival_at()`; `none` where it would dereference an empty optional. -/
def evaluatedFirstArrivalAt (s : ReceivedSignal) : Option SimTime :=
  s.emission.startedAt.checkedAdd s.channelResponse.firstArrivalDelay

/-- `latest_excess_delay()`. -/
def latestExcessDelay (s : ReceivedSignal) : SimDuration :=
  Ns3Factory.latestExcessDelay s.channelResponse.paths

/-- `last_effect_end_at()`; `none` where it would dereference an empty optional. -/
def evaluatedLastEffectEndAt (s : ReceivedSignal) : Option SimTime :=
  match s.evaluatedFirstArrivalAt with
  | none => none
  | some firstArrivalAt =>
    match firstArrivalAt.checkedAdd s.latestExcessDelay with
    | none => none
    | some latestPathStart => latestPathStart.checkedAdd s.emission.duration

end ReceivedSignal

/-! ### Exact sums -/

/-- When the influence ends, as an exact integer. -/
def exactEnd (emission : TxEmission) (channelResponse : ChannelFieldResponse) : ℤ :=
  emission.startedAt.nanoseconds + channelResponse.firstArrivalDelay.nanoseconds +
    largestExcess channelResponse.paths + emission.duration.nanoseconds

/-- The paths of a response ascend in the excess delay, so the last one has the largest. -/
lemma largestExcess_eq_last (channelResponse : ChannelFieldResponse) :
    largestExcess channelResponse.paths =
      (channelResponse.paths.getLast?.map fun path => path.excessDelay.nanoseconds).getD 0 := by
  have hsorted : channelResponse.paths.Pairwise fun p q =>
      p.excessDelay.nanoseconds ≤ q.excessDelay.nanoseconds := by
    refine channelResponse.canonical.imp fun {p q} hle => ?_
    rcases Prod.Lex.toLex_le_toLex.mp hle with h | h
    · have hlt : p.excessDelay.nanoseconds < q.excessDelay.nanoseconds := h
      exact hlt.le
    · exact (congrArg SimDuration.nanoseconds h.1).le
  generalize channelResponse.paths = paths at hsorted
  induction paths with
  | nil => rfl
  | cons path rest ih =>
    obtain ⟨hpath, hrest⟩ := List.pairwise_cons.mp hsorted
    have hcons : largestExcess (path :: rest) =
        max path.excessDelay.nanoseconds (largestExcess rest) := rfl
    rw [hcons, ih hrest]
    rcases hlast : rest.getLast? with _ | last
    · rw [List.getLast?_eq_none_iff.mp hlast]
      exact max_eq_left path.excessDelay_nonneg
    · have hmem : last ∈ rest := List.mem_of_getLast? hlast
      rw [List.getLast?_cons, hlast]
      exact max_eq_right (hpath last hmem)

/-! ### Sums of what is not negative -/

variable {emission : TxEmission} {channelResponse : ChannelFieldResponse}

lemma firstArrivalTime_isSome :
    (firstArrivalTime emission channelResponse).isSome ↔
      emission.startedAt.nanoseconds + channelResponse.firstArrivalDelay.nanoseconds ≤ kMax :=
  SimTime.checkedAdd_isSome channelResponse.firstArrivalDelay_nonneg

lemma lastEffectEndTime_isSome :
    (lastEffectEndTime emission channelResponse).isSome ↔
      exactEnd emission channelResponse ≤ kMax := by
  have hexcess := latestExcessDelay_nanoseconds channelResponse.paths
  have hnonneg := largestExcess_nonneg channelResponse.paths
  have hduration := emission.duration_nonneg
  unfold exactEnd lastEffectEndTime
  rcases hf : firstArrivalTime emission channelResponse with _ | firstArrivalAt
  · have hover := mt firstArrivalTime_isSome.mpr (by rw [hf]; simp)
    simp only [Option.bind_none, Option.isSome_none, Bool.false_eq_true, false_iff]
    omega
  have hfirst := SimTime.checkedAdd_eq_some.mp hf
  rw [Option.bind_some]
  rcases hp : firstArrivalAt.checkedAdd (latestExcessDelay channelResponse.paths)
    with _ | latestPathStart
  · have hover := mt (SimTime.checkedAdd_isSome (latestExcessDelay_nonneg _)).mpr (by rw [hp]; simp)
    simp only [Option.bind_none, Option.isSome_none, Bool.false_eq_true, false_iff]
    omega
  have hpath := SimTime.checkedAdd_eq_some.mp hp
  rw [Option.bind_some, SimTime.checkedAdd_isSome hduration, ← hpath, ← hfirst, hexcess]

namespace ReceivedSignal

lemma create_succeeds :
    (∃ s, create emission channelResponse = .ok s) ↔
      emission.transmissionId = channelResponse.transmissionId ∧
        exactEnd emission channelResponse ≤ kMax := by
  rw [← lastEffectEndTime_isSome]
  unfold create
  simp only [isfinite_eq, Bool.not_true, Bool.or_self, Bool.false_eq_true, if_false]
  split_ifs with hid hfirst hlast
  · simp [hid]
  · -- without a first arrival there is no end
    rw [Option.isNone_iff_eq_none] at hfirst
    simp [lastEffectEndTime, hfirst]
  · rw [Option.isNone_iff_eq_none] at hlast
    simp [hlast]
  · rw [Option.isNone_iff_eq_none] at hlast
    exact ⟨fun _ => ⟨not_not.mp hid, Option.isSome_iff_ne_none.mpr hlast⟩, fun _ => ⟨_, rfl⟩⟩

/-- **The accessors are defined**: they repeat sums that `Create` has checked. -/
lemma evaluatedFirstArrivalAt_eq (s : ReceivedSignal) :
    s.evaluatedFirstArrivalAt = some s.firstArrivalAt := s.firstArrivalTime_eq

lemma evaluatedLastEffectEndAt_eq (s : ReceivedSignal) :
    s.evaluatedLastEffectEndAt = some s.lastEffectEndAt := by
  obtain ⟨latestPathStart, hpath, hlast⟩ := s.exists_latestPathStart
  have hexcess : s.firstArrivalAt.checkedAdd s.latestExcessDelay = some latestPathStart := hpath
  simp only [evaluatedLastEffectEndAt, evaluatedFirstArrivalAt_eq, hexcess, hlast]

lemma lastEffectEndAt_eq_exactEnd (s : ReceivedSignal) :
    s.lastEffectEndAt.nanoseconds = exactEnd s.emission s.channelResponse := by
  rw [lastEffectEndAt_nanoseconds, firstArrivalAt_nanoseconds, latestExcessDelay_nanoseconds]
  rfl

lemma firstArrivalAt_eq_lastEffectEndAt_iff (s : ReceivedSignal) :
    s.firstArrivalAt = s.lastEffectEndAt ↔
      s.emission.duration = .zero ∧ s.latestExcessDelay = .zero := by
  have hend := s.lastEffectEndAt_nanoseconds
  have hexcess : 0 ≤ s.latestExcessDelay.nanoseconds := latestExcessDelay_nonneg _
  have hduration := s.emission.duration_nonneg
  have hdef : (Ns3Factory.latestExcessDelay s.channelResponse.paths).nanoseconds =
    s.latestExcessDelay.nanoseconds := rfl
  have hzero : SimDuration.zero.nanoseconds = 0 := rfl
  rw [← SimTime.nanoseconds_injective.eq_iff, ← SimDuration.nanoseconds_inj,
    ← SimDuration.nanoseconds_inj]
  omega

/-- **The time envelope is exact.** A signal is built exactly when the identities match and the
exact end of its influence is an `int64_t`; then no accessor dereferences an empty optional,
both ends are the exact integers, the latest excess delay is that of the last path stored, and
the influence is empty exactly when the duration and the latest excess delay are zero. -/
theorem envelope_exact (emission : TxEmission) (channelResponse : ChannelFieldResponse) :
    ((∃ s, create emission channelResponse = .ok s) ↔
      emission.transmissionId = channelResponse.transmissionId ∧
        emission.startedAt.nanoseconds + channelResponse.firstArrivalDelay.nanoseconds +
          largestExcess channelResponse.paths + emission.duration.nanoseconds ≤ 2 ^ 63 - 1) ∧
    ∀ s, create emission channelResponse = .ok s →
      s.emission = emission ∧ s.channelResponse = channelResponse ∧
      s.evaluatedFirstArrivalAt = some s.firstArrivalAt ∧
      s.evaluatedLastEffectEndAt = some s.lastEffectEndAt ∧
      s.firstArrivalAt.nanoseconds =
        emission.startedAt.nanoseconds + channelResponse.firstArrivalDelay.nanoseconds ∧
      s.lastEffectEndAt.nanoseconds =
        emission.startedAt.nanoseconds + channelResponse.firstArrivalDelay.nanoseconds +
          largestExcess channelResponse.paths + emission.duration.nanoseconds ∧
      s.latestExcessDelay.nanoseconds = largestExcess channelResponse.paths ∧
      s.latestExcessDelay =
        (channelResponse.paths.getLast?.map PropagationPath.excessDelay).getD .zero ∧
      s.firstArrivalAt ≤ s.lastEffectEndAt ∧
      (s.firstArrivalAt = s.lastEffectEndAt ↔
        emission.duration = .zero ∧ largestExcess channelResponse.paths = 0) := by
  refine ⟨create_succeeds, fun s hs => ?_⟩
  obtain ⟨rfl, rfl⟩ := create_ok hs
  have hlargest : s.latestExcessDelay.nanoseconds = largestExcess s.channelResponse.paths :=
    latestExcessDelay_nanoseconds _
  refine ⟨rfl, rfl, s.evaluatedFirstArrivalAt_eq, s.evaluatedLastEffectEndAt_eq,
    s.firstArrivalAt_nanoseconds, s.lastEffectEndAt_eq_exactEnd, hlargest, ?_,
    s.firstArrivalAt_le_lastEffectEndAt, ?_⟩
  · rw [← SimDuration.nanoseconds_inj, hlargest, largestExcess_eq_last]
    rcases s.channelResponse.paths.getLast? with _ | last <;> rfl
  · rw [s.firstArrivalAt_eq_lastEffectEndAt_iff, ← hlargest]
    exact and_congr_right fun _ => SimDuration.nanoseconds_inj.symm

end ReceivedSignal

end Ns3Factory
