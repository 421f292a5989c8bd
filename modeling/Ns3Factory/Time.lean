import Ns3Factory.Basics
import Ns3Factory.BoundedInteger

/-!
Simulation time: 64-bit counts of nanoseconds, and arithmetic on them that reports
overflow instead of wrapping.

The guards compare before they compute, so that no expression they evaluate leaves the
64-bit range; the result is the exact integer one whenever that is representable.
-/

namespace Ns3Factory

abbrev kMin : ℤ := -9223372036854775808
abbrev kMax : ℤ := 9223372036854775807

/-- A `NanosecondCount`: an `int64_t`. -/
abbrev NanosecondCount := {n : ℤ // kMin ≤ n ∧ n ≤ kMax}

lemma count_bounds (n : NanosecondCount) :
    -9223372036854775808 ≤ n.val ∧ n.val ≤ 9223372036854775807 := n.property

def checkedAddCounts (lhs rhs : NanosecondCount) : Option NanosecondCount :=
  if h : (0 < rhs.val ∧ kMax - rhs.val < lhs.val) ∨ (rhs.val < 0 ∧ lhs.val < kMin - rhs.val)
  then none
  else some ⟨lhs.val + rhs.val, by
    have hl := count_bounds lhs
    have hr := count_bounds rhs
    simp only [kMin, kMax] at h ⊢
    omega⟩

def checkedSubtractCounts (lhs rhs : NanosecondCount) : Option NanosecondCount :=
  if h : (0 < rhs.val ∧ lhs.val < kMin + rhs.val) ∨ (rhs.val < 0 ∧ kMax + rhs.val < lhs.val)
  then none
  else some ⟨lhs.val - rhs.val, by
    have hl := count_bounds lhs
    have hr := count_bounds rhs
    simp only [kMin, kMax] at h ⊢
    omega⟩

/-- `CheckedScaleNanoseconds`, for a positive scale: the code has no other. -/
def checkedScaleNanoseconds (value scale : NanosecondCount) (hs : 0 < scale.val) :
    Option NanosecondCount :=
  if h : kMax.tdiv scale.val < value.val ∨ value.val < kMin.tdiv scale.val then none
  else some ⟨value.val * scale.val,
    (BoundedInteger.mul_mem_iff (by decide) (by decide) hs).mpr h⟩

lemma checkedAddCounts_eq_some {lhs rhs r : NanosecondCount} :
    checkedAddCounts lhs rhs = some r ↔ lhs.val + rhs.val = r.val := by
  have hr := count_bounds r
  unfold checkedAddCounts
  split_ifs with h
  · simp only [kMin, kMax] at h
    simp only [false_iff]
    omega
  · rw [Option.some.injEq, Subtype.ext_iff]

lemma checkedSubtractCounts_eq_some {lhs rhs r : NanosecondCount} :
    checkedSubtractCounts lhs rhs = some r ↔ lhs.val - rhs.val = r.val := by
  have hr := count_bounds r
  unfold checkedSubtractCounts
  split_ifs with h
  · simp only [kMin, kMax] at h
    simp only [false_iff]
    omega
  · rw [Option.some.injEq, Subtype.ext_iff]

lemma checkedScaleNanoseconds_eq_some {value scale r : NanosecondCount} {hs : 0 < scale.val} :
    checkedScaleNanoseconds value scale hs = some r ↔ value.val * scale.val = r.val := by
  have hr := r.property
  unfold checkedScaleNanoseconds
  split_ifs with h
  · simp only [false_iff]
    rintro heq
    rw [← heq, BoundedInteger.mul_mem_iff (by decide) (by decide) hs] at hr
    exact hr h
  · rw [Option.some.injEq, Subtype.ext_iff]

lemma uint32_bounds (n : UInt32) : kMin ≤ (n.toNat : ℤ) ∧ (n.toNat : ℤ) ≤ kMax := by
  have h := n.toNat_lt
  simp only [kMin, kMax]
  omega

structure SimDuration where
  count : NanosecondCount
  deriving DecidableEq

structure SimTime where
  count : NanosecondCount
  deriving DecidableEq

namespace SimDuration

def nanoseconds (d : SimDuration) : ℤ := d.count.val

lemma nanoseconds_injective : Function.Injective nanoseconds :=
  fun ⟨_⟩ ⟨_⟩ h => congrArg _ (Subtype.ext h)

lemma nanoseconds_inj {a b : SimDuration} : a.nanoseconds = b.nanoseconds ↔ a = b :=
  nanoseconds_injective.eq_iff

instance : LinearOrder SimDuration := LinearOrder.lift' nanoseconds nanoseconds_injective

/-- `SimDuration::Zero`. -/
def zero : SimDuration := ⟨0, by decide, by decide⟩

lemma nonneg_of_not_lt {d : SimDuration} (h : ¬ d.nanoseconds < 0) : 0 ≤ d.nanoseconds :=
  not_lt.mp h

def fromScaledNanoseconds (value scale : NanosecondCount) (hs : 0 < scale.val) :
    Option SimDuration :=
  (checkedScaleNanoseconds value scale hs).map SimDuration.mk

def tryFromMicroseconds (value : NanosecondCount) : Option SimDuration :=
  fromScaledNanoseconds value ⟨1000, by decide⟩ (by decide)

def tryFromMilliseconds (value : NanosecondCount) : Option SimDuration :=
  fromScaledNanoseconds value ⟨1000000, by decide⟩ (by decide)

def tryFromSeconds (value : NanosecondCount) : Option SimDuration :=
  fromScaledNanoseconds value ⟨1000000000, by decide⟩ (by decide)

lemma map_count_fromScaledNanoseconds (value scale : NanosecondCount) (hs : 0 < scale.val) :
    (fromScaledNanoseconds value scale hs).map count = checkedScaleNanoseconds value scale hs := by
  rw [fromScaledNanoseconds, Option.map_map]
  exact Option.map_id' ..

/-- `CheckedAdd` of two durations. -/
def checkedAdd (lhs rhs : SimDuration) : Option SimDuration :=
  (checkedAddCounts lhs.count rhs.count).map SimDuration.mk

/-- `CheckedSubtract` of two durations. -/
def checkedSubtract (lhs rhs : SimDuration) : Option SimDuration :=
  (checkedSubtractCounts lhs.count rhs.count).map SimDuration.mk

lemma checkedAdd_eq_some {lhs rhs d : SimDuration} :
    lhs.checkedAdd rhs = some d ↔ lhs.nanoseconds + rhs.nanoseconds = d.nanoseconds := by
  obtain ⟨d⟩ := d
  simp only [checkedAdd, Option.map_eq_some_iff, SimDuration.mk.injEq, exists_eq_right]
  exact checkedAddCounts_eq_some

lemma checkedSubtract_eq_some {lhs rhs d : SimDuration} :
    lhs.checkedSubtract rhs = some d ↔ lhs.nanoseconds - rhs.nanoseconds = d.nanoseconds := by
  obtain ⟨d⟩ := d
  simp only [checkedSubtract, Option.map_eq_some_iff, SimDuration.mk.injEq, exists_eq_right]
  exact checkedSubtractCounts_eq_some

/-- A 32-bit count of nanoseconds. -/
def ofUInt32 (n : UInt32) : SimDuration := ⟨n.toNat, uint32_bounds n⟩

end SimDuration

namespace SimTime

def nanoseconds (t : SimTime) : ℤ := t.count.val

lemma nanoseconds_injective : Function.Injective nanoseconds :=
  fun ⟨_⟩ ⟨_⟩ h => congrArg _ (Subtype.ext h)

instance : LinearOrder SimTime := LinearOrder.lift' nanoseconds nanoseconds_injective

lemma lt_iff {a b : SimTime} : a < b ↔ a.nanoseconds < b.nanoseconds := Iff.rfl
lemma le_iff {a b : SimTime} : a ≤ b ↔ a.nanoseconds ≤ b.nanoseconds := Iff.rfl

lemma le_kMax (t : SimTime) : t.nanoseconds ≤ 9223372036854775807 := t.count.2.2

/-- A 32-bit count of nanoseconds. -/
def ofUInt32 (n : UInt32) : SimTime := ⟨n.toNat, uint32_bounds n⟩

/-- `CheckedAdd` of a time and a duration. -/
def checkedAdd (time : SimTime) (duration : SimDuration) : Option SimTime :=
  (checkedAddCounts time.count duration.count).map SimTime.mk

/-- `CheckedSubtract` of a duration from a time. -/
def checkedSubtract (time : SimTime) (duration : SimDuration) : Option SimTime :=
  (checkedSubtractCounts time.count duration.count).map SimTime.mk

/-- `CheckedSubtract` of two times. -/
def checkedDifference (lhs rhs : SimTime) : Option SimDuration :=
  (checkedSubtractCounts lhs.count rhs.count).map SimDuration.mk

lemma checkedAdd_eq_some {t r : SimTime} {d : SimDuration} :
    t.checkedAdd d = some r ↔ t.nanoseconds + d.nanoseconds = r.nanoseconds := by
  obtain ⟨r⟩ := r
  simp only [checkedAdd, Option.map_eq_some_iff, SimTime.mk.injEq, exists_eq_right]
  exact checkedAddCounts_eq_some

lemma checkedAdd_isSome {t : SimTime} {d : SimDuration} (h : 0 ≤ d.nanoseconds) :
    (t.checkedAdd d).isSome ↔ t.nanoseconds + d.nanoseconds ≤ kMax := by
  have ht : kMin ≤ t.nanoseconds := t.count.property.1
  rw [Option.isSome_iff_exists]
  constructor
  · rintro ⟨r, hr⟩
    rw [checkedAdd_eq_some.mp hr]
    exact r.count.property.2
  · intro hle
    have hge : kMin ≤ t.nanoseconds + d.nanoseconds := by omega
    exact ⟨⟨⟨_, hge, hle⟩⟩, checkedAdd_eq_some.mpr rfl⟩

lemma checkedSubtract_eq_some {t r : SimTime} {d : SimDuration} :
    t.checkedSubtract d = some r ↔ t.nanoseconds - d.nanoseconds = r.nanoseconds := by
  obtain ⟨r⟩ := r
  simp only [checkedSubtract, Option.map_eq_some_iff, SimTime.mk.injEq, exists_eq_right]
  exact checkedSubtractCounts_eq_some

lemma checkedDifference_eq_some {a b : SimTime} {d : SimDuration} :
    a.checkedDifference b = some d ↔ a.nanoseconds - b.nanoseconds = d.nanoseconds := by
  obtain ⟨d⟩ := d
  simp only [checkedDifference, Option.map_eq_some_iff, SimDuration.mk.injEq, exists_eq_right]
  exact checkedSubtractCounts_eq_some

lemma checkedDifference_isSome {a b : SimTime} :
    (a.checkedDifference b).isSome ↔ kMin ≤ a.nanoseconds - b.nanoseconds ∧
      a.nanoseconds - b.nanoseconds ≤ kMax := by
  rw [Option.isSome_iff_exists]
  constructor
  · rintro ⟨r, hr⟩
    rw [checkedDifference_eq_some] at hr
    rw [hr]; exact r.count.2
  · intro h
    exact ⟨⟨_, h⟩, checkedDifference_eq_some.mpr rfl⟩

end SimTime

end Ns3Factory
