import Ns3Factory.Time

/-!
The checked arithmetic as C++ evaluates it.

Overflow of an `int64_t` expression is undefined, and so is division by zero; here such an
expression has no value. Each function is written once more with every expression it
evaluates, and agrees with the one that computes on exact integers: no guard overflows, and
none lets a sum, a difference or a product through that would.
-/

namespace Ns3Factory

open BoundedInteger

/-- The value of an `int64_t` expression. -/
abbrev evalCount (n : ℤ) : Option NanosecondCount := eval kMin kMax n

/-- The condition of `CheckedAddCounts`. -/
def addRefused (lhs rhs : NanosecondCount) : Option Bool :=
  evalOr
    (evalAnd (some (0 < rhs.val))
      ((evalCount (kMax - rhs.val)).map fun limit => limit.val < lhs.val))
    (evalAnd (some (rhs.val < 0))
      ((evalCount (kMin - rhs.val)).map fun limit => lhs.val < limit.val))

/-- The condition of `CheckedSubtractCounts`. -/
def subtractRefused (lhs rhs : NanosecondCount) : Option Bool :=
  evalOr
    (evalAnd (some (0 < rhs.val))
      ((evalCount (kMin + rhs.val)).map fun limit => lhs.val < limit.val))
    (evalAnd (some (rhs.val < 0))
      ((evalCount (kMax + rhs.val)).map fun limit => limit.val < lhs.val))

/-- The condition of `CheckedScaleNanoseconds`. -/
def scaleRefused (value scale : NanosecondCount) : Option Bool :=
  evalOr
    ((evalDiv kMin kMax kMax scale.val).map fun limit => limit.val < value.val)
    ((evalDiv kMin kMax kMin scale.val).map fun limit => value.val < limit.val)

def evaluatedAddCounts (lhs rhs : NanosecondCount) : Option (Option NanosecondCount) :=
  evalGuarded kMin kMax (addRefused lhs rhs) (lhs.val + rhs.val)

def evaluatedSubtractCounts (lhs rhs : NanosecondCount) : Option (Option NanosecondCount) :=
  evalGuarded kMin kMax (subtractRefused lhs rhs) (lhs.val - rhs.val)

def evaluatedScaleNanoseconds (value scale : NanosecondCount) :
    Option (Option NanosecondCount) :=
  evalGuarded kMin kMax (scaleRefused value scale) (value.val * scale.val)

/-! ### The guards -/

lemma eq_evalCount {n : ℤ} {result : Option NanosecondCount}
    (h : ∀ r, result = some r ↔ n = r.val) : result = evalCount n := by
  ext1 r
  rw [h, eval_eq_some]

lemma checkedAddCounts_eq (lhs rhs : NanosecondCount) :
    checkedAddCounts lhs rhs = evalCount (lhs.val + rhs.val) :=
  eq_evalCount fun _ => checkedAddCounts_eq_some

lemma checkedSubtractCounts_eq (lhs rhs : NanosecondCount) :
    checkedSubtractCounts lhs rhs = evalCount (lhs.val - rhs.val) :=
  eq_evalCount fun _ => checkedSubtractCounts_eq_some

lemma checkedScaleNanoseconds_eq (value scale : NanosecondCount) (hs : 0 < scale.val) :
    checkedScaleNanoseconds value scale hs = evalCount (value.val * scale.val) :=
  eq_evalCount fun _ => checkedScaleNanoseconds_eq_some

lemma signRefused_eq {rhs above below : ℤ} (ha : 0 < rhs → kMin ≤ above ∧ above ≤ kMax)
    (hb : rhs < 0 → kMin ≤ below ∧ below ≤ kMax) (pastAbove pastBelow : ℤ → Bool) :
    evalOr
      (evalAnd (some (0 < rhs)) ((evalCount above).map fun limit => pastAbove limit.val))
      (evalAnd (some (rhs < 0)) ((evalCount below).map fun limit => pastBelow limit.val)) =
      some ((decide (0 < rhs) && pastAbove above) || (decide (rhs < 0) && pastBelow below)) := by
  rw [evalAnd_eval (fun h => ha (of_decide_eq_true h)),
    evalAnd_eval (fun h => hb (of_decide_eq_true h)), evalOr_some]

lemma evaluatedAddCounts_eq (lhs rhs : NanosecondCount) :
    evaluatedAddCounts lhs rhs = some (checkedAddCounts lhs rhs) := by
  have hl := count_bounds lhs
  have hr := count_bounds rhs
  have hmax : 0 < rhs.val → kMin ≤ kMax - rhs.val ∧ kMax - rhs.val ≤ kMax := by
    simp only [kMin, kMax]; omega
  have hmin : rhs.val < 0 → kMin ≤ kMin - rhs.val ∧ kMin - rhs.val ≤ kMax := by
    simp only [kMin, kMax]; omega
  unfold evaluatedAddCounts addRefused
  rw [checkedAddCounts_eq, signRefused_eq hmax hmin (fun limit => limit < lhs.val)
    fun limit => lhs.val < limit]
  refine evalGuarded_eq ?_
  simp only [Bool.or_eq_true, Bool.and_eq_true, decide_eq_true_eq, kMin, kMax]
  omega

lemma evaluatedSubtractCounts_eq (lhs rhs : NanosecondCount) :
    evaluatedSubtractCounts lhs rhs = some (checkedSubtractCounts lhs rhs) := by
  have hl := count_bounds lhs
  have hr := count_bounds rhs
  have hmin : 0 < rhs.val → kMin ≤ kMin + rhs.val ∧ kMin + rhs.val ≤ kMax := by
    simp only [kMin, kMax]; omega
  have hmax : rhs.val < 0 → kMin ≤ kMax + rhs.val ∧ kMax + rhs.val ≤ kMax := by
    simp only [kMin, kMax]; omega
  unfold evaluatedSubtractCounts subtractRefused
  rw [checkedSubtractCounts_eq, signRefused_eq hmin hmax (fun limit => lhs.val < limit)
    fun limit => limit < lhs.val]
  refine evalGuarded_eq ?_
  simp only [Bool.or_eq_true, Bool.and_eq_true, decide_eq_true_eq, kMin, kMax]
  omega

lemma evaluatedScaleNanoseconds_eq (value scale : NanosecondCount) (hs : 0 < scale.val) :
    evaluatedScaleNanoseconds value scale = some (checkedScaleNanoseconds value scale hs) := by
  have hmin : kMin ≤ 0 := by decide
  have hmax : 0 ≤ kMax := by decide
  have hupper : kMin ≤ kMax.tdiv scale.val ∧ kMax.tdiv scale.val ≤ kMax :=
    tdiv_mem hmin hmax hs ⟨by decide, le_rfl⟩
  have hlower : kMin ≤ kMin.tdiv scale.val ∧ kMin.tdiv scale.val ≤ kMax :=
    tdiv_mem hmin hmax hs ⟨le_rfl, by decide⟩
  unfold evaluatedScaleNanoseconds scaleRefused evalDiv
  rw [checkedScaleNanoseconds_eq, if_neg hs.ne', if_neg hs.ne', eval_of_mem hupper,
    eval_of_mem hlower, Option.map_some, Option.map_some, evalOr_some]
  refine evalGuarded_eq ?_
  rw [mul_mem_iff hmin hmax hs, not_not]
  simp only [Bool.or_eq_true, decide_eq_true_eq]

/-! ### Exactness -/

/-- The result is the exact value, where that is an `int64_t`. -/
structure IsExact (result : Option NanosecondCount) (exact : ℤ) : Prop where
  defined : result.isSome ↔ -2 ^ 63 ≤ exact ∧ exact ≤ 2 ^ 63 - 1
  value : ∀ r, result = some r → r.val = exact

lemma isExact_evalCount (n : ℤ) : IsExact (evalCount n) n where
  defined := eval_isSome
  value _ hr := (eval_eq_some.mp hr).symm

lemma difference_spans {a b : SimTime} {d : SimDuration} (h : b.checkedDifference a = some d) :
    a.checkedAdd d = some b ∧ b.checkedSubtract d = some a := by
  have hd := SimTime.checkedDifference_eq_some.mp h
  rw [SimTime.checkedAdd_eq_some, SimTime.checkedSubtract_eq_some]
  constructor <;> omega

theorem duration_difference_spans {a b d : SimDuration} (h : b.checkedSubtract a = some d) :
    a.checkedAdd d = some b ∧ b.checkedSubtract d = some a := by
  have hd := SimDuration.checkedSubtract_eq_some.mp h
  rw [SimDuration.checkedAdd_eq_some, SimDuration.checkedSubtract_eq_some]
  constructor <;> omega

lemma isExact_scale (value scale : NanosecondCount) (hs : 0 < scale.val) :
    IsExact (checkedScaleNanoseconds value scale hs) (value.val * scale.val) := by
  rw [checkedScaleNanoseconds_eq]
  exact isExact_evalCount _

theorem longer_units_exact (value : NanosecondCount) :
    IsExact ((SimDuration.tryFromMicroseconds value).map SimDuration.count)
      (value.val * 1000) ∧
    IsExact ((SimDuration.tryFromMilliseconds value).map SimDuration.count)
      (value.val * 1000000) ∧
    IsExact ((SimDuration.tryFromSeconds value).map SimDuration.count)
      (value.val * 1000000000) := by
  unfold SimDuration.tryFromMicroseconds SimDuration.tryFromMilliseconds
    SimDuration.tryFromSeconds
  simp only [SimDuration.map_count_fromScaledNanoseconds]
  exact ⟨isExact_scale .., isExact_scale .., isExact_scale ..⟩

/-- **Checked arithmetic is exact.** A sum, a difference or a product with a positive scale is
returned exactly when it is an `int64_t`, and no expression that C++ evaluates on the way
overflows; a difference of times leads from one to the other. -/
theorem checked_arithmetic_exact :
    (∀ lhs rhs : NanosecondCount,
      IsExact (checkedAddCounts lhs rhs) (lhs.val + rhs.val) ∧
      evaluatedAddCounts lhs rhs = some (checkedAddCounts lhs rhs)) ∧
    (∀ lhs rhs : NanosecondCount,
      IsExact (checkedSubtractCounts lhs rhs) (lhs.val - rhs.val) ∧
      evaluatedSubtractCounts lhs rhs = some (checkedSubtractCounts lhs rhs)) ∧
    (∀ (value scale : NanosecondCount) (hs : 0 < scale.val),
      IsExact (checkedScaleNanoseconds value scale hs) (value.val * scale.val) ∧
      evaluatedScaleNanoseconds value scale =
        some (checkedScaleNanoseconds value scale hs)) ∧
    ∀ (a b : SimTime) (d : SimDuration), b.checkedDifference a = some d →
      a.checkedAdd d = some b ∧ b.checkedSubtract d = some a := by
  refine ⟨fun lhs rhs => ⟨?_, evaluatedAddCounts_eq lhs rhs⟩,
    fun lhs rhs => ⟨?_, evaluatedSubtractCounts_eq lhs rhs⟩,
    fun value scale hs =>
      ⟨isExact_scale value scale hs, evaluatedScaleNanoseconds_eq value scale hs⟩,
    fun a b d h => difference_spans h⟩
  · rw [checkedAddCounts_eq]; exact isExact_evalCount _
  · rw [checkedSubtractCounts_eq]; exact isExact_evalCount _

/-- A negative scale is not safe: the least count has no opposite. -/
example : evaluatedScaleNanoseconds ⟨kMin, by decide⟩ ⟨-1, by decide⟩ = none := by decide

end Ns3Factory
