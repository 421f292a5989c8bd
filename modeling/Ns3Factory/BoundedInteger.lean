import Mathlib

/-!
Expressions on integers between two bounds.

An expression has a value when its exact value is between the bounds, and a condition is
evaluated from the left, no further than it needs. Dividing a bound by a positive number,
truncating toward zero, tells which multiples of the number are between the bounds.
-/

namespace Ns3Factory.BoundedInteger

variable {lo hi : ℤ}

/-- The value of an expression, if it is between the bounds. -/
def eval (lo hi n : ℤ) : Option {n : ℤ // lo ≤ n ∧ n ≤ hi} :=
  if h : lo ≤ n ∧ n ≤ hi then some ⟨n, h⟩ else none

/-- The value of a truncating division; there is none by zero. -/
def evalDiv (lo hi a b : ℤ) : Option {n : ℤ // lo ≤ n ∧ n ≤ hi} :=
  if b = 0 then none else eval lo hi (a.tdiv b)

/-- `a && b`, which evaluates `b` only when `a` holds. -/
def evalAnd (a : Option Bool) (b : Option Bool) : Option Bool :=
  a.bind fun holds => if holds then b else some false

/-- `a || b`, which evaluates `b` only when `a` fails. -/
def evalOr (a : Option Bool) (b : Option Bool) : Option Bool :=
  a.bind fun holds => if holds then some true else b

/-- `if (refused) return none; return n;`. -/
def evalGuarded (lo hi : ℤ) (refused : Option Bool) (n : ℤ) :
    Option (Option {n : ℤ // lo ≤ n ∧ n ≤ hi}) :=
  refused.bind fun holds => if holds then some none else (eval lo hi n).map some

lemma eval_of_mem {n : ℤ} (h : lo ≤ n ∧ n ≤ hi) : eval lo hi n = some ⟨n, h⟩ := dif_pos h

lemma eval_eq_some {n : ℤ} {r : {n : ℤ // lo ≤ n ∧ n ≤ hi}} :
    eval lo hi n = some r ↔ n = r.val := by
  unfold eval
  split_ifs with h
  · rw [Option.some.injEq, Subtype.ext_iff]
  · simp only [false_iff]
    rintro rfl
    exact h r.property

lemma eval_isSome {n : ℤ} : (eval lo hi n).isSome ↔ lo ≤ n ∧ n ≤ hi := by
  unfold eval
  split_ifs with h <;> simp [h]

lemma evalAnd_eval {reached : Bool} {n : ℤ} (h : reached = true → lo ≤ n ∧ n ≤ hi)
    (test : ℤ → Bool) :
    evalAnd (some reached) ((eval lo hi n).map fun limit => test limit.val) =
      some (reached && test n) := by
  rcases reached with _ | _
  · rfl
  · simp [evalAnd, eval_of_mem (h rfl)]

lemma evalOr_some (a b : Bool) : evalOr (some a) (some b) = some (a || b) := by
  rcases a with _ | _ <;> rfl

/-- **The guard rule.** Where the guard is defined and refuses exactly what has no value, the
guarded expression is defined and returns the value there is. -/
lemma evalGuarded_eq {n : ℤ} {refused : Bool} (h : refused = true ↔ ¬ (lo ≤ n ∧ n ≤ hi)) :
    evalGuarded lo hi (some refused) n = some (eval lo hi n) := by
  rcases refused with _ | _
  · have hn : lo ≤ n ∧ n ≤ hi := by simpa using h
    simp [evalGuarded, eval_of_mem hn]
  · have hn : eval lo hi n = none := dif_neg (h.mp rfl)
    simp [evalGuarded, hn]

/-! ### Truncating division of a bound -/

lemma le_tdiv_iff {a b c : ℤ} (hc : 0 < c) (hb : 0 ≤ b) : a ≤ b.tdiv c ↔ a * c ≤ b := by
  rw [Int.tdiv_eq_ediv_of_nonneg hb, Int.le_ediv_iff_mul_le hc]

lemma tdiv_le_iff {a b c : ℤ} (hc : 0 < c) (hb : b ≤ 0) : b.tdiv c ≤ a ↔ b ≤ a * c := by
  have h := le_tdiv_iff (a := -a) (b := -b) hc (by omega)
  rw [Int.neg_tdiv, neg_mul] at h
  omega

lemma tdiv_mem (h0 : lo ≤ 0) (h1 : 0 ≤ hi) {c : ℤ} (hc : 0 < c) {n : ℤ} (hn : lo ≤ n ∧ n ≤ hi) :
    lo ≤ n.tdiv c ∧ n.tdiv c ≤ hi := by
  rcases le_total 0 n with h | h
  · have h2 := Int.tdiv_nonneg h hc.le
    have h3 := Int.tdiv_le_self c h
    omega
  · have h2 := Int.tdiv_nonneg (a := -n) (by omega) hc.le
    have h3 := Int.tdiv_le_self (a := -n) c (by omega)
    rw [Int.neg_tdiv] at h2 h3
    omega

lemma mul_mem_iff (h0 : lo ≤ 0) (h1 : 0 ≤ hi) {value scale : ℤ} (hs : 0 < scale) :
    (lo ≤ value * scale ∧ value * scale ≤ hi) ↔
      ¬ (hi.tdiv scale < value ∨ value < lo.tdiv scale) := by
  rw [not_or, not_lt, not_lt, le_tdiv_iff hs h1, tdiv_le_iff hs h0, and_comm]

end Ns3Factory.BoundedInteger
