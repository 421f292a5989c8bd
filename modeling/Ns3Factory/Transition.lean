import Mathlib

/-!
Systems that take one action after another.

A system is a partial step function on states and actions: an action that is not enabled
has no successor. A history is a list of actions, and what every enabled step preserves
holds wherever a history leads. Where neighbours can be swapped, the order within a key does
not matter. An object with methods is the total case: every call has an outcome, and a sequence
of calls a trace of outcomes.
-/

namespace Ns3Factory.Transition

variable {σ α : Type*} (step : σ → α → Option σ)

/-- The state a history leads to, if every action of it is enabled in turn. -/
def run : σ → List α → Option σ
  | s, [] => some s
  | s, a :: as => (step s a).bind fun s' => run s' as

@[simp] lemma run_nil (s : σ) : run step s [] = some s := rfl

lemma run_cons (s : σ) (a : α) (as : List α) :
    run step s (a :: as) = (step s a).bind fun s' => run step s' as := rfl

variable {step}

lemma run_cons_eq_some {s t : σ} {a : α} {as : List α} :
    run step s (a :: as) = some t ↔ ∃ m, step s a = some m ∧ run step m as = some t := by
  rw [run_cons, Option.bind_eq_some_iff]

lemma run_pair_eq_some {s t : σ} {a b : α} :
    run step s [a, b] = some t ↔ ∃ m, step s a = some m ∧ step m b = some t := by
  simp only [run_cons_eq_some, run_nil, Option.some.injEq, exists_eq_right]

lemma run_append_eq_some {s t : σ} {as bs : List α} :
    run step s (as ++ bs) = some t ↔ ∃ m, run step s as = some m ∧ run step m bs = some t := by
  induction as generalizing s with
  | nil => simp
  | cons a as ih =>
    simp only [List.cons_append, run_cons_eq_some, ih]
    constructor
    · rintro ⟨u, hu, m, hm, ht⟩
      exact ⟨m, ⟨u, hu, hm⟩, ht⟩
    · rintro ⟨m, ⟨u, hu, hm⟩, ht⟩
      exact ⟨u, hu, m, hm, ht⟩

lemma run_append_eq_none {s : σ} {as : List α} (h : run step s as = none) (bs : List α) :
    run step s (as ++ bs) = none := by
  rw [Option.eq_none_iff_forall_ne_some]
  intro t ht
  obtain ⟨m, hm, -⟩ := run_append_eq_some.mp ht
  rw [h] at hm
  cases hm

lemma run_concat {s t : σ} {as : List α} (h : run step s as = some t) (a : α) :
    run step s (as ++ [a]) = step t a := by
  induction as generalizing s with
  | nil =>
    rw [run_nil, Option.some.injEq] at h
    rw [List.nil_append, run_cons, h]
    rcases step t a with _ | m <;> rfl
  | cons b as ih =>
    obtain ⟨m, hm, hrest⟩ := run_cons_eq_some.mp h
    rw [List.cons_append, run_cons, hm, Option.bind_some]
    exact ih hrest

lemma run_concat_eq_some {s t : σ} {as : List α} {a : α} :
    run step s (as ++ [a]) = some t ↔ ∃ m, run step s as = some m ∧ step m a = some t := by
  simp [run_append_eq_some, run_cons_eq_some]

/-- **The invariant rule.** What holds at the start and is kept by every enabled step whose
action is admitted holds at the end of every history of admitted actions. -/
theorem run_invariant {P : σ → Prop} {A : α → Prop}
    (hstep : ∀ s a t, P s → A a → step s a = some t → P t) {s t : σ} {as : List α}
    (hs : P s) (hok : ∀ a ∈ as, A a) (hrun : run step s as = some t) : P t := by
  induction as generalizing s with
  | nil =>
    rw [run_nil, Option.some.injEq] at hrun
    exact hrun ▸ hs
  | cons a as ih =>
    obtain ⟨m, hm, hrun⟩ := run_cons_eq_some.mp hrun
    exact ih (hstep s a m hs (hok a (by simp)) hm) (fun b hb => hok b (by simp [hb])) hrun

/-! ### Idle actions -/

section Idle

variable (step) (idle : σ → α → Bool)

/-- A history without the actions that are idle in the state they are taken in. -/
def dropIdle : σ → List α → List α
  | _, [] => []
  | s, a :: as =>
    match step s a with
    | none => a :: as
    | some t => if idle s a then dropIdle t as else a :: dropIdle t as

lemma dropIdle_cons {s t : σ} {a : α} (h : step s a = some t) (as : List α) :
    dropIdle step idle s (a :: as) =
      if idle s a then dropIdle step idle t as else a :: dropIdle step idle t as := by
  rw [dropIdle, h]

lemma dropIdle_sublist (s : σ) (as : List α) : (dropIdle step idle s as).Sublist as := by
  induction as generalizing s with
  | nil => exact List.Sublist.refl _
  | cons a as ih =>
    rcases h : step s a with _ | t
    · rw [dropIdle, h]
    · rw [dropIdle_cons step idle h]
      split_ifs
      · exact (ih t).cons a
      · exact (ih t).cons_cons a

variable {step idle}

/-- **The idle rule.** Where idle actions change nothing, a history without them leads to the
same state, and has none left. -/
theorem run_dropIdle {P : σ → Prop} (hstep : ∀ s a t, P s → step s a = some t → P t)
    (hidle : ∀ s a t, P s → idle s a = true → step s a = some t → t = s) {s t : σ}
    {as : List α} (hs : P s) (hrun : run step s as = some t) :
    run step s (dropIdle step idle s as) = some t ∧
      ∀ before a after m, dropIdle step idle s as = before ++ a :: after →
        run step s before = some m → idle m a = false := by
  induction as generalizing s with
  | nil => exact ⟨hrun, fun before a after m h => by simp [dropIdle] at h⟩
  | cons a as ih =>
    obtain ⟨u, hu, hrest⟩ := run_cons_eq_some.mp hrun
    obtain ⟨hrun', hnone⟩ := ih (hstep s a u hs hu) hrest
    rw [dropIdle_cons step idle hu]
    split_ifs with hi
    · obtain rfl := hidle s a u hs hi hu
      exact ⟨hrun', hnone⟩
    · refine ⟨run_cons_eq_some.mpr ⟨u, hu, hrun'⟩, fun before b after m heq hm => ?_⟩
      rcases before with _ | ⟨c, before⟩
      · -- the first action left
        obtain ⟨rfl, -⟩ := List.cons.inj heq
        rw [run_nil, Option.some.injEq] at hm
        rw [← hm, ← Bool.not_eq_true]
        exact hi
      · obtain ⟨rfl, htail⟩ := List.cons.inj heq
        obtain ⟨v, hv, hm⟩ := run_cons_eq_some.mp hm
        obtain rfl : u = v := Option.some.inj (hu.symm.trans hv)
        exact hnone before b after m htail hm

end Idle

/-! ### Reordering -/

section Reordering

variable {κ : Type*} {key : α → κ} {R : σ → σ → Prop}

lemma run_simulates
    (hsim : ∀ s s' a t, R s s' → step s a = some t → ∃ t', step s' a = some t' ∧ R t t')
    {s s' t : σ} {as : List α} (h : R s s') (hrun : run step s as = some t) :
    ∃ t', run step s' as = some t' ∧ R t t' := by
  induction as generalizing s s' with
  | nil =>
    rw [run_nil, Option.some.injEq] at hrun
    exact ⟨s', rfl, hrun ▸ h⟩
  | cons a as ih =>
    obtain ⟨m, hm, hrun⟩ := run_cons_eq_some.mp hrun
    obtain ⟨m', hm', hmm⟩ := hsim s s' a m h hm
    obtain ⟨t', ht', htt⟩ := ih hmm hrun
    exact ⟨t', run_cons_eq_some.mpr ⟨m', hm', ht'⟩, htt⟩

variable (hrefl : ∀ s, R s s) (htrans : ∀ s t u, R s t → R t u → R s u)
  (hsim : ∀ s s' a t, R s s' → step s a = some t → ∃ t', step s' a = some t' ∧ R t t')
  (hswap : ∀ s a b t, key a = key b → run step s [a, b] = some t →
    ∃ t', run step s [b, a] = some t' ∧ R t t')

include hrefl htrans hsim hswap

lemma run_moves {s t : σ} {a : α} {before after : List α}
    (hkey : ∀ b ∈ before, key b = key a)
    (hrun : run step s (a :: (before ++ after)) = some t) :
    ∃ t', run step s (before ++ a :: after) = some t' ∧ R t t' := by
  induction before generalizing s t with
  | nil => exact ⟨t, hrun, hrefl t⟩
  | cons b before ih =>
    have hsplit : a :: (b :: before ++ after) = [a, b] ++ (before ++ after) := rfl
    rw [hsplit, run_append_eq_some] at hrun
    obtain ⟨m, hm, hrest⟩ := hrun
    -- `b` first, then `a` and the others
    obtain ⟨m', hm', hmm⟩ := hswap s a b m (hkey b (by simp)).symm hm
    obtain ⟨u, hu, htu⟩ := run_simulates hsim hmm hrest
    obtain ⟨n, hn, hna⟩ := run_pair_eq_some.mp hm'
    have hfrom : run step n (a :: (before ++ after)) = some u :=
      run_cons_eq_some.mpr ⟨m', hna, hu⟩
    obtain ⟨t', ht', hut⟩ := ih (fun c hc => hkey c (by simp [hc])) hfrom
    exact ⟨t', run_cons_eq_some.mpr ⟨n, hn, ht'⟩, htrans t u t' htu hut⟩

/-- **The reordering rule.** Where neighbours of one key can be swapped up to a simulation, all
histories of the same actions in the order of the keys lead to related states. -/
theorem run_reorder [LinearOrder κ] {s s' t : σ} {as bs : List α} (hp : as.Perm bs)
    (ha : as.Pairwise fun a b => key a ≤ key b) (hb : bs.Pairwise fun a b => key a ≤ key b)
    (h : R s s') (hrun : run step s as = some t) :
    ∃ t', run step s' bs = some t' ∧ R t t' := by
  induction as generalizing s s' bs with
  | nil =>
    rw [List.nil_perm.mp hp]
    exact run_simulates hsim h hrun
  | cons a as ih =>
    obtain ⟨hleast, has⟩ := List.pairwise_cons.mp ha
    obtain ⟨before, after, rfl⟩ := List.append_of_mem (hp.mem_iff.mp (List.mem_cons_self ..))
    have hp' : as.Perm (before ++ after) := (hp.trans List.perm_middle).cons_inv
    -- whatever stands before `a` has its key
    have hkey : ∀ b ∈ before, key b = key a := fun b hmem =>
      le_antisymm ((List.pairwise_append.mp hb).2.2 b hmem a (by simp))
        (hleast b (hp'.mem_iff.mpr (by simp [hmem])))
    have hb' : (before ++ after).Pairwise fun a b => key a ≤ key b :=
      hb.sublist ((List.sublist_cons_self a after).append_left before)
    obtain ⟨m, hm, hrest⟩ := run_cons_eq_some.mp hrun
    obtain ⟨m', hm', hmm⟩ := hsim s s' a m h hm
    obtain ⟨u, hu, htu⟩ := ih hp' has hb' hmm hrest
    obtain ⟨t', ht', hut⟩ := run_moves hrefl htrans hsim hswap hkey
      (run_cons_eq_some.mpr ⟨m', hm', hu⟩)
    exact ⟨t', ht', htrans t u t' htu hut⟩

end Reordering

/-! ### Objects -/

section Objects

variable {σ α ο : Type*} (call : σ → α → ο × σ)

/-- The trace of a sequence of calls, and the state they leave. -/
def exec : σ → List α → List (α × ο) × σ
  | s, [] => ([], s)
  | s, a :: as =>
    let (outcome, next) := call s a
    let (trace, last) := exec next as
    ((a, outcome) :: trace, last)

@[simp] lemma exec_nil (s : σ) : exec call s [] = ([], s) := rfl

@[simp] lemma exec_cons (s : σ) (a : α) (as : List α) :
    exec call s (a :: as) =
      ((a, (call s a).1) :: (exec call (call s a).2 as).1, (exec call (call s a).2 as).2) := rfl

lemma exec_append (s : σ) (as bs : List α) :
    exec call s (as ++ bs) =
      ((exec call s as).1 ++ (exec call (exec call s as).2 bs).1,
        (exec call (exec call s as).2 bs).2) := by
  induction as generalizing s with
  | nil => rfl
  | cons a as ih => simp [ih]

lemma exec_calls (s : σ) (as : List α) : (exec call s as).1.map Prod.fst = as := by
  induction as generalizing s with
  | nil => rfl
  | cons a as ih => simp [ih]

/-- **The invariant rule for objects.** What holds of the trace so far and the state, and is
kept by every admitted call, holds after every sequence of admitted calls. -/
theorem exec_invariant {P : List (α × ο) → σ → Prop} {A : α → Prop}
    (hstep : ∀ done s a, P done s → A a → P (done ++ [(a, (call s a).1)]) (call s a).2)
    {s : σ} (h : P [] s) {as : List α} (hok : ∀ a ∈ as, A a) :
    P (exec call s as).1 (exec call s as).2 := by
  induction as using List.reverseRecOn with
  | nil => exact h
  | append_singleton as a ih =>
    rw [exec_append]
    exact hstep _ _ a (ih fun b hb => hok b (by simp [hb])) (hok a (by simp))

end Objects

end Ns3Factory.Transition
