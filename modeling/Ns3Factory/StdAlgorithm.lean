import Mathlib

/-!
Sequences kept in the order of a key, and the standard algorithms on them.

`sort`, `lowerBound`, `upperBound`, `adjacentFind` and `extractMin` follow the documented
behaviour of the standard algorithms. A comparator is used through the key it
compares: on a list that ascends strictly in the key, the bound searches are lookups, an
update at the lower bound keeps the order, and a list is determined by its elements.
-/

namespace Ns3Factory.StdAlgorithm

variable {α κ : Type*}

/-- `std::sort` under the comparator `less`. -/
def sort (less : α → α → Bool) (l : List α) : List α :=
  l.insertionSort fun a b => less b a = false

/-- `std::lower_bound`: what lies before the bound, and the rest. -/
def lowerBound (below : α → Bool) (l : List α) : List α × List α :=
  (l.takeWhile below, l.dropWhile below)

/-- `std::upper_bound`: what lies at or before the bound, and the rest. -/
def upperBound (above : α → Bool) (l : List α) : List α × List α :=
  (l.takeWhile fun a => !above a, l.dropWhile fun a => !above a)

/-- `std::adjacent_find`: the first element equal to its successor. -/
def adjacentFind (same : α → α → Bool) : List α → Option α
  | a :: b :: l => if same a b then some a else adjacentFind same (b :: l)
  | _ => none

/-- `std::min_element` and the erasure of what it points at: the first smallest element,
and the others in their order. -/
def extractMin (less : α → α → Bool) : List α → Option (α × List α)
  | [] => none
  | a :: l =>
    match extractMin less l with
    | none => some (a, [])
    | some (m, rest) => if less m a then some (m, a :: rest) else some (a, l)

/-- The keys ascend strictly. -/
def Ascending [LT κ] (key : α → κ) (l : List α) : Prop :=
  l.Pairwise fun a b => key a < key b

/-! ### Lists side by side -/

lemma exists_of_mem_left {β : Type*} {R : α → β → Prop} {l₁ : List α} {l₂ : List β} {a : α}
    (h : List.Forall₂ R l₁ l₂) (ha : a ∈ l₁) : ∃ b ∈ l₂, R a b := by
  induction h with
  | nil => cases ha
  | @cons x y _ _ hxy _ ih =>
    rcases List.mem_cons.mp ha with rfl | ha
    · exact ⟨y, by simp, hxy⟩
    · obtain ⟨b, hb, hab⟩ := ih ha
      exact ⟨b, List.mem_cons_of_mem _ hb, hab⟩

lemma exists_of_mem_right {β : Type*} {R : α → β → Prop} {l₁ : List α} {l₂ : List β} {b : β}
    (h : List.Forall₂ R l₁ l₂) (hb : b ∈ l₂) : ∃ a ∈ l₁, R a b :=
  exists_of_mem_left (h.flip : List.Forall₂ (flip R) l₂ l₁) hb

/-! ### Sorting -/

lemma sort_perm (less : α → α → Bool) (l : List α) : (sort less l).Perm l :=
  List.perm_insertionSort _ l

@[simp] lemma mem_sort {less : α → α → Bool} {l : List α} {a : α} :
    a ∈ sort less l ↔ a ∈ l := (sort_perm less l).mem_iff

section Sorting

variable [LinearOrder κ] {key : α → κ} {less : α → α → Bool}

lemma less_eq_false (hless : ∀ a b, less a b = true ↔ key a < key b) (a b : α) :
    less b a = false ↔ key a ≤ key b := by
  rw [← not_lt, ← hless b a, Bool.not_eq_true]

lemma sort_pairwise (hless : ∀ a b, less a b = true ↔ key a < key b) (l : List α) :
    (sort less l).Pairwise fun a b => key a ≤ key b := by
  have hle := less_eq_false hless
  have : Std.Total fun a b => less b a = false :=
    ⟨fun a b => by simp only [hle]; exact le_total _ _⟩
  have : IsTrans α fun a b => less b a = false :=
    ⟨fun a b c => by simp only [hle]; exact le_trans⟩
  exact (List.pairwise_insertionSort (fun a b => less b a = false) l).imp fun {a b} h =>
    (hle a b).mp h

lemma sort_ascending (hless : ∀ a b, less a b = true ↔ key a < key b) {l : List α}
    (hne : l.Pairwise fun a b => key a ≠ key b) : Ascending key (sort less l) := by
  have hne' : (sort less l).Pairwise fun a b => key a ≠ key b :=
    hne.perm (sort_perm less l).symm fun {a b} h => h.symm
  exact ((sort_pairwise hless l).and hne').imp fun h => lt_of_le_of_ne h.1 h.2

/-- Sorting has one outcome where the key tells the elements apart, whatever the order in which
the algorithm leaves equal keys. -/
lemma eq_sort_of_perm (hless : ∀ a b, less a b = true ↔ key a < key b) {l l' : List α}
    (hinj : ∀ a ∈ l, ∀ b ∈ l, key a = key b → a = b) (hp : l'.Perm l)
    (hl : l'.Pairwise fun a b => less b a = false) : l' = sort less l := by
  have hle : l'.Pairwise fun a b => key a ≤ key b :=
    hl.imp fun {a b} h => (less_eq_false hless a b).mp h
  refine List.Perm.eq_of_pairwise ?_ hle (sort_pairwise hless l)
    (hp.trans (sort_perm less l).symm)
  intro a b ha hb hab hba
  exact hinj a (hp.mem_iff.mp ha) b (mem_sort.mp hb) (le_antisymm hab hba)

lemma sort_pairwise_less (hless : ∀ a b, less a b = true ↔ key a < key b) (l : List α) :
    (sort less l).Pairwise fun a b => less b a = false :=
  (sort_pairwise hless l).imp fun {a b} h => (less_eq_false hless a b).mpr h

/-- **Sorting is a canonical form**: it forgets the order of the elements and nothing else. -/
lemma sort_eq_sort_iff (hless : ∀ a b, less a b = true ↔ key a < key b)
    (hinj : Function.Injective key) {l l' : List α} :
    sort less l = sort less l' ↔ l.Perm l' := by
  constructor
  · intro h
    exact (sort_perm less l).symm.trans (h ▸ sort_perm less l')
  · intro hp
    exact eq_sort_of_perm hless (fun _ _ _ _ e => hinj e) ((sort_perm less l).trans hp)
      (sort_pairwise_less hless l)

lemma Ascending.eq_of_perm {l₁ l₂ : List α} (h₁ : Ascending key l₁) (h₂ : Ascending key l₂)
    (hp : l₁.Perm l₂) : l₁ = l₂ := by
  refine List.Perm.eq_of_pairwise ?_ h₁ h₂ hp
  intro a b _ _ hab hba
  exact absurd hab hba.asymm

lemma Ascending.ne {l : List α} (h : Ascending key l) :
    l.Pairwise fun a b => key a ≠ key b := h.imp fun hab => hab.ne

lemma Ascending.nodup {l : List α} (h : Ascending key l) : l.Nodup :=
  h.imp fun hab e => by simp [e] at hab

lemma Ascending.le_getLast {l : List α} (h : Ascending key l) {last x : α}
    (hl : l.getLast? = some last) (hx : x ∈ l) : key x ≤ key last := by
  obtain ⟨init, rfl⟩ := List.getLast?_eq_some_iff.mp hl
  rcases List.mem_append.mp hx with hx | hx
  · exact ((List.pairwise_append.mp h).2.2 x hx last (by simp)).le
  · rw [List.mem_singleton.mp hx]

lemma sort_eq_self (hless : ∀ a b, less a b = true ↔ key a < key b) {l : List α}
    (h : Ascending key l) : sort less l = l :=
  (sort_ascending hless h.ne).eq_of_perm h (sort_perm less l)

end Sorting

lemma adjacentFind_eq_none [LinearOrder κ] {key : α → κ} {same : α → α → Bool}
    (hsame : ∀ a b, same a b = true ↔ key a = key b) {l : List α}
    (hl : l.Pairwise fun a b => key a ≤ key b) :
    adjacentFind same l = none ↔ Ascending key l := by
  induction l with
  | nil => simp [adjacentFind, Ascending]
  | cons a l ih =>
    obtain ⟨ha, hl'⟩ := List.pairwise_cons.mp hl
    rcases l with _ | ⟨b, l⟩
    · simp [adjacentFind, Ascending]
    have hb := ha b (by simp)
    by_cases hab : key a = key b
    · have : ¬ Ascending key (a :: b :: l) := fun h =>
        absurd hab ((List.pairwise_cons.mp h).1 b (by simp)).ne
      simp [adjacentFind, (hsame a b).mpr hab, this]
    · have hs : same a b = false := by
        rw [← Bool.not_eq_true, hsame]; exact hab
      rw [adjacentFind, hs, if_neg (by simp), ih hl']
      refine ⟨fun h => List.pairwise_cons.mpr ⟨fun x hx => ?_, h⟩, fun h => h.of_cons⟩
      have hlt : key a < key b := lt_of_le_of_ne hb hab
      rcases List.mem_cons.mp hx with rfl | hx
      · exact hlt
      · exact hlt.trans ((List.pairwise_cons.mp h).1 x hx)

lemma takeWhile_eq_filter [LinearOrder κ] {key : α → κ} {k : κ} {l : List α}
    (h : l.Pairwise fun a b => key a ≤ key b) (hge : ∀ x ∈ l, k ≤ key x) :
    (l.takeWhile fun x => !decide (k < key x)) = l.filter fun x => key x = k := by
  induction l with
  | nil => rfl
  | cons x l ih =>
    obtain ⟨hx, hl⟩ := List.pairwise_cons.mp h
    by_cases hkx : k < key x
    · have hnone : ∀ y ∈ l, ¬ key y = k := fun y hy e =>
        absurd (hx y hy) (by rw [e]; exact not_le.mpr hkx)
      simp only [hkx, decide_true, Bool.not_true, Bool.false_eq_true, not_false_eq_true,
        List.takeWhile_cons_of_neg]
      exact (List.filter_eq_nil_iff.mpr (by simpa [hkx.ne'] using hnone)).symm
    · have hkey : key x = k := le_antisymm (not_lt.mp hkx) (hge x (by simp))
      simp [hkey, ih hl fun y hy => hge y (by simp [hy])]

lemma equalRange_eq_filter [LinearOrder κ] {key : α → κ} {l : List α}
    (h : l.Pairwise fun a b => key a ≤ key b) (k : κ) :
    (upperBound (fun a => decide (k < key a))
      (lowerBound (fun a => decide (key a < k)) l).2).1 = l.filter fun a => key a = k := by
  induction l with
  | nil => rfl
  | cons a l ih =>
    obtain ⟨ha, hl⟩ := List.pairwise_cons.mp h
    by_cases hlt : key a < k
    · have := ih hl
      simpa [upperBound, lowerBound, hlt, hlt.ne] using this
    · -- from here on no element is below the key
      have hge : ∀ x ∈ a :: l, k ≤ key x := by
        intro x hx
        rcases List.mem_cons.mp hx with rfl | hx
        · exact not_lt.mp hlt
        · exact (not_lt.mp hlt).trans (ha x hx)
      have hdrop : (lowerBound (fun a => decide (key a < k)) (a :: l)).2 = a :: l := by
        simp [lowerBound, hlt]
      rw [hdrop]
      exact takeWhile_eq_filter h hge

/-! ### Smallest elements -/

lemma extractMin_eq_none {less : α → α → Bool} {l : List α} :
    extractMin less l = none ↔ l = [] := by
  cases l with
  | nil => simp [extractMin]
  | cons a l =>
    simp only [extractMin, reduceCtorEq, iff_false]
    split
    · simp
    · split <;> simp

lemma extractMin_perm {less : α → α → Bool} {l rest : List α} {m : α}
    (h : extractMin less l = some (m, rest)) : l.Perm (m :: rest) := by
  induction l generalizing m rest with
  | nil => simp [extractMin] at h
  | cons a l ih =>
    simp only [extractMin] at h
    split at h
    · next hn =>
      rw [extractMin_eq_none] at hn
      simp only [Option.some.injEq, Prod.mk.injEq] at h
      rw [← h.1, ← h.2, hn]
    · next m' rest' hm =>
      split_ifs at h with hlt <;> simp only [Option.some.injEq, Prod.mk.injEq] at h
      · rw [← h.1, ← h.2]
        exact ((ih hm).cons a).trans (List.Perm.swap m' a rest')
      · rw [← h.1, ← h.2]

lemma extractMin_le [LinearOrder κ] (key : α → κ) {less : α → α → Bool}
    (hless : ∀ a b, less a b = true ↔ key a < key b) {l rest : List α} {m : α}
    (h : extractMin less l = some (m, rest)) : ∀ x ∈ l, key m ≤ key x := by
  induction l generalizing m rest with
  | nil => simp
  | cons a l ih =>
    simp only [extractMin] at h
    split at h
    · next hn =>
      rw [extractMin_eq_none] at hn
      simp only [Option.some.injEq, Prod.mk.injEq] at h
      simp [hn, h.1]
    · next m' rest' hm =>
      split_ifs at h with hlt <;> simp only [Option.some.injEq, Prod.mk.injEq] at h <;>
        rw [← h.1]
      · rintro x (_ | ⟨_, hx⟩)
        · exact ((hless m' a).mp hlt).le
        · exact ih hm x hx
      · rw [hless, not_lt] at hlt
        rintro x (_ | ⟨_, hx⟩)
        · exact le_rfl
        · exact hlt.trans (ih hm x hx)

/-! ### Lookup and update at the lower bound -/

section Lookup

variable [LinearOrder κ] (key : α → κ)

/-- The element the lower bound of `k` finds, when its key is `k`. -/
def lookup (k : κ) (l : List α) : Option α :=
  match (lowerBound (fun a => key a < k) l).2 with
  | a :: _ => if key a = k then some a else none
  | [] => none

/-- Assigns to the element found at the lower bound, or inserts there. -/
def upsert (a : α) (l : List α) : List α :=
  match lowerBound (fun b => key b < key a) l with
  | (before, b :: after) =>
      if key b = key a then before ++ a :: after else before ++ a :: b :: after
  | (before, []) => before ++ [a]

/-- Erases the element found at the lower bound. -/
def eraseKey (k : κ) (l : List α) : List α :=
  match lowerBound (fun b => key b < k) l with
  | (before, b :: after) => if key b = k then before ++ after else l
  | (_, []) => l

variable {key}

lemma lookup_cons (k : κ) (a : α) (l : List α) :
    lookup key k (a :: l) =
      if key a < k then lookup key k l else if key a = k then some a else none := by
  by_cases h : key a < k <;> simp [lookup, lowerBound, h]

lemma upsert_cons (a b : α) (l : List α) :
    upsert key a (b :: l) =
      if key b < key a then b :: upsert key a l
      else if key b = key a then a :: l else a :: b :: l := by
  by_cases h : key b < key a
  · rcases hd : l.dropWhile fun b => decide (key b < key a) with _ | ⟨c, after⟩
    · simp [upsert, lowerBound, h, hd]
    · by_cases hc : key c = key a <;> simp [upsert, lowerBound, h, hd, hc]
  · by_cases he : key b = key a <;> simp [upsert, lowerBound, h, he]

lemma eraseKey_cons (k : κ) (b : α) (l : List α) :
    eraseKey key k (b :: l) =
      if key b < k then b :: eraseKey key k l else if key b = k then l else b :: l := by
  by_cases h : key b < k
  · rcases hd : l.dropWhile fun b => decide (key b < k) with _ | ⟨c, after⟩
    · simp [eraseKey, lowerBound, h, hd]
    · by_cases hc : key c = k <;> simp [eraseKey, lowerBound, h, hd, hc]
  · by_cases he : key b = k <;> simp [eraseKey, lowerBound, h, he]

lemma lookup_eq_some {l : List α} (h : Ascending key l) {k : κ} {a : α} :
    lookup key k l = some a ↔ a ∈ l ∧ key a = k := by
  induction l with
  | nil => simp [lookup, lowerBound]
  | cons b l ih =>
    obtain ⟨hb, hl⟩ := List.pairwise_cons.mp h
    rw [lookup_cons]
    split_ifs with hlt he
    · rw [ih hl, List.mem_cons]
      refine ⟨fun ⟨h1, h2⟩ => ⟨Or.inr h1, h2⟩, fun ⟨h1, h2⟩ => ⟨h1.resolve_left ?_, h2⟩⟩
      rintro rfl; exact absurd h2 hlt.ne
    · simp only [Option.some.injEq, List.mem_cons]
      refine ⟨fun e => ⟨Or.inl e.symm, e ▸ he⟩, fun ⟨h1, h2⟩ => ?_⟩
      rcases h1 with rfl | h1
      · rfl
      · exact absurd (he.trans h2.symm) (hb a h1).ne
    · simp only [List.mem_cons, false_iff, not_and]
      rintro (rfl | h1) h2
      · exact he h2
      · have := hb a h1
        rw [h2] at this; exact hlt this

lemma lookup_eq_none {l : List α} (h : Ascending key l) {k : κ} :
    lookup key k l = none ↔ ∀ a ∈ l, key a ≠ k := by
  rw [Option.eq_none_iff_forall_ne_some]
  exact ⟨fun hn a ha e => hn a ((lookup_eq_some h).mpr ⟨ha, e⟩),
    fun hn a he => hn a ((lookup_eq_some h).mp he).1 ((lookup_eq_some h).mp he).2⟩

lemma mem_upsert {l : List α} (h : Ascending key l) {a x : α} :
    x ∈ upsert key a l ↔ x = a ∨ (x ∈ l ∧ key x ≠ key a) := by
  induction l with
  | nil => simp [upsert, lowerBound]
  | cons b l ih =>
    obtain ⟨hb, hl⟩ := List.pairwise_cons.mp h
    rw [upsert_cons]
    split_ifs with hlt he
    · rw [List.mem_cons, ih hl, List.mem_cons]
      have : x = b → key x ≠ key a := by rintro rfl; exact hlt.ne
      grind
    · have : ∀ x ∈ l, key x ≠ key a := fun y hy => by rw [← he]; exact (hb y hy).ne'
      have h1 := this x
      have h2 : x = b → key x = key a := by rintro rfl; exact he
      simp only [List.mem_cons]
      grind
    · have hlt' : key a < key b := lt_of_le_of_ne (not_lt.mp hlt) (Ne.symm he)
      have h1 : x ∈ l → key x ≠ key a := fun hx => (hlt'.trans (hb x hx)).ne'
      have h2 : x = b → key x ≠ key a := by rintro rfl; exact he
      simp only [List.mem_cons]
      grind

lemma upsert_ascending {l : List α} (h : Ascending key l) (a : α) :
    Ascending key (upsert key a l) := by
  induction l with
  | nil => simp [upsert, lowerBound, Ascending]
  | cons b l ih =>
    obtain ⟨hb, hl⟩ := List.pairwise_cons.mp h
    rw [upsert_cons]
    split_ifs with hlt he
    · refine List.pairwise_cons.mpr ⟨fun x hx => ?_, ih hl⟩
      rcases (mem_upsert hl).mp hx with rfl | ⟨hx, -⟩
      · exact hlt
      · exact hb x hx
    · exact List.pairwise_cons.mpr ⟨fun x hx => he ▸ hb x hx, hl⟩
    · have hlt' : key a < key b := lt_of_le_of_ne (not_lt.mp hlt) (Ne.symm he)
      refine List.pairwise_cons.mpr ⟨fun x hx => ?_, h⟩
      rcases List.mem_cons.mp hx with rfl | hx
      · exact hlt'
      · exact hlt'.trans (hb x hx)

lemma lookup_split {l : List α} {k : κ} {b : α} (h : lookup key k l = some b) :
    ∃ before after, l = before ++ b :: after ∧ key b = k ∧
      (∀ a, key a = k → upsert key a l = before ++ a :: after) ∧
      eraseKey key k l = before ++ after := by
  refine ⟨l.takeWhile fun a => key a < k, (l.dropWhile fun a => key a < k).tail, ?_⟩
  rcases hd : l.dropWhile fun a => decide (key a < k) with _ | ⟨c, after⟩
  · simp [lookup, lowerBound, hd] at h
  · simp only [lookup, lowerBound, hd] at h
    split_ifs at h with hc
    obtain rfl : c = b := by simpa using h
    refine ⟨?_, hc, fun a ha => ?_, ?_⟩
    · rw [List.tail_cons, ← hd, List.takeWhile_append_dropWhile]
    · simp [upsert, lowerBound, ha, hd, hc]
    · simp [eraseKey, lowerBound, hd, hc]

lemma lookup_none_split {l : List α} {k : κ} (h : lookup key k l = none) :
    ∃ before after, l = before ++ after ∧
      ∀ a, key a = k → upsert key a l = before ++ a :: after := by
  refine ⟨l.takeWhile fun a => key a < k, l.dropWhile fun a => key a < k,
    List.takeWhile_append_dropWhile.symm, fun a ha => ?_⟩
  rcases hd : l.dropWhile fun a => decide (key a < k) with _ | ⟨c, after⟩
  · simp [upsert, lowerBound, ha, hd]
  · simp only [lookup, lowerBound, hd] at h
    split_ifs at h with hc
    simp [upsert, lowerBound, ha, hd, hc]

lemma eraseKey_of_lookup_none {l : List α} {k : κ} (h : lookup key k l = none) :
    eraseKey key k l = l := by
  rcases hd : l.dropWhile fun a => decide (key a < k) with _ | ⟨c, after⟩
  · simp [eraseKey, lowerBound, hd]
  · simp only [lookup, lowerBound, hd] at h
    split_ifs at h with hc
    simp [eraseKey, lowerBound, hd, hc]

lemma lookup_upsert_self {l : List α} (h : Ascending key l) (a : α) :
    lookup key (key a) (upsert key a l) = some a :=
  (lookup_eq_some (upsert_ascending h a)).mpr ⟨(mem_upsert h).mpr (Or.inl rfl), rfl⟩

lemma lookup_upsert_ne {l : List α} (h : Ascending key l) {a : α} {k : κ} (hk : k ≠ key a) :
    lookup key k (upsert key a l) = lookup key k l := by
  rcases hl : lookup key k l with _ | b
  · rw [lookup_eq_none h] at hl
    rw [lookup_eq_none (upsert_ascending h a)]
    intro x hx
    rcases (mem_upsert h).mp hx with rfl | ⟨hx, -⟩
    · exact hk.symm
    · exact hl x hx
  · rw [lookup_eq_some h] at hl
    rw [lookup_eq_some (upsert_ascending h a), mem_upsert h]
    exact ⟨Or.inr ⟨hl.1, hl.2 ▸ hk⟩, hl.2⟩

lemma mem_eraseKey {l : List α} (h : Ascending key l) {k : κ} {x : α} :
    x ∈ eraseKey key k l ↔ x ∈ l ∧ key x ≠ k := by
  induction l with
  | nil => simp [eraseKey, lowerBound]
  | cons b l ih =>
    obtain ⟨hb, hl⟩ := List.pairwise_cons.mp h
    rw [eraseKey_cons]
    split_ifs with hlt he
    · rw [List.mem_cons, ih hl, List.mem_cons]
      have : x = b → key x ≠ k := by rintro rfl; exact hlt.ne
      grind
    · have h1 : x ∈ l → key x ≠ k := fun hx => by rw [← he]; exact (hb x hx).ne'
      have h2 : x = b → key x = k := by rintro rfl; exact he
      simp only [List.mem_cons]
      grind
    · have hlt' : k < key b := lt_of_le_of_ne (not_lt.mp hlt) (Ne.symm he)
      have h1 : x ∈ l → key x ≠ k := fun hx => (hlt'.trans (hb x hx)).ne'
      have h2 : x = b → key x ≠ k := by rintro rfl; exact he
      simp only [List.mem_cons]
      grind

lemma eraseKey_sublist (key : α → κ) (k : κ) (l : List α) : (eraseKey key k l).Sublist l := by
  induction l with
  | nil => simp [eraseKey, lowerBound]
  | cons b l ih =>
    rw [eraseKey_cons]
    split_ifs
    · exact ih.cons_cons b
    · exact List.sublist_cons_self b l
    · exact List.Sublist.refl _

lemma eraseKey_ascending {l : List α} (h : Ascending key l) (k : κ) :
    Ascending key (eraseKey key k l) := List.Pairwise.sublist (eraseKey_sublist key k l) h

end Lookup

end Ns3Factory.StdAlgorithm
