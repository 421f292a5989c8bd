import Ns3Factory.StdAlgorithm

/-!
Lists whose elements are known by a key.

Two lists with the same keys have the same values, where a key determines the value. And
sorting by one key a list that ascends in another gives the lexicographic order of both: the
elements that agree in the first stay as they were.
-/

namespace Ns3Factory.StdAlgorithm

variable {α β γ : Type*}

lemma perm_map_of_perm_map {f : α → β} {g : α → γ} {l l' : List α}
    (h : (l.map f).Perm (l'.map f)) (hg : ∀ a ∈ l, ∀ a' ∈ l', f a = f a' → g a = g a') :
    (l.map g).Perm (l'.map g) := by
  induction l generalizing l' with
  | nil =>
    have hnil : l' = [] := by simpa using h
    rw [hnil]
  | cons a l ih =>
    have hmem : f a ∈ l'.map f := h.mem_iff.mp (by simp)
    obtain ⟨a', ha', hkey⟩ := List.mem_map.mp hmem
    obtain ⟨before, after, rfl⟩ := List.append_of_mem ha'
    have hmiddle : (before ++ a' :: after).Perm (a' :: (before ++ after)) := List.perm_middle
    have hrest : (l.map f).Perm ((before ++ after).map f) := by
      have hall := h.trans (hmiddle.map f)
      rw [List.map_cons, List.map_cons, hkey] at hall
      exact hall.cons_inv
    have hsame := ih hrest fun b hb b' hb' =>
      hg b (List.mem_cons_of_mem a hb) b' (hmiddle.mem_iff.mpr (List.mem_cons_of_mem a' hb'))
    have hhead : g a = g a' := hg a (by simp) a' ha' hkey.symm
    rw [List.map_cons, hhead]
    exact (hsame.cons (g a')).trans (hmiddle.map g).symm

lemma Ascending.eq_of_mem_iff [LinearOrder β] {key : α → β} {l l' : List α}
    (h : Ascending key l) (h' : Ascending key l') (hmem : ∀ a, a ∈ l ↔ a ∈ l') : l = l' :=
  h.eq_of_perm h' ((List.perm_ext_iff_of_nodup h.nodup h'.nodup).mpr hmem)

/-! ### Stable sorting -/

section Stable

variable [LinearOrder β] (time : α → β) (number : α → ℕ)

/-- One element comes before another: at an earlier time, or at the same with a lower number. -/
def Precedes (a b : α) : Prop := time a < time b ∨ time a = time b ∧ number a < number b

variable {time number}

lemma Precedes.asymm {a b : α} (h : Precedes time number a b) :
    ¬ Precedes time number b a := by
  rintro (hlt | ⟨heq, hnumber⟩)
  · rcases h with hlt' | ⟨heq', -⟩
    · exact absurd hlt hlt'.asymm
    · exact absurd heq' hlt.ne'
  · rcases h with hlt' | ⟨-, hnumber'⟩
    · exact absurd heq hlt'.ne'
    · omega

lemma pairwise_orderedInsert {a : α} {l : List α} (hl : l.Pairwise (Precedes time number))
    (ha : ∀ b ∈ l, number a < number b) :
    (l.orderedInsert (fun x y => time x ≤ time y) a).Pairwise (Precedes time number) := by
  induction l with
  | nil => simp
  | cons b rest ih =>
    obtain ⟨hb, hrest⟩ := List.pairwise_cons.mp hl
    obtain ⟨hab, hall⟩ := List.forall_mem_cons.mp ha
    rw [List.orderedInsert_cons]
    split_ifs with hle
    · have hfirst : Precedes time number a b := by
        rcases hle.lt_or_eq with hlt | heq
        · exact Or.inl hlt
        · exact Or.inr ⟨heq, hab⟩
      refine List.pairwise_cons.mpr ⟨List.forall_mem_cons.mpr ⟨hfirst, fun x hx => ?_⟩, hl⟩
      rcases hb x hx with hlt | ⟨heq, -⟩
      · exact Or.inl (hle.trans_lt hlt)
      · rcases hle.lt_or_eq with hlt | hsame
        · exact Or.inl (hlt.trans_eq heq)
        · exact Or.inr ⟨hsame.trans heq, hall x hx⟩
    · refine List.pairwise_cons.mpr ⟨fun x hx => ?_, ih hrest hall⟩
      rcases (List.mem_orderedInsert _).mp hx with rfl | hx
      · exact Or.inl (not_le.mp hle)
      · exact hb x hx

lemma pairwise_insertionSort {l : List α} (hl : Ascending number l) :
    (l.insertionSort fun x y => time x ≤ time y).Pairwise (Precedes time number) := by
  induction l with
  | nil => simp
  | cons a l ih =>
    obtain ⟨ha, hrest⟩ := List.pairwise_cons.mp hl
    rw [List.insertionSort_cons]
    exact pairwise_orderedInsert (ih hrest) fun b hb =>
      ha b ((List.mem_insertionSort _).mp hb)

lemma eq_insertionSort {l l' : List α} (hp : l'.Perm l) (hl : Ascending number l)
    (hl' : l'.Pairwise (Precedes time number)) :
    l' = l.insertionSort fun x y => time x ≤ time y := by
  refine List.Perm.eq_of_pairwise ?_ hl' (pairwise_insertionSort hl)
    (hp.trans (List.perm_insertionSort _ l).symm)
  intro a b _ _ hab hba
  exact absurd hba hab.asymm

end Stable

end Ns3Factory.StdAlgorithm
