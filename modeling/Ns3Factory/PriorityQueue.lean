import Mathlib

/-!
Priority queues, by what they are for.

A priority queue is a bag of items, each with a key. Any item can be put in; an item is taken
out only when no other in the bag has a smaller key; and items can be dropped. Nothing else
comes in or goes out. When what is put in lies above what was taken before, the items are taken
in the order of their keys; and a bag that is only taken from is sorted.
-/

namespace Ns3Factory.PriorityQueue

variable {α κ : Type*} [LinearOrder κ] (key : α → κ)

inductive Op (α : Type*)
  | put (a : α)
  | take (a : α)
  | drop (a : α)

namespace Op

def wasPut : Op α → Option α
  | put a => some a
  | _ => none

def wasTaken : Op α → Option α
  | take a => some a
  | _ => none

def wasDropped : Op α → Option α
  | drop a => some a
  | _ => none

end Op

/-- The items put in, in order. -/
def putIn (ops : List (Op α)) : List α := ops.filterMap Op.wasPut

/-- The items taken, in order. -/
def taken (ops : List (Op α)) : List α := ops.filterMap Op.wasTaken

/-- The items dropped, in order. -/
def dropped (ops : List (Op α)) : List α := ops.filterMap Op.wasDropped

@[simp] lemma putIn_append (ops ops' : List (Op α)) :
    putIn (ops ++ ops') = putIn ops ++ putIn ops' := List.filterMap_append ..
@[simp] lemma taken_append (ops ops' : List (Op α)) :
    taken (ops ++ ops') = taken ops ++ taken ops' := List.filterMap_append ..
@[simp] lemma dropped_append (ops ops' : List (Op α)) :
    dropped (ops ++ ops') = dropped ops ++ dropped ops' := List.filterMap_append ..

@[simp] lemma putIn_put (a : α) : putIn [.put a] = [a] := rfl
@[simp] lemma putIn_take (a : α) : putIn [.take a] = [] := rfl
@[simp] lemma putIn_drop (a : α) : putIn [.drop a] = [] := rfl
@[simp] lemma taken_put (a : α) : taken [.put a] = [] := rfl
@[simp] lemma taken_take (a : α) : taken [.take a] = [a] := rfl
@[simp] lemma taken_drop (a : α) : taken [.drop a] = [] := rfl
@[simp] lemma dropped_put (a : α) : dropped [.put a] = [] := rfl
@[simp] lemma dropped_take (a : α) : dropped [.take a] = [] := rfl
@[simp] lemma dropped_drop (a : α) : dropped [.drop a] = [a] := rfl

/-- What one operation makes of the bag. -/
inductive Step : Multiset α → Op α → Multiset α → Prop
  | put (a bag) : Step bag (.put a) (a ::ₘ bag)
  | take (a bag) (hleast : ∀ b ∈ bag, key a ≤ key b) : Step (a ::ₘ bag) (.take a) bag
  | drop (a bag) : Step (a ::ₘ bag) (.drop a) bag

/-- The operations lead from one bag to another. -/
inductive Runs : Multiset α → List (Op α) → Multiset α → Prop
  | nil (bag) : Runs bag [] bag
  | snoc {bag ops middle op last} (hruns : Runs bag ops middle) (hstep : Step key middle op last) :
      Runs bag (ops ++ [op]) last

variable {key} {bag middle last : Multiset α} {ops ops' : List (Op α)}

namespace Runs

lemma append (h : Runs key bag ops middle) (h' : Runs key middle ops' last) :
    Runs key bag (ops ++ ops') last := by
  induction h' with
  | nil => rwa [List.append_nil]
  | snoc _ hstep ih =>
    rw [← List.append_assoc]
    exact .snoc ih hstep

lemma put (h : Runs key bag ops last) (a : α) : Runs key bag (ops ++ [.put a]) (a ::ₘ last) :=
  .snoc h (.put a last)

lemma take {a : α} (h : Runs key bag ops (a ::ₘ last)) (hleast : ∀ b ∈ last, key a ≤ key b) :
    Runs key bag (ops ++ [.take a]) last :=
  .snoc h (.take a last hleast)

lemma drop {items : List α} (h : Runs key bag ops (↑items + last)) :
    Runs key bag (ops ++ items.map Op.drop) last := by
  induction items generalizing ops with
  | nil => simpa using h
  | cons a items ih =>
    have hfirst : Runs key bag (ops ++ [.drop a]) (↑items + last) := by
      rw [← Multiset.cons_coe, Multiset.cons_add] at h
      exact .snoc h (.drop a _)
    have hrest := ih hfirst
    rwa [List.append_assoc, List.singleton_append] at hrest

end Runs

@[simp] lemma putIn_drops (items : List α) : putIn (items.map Op.drop) = [] := by
  simp [putIn, List.filterMap_map, Op.wasPut, Function.comp_def]
@[simp] lemma taken_drops (items : List α) : taken (items.map Op.drop) = [] := by
  simp [taken, List.filterMap_map, Op.wasTaken, Function.comp_def]
@[simp] lemma dropped_drops (items : List α) : dropped (items.map Op.drop) = items := by
  simp [dropped, List.filterMap_map, Op.wasDropped, Function.comp_def]

lemma Step.conserved {op : Op α} (h : Step key bag op last) :
    bag + putIn [op] = taken [op] + dropped [op] + last := by
  cases h <;> simp [add_comm _ {_}]

theorem Runs.conserved (h : Runs key bag ops last) :
    bag + putIn ops = taken ops + dropped ops + last := by
  induction h with
  | nil => exact add_comm bag 0
  | @snoc ops middle op last hruns hstep ih =>
    simp only [putIn_append, taken_append, dropped_append, ← Multiset.coe_add]
    calc (bag : Multiset α) + (putIn ops + putIn [op])
        _ = taken ops + dropped ops + (middle + putIn [op]) := by rw [← add_assoc, ih, add_assoc]
        _ = taken ops + dropped ops + (taken [op] + dropped [op] + last) := by
          rw [hstep.conserved]
        _ = taken ops + taken [op] + (dropped ops + dropped [op]) + last := by abel

/-- Every item put in has a key no smaller than those taken before, earlier ones included. -/
def Late (key : α → κ) : List α → List (Op α) → Prop
  | _, [] => True
  | earlier, .put a :: ops => (∀ b ∈ earlier, key b ≤ key a) ∧ Late key earlier ops
  | earlier, .take a :: ops => Late key (earlier ++ [a]) ops
  | earlier, .drop _ :: ops => Late key earlier ops

lemma late_append {earlier : List α} :
    Late key earlier (ops ++ ops') ↔
      Late key earlier ops ∧ Late key (earlier ++ taken ops) ops' := by
  induction ops generalizing earlier with
  | nil => simp [Late, taken]
  | cons op ops ih =>
    cases op with
    | put a => simp [Late, ih, taken, Op.wasTaken, List.filterMap_cons, and_assoc]
    | take a => simp [Late, ih, taken, Op.wasTaken]
    | drop a => simp [Late, ih, taken, Op.wasTaken, List.filterMap_cons]

@[simp] lemma late_drops (earlier items : List α) : Late key earlier (items.map Op.drop) := by
  induction items with
  | nil => trivial
  | cons a items ih => exact ih

/-- **What is put in late is taken in order**, and what is left comes after all taken. -/
theorem Runs.sorted {earlier : List α} (h : Runs key bag ops last) (hlate : Late key earlier ops) :
    (taken ops).Pairwise (fun a b => key a ≤ key b) ∧
      ∀ a ∈ taken ops, ∀ b ∈ last, key a ≤ key b := by
  induction h with
  | nil => simp [taken]
  | @snoc ops middle op last hruns hstep ih =>
    obtain ⟨hbefore, hop⟩ := late_append.mp hlate
    obtain ⟨hsorted, hbelow⟩ := ih hbefore
    cases hstep with
    | put a =>
      have hkeep : taken (ops ++ [.put a]) = taken ops := by simp
      rw [hkeep]
      refine ⟨hsorted, fun x hx b hb => ?_⟩
      rcases Multiset.mem_cons.mp hb with rfl | hb
      · exact hop.1 x (List.mem_append_right _ hx)
      · exact hbelow x hx b hb
    | take a _ hleast =>
      have hmore : taken (ops ++ [.take a]) = taken ops ++ [a] := by simp
      rw [hmore]
      refine ⟨List.pairwise_append.mpr ⟨hsorted, List.pairwise_singleton _ _, ?_⟩, ?_⟩
      · intro x hx b hb
        rw [List.mem_singleton.mp hb]
        exact hbelow x hx a (Multiset.mem_cons_self a _)
      · intro x hx b hb
        rcases List.mem_append.mp hx with hx | hx
        · exact hbelow x hx b (Multiset.mem_cons_of_mem hb)
        · rw [List.mem_singleton.mp hx]
          exact hleast b hb
    | drop a =>
      have hkeep : taken (ops ++ [.drop a]) = taken ops := by simp
      rw [hkeep]
      exact ⟨hsorted, fun x hx b hb => hbelow x hx b (Multiset.mem_cons_of_mem hb)⟩

lemma late_of_putIn_eq_nil {earlier : List α} (h : putIn ops = []) : Late key earlier ops := by
  induction ops generalizing earlier with
  | nil => trivial
  | cons op ops ih =>
    cases op with
    | put a => simp [putIn, Op.wasPut] at h
    | take a => exact ih h
    | drop a => exact ih h

/-- **A bag that is only taken from is sorted**: among the items of one kind, of which none is
dropped, those taken and then those left are the bag in the order of the keys. -/
theorem Runs.drains (h : Runs key bag ops last) (hput : putIn ops = []) {p : α → Prop}
    [DecidablePred p] (hdrop : ∀ a ∈ dropped ops, ¬ p a) (htake : ∀ a ∈ taken ops, p a)
    {rest : List α} (hrest : (rest : Multiset α) = last.filter p)
    (hsorted : rest.Pairwise fun a b => key a ≤ key b) :
    ((taken ops ++ rest : List α) : Multiset α) = bag.filter p ∧
      (taken ops ++ rest).Pairwise fun a b => key a ≤ key b := by
  have hlate : Late key [] ops := late_of_putIn_eq_nil hput
  obtain ⟨htaken, hbelow⟩ := h.sorted hlate
  constructor
  · have hall := congrArg (Multiset.filter p) h.conserved
    have htaken' : Multiset.filter p (taken ops : Multiset α) = taken ops :=
      Multiset.filter_eq_self.mpr htake
    have hdropped' : Multiset.filter p (dropped ops : Multiset α) = 0 :=
      Multiset.filter_eq_nil.mpr hdrop
    rw [hput, Multiset.coe_nil, add_zero, Multiset.filter_add, Multiset.filter_add, htaken',
      hdropped', add_zero] at hall
    rw [hall, ← Multiset.coe_add, hrest]
  · refine List.pairwise_append.mpr ⟨htaken, hsorted, fun a ha b hb => hbelow a ha b ?_⟩
    have hb' : b ∈ last.filter p := by rw [← hrest]; exact hb
    exact (Multiset.mem_filter.mp hb').1

end Ns3Factory.PriorityQueue
