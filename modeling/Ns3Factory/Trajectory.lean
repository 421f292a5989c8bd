import Mathlib

/-!
Piecewise linear trajectories.

A leg leaves a position at some time with some velocity; a turn replaces it by the leg that
leaves the position reached. The position at a time is the one on the leg after the last
turn up to it, so that later turns do not matter.
-/

namespace Ns3Factory.Trajectory

variable {K V : Type*} [Field K] [AddCommGroup V] [Module K V]

structure Leg (K V : Type*) where
  since : K
  position : V
  velocity : V

/-- A change of velocity. -/
structure Turn (K V : Type*) where
  time : K
  velocity : V

namespace Leg

/-- Where the leg is at a time. -/
def positionAt (leg : Leg K V) (t : K) : V := leg.position + (t - leg.since) • leg.velocity

def turn (leg : Leg K V) (turn : Turn K V) : Leg K V :=
  ⟨turn.time, leg.positionAt turn.time, turn.velocity⟩

/-- The leg after a list of turns. -/
def follow (leg : Leg K V) (turns : List (Turn K V)) : Leg K V := turns.foldl turn leg

@[simp] lemma follow_nil (leg : Leg K V) : leg.follow [] = leg := rfl

lemma follow_append (leg : Leg K V) (turns turns' : List (Turn K V)) :
    leg.follow (turns ++ turns') = (leg.follow turns).follow turns' := by
  simp [follow]

lemma follow_concat (leg : Leg K V) (turns : List (Turn K V)) (t : Turn K V) :
    leg.follow (turns ++ [t]) = (leg.follow turns).turn t := by
  simp [follow]

/-- The leg from a time on. -/
def advance (leg : Leg K V) (t : K) : Leg K V := ⟨t, leg.positionAt t, leg.velocity⟩

lemma advance_since (leg : Leg K V) : leg.advance leg.since = leg := by
  simp [advance, positionAt]

lemma positionAt_advance (leg : Leg K V) (s t : K) :
    (leg.advance s).positionAt t = leg.positionAt t := by
  simp only [advance, positionAt, add_assoc, ← add_smul]
  rw [show s - leg.since + (t - s) = t - leg.since by ring]

/-- **Where a leg is taken up again does not matter** to the legs that follow. -/
lemma follow_advance (leg : Leg K V) (s t : K) (turns : List (Turn K V)) :
    ((leg.advance s).follow turns).advance t = (leg.follow turns).advance t := by
  rcases turns with _ | ⟨turn, turns⟩
  · rw [follow_nil, follow_nil, advance, positionAt_advance]
    rfl
  · have hturn : (leg.advance s).turn turn = leg.turn turn := by
      rw [Leg.turn, positionAt_advance]
      rfl
    simp only [follow, List.foldl_cons, hturn]

/-- The time spent with each velocity, up to a time. -/
def stretches (since : K) (velocity : V) : List (Turn K V) → K → List (K × V)
  | [], t => [(t - since, velocity)]
  | turn :: turns, t => (turn.time - since, velocity) :: stretches turn.time turn.velocity turns t

lemma positionAt_follow (leg : Leg K V) (turns : List (Turn K V)) (t : K) :
    (leg.follow turns).positionAt t = leg.position +
      ((stretches leg.since leg.velocity turns t).map fun stretch =>
        stretch.1 • stretch.2).sum := by
  induction turns generalizing leg with
  | nil => simp [stretches, positionAt]
  | cons turn turns ih =>
    have hfollow : leg.follow (turn :: turns) = (leg.turn turn).follow turns := rfl
    rw [hfollow, ih, stretches, List.map_cons, List.sum_cons, ← add_assoc]
    rfl

end Leg

variable [LinearOrder K]

/-- The position at a time on the trajectory that starts with a leg and turns. -/
def positionAt (leg : Leg K V) (turns : List (Turn K V)) (t : K) : V :=
  (leg.follow (turns.takeWhile fun turn => turn.time ≤ t)).positionAt t

lemma positionAt_of_le {leg : Leg K V} {turns : List (Turn K V)} {t : K}
    (h : ∀ turn ∈ turns, turn.time ≤ t) :
    positionAt leg turns t = (leg.follow turns).positionAt t := by
  rw [positionAt, List.takeWhile_eq_self_iff.mpr (by simpa using h)]

lemma positionAt_concat (leg : Leg K V) (turns : List (Turn K V)) {turn : Turn K V} {t : K}
    (h : t ≤ turn.time) : positionAt leg (turns ++ [turn]) t = positionAt leg turns t := by
  rw [positionAt, positionAt, List.takeWhile_append]
  split_ifs with hall
  swap
  · rfl
  have hself := (List.takeWhile_prefix _).eq_of_length hall
  rw [hself]
  by_cases htime : turn.time ≤ t
  · -- it is taken at the time itself
    have hsingle : List.takeWhile (fun turn : Turn K V => turn.time ≤ t) [turn] = [turn] := by
      simp [htime]
    rw [hsingle, Leg.follow_concat, Leg.turn, le_antisymm h htime]
    simp [Leg.positionAt]
  · simp [htime]

lemma positionAt_append (leg : Leg K V) (turns : List (Turn K V)) {later : List (Turn K V)}
    {t : K} (h : ∀ turn ∈ later, t ≤ turn.time) :
    positionAt leg (turns ++ later) t = positionAt leg turns t := by
  induction later using List.reverseRecOn with
  | nil => rw [List.append_nil]
  | append_singleton later turn ih =>
    rw [← List.append_assoc, positionAt_concat leg _ (h turn (by simp))]
    exact ih fun turn' hturn => h turn' (by simp [hturn])

end Ns3Factory.Trajectory
