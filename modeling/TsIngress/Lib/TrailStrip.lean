import Mathlib.Data.List.DropRight
import Mathlib.Logic.Relation

/-!
This module contains the loop that takes elements off the end of a terminated text by writing the terminator
over them, as long as the last element is one of a set to which the terminator itself belongs. The length is
taken again before every test, so that the loop has no measure once nothing is left: the element it tests and
writes over is then the one in front of the text.
-/

namespace TrailStrip

-- The memory that the loop sees: the element in front of the text, and the text up to its terminator.
structure Mem (α : Type u) where
  front : α
  text : List α

variable {p : α → Bool} {z : α}

def Mem.tested (m : Mem α) : α :=
  m.text.getLastD m.front

def turn (p : α → Bool) (z : α) (m : Mem α) : Option (Mem α) :=
  if p m.tested then
    if m.text = [] then
      some ⟨z, []⟩
    else
      some ⟨m.front, m.text.dropLast⟩
  else
    none

def Visits (p : α → Bool) (z : α) : Mem α → Mem α → Prop :=
  Relation.ReflTransGen fun m m' => turn p z m = some m'

def Ends (p : α → Bool) (z : α) (m : Mem α) : Prop :=
  ∃ m', Visits p z m m' ∧ turn p z m' = none

-- The loop ends, and no test on the way looks in front of the text.
structure Safe (p : α → Bool) (z : α) (m : Mem α) : Prop where
  ends : Ends p z m
  inside : ∀ m', Visits p z m m' → m'.text ≠ []

theorem turn_concat_of_true (front : α) (xs : List α) {x : α} (h : p x = true)
    : turn p z ⟨front, xs ++ [x]⟩ = some ⟨front, xs⟩ := by
  have htested : Mem.tested ⟨front, xs ++ [x]⟩ = x := by
    simp [Mem.tested]
  unfold turn
  rw [htested, if_pos h, if_neg (by simp)]
  simp

theorem turn_concat_of_false (front : α) (xs : List α) {x : α} (h : p x = false)
    : turn p z ⟨front, xs ++ [x]⟩ = none := by
  have htested : Mem.tested ⟨front, xs ++ [x]⟩ = x := by
    simp [Mem.tested]
  unfold turn
  rw [htested, if_neg (by simp [h])]

theorem visits_iff_of_turn {m m' : Mem α} (h : turn p z m = some m') (m'' : Mem α)
    : Visits p z m m'' ↔ m'' = m ∨ Visits p z m' m'' := by
  unfold Visits
  constructor
  . intro hvisits
    rcases Relation.ReflTransGen.cases_head hvisits with heq | ⟨_, hstep, hrest⟩
    . exact Or.inl heq.symm
    . rw [h] at hstep
      cases hstep
      exact Or.inr hrest
  . rintro (rfl | hrest)
    . exact Relation.ReflTransGen.refl
    . exact Relation.ReflTransGen.head h hrest

theorem visits_iff_of_stop {m : Mem α} (h : turn p z m = none) (m' : Mem α)
    : Visits p z m m' ↔ m' = m := by
  unfold Visits
  constructor
  . intro hvisits
    rcases Relation.ReflTransGen.cases_head hvisits with heq | ⟨_, hstep, _⟩
    . exact heq.symm
    . rw [h] at hstep
      cases hstep
  . rintro rfl
    exact Relation.ReflTransGen.refl

theorem not_safe_nil (front : α) : ¬ Safe p z ⟨front, []⟩ := by
  intro h
  exact h.inside _ Relation.ReflTransGen.refl rfl

theorem safe_concat_of_true (front : α) (xs : List α) {x : α} (h : p x = true)
    : Safe p z ⟨front, xs ++ [x]⟩ ↔ Safe p z ⟨front, xs⟩ := by
  have hvisits := visits_iff_of_turn (turn_concat_of_true (z := z) front xs h)
  constructor
  . intro hsafe
    constructor
    . rcases hsafe.ends with ⟨m', hm', hstop⟩
      rcases (hvisits m').mp hm' with rfl | hm'
      . rw [turn_concat_of_true front xs h] at hstop
        cases hstop
      . exact ⟨m', hm', hstop⟩
    . intro m' hm'
      exact hsafe.inside m' ((hvisits m').mpr (Or.inr hm'))
  . intro hsafe
    constructor
    . rcases hsafe.ends with ⟨m', hm', hstop⟩
      exact ⟨m', (hvisits m').mpr (Or.inr hm'), hstop⟩
    . intro m' hm'
      rcases (hvisits m').mp hm' with rfl | hm'
      . simp
      . exact hsafe.inside m' hm'

theorem safe_concat_of_false (front : α) (xs : List α) {x : α} (h : p x = false)
    : Safe p z ⟨front, xs ++ [x]⟩ := by
  have hstop := turn_concat_of_false (z := z) front xs h
  constructor
  . exact ⟨_, Relation.ReflTransGen.refl, hstop⟩
  . intro m' hm'
    rw [(visits_iff_of_stop hstop m').mp hm']
    simp

theorem safe_iff (front : α) (xs : List α)
    : Safe p z ⟨front, xs⟩ ↔ ∃ x ∈ xs, p x = false := by
  induction xs using List.reverseRecOn with
  | nil =>
    simp [not_safe_nil]
  | append_singleton xs x ih =>
    cases hx : p x with
    | true =>
      rw [safe_concat_of_true front xs hx, ih]
      simp [hx]
    | false =>
      simp [safe_concat_of_false front xs hx, hx]

end TrailStrip
