import TsIngress.Lib.ExceptFold
import Mathlib.Logic.Function.Basic

/-!
This module contains the actions of several parties on one state. Where no party sees what the others do, a run
of them all shows each party what a run of its own actions alone would.
-/

namespace Unwinding

variable {ε σ : Type u} {ι α : Type v} [DecidableEq ι]

/--
Party `i` cannot tell the states of `R i` apart. Its own actions keep that up on both sides, and an action of
another party does so on one side alone.
-/
structure Separated (act : σ → ι × α → Except ε σ) (allowed : ι × α → Prop) (R : ι → σ → σ → Prop) : Prop where
  own : ∀ i a s t, allowed (i, a) → R i s t → Except.Related (R i) (act s (i, a)) (act t (i, a))
  other : ∀ i j a s s' t, allowed (j, a) → j ≠ i → R i s t → act s (j, a) = .ok s' → R i s' t

def ownActions (i : ι) (l : List (ι × α)) : List (ι × α) :=
  l.filter fun e => e.1 = i

theorem ownActions_cons_self (i : ι) (a : α) (l : List (ι × α))
    : ownActions i ((i, a) :: l) = (i, a) :: ownActions i l := by
  unfold ownActions
  rw [List.filter_cons_of_pos (by simp)]

theorem ownActions_cons_of_ne {i j : ι} (h : j ≠ i) (a : α) (l : List (ι × α))
    : ownActions i ((j, a) :: l) = ownActions i l := by
  unfold ownActions
  rw [List.filter_cons_of_neg (by simpa using h)]

variable {act : σ → ι × α → Except ε σ} {allowed : ι × α → Prop} {R : ι → σ → σ → Prop}

theorem Separated.alone (h : Separated act allowed R) {i : ι} {l : List (ι × α)} (hl : ∀ e ∈ l, allowed e)
    {s s' t : σ} (hst : R i s t) (hrun : l.foldlM act s = .ok s')
    : ∃ t', (ownActions i l).foldlM act t = .ok t' ∧ R i s' t' := by
  induction l generalizing s t with
  | nil =>
    cases hrun
    exact ⟨t, rfl, hst⟩
  | cons e l ih =>
    rcases e with ⟨j, a⟩
    rw [List.forall_mem_cons] at hl
    rw [List.foldlM_cons, Except.bind_eq_ok_iff] at hrun
    rcases hrun with ⟨s1, hs1, hrun⟩
    by_cases hji : j = i
    . subst hji
      rcases h.own j a s t hl.1 hst with ⟨s2, t1, hs2, ht1, hst1⟩ | ⟨e, he, -⟩
      . rw [hs1, Except.ok.injEq] at hs2
        subst hs2
        rcases ih hl.2 hst1 hrun with ⟨t', ht', hst'⟩
        refine ⟨t', ?_, hst'⟩
        rw [ownActions_cons_self, List.foldlM_cons, ht1, Except.ok_bind, ht']
      . rw [hs1] at he
        cases he
    . rw [ownActions_cons_of_ne hji]
      exact ih hl.2 (h.other i j a s s1 t hl.1 hji hst hs1) hrun

theorem Separated.returns_iff (h : Separated act allowed R) {l : List (ι × α)} (hl : ∀ e ∈ l, allowed e) {s : σ}
    {t : ι → σ} (hst : ∀ i, R i s (t i))
    : Except.Returns (l.foldlM act s) ↔ ∀ i, Except.Returns ((ownActions i l).foldlM act (t i)) := by
  constructor
  . rintro ⟨s', hs'⟩ i
    rcases h.alone hl (hst i) hs' with ⟨t', ht', -⟩
    exact ⟨t', ht'⟩
  . induction l generalizing s t with
    | nil =>
      intro _
      exact .ok s
    | cons e l ih =>
      rcases e with ⟨j, a⟩
      rw [List.forall_mem_cons] at hl
      intro halone
      have hj := halone j
      rw [ownActions_cons_self, List.foldlM_cons, Except.returns_bind_iff] at hj
      rcases hj with ⟨t1, ht1, hj⟩
      rcases h.own j a s (t j) hl.1 (hst j) with ⟨s1, t2, hs1, ht2, hst1⟩ | ⟨e, -, he⟩
      . rw [ht1, Except.ok.injEq] at ht2
        subst ht2
        rw [List.foldlM_cons, hs1, Except.ok_bind]
        -- the party that has acted goes on from its new state
        apply ih (t := Function.update t j t1) hl.2
        . intro i
          by_cases hij : i = j
          . subst hij
            rw [Function.update_self]
            exact hst1
          . rw [Function.update_of_ne hij]
            exact h.other i j a s s1 (t i) hl.1 (Ne.symm hij) (hst i) hs1
        . intro i
          by_cases hij : i = j
          . subst hij
            rw [Function.update_self]
            exact hj
          . rw [Function.update_of_ne hij, ← ownActions_cons_of_ne (Ne.symm hij) a]
            exact halone i
      . rw [ht1] at he
        cases he

end Unwinding
