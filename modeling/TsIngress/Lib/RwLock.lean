import Mathlib.Logic.Function.Basic

/-!
This module contains locks that many threads may hold for reading or one for writing, and the rule that threads
which take their locks in a fixed order do not wait for each other forever.
-/

inductive LockMode where
  | read
  | write
  deriving DecidableEq, Repr

-- A lock knows how each thread holds it. A thread that holds it for writing is alone with it.
structure RwLock (τ : Type u) where
  mode : τ → Option LockMode
  exclusive : ∀ t u, mode t = some .write → mode u ≠ none → u = t

namespace RwLock

variable {τ : Type u}

def new : RwLock τ where
  mode := fun _ => none
  exclusive := by
    intro t u h
    cases h

def Grants (l : RwLock τ) : LockMode → Prop
  | .read => ∀ u, l.mode u ≠ some .write
  | .write => ∀ u, l.mode u = none

theorem exists_holder {l : RwLock τ} {m : LockMode} (h : ¬ l.Grants m) : ∃ u, l.mode u ≠ none := by
  by_contra hnone
  rw [not_exists] at hnone
  apply h
  cases m with
  | read =>
    intro u hu
    apply hnone u
    rw [hu]
    nofun
  | write =>
    intro u
    exact not_not.mp (hnone u)

variable [DecidableEq τ]

def lock (l : RwLock τ) (m : LockMode) (t : τ) (h : l.Grants m) : RwLock τ where
  mode := Function.update l.mode t (some m)
  exclusive := by
    intro u v hu hv
    by_cases hut : u = t
    . subst hut
      by_contra hvu
      rw [Function.update_self, Option.some.injEq] at hu
      subst hu
      rw [Function.update_of_ne hvu] at hv
      exact hv (h v)
    . rw [Function.update_of_ne hut] at hu
      cases m with
      | read => exact absurd hu (h u)
      | write =>
        rw [h u] at hu
        cases hu

def unlock (l : RwLock τ) (t : τ) : RwLock τ where
  mode := Function.update l.mode t none
  exclusive := by
    intro u v hu hv
    by_cases hut : u = t
    . subst hut
      rw [Function.update_self] at hu
      cases hu
    . by_cases hvt : v = t
      . subst hvt
        rw [Function.update_self] at hv
        exact absurd rfl hv
      . rw [Function.update_of_ne hut] at hu
        rw [Function.update_of_ne hvt] at hv
        exact l.exclusive u v hu hv

@[simp]
theorem lock_mode (l : RwLock τ) (m : LockMode) (t : τ) (h : l.Grants m)
    : (l.lock m t h).mode = Function.update l.mode t (some m) := by
  rfl

@[simp]
theorem unlock_mode (l : RwLock τ) (t : τ) : (l.unlock t).mode = Function.update l.mode t none := by
  rfl

end RwLock

/--
Where every thread asks only for locks that stand behind those it holds, a thread that is at work can go on, or
another that is at work can.
-/
theorem exists_granted {τ : Type u} {κ : Type v} {rank : κ → Nat} {bound : Nat} (hbound : ∀ k, rank k ≤ bound)
    {locks : κ → RwLock τ} {wants : τ → Option (κ × LockMode)} {busy : τ → Prop}
    (horder : ∀ t k m, wants t = some (k, m) → ∀ k', (locks k').mode t ≠ none → rank k' < rank k)
    (hholder : ∀ t k, (locks k).mode t ≠ none → busy t) {t : τ} (ht : busy t)
    : ∃ u, busy u ∧ ∀ k m, wants u = some (k, m) → (locks k).Grants m := by
  -- a thread that must wait points to one that holds the lock and so wants one further behind
  have hchain : ∀ n t, busy t → (∀ k m, wants t = some (k, m) → bound - rank k < n) →
      ∃ u, busy u ∧ ∀ k m, wants u = some (k, m) → (locks k).Grants m := by
    intro n
    induction n with
    | zero =>
      intro t ht hn
      refine ⟨t, ht, ?_⟩
      intro k m hwants
      exact absurd (hn k m hwants) (Nat.not_lt_zero _)
    | succ n ih =>
      intro t ht hn
      by_cases hgo : ∀ k m, wants t = some (k, m) → (locks k).Grants m
      . exact ⟨t, ht, hgo⟩
      . simp only [not_forall] at hgo
        rcases hgo with ⟨k, m, hwants, hwait⟩
        rcases RwLock.exists_holder hwait with ⟨u, hu⟩
        apply ih u (hholder u k hu)
        intro k' m' hwants'
        have hlt := horder u k' m' hwants' k hu
        have hle := hbound k'
        have hk := hn k m hwants
        omega
  apply hchain (bound + 1) t ht
  intro k m _
  omega
