import Mathlib.Order.Interval.Finset.Nat

/-!
This module contains the choice of one of `k` places by a number that is at most `bound`: the numbers are
dealt out in runs of equal length, and the last place gets what is left.
-/

namespace RangePick

def width (bound k : Nat) : Nat :=
  bound / k + 1

def index (bound k n : Nat) : Nat :=
  n / width bound k

variable {bound k n i : Nat}

theorem width_pos : 0 < width bound k := by
  simp [width]

theorem index_eq_iff : index bound k n = i ↔ i * width bound k ≤ n ∧ n < (i + 1) * width bound k := by
  have hpos : 0 < width bound k := width_pos
  unfold index
  rw [Nat.div_eq_iff hpos]
  rw [Nat.add_mul, Nat.one_mul]
  omega

theorem index_lt (hk : 0 < k) (hn : n ≤ bound) : index bound k n < k := by
  unfold index
  rw [Nat.div_lt_iff_lt_mul width_pos]
  have hdiv := Nat.lt_mul_div_succ bound hk
  unfold width
  omega

theorem run_le (hsq : k * (k - 1) ≤ bound) (hi : i < k) : i * width bound k ≤ bound := by
  have hk : 0 < k := by omega
  have hq : k - 1 ≤ bound / k := by
    rw [Nat.le_div_iff_mul_le hk, Nat.mul_comm]
    exact hsq
  have hmod := Nat.mul_div_le bound k
  calc i * width bound k
    _ ≤ (k - 1) * width bound k := Nat.mul_le_mul_right _ (by omega)
    _ = (k - 1) * (bound / k) + (k - 1) := by rw [width, Nat.mul_add, Nat.mul_one]
    _ ≤ (k - 1) * (bound / k) + bound / k := by omega
    _ = k * (bound / k) := by rw [← Nat.succ_mul, Nat.succ_eq_add_one, Nat.sub_add_cancel hk]
    _ ≤ bound := hmod

theorem exists_index_eq (hsq : k * (k - 1) ≤ bound) (hi : i < k) : ∃ n ≤ bound, index bound k n = i := by
  refine ⟨i * width bound k, run_le hsq hi, ?_⟩
  unfold index
  rw [Nat.mul_div_cancel _ width_pos]

theorem card_index_eq (hsq : k * (k - 1) ≤ bound) (hi : i + 1 < k)
    : ((Finset.range (bound + 1)).filter fun n => index bound k n = i).card = width bound k := by
  have hrun : (Finset.range (bound + 1)).filter (fun n => index bound k n = i)
      = Finset.Ico (i * width bound k) ((i + 1) * width bound k) := by
    have hle := run_le hsq hi
    ext n
    rw [Finset.mem_filter, Finset.mem_range, Finset.mem_Ico, index_eq_iff]
    omega
  rw [hrun, Nat.card_Ico, Nat.add_mul, Nat.one_mul]
  omega

end RangePick
