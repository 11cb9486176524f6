import Mathlib.Data.List.Basic

/-!
This module contains functions that work through their input in blocks of one size.
-/

namespace BlockHash

variable {σ : Type u} {α : Type v}

def blocks (size : Nat) (step : σ → List α → σ) (n : Nat) (s : σ) (input : List α) : σ :=
  match n with
  | 0 => s
  | n + 1 => blocks size step n (step s (input.take size)) (input.drop size)

def absorb (size : Nat) (step : σ → List α → σ) (s : σ) (input : List α) : σ :=
  blocks size step (input.length / size) s input

variable {size : Nat} {step : σ → List α → σ}

theorem blocks_append {n : Nat} {xs : List α} (h : xs.length = n * size) (m : Nat) (s : σ) (ys : List α)
    : blocks size step (n + m) s (xs ++ ys) = blocks size step m (blocks size step n s xs) ys := by
  induction n generalizing s xs with
  | zero =>
    have hnil : xs = [] := by
      apply List.eq_nil_of_length_eq_zero
      omega
    rw [hnil, List.nil_append, Nat.zero_add, blocks]
  | succ n ih =>
    have hle : size ≤ xs.length := by
      rw [h, Nat.succ_mul]
      omega
    have hdrop : (xs.drop size).length = n * size := by
      rw [List.length_drop, h, Nat.succ_mul]
      omega
    rw [Nat.succ_add, blocks, blocks, List.take_append_of_le_length hle, List.drop_append_of_le_length hle, ih hdrop]

theorem absorb_append (hsize : 0 < size) {xs : List α} (h : size ∣ xs.length) (s : σ) (ys : List α)
    : absorb size step s (xs ++ ys) = absorb size step (absorb size step s xs) ys := by
  rcases h with ⟨n, hlength⟩
  unfold absorb
  rw [List.length_append, hlength, Nat.mul_add_div hsize, Nat.mul_div_cancel_left n hsize,
    blocks_append (hlength.trans (Nat.mul_comm size n))]

theorem absorb_nil (s : σ) : absorb size step s [] = s := by
  unfold absorb
  rw [List.length_nil, Nat.zero_div, blocks]

end BlockHash
