import Mathlib.Data.List.Basic

/-!
This module contains the segments of a stream that a separator ends, and what follows the last
separator. The stream may be given in pieces.
-/

namespace LineSplit

variable {α : Type u} [DecidableEq α] (sep : α)

def complete (l : List α) : List (List α) :=
  (l.splitOn sep).dropLast

def unfinished (l : List α) : List α :=
  (l.splitOn sep).getLastD []

theorem stream_induction {P : List α → Prop} (hlast : ∀ xs, sep ∉ xs → P xs)
    (hline : ∀ xs as, sep ∉ xs → P as → P (xs ++ sep :: as)) (l : List α)
    : P l := by
  induction hn : l.length using Nat.strongRecOn generalizing l with
  | ind n ih =>
    by_cases hmem : sep ∈ l
    . rcases List.eq_append_cons_of_mem hmem with ⟨xs, as, rfl, hxs⟩
      apply hline xs as hxs
      apply ih as.length
      . rw [← hn]
        simp only [List.length_append, List.length_cons]
        omega
      . rfl
    . apply hlast
      exact hmem

variable {sep}

theorem complete_of_notMem {xs : List α} (h : sep ∉ xs) : complete sep xs = [] := by
  unfold complete
  rw [List.splitOn_eq_singleton h]
  rfl

theorem unfinished_of_notMem {xs : List α} (h : sep ∉ xs) : unfinished sep xs = xs := by
  unfold unfinished
  rw [List.splitOn_eq_singleton h]
  rfl

theorem splitOn_cons {xs : List α} (h : sep ∉ xs) (as : List α)
    : (xs ++ sep :: as).splitOn sep = xs :: as.splitOn sep := by
  rw [List.splitOn_append_cons_of_beq _ _ (by simp)]
  rw [List.splitOn_eq_singleton h]
  rfl

theorem complete_cons {xs : List α} (h : sep ∉ xs) (as : List α)
    : complete sep (xs ++ sep :: as) = xs :: complete sep as := by
  unfold complete
  rw [splitOn_cons h]
  rw [List.dropLast_cons_of_ne_nil]
  apply List.splitOn_ne_nil

theorem unfinished_cons {xs : List α} (h : sep ∉ xs) (as : List α)
    : unfinished sep (xs ++ sep :: as) = unfinished sep as := by
  unfold unfinished
  rw [splitOn_cons h]
  cases hsplit : as.splitOn sep with
  | nil => exact absurd hsplit (List.splitOn_ne_nil _ _)
  | cons y ys => simp

theorem notMem_unfinished (l : List α) : sep ∉ unfinished sep l := by
  induction l using stream_induction sep with
  | hlast xs h =>
    rw [unfinished_of_notMem h]
    exact h
  | hline xs as h ih =>
    rw [unfinished_cons h]
    exact ih

theorem complete_append (a b : List α)
    : complete sep (a ++ b) = complete sep a ++ complete sep (unfinished sep a ++ b) := by
  induction a using stream_induction sep with
  | hlast xs h =>
    rw [complete_of_notMem h]
    rw [unfinished_of_notMem h]
    rfl
  | hline xs as h ih =>
    rw [List.append_assoc]
    rw [List.cons_append]
    rw [complete_cons h]
    rw [complete_cons h]
    rw [unfinished_cons h]
    rw [ih]
    rfl

theorem unfinished_append (a b : List α)
    : unfinished sep (a ++ b) = unfinished sep (unfinished sep a ++ b) := by
  induction a using stream_induction sep with
  | hlast xs h => rw [unfinished_of_notMem h]
  | hline xs as h ih =>
    rw [List.append_assoc]
    rw [List.cons_append]
    rw [unfinished_cons h]
    rw [unfinished_cons h]
    exact ih

end LineSplit
