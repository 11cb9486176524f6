import Mathlib.Data.List.Basic

/-!
This module contains extended regular expressions with anchors: when an expression matches between two
positions of a subject, and the search for the longest of the leftmost matches.
-/

namespace Ere

inductive Regex (α : Type u) where
  | empty
  | symbol (p : α → Bool)
  | bol
  | eol
  | seq (r s : Regex α)
  | alt (r s : Regex α)
  | star (r : Regex α)

inductive Matches (w : List α) : Regex α → Nat → Nat → Prop where
  | empty {i : Nat} (h : i ≤ w.length) : Matches w .empty i i
  | symbol {p : α → Bool} {i : Nat} {a : α} (ha : w[i]? = some a) (hp : p a) : Matches w (.symbol p) i (i + 1)
  | bol : Matches w .bol 0 0
  | eol : Matches w .eol w.length w.length
  | seq {r s : Regex α} {i j k : Nat} (hr : Matches w r i j) (hs : Matches w s j k) : Matches w (.seq r s) i k
  | left {r s : Regex α} {i j : Nat} (hr : Matches w r i j) : Matches w (.alt r s) i j
  | right {r s : Regex α} {i j : Nat} (hs : Matches w s i j) : Matches w (.alt r s) i j
  | done {r : Regex α} {i : Nat} (h : i ≤ w.length) : Matches w (.star r) i i
  | more {r : Regex α} {i j k : Nat} (hr : Matches w r i j) (hs : Matches w (.star r) j k)
    : Matches w (.star r) i k

variable {w : List α} {r s : Regex α} {i j k : Nat}

namespace Matches

theorem bounds (h : Matches w r i j) : i ≤ j ∧ j ≤ w.length := by
  induction h with
  | empty h => omega
  | symbol ha hp =>
    have := (List.getElem?_eq_some_iff.mp ha).1
    omega
  | bol => omega
  | eol => omega
  | seq hr hs ihr ihs => omega
  | left hr ih => exact ih
  | right hs ih => exact ih
  | done h => omega
  | more hr hs ihr ihs => omega

theorem alt_iff : Matches w (.alt r s) i j ↔ Matches w r i j ∨ Matches w s i j := by
  constructor
  . intro h
    cases h with
    | left hr => exact .inl hr
    | right hs => exact .inr hs
  . rintro (hr | hs)
    . exact .left hr
    . exact .right hs

theorem bol_seq_iff : Matches w (.seq .bol r) i j ↔ i = 0 ∧ Matches w r 0 j := by
  constructor
  . intro h
    cases h with
    | seq hbol hr =>
      cases hbol
      exact ⟨rfl, hr⟩
  . rintro ⟨rfl, hr⟩
    exact .seq .bol hr

theorem take (h : Matches w r i j) (hjk : j ≤ k) : Matches (w.take k) r i j := by
  induction h with
  | empty h =>
    apply Matches.empty
    rw [List.length_take]
    omega
  | symbol ha hp =>
    apply Matches.symbol _ hp
    rw [List.getElem?_take, if_pos (by omega)]
    exact ha
  | bol => exact .bol
  | eol =>
    rw [List.take_of_length_le hjk]
    exact .eol
  | seq hr hs ihr ihs =>
    have := hs.bounds
    exact .seq (ihr (by omega)) (ihs hjk)
  | left hr ih => exact .left (ih hjk)
  | right hs ih => exact .right (ih hjk)
  | done h =>
    apply Matches.done
    rw [List.length_take]
    omega
  | more hr hs ihr ihs =>
    have := hs.bounds
    exact .more (ihr (by omega)) (ihs hjk)

end Matches

def Accepts (r : Regex α) (w : List α) : Prop :=
  Matches w r 0 w.length

theorem Matches.accepts_take (h : Matches w r 0 j) : Accepts r (w.take j) := by
  unfold Accepts
  rw [List.length_take, Nat.min_eq_left h.bounds.2]
  exact h.take (Nat.le_refl _)

def iterate (f : Nat → List Nat) (fuel : Nat) (i : Nat) : List Nat :=
  match fuel with
  | 0 => [i]
  | fuel + 1 => i :: ((f i).filter (i < ·)).flatMap (iterate f fuel)

def ends (w : List α) (r : Regex α) (i : Nat) : List Nat :=
  match r with
  | .empty => if i ≤ w.length then [i] else []
  | .symbol p =>
    match w[i]? with
    | none => []
    | some a => if p a then [i + 1] else []
  | .bol => if i = 0 then [0] else []
  | .eol => if i = w.length then [i] else []
  | .seq r s => (ends w r i).flatMap (ends w s)
  | .alt r s => ends w r i ++ ends w s i
  | .star r => if i ≤ w.length then iterate (ends w r) (w.length - i) i else []

theorem matches_of_mem_iterate (hr : ∀ i j, j ∈ ends w r i → Matches w r i j) {fuel : Nat}
    (hi : i ≤ w.length) (h : j ∈ iterate (ends w r) fuel i)
    : Matches w (.star r) i j := by
  induction fuel generalizing i with
  | zero =>
    rw [iterate, List.mem_singleton] at h
    rw [h]
    exact .done hi
  | succ fuel ih =>
    rw [iterate, List.mem_cons] at h
    rcases h with h | h
    . rw [h]
      exact .done hi
    . simp only [List.mem_flatMap, List.mem_filter] at h
      rcases h with ⟨k, ⟨hk, -⟩, h⟩
      have hround := hr i k hk
      exact .more hround (ih hround.bounds.2 h)

theorem mem_iterate_of_matches (hr : ∀ i j, Matches w r i j → j ∈ ends w r i) {fuel : Nat}
    (hfuel : w.length ≤ i + fuel) (h : Matches w (.star r) i j)
    : j ∈ iterate (ends w r) fuel i := by
  generalize hq : Regex.star r = q at h
  induction h generalizing fuel with
  | done h => cases fuel <;> simp [iterate]
  | @more q i k j hround hrest _ ih =>
    cases hq
    have hround' := hround.bounds
    by_cases hik : i = k
    . -- a round that goes nowhere
      subst hik
      exact ih hfuel rfl
    . cases fuel with
      | zero => omega
      | succ fuel =>
        rw [iterate, List.mem_cons, List.mem_flatMap]
        right
        refine ⟨k, ?_, ih (by omega) rfl⟩
        rw [List.mem_filter]
        refine ⟨hr i k hround, ?_⟩
        rw [decide_eq_true_eq]
        omega
  | _ => cases hq

theorem mem_ends_iff (w : List α) (r : Regex α) (i j : Nat) : j ∈ ends w r i ↔ Matches w r i j := by
  induction r generalizing i j with
  | empty =>
    unfold ends
    constructor
    . intro h
      split at h
      . next hi =>
        rw [List.mem_singleton.mp h]
        exact .empty hi
      . cases h
    . intro h
      cases h with
      | empty hi => simp [hi]
  | symbol p =>
    unfold ends
    constructor
    . intro h
      split at h
      . cases h
      . next a ha =>
        split at h
        . next hp =>
          rw [List.mem_singleton.mp h]
          exact .symbol ha hp
        . cases h
    . intro h
      cases h with
      | symbol ha hp => simp [ha, hp]
  | bol =>
    unfold ends
    constructor
    . intro h
      split at h
      . next hi =>
        rw [List.mem_singleton.mp h, hi]
        exact .bol
      . cases h
    . intro h
      cases h with
      | bol => simp
  | eol =>
    unfold ends
    constructor
    . intro h
      split at h
      . next hi =>
        rw [List.mem_singleton.mp h, hi]
        exact .eol
      . cases h
    . intro h
      cases h with
      | eol => simp
  | seq r s ihr ihs =>
    unfold ends
    rw [List.mem_flatMap]
    constructor
    . rintro ⟨k, hk, hj⟩
      exact .seq ((ihr i k).mp hk) ((ihs k j).mp hj)
    . intro h
      cases h with
      | seq hr hs => exact ⟨_, (ihr _ _).mpr hr, (ihs _ _).mpr hs⟩
  | alt r s ihr ihs =>
    unfold ends
    rw [List.mem_append, ihr, ihs, Matches.alt_iff]
  | star r ih =>
    unfold ends
    constructor
    . intro h
      split at h
      . next hi => exact matches_of_mem_iterate (fun i j => (ih i j).mp) hi h
      . cases h
    . intro h
      have := h.bounds
      rw [if_pos (by omega)]
      exact mem_iterate_of_matches (fun i j => (ih i j).mpr) (by omega) h

-- No match begins before `i`, and none that begins there is longer.
structure LeftmostLongest (w : List α) (r : Regex α) (i j : Nat) : Prop where
  isMatch : Matches w r i j
  leftmost : ∀ i' j', Matches w r i' j' → i ≤ i'
  longest : ∀ j', Matches w r i j' → j' ≤ j

theorem LeftmostLongest.unique {i' j' : Nat} (h : LeftmostLongest w r i j) (h' : LeftmostLongest w r i' j')
    : i' = i ∧ j' = j := by
  have hi := h.leftmost i' j' h'.isMatch
  have hi' := h'.leftmost i j h.isMatch
  have heq : i' = i := by omega
  subst heq
  have hj := h.longest j' h'.isMatch
  have hj' := h'.longest j h.isMatch
  omega

namespace search

def go (w : List α) (r : Regex α) (n i : Nat) : Option (Nat × Nat) :=
  match n with
  | 0 => none
  | n + 1 =>
    match (ends w r i).max? with
    | some j => some (i, j)
    | none => go w r n (i + 1)

theorem go_eq_some {n : Nat} {m : Nat × Nat} (h : go w r n i = some m)
    : Matches w r m.1 m.2
        ∧
      (∀ i' j', i ≤ i' → Matches w r i' j' → m.1 ≤ i')
        ∧
      ∀ j', Matches w r m.1 j' → j' ≤ m.2 := by
  induction n generalizing i with
  | zero => cases h
  | succ n ih =>
    unfold go at h
    split at h
    . next j hmax =>
      cases h
      rw [List.max?_eq_some_iff] at hmax
      simp only [mem_ends_iff] at hmax
      refine ⟨hmax.1, ?_, hmax.2⟩
      intro i' j' hi' _
      exact hi'
    . next hmax =>
      rw [List.max?_eq_none_iff, List.eq_nil_iff_forall_not_mem] at hmax
      simp only [mem_ends_iff] at hmax
      rcases ih h with ⟨hmatch, hleft, hlong⟩
      refine ⟨hmatch, ?_, hlong⟩
      intro i' j' hi' h'
      by_cases heq : i' = i
      . subst heq
        exact absurd h' (hmax j')
      . exact hleft i' j' (by omega) h'

theorem go_ne_none {n : Nat} (h : Matches w r i j) (hk : k ≤ i) (hn : i < k + n) : go w r n k ≠ none := by
  induction n generalizing k with
  | zero => omega
  | succ n ih =>
    unfold go
    split
    . simp
    . next hmax =>
      rw [List.max?_eq_none_iff, List.eq_nil_iff_forall_not_mem] at hmax
      simp only [mem_ends_iff] at hmax
      by_cases heq : k = i
      . subst heq
        exact absurd h (hmax j)
      . apply ih <;> omega

end search

def search (w : List α) (r : Regex α) : Option (Nat × Nat) :=
  search.go w r (w.length + 1) 0

theorem search_eq_some_iff (w : List α) (r : Regex α) (m : Nat × Nat)
    : search w r = some m ↔ LeftmostLongest w r m.1 m.2 := by
  have hfound : ∀ m', search w r = some m' → LeftmostLongest w r m'.1 m'.2 := by
    intro m' h
    rcases search.go_eq_some h with ⟨hmatch, hleft, hlong⟩
    exact ⟨hmatch, fun i' j' => hleft i' j' (Nat.zero_le _), hlong⟩
  constructor
  . exact hfound m
  . intro h
    have hbounds := h.isMatch.bounds
    cases hsearch : search w r with
    | none => exact absurd hsearch (search.go_ne_none h.isMatch (by omega) (by omega))
    | some m' =>
      have heq := h.unique (hfound m' hsearch)
      rw [Option.some.injEq]
      exact Prod.ext heq.1 heq.2

end Ere
