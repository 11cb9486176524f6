import Mathlib.Data.List.Basic
import Mathlib.Data.List.Infix
import Mathlib.Data.List.TakeWhile

/-!
This module contains the fields of a text, which are what `splitOnP` finds between the separators.
-/

namespace Fields

variable {p q : α → Bool}

theorem text_induction (p : α → Bool) {P : List α → Prop} (hfield : ∀ xs, (∀ x ∈ xs, p x = false) → P xs)
    (hsep : ∀ xs sep as, (∀ x ∈ xs, p x = false) → p sep = true → P as → P (xs ++ sep :: as)) (l : List α)
    : P l := by
  induction hn : l.length using Nat.strongRecOn generalizing l with
  | ind n ih =>
    by_cases hnone : ∀ x ∈ l, p x = false
    . exact hfield l hnone
    . have hdrop : l.dropWhile (fun x => !p x) ≠ [] := by
        intro hnil
        apply hnone
        intro x hx
        have := List.dropWhile_eq_nil_iff.mp hnil x hx
        simpa using this
      rcases List.exists_cons_of_ne_nil hdrop with ⟨sep, as, hcons⟩
      have hl : l = l.takeWhile (fun x => !p x) ++ sep :: as := by
        rw [← hcons, List.takeWhile_append_dropWhile]
      have htake : ∀ x ∈ l.takeWhile (fun x => !p x), p x = false := by
        intro x hx
        simpa using List.mem_takeWhile_imp hx
      have hp : p sep = true := by
        have hhead := List.head?_dropWhile_not (fun x => !p x) l
        rw [hcons] at hhead
        simpa using hhead
      rw [hl]
      apply hsep _ sep as htake hp
      apply ih as.length
      . rw [← hn, hl, List.length_append, List.length_cons]
        omega
      . rfl

theorem eq_false_of_mem {s t : List α} (h : t ∈ s.splitOnP p) : ∀ a ∈ t, p a = false := by
  induction s using text_induction p with
  | hfield xs hxs =>
    rw [List.splitOnP_eq_singleton hxs, List.mem_singleton] at h
    rw [h]
    exact hxs
  | hsep xs sep as hxs hsep ih =>
    rw [List.splitOnP_append_cons_of_forall_mem hxs sep hsep, List.mem_cons] at h
    rcases h with h | h
    . rw [h]
      exact hxs
    . exact ih h

theorem mem_of_mem_field {s t : List α} {a : α} (h : t ∈ s.splitOnP p) (ha : a ∈ t) : a ∈ s := by
  induction s using text_induction p with
  | hfield xs hxs =>
    rw [List.splitOnP_eq_singleton hxs, List.mem_singleton] at h
    rw [← h]
    exact ha
  | hsep xs sep as hxs hsep ih =>
    rw [List.splitOnP_append_cons_of_forall_mem hxs sep hsep, List.mem_cons] at h
    rw [List.mem_append, List.mem_cons]
    rcases h with h | h
    . rw [← h]
      exact .inl ha
    . exact .inr (.inr (ih h))

theorem exists_infix {w : List α} (hw : ∀ a ∈ w, p a = false) (before after : List α)
    : ∃ t ∈ (before ++ w ++ after).splitOnP p, w <:+: t := by
  induction before using text_induction p with
  | hfield xs hxs =>
    have hhead : ∀ a ∈ xs ++ w, p a = false := by
      intro a ha
      rcases List.mem_append.mp ha with ha | ha
      . exact hxs a ha
      . exact hw a ha
    induction after using text_induction p with
    | hfield ys hys =>
      refine ⟨xs ++ w ++ ys, ?_, ⟨xs, ys, rfl⟩⟩
      rw [List.splitOnP_eq_singleton, List.mem_singleton]
      intro a ha
      rcases List.mem_append.mp ha with ha | ha
      . exact hhead a ha
      . exact hys a ha
    | hsep ys sep as hys hsep _ =>
      refine ⟨xs ++ w ++ ys, ?_, ⟨xs, ys, rfl⟩⟩
      rw [← List.append_assoc, List.splitOnP_append_cons_of_forall_mem _ sep hsep]
      . apply List.mem_cons_self
      . intro a ha
        rcases List.mem_append.mp ha with ha | ha
        . exact hhead a ha
        . exact hys a ha
  | hsep xs sep as hxs hsep ih =>
    rcases ih with ⟨t, ht, hpart⟩
    refine ⟨t, ?_, hpart⟩
    rw [List.append_assoc, List.append_assoc, List.cons_append,
      List.splitOnP_append_cons_of_forall_mem hxs sep hsep, ← List.append_assoc]
    exact List.mem_cons_of_mem _ ht

theorem exists_field {s : List α} {a : α} (ha : a ∈ s) (hp : p a = false) : ∃ t ∈ s.splitOnP p, a ∈ t := by
  rcases List.append_of_mem ha with ⟨before, after, rfl⟩
  have hw : ∀ b ∈ [a], p b = false := by
    simpa using hp
  rcases exists_infix hw before after with ⟨t, ht, hpart⟩
  rw [List.append_assoc] at ht
  exact ⟨t, ht, hpart.subset (List.mem_singleton_self a)⟩

theorem mem_of_imp (hpq : ∀ a, p a = true → q a = true) {s t : List α} (h : t ∈ s.splitOnP p)
    (ht : ∀ a ∈ t, q a = false)
    : t ∈ s.splitOnP q := by
  induction s using text_induction p with
  | hfield xs hxs =>
    rw [List.splitOnP_eq_singleton hxs, List.mem_singleton] at h
    rw [List.splitOnP_eq_singleton, List.mem_singleton]
    . exact h
    . rw [← h]
      exact ht
  | hsep xs sep as hxs hsep ih =>
    rw [List.splitOnP_append_cons_of_forall_mem hxs sep hsep, List.mem_cons] at h
    rw [List.splitOnP_append_cons xs as (hpq sep hsep), List.mem_append]
    rcases h with h | h
    . left
      rw [List.splitOnP_eq_singleton, List.mem_singleton]
      . exact h
      . rw [← h]
        exact ht
    . right
      exact ih h

end Fields
