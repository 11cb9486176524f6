import Mathlib.Data.List.Basic

/-!
This module contains buffers of unknown contents that have been written in part, and their comparison with a
text that ends in a terminator. What was not written still has whatever it had before.
-/

namespace Overlay

variable {α : Type u}

def overlay : List (Option α) → List α → List α
  | w :: written, b :: buf => w.getD b :: overlay written buf
  | _, buf => buf

theorem overlay_map_some (data buf : List α) (h : data.length ≤ buf.length)
    : overlay (data.map some) buf = data ++ buf.drop data.length := by
  induction data generalizing buf with
  | nil => rfl
  | cons d data ih =>
    cases buf with
    | nil => simp at h
    | cons b buf =>
      have hlen : data.length ≤ buf.length := by
        simpa using h
      simp [overlay, ih buf hlen]

-- A written element differs from the one the text has in its place. Behind a text stands its terminator.
def Clash (nul : α) (written : List (Option α)) (text : List α) : Prop :=
  ∃ (i : Nat) (c d : α), written[i]? = some (some c) ∧ (text ++ [nul])[i]? = some d ∧ c ≠ d

theorem not_clash_nil (nul : α) (text : List α) : ¬ Clash nul [] text := by
  rintro ⟨i, c, d, hc, -⟩
  simp at hc

theorem clash_cons_nil_iff (nul : α) (w : Option α) (written : List (Option α))
    : Clash nul (w :: written) [] ↔ ∃ c, w = some c ∧ c ≠ nul := by
  constructor
  . rintro ⟨i, c, d, hc, hd, hne⟩
    cases i with
    | zero =>
      simp only [List.getElem?_cons_zero, List.nil_append, Option.some.injEq] at hc hd
      subst hd
      exact ⟨c, hc, hne⟩
    | succ i => simp at hd
  . rintro ⟨c, rfl, hne⟩
    exact ⟨0, c, nul, rfl, rfl, hne⟩

theorem clash_cons_cons_iff (nul : α) (w : Option α) (written : List (Option α)) (t : α) (text : List α)
    : Clash nul (w :: written) (t :: text) ↔ (∃ c, w = some c ∧ c ≠ t) ∨ Clash nul written text := by
  constructor
  . rintro ⟨i, c, d, hc, hd, hne⟩
    cases i with
    | zero =>
      simp only [List.getElem?_cons_zero, List.cons_append, Option.some.injEq] at hc hd
      subst hd
      exact .inl ⟨c, hc, hne⟩
    | succ i => exact .inr ⟨i, c, d, by simpa using hc, by simpa using hd, hne⟩
  . rintro (⟨c, rfl, hne⟩ | ⟨i, c, d, hc, hd, hne⟩)
    . exact ⟨0, c, t, rfl, rfl, hne⟩
    . exact ⟨i + 1, c, d, by simpa using hc, by simpa using hd, hne⟩

variable [DecidableEq α]

/--
Compare a buffer with a text from the front. The comparison ends at the first difference or behind the
terminator, and there is no answer when it runs off the end of the buffer.
-/
def compare (nul : α) : List α → List α → Option Bool
  | [], _ => none
  | b :: _, [] => some (b == nul)
  | b :: buf, t :: text => if b = t then compare nul buf text else some false

theorem compare_overlay_of_clash {nul : α} {written : List (Option α)} {text buf : List α}
    (h : Clash nul written text) (hlen : written.length ≤ buf.length)
    : compare nul (overlay written buf) text = some false := by
  induction written generalizing text buf with
  | nil => exact absurd h (not_clash_nil nul text)
  | cons w written ih =>
    cases buf with
    | nil => simp at hlen
    | cons b buf =>
      cases text with
      | nil =>
        rcases (clash_cons_nil_iff nul w written).mp h with ⟨c, rfl, hne⟩
        simp [overlay, compare, hne]
      | cons t text =>
        rcases (clash_cons_cons_iff nul w written t text).mp h with ⟨c, rfl, hne⟩ | hrest
        . simp [overlay, compare, hne]
        . have hlen : written.length ≤ buf.length := by
            simpa using hlen
          simp only [overlay, compare, ih hrest hlen]
          split <;> rfl

theorem exists_compare_of_not_clash {nul : α} {written : List (Option α)} {text : List α}
    (h : ¬ Clash nul written text) (size : Nat)
    : ∃ buf : List α,
        buf.length = size
          ∧ compare nul (overlay written buf) text = if text.length < size then some true else none := by
  induction size generalizing written text with
  | zero => exact ⟨[], rfl, by cases written <;> simp [overlay, compare]⟩
  | succ size ih =>
    cases text with
    | nil =>
      refine ⟨List.replicate (size + 1) nul, List.length_replicate, ?_⟩
      cases written with
      | nil => simp [overlay, compare, List.replicate_succ]
      | cons w written =>
        rw [clash_cons_nil_iff] at h
        cases w with
        | none => simp [overlay, compare, List.replicate_succ]
        | some c =>
          have hc : c = nul := by
            by_contra hne
            exact h ⟨c, rfl, hne⟩
          simp [overlay, compare, List.replicate_succ, hc]
    | cons t text =>
      cases written with
      | nil =>
        rcases ih (not_clash_nil nul text) with ⟨buf, hsize, hcmp⟩
        refine ⟨t :: buf, by simp [hsize], ?_⟩
        have hover : overlay ([] : List (Option α)) buf = buf := by
          cases buf <;> rfl
        rw [hover] at hcmp
        simp [overlay, compare, hcmp]
      | cons w written =>
        rw [clash_cons_cons_iff, not_or] at h
        rcases ih h.2 with ⟨buf, hsize, hcmp⟩
        have hw : w.getD t = t := by
          cases w with
          | none => rfl
          | some c =>
            by_contra hne
            exact h.1 ⟨c, rfl, hne⟩
        refine ⟨t :: buf, by simp [hsize], ?_⟩
        simp [overlay, compare, hw, hcmp]

theorem compare_append {nul : α} {text text' : List α} (h : nul ∉ text) (h' : nul ∉ text') (rest : List α)
    : compare nul (text ++ nul :: rest) text' = some (decide (text = text')) := by
  induction text generalizing text' with
  | nil =>
    cases text' with
    | nil => simp [compare]
    | cons t text' =>
      have hne : nul ≠ t := by
        rintro rfl
        simp at h'
      simp [compare, hne]
  | cons c text ih =>
    cases text' with
    | nil =>
      have hne : c ≠ nul := by
        rintro rfl
        simp at h
      simp [compare, hne]
    | cons t text' =>
      simp only [List.mem_cons, not_or] at h h'
      simp only [List.cons_append, compare, ih h.2 h'.2, List.cons.injEq]
      split
      . next heq => simp [heq]
      . next hne => simp [hne]

end Overlay
