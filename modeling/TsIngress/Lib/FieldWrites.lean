import Mathlib.Data.List.Perm.Basic
import Mathlib.Logic.Equiv.Defs
import Mathlib.Logic.Function.Basic

/-!
This module contains writes to the fields of a record. A write names a field and its new value; the record
is seen as the family of the values of its fields.
-/

abbrev FieldWrite {F : Type u} (T : F → Type v) := (f : F) × T f

namespace FieldWrite

variable {F : Type u} {T : F → Type v} [DecidableEq F]

def apply (x : (f : F) → T f) (w : FieldWrite T) : (f : F) → T f :=
  Function.update x w.1 w.2

def Compatible (w w' : FieldWrite T) : Prop :=
  w.1 = w'.1 → w = w'

theorem apply_comm {w w' : FieldWrite T} (h : Compatible w w') (x : (f : F) → T f)
    : apply (apply x w) w' = apply (apply x w') w := by
  by_cases hfield : w.1 = w'.1
  . rw [h hfield]
  . exact Function.update_comm hfield w.2 w'.2 x

def last (ws : List (FieldWrite T)) (f : F) : Option (T f) :=
  match ws with
  | [] => none
  | w :: ws => (last ws f).or (if h : w.1 = f then some (h ▸ w.2) else none)

theorem foldl_apply (ws : List (FieldWrite T)) (x : (f : F) → T f) (f : F)
    : ws.foldl apply x f = (last ws f).getD (x f) := by
  induction ws generalizing x with
  | nil => rfl
  | cons w ws ih =>
    rw [List.foldl_cons, ih, last]
    cases last ws f with
    | some v => rfl
    | none =>
      rcases w with ⟨f', v⟩
      by_cases hfield : f' = f
      . subst hfield
        simp [apply]
      . simp [apply, hfield, Function.update_of_ne (Ne.symm hfield)]

theorem last_eq_none {ws : List (FieldWrite T)} {f : F} (h : ∀ w ∈ ws, w.1 ≠ f) : last ws f = none := by
  induction ws with
  | nil => rfl
  | cons w ws ih =>
    rw [List.forall_mem_cons] at h
    rw [last, ih h.2, dif_neg h.1]
    rfl

section Record

variable {R : Type w} (view : R ≃ ((f : F) → T f))

def writeAll (r : R) (ws : List (FieldWrite T)) : R :=
  view.symm (ws.foldl apply (view r))

theorem writeAll_append (r : R) (ws ws' : List (FieldWrite T))
    : writeAll view r (ws ++ ws') = writeAll view (writeAll view r ws) ws' := by
  unfold writeAll
  rw [List.foldl_append, view.apply_symm_apply]

theorem view_writeAll (r : R) (ws : List (FieldWrite T)) (f : F)
    : view (writeAll view r ws) f = (last ws f).getD (view r f) := by
  unfold writeAll
  rw [view.apply_symm_apply, foldl_apply]

theorem view_writeAll_of_ne {ws : List (FieldWrite T)} {f : F} (h : ∀ w ∈ ws, w.1 ≠ f) (r : R)
    : view (writeAll view r ws) f = view r f := by
  rw [view_writeAll, last_eq_none h, Option.getD_none]

-- Writes that agree wherever they meet can be made in any order.
theorem writeAll_perm {ws ws' : List (FieldWrite T)} (hperm : ws.Perm ws')
    (h : ∀ w ∈ ws, ∀ w' ∈ ws, Compatible w w') (r : R)
    : writeAll view r ws = writeAll view r ws' := by
  unfold writeAll
  congr 1
  apply hperm.foldl_eq'
  intro w hw w' hw' x
  exact apply_comm (h w hw w' hw') x

end Record

end FieldWrite
