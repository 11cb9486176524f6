import TsIngress.Lib.LineSplit
import TsIngress.Lib.Unwinding

/-!
This module contains several streams that are read in turns, piece by piece. The segments of each stream come out
as if it was read alone.
-/

namespace StreamMerge

open LineSplit Unwinding

variable {ι α : Type u} [DecidableEq ι]

def bytesOf (i : ι) (chunks : List (ι × List α)) : List α :=
  ((ownActions i chunks).map Prod.snd).flatten

theorem bytesOf_nil (i : ι) : bytesOf i ([] : List (ι × List α)) = [] := by
  rfl

theorem bytesOf_cons_self (i : ι) (data : List α) (chunks : List (ι × List α))
    : bytesOf i ((i, data) :: chunks) = data ++ bytesOf i chunks := by
  unfold bytesOf
  rw [ownActions_cons_self]
  rfl

theorem bytesOf_cons_of_ne {i j : ι} (h : j ≠ i) (data : List α) (chunks : List (ι × List α))
    : bytesOf i ((j, data) :: chunks) = bytesOf i chunks := by
  unfold bytesOf
  rw [ownActions_cons_of_ne h]

theorem ownActions_map_self (i : ι) (l : List (List α))
    : ownActions i (l.map (i, ·)) = l.map (i, ·) := by
  unfold ownActions
  rw [List.filter_eq_self]
  simp

theorem ownActions_map_of_ne {i j : ι} (h : j ≠ i) (l : List (List α))
    : ownActions i (l.map (j, ·)) = [] := by
  unfold ownActions
  rw [List.filter_eq_nil_iff]
  simp [h]

section

variable [DecidableEq α] (sep : α)

def segments (buf : ι → List α) : List (ι × List α) → List (ι × List α)
  | [] => []
  | (i, data) :: chunks =>
    (complete sep (buf i ++ data)).map (i, ·)
      ++ segments (Function.update buf i (unfinished sep (buf i ++ data))) chunks

end

variable [DecidableEq α] {sep : α}

theorem notMem_update_unfinished {buf : ι → List α} (hbuf : ∀ i, sep ∉ buf i) (j : ι) (data : List α) (i : ι)
    : sep ∉ Function.update buf j (unfinished sep (buf j ++ data)) i := by
  by_cases hij : i = j
  . subst hij
    rw [Function.update_self]
    exact notMem_unfinished _
  . rw [Function.update_of_ne hij]
    exact hbuf i

theorem unfinished_update (buf : ι → List α) (j : ι) (data : List α) (chunks : List (ι × List α))
    : (fun i => unfinished sep (Function.update buf j (unfinished sep (buf j ++ data)) i ++ bytesOf i chunks))
        =
      fun i => unfinished sep (buf i ++ bytesOf i ((j, data) :: chunks)) := by
  funext i
  by_cases hij : i = j
  . subst hij
    rw [Function.update_self, bytesOf_cons_self, ← List.append_assoc, unfinished_append (buf i ++ data)]
  . rw [Function.update_of_ne hij, bytesOf_cons_of_ne (Ne.symm hij)]

-- A stream that is read in turn with others is cut like one that is read alone.
theorem ownActions_segments (i : ι) (chunks : List (ι × List α)) {buf : ι → List α}
    (hbuf : ∀ i, sep ∉ buf i)
    : ownActions i (segments sep buf chunks) = (complete sep (buf i ++ bytesOf i chunks)).map (i, ·) := by
  induction chunks generalizing buf with
  | nil =>
    rw [bytesOf_nil, List.append_nil, complete_of_notMem (hbuf i)]
    rfl
  | cons e chunks ih =>
    rcases e with ⟨j, data⟩
    have happend : ∀ l l' : List (ι × List α), ownActions i (l ++ l') = ownActions i l ++ ownActions i l' := by
      intro l l'
      exact List.filter_append ..
    rw [segments, happend, ih (notMem_update_unfinished hbuf j data)]
    by_cases hji : j = i
    . subst hji
      rw [ownActions_map_self, Function.update_self, bytesOf_cons_self, ← List.append_assoc,
        complete_append (buf j ++ data), List.map_append]
    . rw [ownActions_map_of_ne hji, Function.update_of_ne (Ne.symm hji), bytesOf_cons_of_ne hji, List.nil_append]

theorem segments_append (chunks chunks' : List (ι × List α)) {buf : ι → List α} (hbuf : ∀ i, sep ∉ buf i)
    : segments sep buf (chunks ++ chunks')
        =
      segments sep buf chunks ++ segments sep (fun i => unfinished sep (buf i ++ bytesOf i chunks)) chunks' := by
  induction chunks generalizing buf with
  | nil =>
    have hkeep : (fun i => unfinished sep (buf i ++ bytesOf i [])) = buf := by
      funext i
      rw [bytesOf_nil, List.append_nil, unfinished_of_notMem (hbuf i)]
    rw [hkeep]
    rfl
  | cons e chunks ih =>
    rcases e with ⟨j, data⟩
    rw [List.cons_append, segments, segments, ih (notMem_update_unfinished hbuf j data), List.append_assoc,
      unfinished_update]

theorem mem_segments {chunks : List (ι × List α)} {buf : ι → List α} (hbuf : ∀ i, sep ∉ buf i)
    {i : ι} {segment : List α} (h : (i, segment) ∈ segments sep buf chunks)
    : segment ∈ complete sep (buf i ++ bytesOf i chunks) := by
  have hown : (i, segment) ∈ ownActions i (segments sep buf chunks) := by
    unfold ownActions
    rw [List.mem_filter]
    exact ⟨h, by simp⟩
  rw [ownActions_segments i chunks hbuf, List.mem_map] at hown
  rcases hown with ⟨_, hmem, heq⟩
  cases heq
  exact hmem

end StreamMerge
