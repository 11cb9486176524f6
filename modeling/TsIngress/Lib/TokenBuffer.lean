import Mathlib.Data.List.Basic
import Mathlib.Data.List.TakeWhile

/-!
This module contains a text in memory that is cut into tokens where it stands. The separator behind a token is
overwritten by a terminator, and behind that the memory is as it was.
-/

namespace TokenBuffer

variable {α : Type u} [DecidableEq α] {sep : α → Bool} {nul : α}

def text (nul : α) (mem : List α) : List α :=
  mem.takeWhile (· ≠ nul)

def isToken (sep : α → Bool) (nul : α) (a : α) : Bool :=
  !sep a && decide (a ≠ nul)

def terminated (sep : α → Bool) (nul : α) (mem : List α) : List α :=
  mem.takeWhile (isToken sep nul)
    ++ match mem.dropWhile (isToken sep nul) with
      | [] => []
      | _ :: rest => nul :: rest

/--
The tokens, each as the memory from it on. The flag tells whether the memory begins inside of a token that was
found before. A terminator ends the text, unless it is a separator itself.
-/
def tokens (sep : α → Bool) (nul : α) (inside : Bool) : List α → List (List α)
  | [] => []
  | a :: mem =>
    if sep a then
      tokens sep nul false mem
    else if a = nul then
      []
    else if inside then
      tokens sep nul true mem
    else
      terminated sep nul (a :: mem) :: tokens sep nul true mem

theorem tokens_sep {a : α} (h : sep a = true) (inside : Bool) (mem : List α)
    : tokens sep nul inside (a :: mem) = tokens sep nul false mem := by
  rw [tokens, if_pos h]

theorem tokens_nul (h : sep nul = false) (inside : Bool) (mem : List α)
    : tokens sep nul inside (nul :: mem) = [] := by
  rw [tokens, if_neg (by simp [h]), if_pos rfl]

theorem tokens_inside {a : α} (h : isToken sep nul a = true) (mem : List α)
    : tokens sep nul true (a :: mem) = tokens sep nul true mem := by
  unfold isToken at h
  simp only [Bool.and_eq_true, Bool.not_eq_true', decide_eq_true_eq] at h
  rw [tokens, if_neg (by simp [h.1]), if_neg h.2, if_pos rfl]

theorem tokens_start {a : α} (h : isToken sep nul a = true) (mem : List α)
    : tokens sep nul false (a :: mem) = terminated sep nul (a :: mem) :: tokens sep nul true mem := by
  unfold isToken at h
  simp only [Bool.and_eq_true, Bool.not_eq_true', decide_eq_true_eq] at h
  rw [tokens, if_neg (by simp [h.1]), if_neg h.2, if_neg Bool.false_ne_true]

theorem byte_cases (sep : α → Bool) (nul a : α)
    : sep a = true ∨ (sep a = false ∧ a = nul) ∨ isToken sep nul a = true := by
  unfold isToken
  by_cases hsep : sep a = true
  . exact .inl hsep
  . by_cases hnul : a = nul
    . exact .inr (.inl ⟨by simpa using hsep, hnul⟩)
    . exact .inr (.inr (by simp [hsep, hnul]))

theorem text_terminated (sep : α → Bool) (nul : α) (mem : List α)
    : text nul (terminated sep nul mem) = mem.takeWhile (isToken sep nul) := by
  have htoken : ∀ a ∈ mem.takeWhile (isToken sep nul), decide (a ≠ nul) = true := by
    intro a ha
    have := List.mem_takeWhile_imp ha
    unfold isToken at this
    exact (Bool.and_eq_true _ _ ▸ this).2
  unfold text terminated
  rw [List.takeWhile_append_of_pos htoken]
  cases mem.dropWhile (isToken sep nul) with
  | nil => simp
  | cons a rest => simp

theorem terminated_eq_self {t : List α} (h : ∀ a ∈ t, isToken sep nul a = true) : terminated sep nul t = t := by
  have hdrop : t.dropWhile (isToken sep nul) = [] := by
    rw [List.dropWhile_eq_nil_iff]
    exact h
  unfold terminated
  rw [hdrop, List.takeWhile_eq_self_iff.mpr h, List.append_nil]

theorem tokens_true_of_token {t : List α} (h : ∀ a ∈ t, isToken sep nul a = true) : tokens sep nul true t = [] := by
  induction t with
  | nil => rfl
  | cons a t ih =>
    rw [List.forall_mem_cons] at h
    rw [tokens_inside h.1, ih h.2]

theorem tokens_of_token {t : List α} (h : ∀ a ∈ t, isToken sep nul a = true) (hne : t ≠ [])
    : tokens sep nul false t = [t] := by
  cases t with
  | nil => exact absurd rfl hne
  | cons a t =>
    rw [List.forall_mem_cons] at h
    rw [tokens_start h.1, tokens_true_of_token h.2, terminated_eq_self (List.forall_mem_cons.mpr h)]

theorem mem_tokens_append {pre mem t : List α} {a : α} (hpre : nul ∉ pre) (ha : sep a = true)
    (h : t ∈ tokens sep nul false mem) (inside : Bool)
    : t ∈ tokens sep nul inside (pre ++ a :: mem) := by
  induction pre generalizing inside with
  | nil =>
    rw [List.nil_append, tokens_sep ha]
    exact h
  | cons b pre ih =>
    rw [List.mem_cons, not_or] at hpre
    rw [List.cons_append, tokens]
    split
    . exact ih hpre.2 false
    . rw [if_neg (Ne.symm hpre.1)]
      split
      . exact ih hpre.2 true
      . exact List.mem_cons_of_mem _ (ih hpre.2 true)

theorem exists_of_mem_tokens {inside : Bool} {mem t : List α} (h : t ∈ tokens sep nul inside mem)
    : ∃ a mem', isToken sep nul a = true ∧ t = terminated sep nul (a :: mem') := by
  induction mem generalizing inside with
  | nil => cases h
  | cons a mem ih =>
    rw [tokens] at h
    split at h
    . exact ih h
    . next hsep =>
      split at h
      . cases h
      . next hnul =>
        split at h
        . exact ih h
        . rw [List.mem_cons] at h
          rcases h with rfl | h
          . exact ⟨a, mem, by simp [isToken, hsep, hnul], rfl⟩
          . exact ih h

theorem text_ne_nil {inside : Bool} {mem t : List α} (h : t ∈ tokens sep nul inside mem) : text nul t ≠ [] := by
  rcases exists_of_mem_tokens h with ⟨a, mem', ha, rfl⟩
  rw [text_terminated, List.takeWhile_cons_of_pos ha]
  simp

theorem sep_eq_false_of_mem {inside : Bool} {mem t : List α} (h : t ∈ tokens sep nul inside mem)
    : ∀ a ∈ text nul t, sep a = false := by
  rcases exists_of_mem_tokens h with ⟨b, mem', -, rfl⟩
  intro a ha
  rw [text_terminated] at ha
  have := List.mem_takeWhile_imp ha
  unfold isToken at this
  simp only [Bool.and_eq_true, Bool.not_eq_true'] at this
  exact this.1

theorem tokens_or_nul (h : sep nul = false) (inside : Bool) (mem : List α)
    : tokens (fun a => sep a || decide (a = nul)) nul inside mem
        =
      tokens sep nul inside mem
        ++ tokens (fun a => sep a || decide (a = nul)) nul false (mem.dropWhile (· ≠ nul)) := by
  have htoken : isToken (fun a => sep a || decide (a = nul)) nul = isToken sep nul := by
    funext a
    unfold isToken
    by_cases hnul : a = nul
    . simp [hnul]
    . simp [hnul]
  induction mem generalizing inside with
  | nil => rfl
  | cons a mem ih =>
    rcases byte_cases sep nul a with hsep | ⟨-, rfl⟩ | hbyte
    . have hne : a ≠ nul := by
        rintro rfl
        rw [h] at hsep
        cases hsep
      rw [tokens_sep hsep, tokens_sep (by simp [hsep]), List.dropWhile_cons_of_pos (by simpa using hne), ih]
    . rw [tokens_nul h, List.nil_append, List.dropWhile_cons_of_neg (by simp), tokens_sep (by simp),
        tokens_sep (by simp)]
    . have hbyte' := hbyte
      rw [← htoken] at hbyte'
      have hne : a ≠ nul := by
        rintro rfl
        simp [isToken] at hbyte
      rw [List.dropWhile_cons_of_pos (by simpa using hne)]
      cases inside with
      | true => rw [tokens_inside hbyte, tokens_inside hbyte', ih]
      | false =>
        rw [tokens_start hbyte, tokens_start hbyte', ih, List.cons_append, terminated, terminated, htoken]

omit [DecidableEq α] in
theorem splitOnP_eq_cons (p : α → Bool) (l : List α)
    : ∃ rest, l.splitOnP p = l.takeWhile (fun a => !p a) :: rest := by
  induction l with
  | nil => exact ⟨[], rfl⟩
  | cons a l ih =>
    rcases ih with ⟨rest, ih⟩
    rw [List.splitOnP_cons_eq_if_modifyHead]
    by_cases ha : p a = true
    . rw [if_pos ha, List.takeWhile_cons_of_neg (by simp [ha])]
      exact ⟨_, rfl⟩
    . rw [if_neg ha, List.takeWhile_cons_of_pos (by simpa using ha), ih]
      exact ⟨rest, rfl⟩

theorem takeWhile_isToken (sep : α → Bool) (nul : α) (mem : List α)
    : mem.takeWhile (isToken sep nul) = (text nul mem).takeWhile fun a => !sep a := by
  unfold text
  rw [List.takeWhile_takeWhile]
  congr 1
  funext a
  unfold isToken
  by_cases hnul : a = nul
  . simp [hnul]
  . simp [hnul]

/--
The texts of the tokens are the fields of the text that are not empty. Inside of a token the first field is not
one of them.
-/
theorem map_text_tokens (h : sep nul = false) (inside : Bool) (mem : List α)
    : (tokens sep nul inside mem).map (text nul)
        =
      ((if inside then ((text nul mem).splitOnP sep).tail else (text nul mem).splitOnP sep).filter
        fun t => !t.isEmpty) := by
  induction mem generalizing inside with
  | nil => cases inside <;> rfl
  | cons a mem ih =>
    rcases byte_cases sep nul a with hsep | ⟨-, rfl⟩ | hbyte
    . have hne : a ≠ nul := by
        rintro rfl
        rw [h] at hsep
        cases hsep
      have htext : text nul (a :: mem) = a :: text nul mem := by
        exact List.takeWhile_cons_of_pos (by simpa using hne)
      rw [tokens_sep hsep, ih, htext, List.splitOnP_cons_eq_if_modifyHead, if_pos hsep]
      cases inside <;> rfl
    . have htext : text a (a :: mem) = [] := by
        exact List.takeWhile_cons_of_neg (by simp)
      rw [tokens_nul h, htext]
      cases inside <;> rfl
    . have hne : a ≠ nul ∧ sep a = false := by
        simpa [isToken, and_comm] using hbyte
      have htext : text nul (a :: mem) = a :: text nul mem := by
        exact List.takeWhile_cons_of_pos (by simpa using hne.1)
      rcases splitOnP_eq_cons sep (text nul mem) with ⟨rest, hrest⟩
      have hsplit : (a :: text nul mem).splitOnP sep
          = (a :: (text nul mem).takeWhile fun a => !sep a) :: rest := by
        rw [List.splitOnP_cons_eq_if_modifyHead, if_neg (by simp [hne.2]), hrest]
        rfl
      have hinside := ih true
      rw [if_pos rfl, hrest, List.tail_cons] at hinside
      rw [htext, hsplit]
      cases inside with
      | true =>
        rw [tokens_inside hbyte, hinside]
        rfl
      | false =>
        rw [tokens_start hbyte, List.map_cons, hinside, text_terminated, List.takeWhile_cons_of_pos hbyte,
          takeWhile_isToken]
        rfl

end TokenBuffer
