import TsIngress.Lib.ClipBuffer
import Mathlib.Data.List.TakeWhile

/-!
This module contains stores into memory of a given size and unknown contents, and texts with a terminator that
are put together in it. A store that does not stay within the memory has no result.
-/

namespace RawBuffer

variable {α : Type u}

def write (buf : List α) (pos : Nat) (data : List α) : Option (List α) :=
  if pos + data.length ≤ buf.length then some (ClipBuffer.store buf pos data) else none

theorem write_eq {buf data : List α} {pos : Nat} (h : pos + data.length ≤ buf.length)
    : write buf pos data = some (ClipBuffer.store buf pos data) := by
  rw [write, if_pos h]

def fill (buf : List α) (pos : Nat) : List (List α) → Option (List α)
  | [] => some buf
  | data :: rest =>
    match write buf pos data with
    | none => none
    | some buf => fill buf (pos + data.length) rest

theorem store_store {buf data more : List α} {pos : Nat} (h : pos + data.length ≤ buf.length)
    : ClipBuffer.store (ClipBuffer.store buf pos data) (pos + data.length) more
        =
      ClipBuffer.store buf pos (data ++ more) := by
  have htake : (ClipBuffer.store buf pos data).take (pos + data.length) = buf.take pos ++ data := by
    rw [ClipBuffer.take_store (by omega) (Nat.le_refl _), List.take_length]
  have hlen : (buf.take pos ++ data).length = pos + data.length := by
    rw [List.length_append, List.length_take]
    omega
  have hdrop : (ClipBuffer.store buf pos data).drop (pos + data.length + more.length)
      = buf.drop (pos + data.length + more.length) := by
    unfold ClipBuffer.store
    rw [← List.drop_drop, List.drop_left' hlen, List.drop_drop]
  rw [ClipBuffer.store, htake, hdrop, ClipBuffer.store, List.length_append, Nat.add_assoc]
  simp only [List.append_assoc]

theorem fill_eq {chunks : List (List α)} {buf : List α} {pos : Nat}
    (h : pos + chunks.flatten.length ≤ buf.length)
    : fill buf pos chunks = some (ClipBuffer.store buf pos chunks.flatten) := by
  induction chunks generalizing buf pos with
  | nil => simp [fill, ClipBuffer.store]
  | cons data rest ih =>
    rw [List.flatten_cons, List.length_append] at h
    have hfirst : pos + data.length ≤ buf.length := by
      omega
    rw [fill, write_eq hfirst]
    dsimp only
    rw [ih, List.flatten_cons, store_store hfirst]
    rw [ClipBuffer.length_store hfirst]
    omega

theorem store_zero {buf data : List α} (h : data.length = buf.length) : ClipBuffer.store buf 0 data = data := by
  simp [ClipBuffer.store, h]

def Holds (nul : α) (buf text : List α) : Prop :=
  ∃ rest, buf = text ++ nul :: rest

theorem Holds.length_lt {nul : α} {buf text : List α} (h : Holds nul buf text) : text.length < buf.length := by
  rcases h with ⟨rest, rfl⟩
  simp

def print (nul : α) (buf : List α) (size : Nat) (text : List α) : Option (List α) :=
  if size = 0 then some buf else write buf 0 (text.take (size - 1) ++ [nul])

theorem print_of_lt (nul : α) {buf text : List α} (h : text.length < buf.length)
    : ∃ buf', print nul buf buf.length text = some buf' ∧ Holds nul buf' text := by
  have htake : text.take (buf.length - 1) = text := by
    apply List.take_of_length_le
    omega
  have hfits : 0 + (text ++ [nul]).length ≤ buf.length := by
    rw [List.length_append, List.length_singleton]
    omega
  rw [print, if_neg (by omega), htake, write_eq hfits]
  refine ⟨_, rfl, buf.drop (text ++ [nul]).length, ?_⟩
  simp [ClipBuffer.store]

def resize (buf fresh : List α) : List α :=
  buf.take fresh.length ++ fresh.drop buf.length

theorem length_resize (buf fresh : List α) : (resize buf fresh).length = fresh.length := by
  rw [resize, List.length_append, List.length_take, List.length_drop]
  omega

theorem Holds.resize {nul : α} {buf text fresh : List α} (h : Holds nul buf text)
    (hfresh : text.length < fresh.length) : Holds nul (resize buf fresh) text := by
  rcases h with ⟨rest, rfl⟩
  have hhead : (text ++ nul :: rest).take fresh.length
      = text ++ nul :: rest.take (fresh.length - text.length - 1) := by
    have hsub : fresh.length - text.length = fresh.length - text.length - 1 + 1 := by
      omega
    rw [List.take_append, List.take_of_length_le (by omega), hsub, List.take_succ_cons, Nat.add_sub_cancel]
  refine ⟨rest.take (fresh.length - text.length - 1) ++ fresh.drop (text ++ nul :: rest).length, ?_⟩
  rw [RawBuffer.resize, hhead, List.append_assoc, List.cons_append]

variable [DecidableEq α]

def textOf (nul : α) (buf : List α) : Option (List α) :=
  if nul ∈ buf then some (buf.takeWhile (· ≠ nul)) else none

theorem textOf_of_holds {nul : α} {buf text : List α} (h : Holds nul buf text) (hnul : nul ∉ text)
    : textOf nul buf = some text := by
  rcases h with ⟨rest, rfl⟩
  rw [textOf, if_pos (by simp), List.takeWhile_append_of_pos]
  . simp
  . intro a ha
    rw [decide_eq_true_eq]
    exact ne_of_mem_of_not_mem ha hnul

def append (nul : α) (buf text : List α) : Option (List α) :=
  match textOf nul buf with
  | none => none
  | some front => write buf front.length (text ++ [nul])

theorem append_of_holds {nul : α} {buf text more : List α} (h : Holds nul buf text) (hnul : nul ∉ text)
    (hfits : text.length + more.length < buf.length)
    : ∃ buf', append nul buf more = some buf'
        ∧ Holds nul buf' (text ++ more)
        ∧ buf'.length = buf.length := by
  have hfits' : text.length + (more ++ [nul]).length ≤ buf.length := by
    rw [List.length_append, List.length_singleton]
    omega
  rw [append, textOf_of_holds h hnul]
  dsimp only
  rw [write_eq hfits']
  refine ⟨_, rfl, ?_, ClipBuffer.length_store hfits'⟩
  rcases h with ⟨rest, rfl⟩
  refine ⟨(text ++ nul :: rest).drop (text.length + (more ++ [nul]).length), ?_⟩
  rw [ClipBuffer.store, List.take_left, List.append_assoc, List.append_assoc, List.append_assoc,
    List.singleton_append]

end RawBuffer
