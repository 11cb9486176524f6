import Mathlib.Data.List.Basic

/-!
This module contains texts printed one after the other into a buffer of a fixed size. Each print puts a
terminator behind its text, and what does not fit in front of the last terminator is cut off.
-/

namespace ClipBuffer

variable {α : Type u}

def store (buf : List α) (pos : Nat) (data : List α) : List α :=
  buf.take pos ++ data ++ buf.drop (pos + data.length)

theorem length_store {buf data : List α} {pos : Nat} (h : pos + data.length ≤ buf.length)
    : (store buf pos data).length = buf.length := by
  simp only [store, List.length_append, List.length_take, List.length_drop]
  omega

theorem take_store {buf data : List α} {pos n : Nat} (hpos : pos ≤ buf.length) (hn : n ≤ data.length)
    : (store buf pos data).take (pos + n) = buf.take pos ++ data.take n := by
  have hlength : (buf.take pos).length = pos := by
    simp [hpos]
  unfold store
  rw [List.append_assoc, List.take_append, hlength, Nat.add_sub_cancel_left, List.take_append_of_le_length hn,
    List.take_of_length_le (by omega)]

def clip (cap : Nat) (nul : α) (text : List α) : List α :=
  if text.length < cap then text else text.take (cap - 1) ++ [nul]

theorem clip_of_lt {cap : Nat} {text : List α} (h : text.length < cap) (nul : α) : clip cap nul text = text := by
  rw [clip, if_pos h]

theorem mem_clip_of_le {cap : Nat} {text : List α} (h : cap ≤ text.length) (nul : α)
    : nul ∈ clip cap nul text := by
  rw [clip, if_neg (by omega)]
  simp

theorem length_clip {cap : Nat} (hcap : 0 < cap) (nul : α) (text : List α)
    : (clip cap nul text).length = min text.length cap := by
  unfold clip
  split
  . omega
  . simp only [List.length_append, List.length_take, List.length_singleton]
    omega

def tail (left : Nat) (nul : α) (text : List α) : List α :=
  if left = 0 then [] else (text.take (left - 1) ++ [nul]).take (min text.length left)

theorem clip_append {cap : Nat} (hcap : 0 < cap) (nul : α) (text more : List α)
    : clip cap nul (text ++ more)
        =
      clip cap nul text ++ tail (cap - (clip cap nul text).length) nul more := by
  rw [length_clip hcap]
  by_cases htext : text.length < cap
  . have hmin : min text.length cap = text.length := by
      omega
    rw [clip_of_lt htext, hmin, tail, if_neg (by omega)]
    by_cases hmore : (text ++ more).length < cap
    . have hfits : more.length ≤ cap - text.length - 1 := by
        rw [List.length_append] at hmore
        omega
      rw [clip_of_lt hmore, Nat.min_eq_left (by omega), List.take_of_length_le hfits, List.take_left]
    . have hover : cap - text.length ≤ more.length := by
        rw [List.length_append] at hmore
        omega
      have hhead : (text ++ more).take (cap - 1) = text ++ more.take (cap - text.length - 1) := by
        rw [List.take_append, List.take_of_length_le (by omega)]
        congr 2
        omega
      have htail : (more.take (cap - text.length - 1) ++ [nul]).take (cap - text.length)
          = more.take (cap - text.length - 1) ++ [nul] := by
        apply List.take_of_length_le
        simp only [List.length_append, List.length_take, List.length_singleton]
        omega
      rw [clip, if_neg hmore, hhead, Nat.min_eq_right hover, htail, List.append_assoc]
  . have hover : ¬ (text ++ more).length < cap := by
      rw [List.length_append]
      omega
    have hmin : min text.length cap = cap := by
      omega
    rw [hmin, Nat.sub_self, tail, if_pos rfl, List.append_nil, clip, clip, if_neg htext,
      if_neg hover, List.take_append_of_le_length (by omega)]

end ClipBuffer
