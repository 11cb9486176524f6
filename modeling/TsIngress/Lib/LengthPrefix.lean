import Mathlib.Data.List.Basic
import Mathlib.Tactic.Ring

/-!
This module contains fields framed by a length prefix of fixed width, where the length is narrowed to
the width of the prefix and only as many bytes follow as the narrowed length says.
-/

namespace LengthPrefix

def leBytes (w : Nat) (n : Nat) : List UInt8 :=
  match w with
  | 0 => []
  | w + 1 => UInt8.ofNat n :: leBytes w (n / 256)

@[simp]
theorem length_leBytes (w n : Nat) : (leBytes w n).length = w := by
  induction w generalizing n with
  | zero => rfl
  | succ w ih => simp [leBytes, ih]

theorem leBytes_eq_iff (w n m : Nat) : leBytes w n = leBytes w m ↔ n % 256 ^ w = m % 256 ^ w := by
  induction w generalizing n m with
  | zero => simp [leBytes, Nat.mod_one]
  | succ w ih =>
    simp only [leBytes, List.cons.injEq, ih]
    have hsplit : ∀ k : Nat, k % 256 ^ (w + 1) = k % 256 + 256 * (k / 256 % 256 ^ w) := by
      intro k
      rw [Nat.pow_succ, Nat.mul_comm, Nat.mod_mul]
    have hbyte : UInt8.ofNat n = UInt8.ofNat m ↔ n % 256 = m % 256 := by
      rw [← UInt8.toNat_inj]
      simp
    rw [hbyte, hsplit n, hsplit m]
    omega

def kept (w : Nat) (s : List UInt8) : List UInt8 :=
  s.take (s.length % 256 ^ w)

def field (w : Nat) (s : List UInt8) : List UInt8 :=
  leBytes w s.length ++ kept w s

/--
Two fields of which the frame keeps the same: their lengths agree modulo the width of the prefix and
so do the bytes that are kept.
-/
def Agree (w : Nat) (s t : List UInt8) : Prop :=
  s.length % 256 ^ w = t.length % 256 ^ w ∧ kept w s = kept w t

theorem length_kept (w : Nat) (s : List UInt8) : (kept w s).length = s.length % 256 ^ w := by
  unfold kept
  rw [List.length_take]
  have := Nat.mod_le s.length (256 ^ w)
  omega

theorem field_append_inj (w : Nat) (s t r u : List UInt8)
    : field w s ++ r = field w t ++ u ↔ Agree w s t ∧ r = u := by
  unfold field Agree
  constructor
  . intro h
    rw [List.append_assoc, List.append_assoc] at h
    have hlen := List.append_inj h (by simp)
    rw [leBytes_eq_iff] at hlen
    have hkept := List.append_inj hlen.2 (by rw [length_kept, length_kept, hlen.1])
    exact ⟨⟨hlen.1, hkept.1⟩, hkept.2⟩
  . rintro ⟨⟨hlen, hkept⟩, rfl⟩
    rw [hkept, (leBytes_eq_iff w _ _).mpr hlen]

theorem kept_eq_self (w : Nat) (s : List UInt8) (h : s.length < 256 ^ w) : kept w s = s := by
  unfold kept
  rw [Nat.mod_eq_of_lt h, List.take_length]

theorem Agree.refl (w : Nat) (s : List UInt8) : Agree w s s := by
  exact ⟨rfl, rfl⟩

theorem Agree.eq_of_fits {w : Nat} {s t : List UInt8} (h : Agree w s t) (hs : s.length < 256 ^ w)
    (ht : t.length < 256 ^ w)
    : s = t := by
  have := h.2
  rwa [kept_eq_self w s hs, kept_eq_self w t ht] at this

end LengthPrefix
