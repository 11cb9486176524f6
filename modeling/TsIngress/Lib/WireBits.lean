import Mathlib.Tactic.IntervalCases
import Mathlib.Data.List.Basic

/-!
This module contains byte strings seen as bit strings, most significant bit first, and the words and
masks by which a prefix of them is compared.
-/

namespace WireBits

def bit (s : List UInt8) (i : Nat) : Bool :=
  (s.getD (i / 8) 0).toBitVec.getLsbD (7 - i % 8)

def AgreeOn (n : Nat) (s t : List UInt8) : Prop :=
  ∀ i < n, bit s i = bit t i

def word (s : List UInt8) (off : Nat) : UInt32 :=
  let b (i : Nat) : UInt32 := (s.getD (off + i) 0).toUInt32
  (b 0 <<< (24 : UInt32)) ||| (b 1 <<< (16 : UInt32)) ||| (b 2 <<< (8 : UInt32)) ||| b 3

theorem eq_of_bits {a b : UInt32} (h : ∀ i < 32, a.toBitVec.getLsbD i = b.toBitVec.getLsbD i)
    : a = b := by
  rw [← UInt32.toBitVec_inj]
  apply BitVec.eq_of_getLsbD_eq
  exact h

theorem getLsbD_word_bytes (s : List UInt8) (off : Nat) {j : Nat} (hj : j < 32)
    : (word s off).toBitVec.getLsbD j
        =
      ((!decide (j < 24) && (s.getD off 0).toBitVec.getLsbD (j - 24))
        || (!decide (j < 16) && (s.getD (off + 1) 0).toBitVec.getLsbD (j - 16))
        || (!decide (j < 8) && (s.getD (off + 2) 0).toBitVec.getLsbD (j - 8))
        || (s.getD (off + 3) 0).toBitVec.getLsbD j) := by
  have h24 : j - 24 < 32 := by omega
  have h16 : j - 16 < 32 := by omega
  have h8 : j - 8 < 32 := by omega
  unfold word
  simp only [UInt32.toBitVec_or, UInt32.toBitVec_shiftLeft, UInt8.toBitVec_toUInt32, UInt32.toBitVec_ofNat,
    BitVec.getLsbD_or, BitVec.reduceMod, BitVec.shiftLeft_eq', BitVec.toNat_ofNat, Nat.reducePow,
    Nat.reduceMod, BitVec.getLsbD_shiftLeft, BitVec.getLsbD_setWidth, Nat.add_zero, BitVec.ofNat_eq_ofNat]
  simp only [hj, h24, h16, h8, decide_true, Bool.true_and]

theorem getLsbD_word (s : List UInt8) (off i : Nat) (hi : i < 32)
    : (word s off).toBitVec.getLsbD (31 - i) = bit s (8 * off + i) := by
  have hdiv : (8 * off + i) / 8 = off + i / 8 := by omega
  have hmod : (8 * off + i) % 8 = i % 8 := by omega
  rw [getLsbD_word_bytes s off (by omega)]
  unfold bit
  rw [hdiv, hmod]
  -- of the four bytes one has the bit, those below it end before and those above it begin behind it
  have hbyte : i / 8 = 0 ∨ i / 8 = 1 ∨ i / 8 = 2 ∨ i / 8 = 3 := by omega
  rcases hbyte with hbyte | hbyte | hbyte | hbyte
  . have hbit : 31 - i - 24 = 7 - i % 8 := by omega
    have h16 : 8 ≤ 31 - i - 16 := by omega
    have h8 : 8 ≤ 31 - i - 8 := by omega
    have h0 : 8 ≤ 31 - i := by omega
    have hpos : ¬ 31 - i < 24 := by omega
    rw [hbyte, hbit, BitVec.getLsbD_of_ge _ _ h16, BitVec.getLsbD_of_ge _ _ h8, BitVec.getLsbD_of_ge _ _ h0]
    simp [hpos]
  . have hbit : 31 - i - 16 = 7 - i % 8 := by omega
    have h8 : 8 ≤ 31 - i - 8 := by omega
    have h0 : 8 ≤ 31 - i := by omega
    have hneg : 31 - i < 24 := by omega
    have hpos : ¬ 31 - i < 16 := by omega
    rw [hbyte, hbit, BitVec.getLsbD_of_ge _ _ h8, BitVec.getLsbD_of_ge _ _ h0]
    simp [hneg, hpos]
  . have hbit : 31 - i - 8 = 7 - i % 8 := by omega
    have h0 : 8 ≤ 31 - i := by omega
    have hneg : 31 - i < 16 := by omega
    have hneg' : 31 - i < 24 := by omega
    have hpos : ¬ 31 - i < 8 := by omega
    rw [hbyte, hbit, BitVec.getLsbD_of_ge _ _ h0]
    simp [hneg, hneg', hpos]
  . have hbit : 31 - i = 7 - i % 8 := by omega
    have hneg : 7 - i % 8 < 8 := by omega
    have hneg' : 7 - i % 8 < 16 := by omega
    have hneg'' : 7 - i % 8 < 24 := by omega
    rw [hbyte, hbit]
    simp [hneg, hneg', hneg'']

-- A mask compares the leading bits of two words when it consists of as many ones.
def IsMask (m : UInt32) (n : Nat) : Prop :=
  ∀ i < 32, m.toBitVec.getLsbD (31 - i) = decide (i < n)

theorem and_eq_and_iff {m : UInt32} {n : Nat} (hm : IsMask m n) (x y : UInt32)
    : x &&& m = y &&& m
        ↔
      ∀ i < 32, i < n → x.toBitVec.getLsbD (31 - i) = y.toBitVec.getLsbD (31 - i) := by
  constructor
  . intro h i hi hn
    have hbit := congrArg (fun z => z.toBitVec.getLsbD (31 - i)) h
    simpa [hm i hi, hn] using hbit
  . intro h
    apply eq_of_bits
    intro j hj
    have hbit := h (31 - j) (by omega)
    have hmask := hm (31 - j) (by omega)
    rw [show 31 - (31 - j) = j by omega] at hbit hmask
    rw [UInt32.toBitVec_and, UInt32.toBitVec_and, BitVec.getLsbD_and, BitVec.getLsbD_and, hmask]
    by_cases hn : 31 - j < n
    . rw [hbit hn]
    . simp [hn]

theorem isMask_zero : IsMask 0 0 := by
  intro i _
  simp

theorem isMask_ones {n : Nat} (hn : 32 ≤ n) : IsMask 0xFFFFFFFF n := by
  intro i hi
  have : i < n := by omega
  simp only [this, decide_true]
  interval_cases i <;> rfl

theorem isMask_shiftLeft64 {n : Nat} (hn : n ≤ 32)
    : IsMask ((~~~(0 : UInt64)) <<< UInt64.ofNat (32 - n)).toUInt32 n := by
  unfold IsMask
  interval_cases n <;> decide

theorem isMask_shiftLeft32 {n : Nat} (hpos : 0 < n) (hn : n < 32)
    : IsMask ((~~~(0 : UInt32)) <<< UInt32.ofNat (32 - n)) n := by
  unfold IsMask
  interval_cases n <;> decide

end WireBits
