import TsIngress.Auth.Impl.Address
import TsIngress.Lib.WireBits

/-!
This module contains what the network tests of `auth/auth.c` compare: the leading bits of the two
addresses in the order of the wire, on hosts of both byte orders.
-/

open WireBits

def inAddrBytes (endian : Endian) (addr : UInt32) : List UInt8 :=
  let bytes := [addr.toUInt8, (addr >>> (8 : UInt32)).toUInt8, (addr >>> (16 : UInt32)).toUInt8,
    (addr >>> (24 : UInt32)).toUInt8]
  match endian with
  | .little => bytes
  | .big => bytes.reverse

theorem getLsbD_bswap32 (x : UInt32) (i : Nat) (hi : i < 32)
    : (bswap32 x).toBitVec.getLsbD i = x.toBitVec.getLsbD (8 * (3 - i / 8) + i % 8) := by
  unfold bswap32
  interval_cases i <;> simp

theorem bswap32_bswap32 (x : UInt32) : bswap32 (bswap32 x) = x := by
  apply eq_of_bits
  intro i hi
  rw [getLsbD_bswap32 _ _ hi, getLsbD_bswap32 _ _ (by omega)]
  congr 1
  omega

theorem bswap32_and (x y : UInt32) : bswap32 (x &&& y) = bswap32 x &&& bswap32 y := by
  apply eq_of_bits
  intro i hi
  simp [getLsbD_bswap32 _ _ hi]

theorem htonl_injective (endian : Endian) {x y : UInt32} (h : htonl endian x = htonl endian y)
    : x = y := by
  cases endian with
  | little =>
    have := congrArg bswap32 h
    rwa [htonl, htonl, bswap32_bswap32, bswap32_bswap32] at this
  | big => exact h

theorem htonl_and (endian : Endian) (x y : UInt32)
    : htonl endian (x &&& y) = htonl endian x &&& htonl endian y := by
  cases endian with
  | little => exact bswap32_and x y
  | big => rfl

theorem bit_inAddrBytes_little (x : UInt32) (j : Nat) (hj : j < 32)
    : bit (inAddrBytes .little x) j = x.toBitVec.getLsbD (8 * (j / 8) + (7 - j % 8)) := by
  have hbit : 7 - j % 8 < 8 := by omega
  have hbyte : j / 8 = 0 ∨ j / 8 = 1 ∨ j / 8 = 2 ∨ j / 8 = 3 := by omega
  unfold bit inAddrBytes
  rcases hbyte with hbyte | hbyte | hbyte | hbyte <;> rw [hbyte] <;> simp [hbit]

theorem bit_inAddrBytes_big (x : UInt32) (j : Nat) (hj : j < 32)
    : bit (inAddrBytes .big x) j = x.toBitVec.getLsbD (8 * (3 - j / 8) + (7 - j % 8)) := by
  have hbit : 7 - j % 8 < 8 := by omega
  have hbyte : j / 8 = 0 ∨ j / 8 = 1 ∨ j / 8 = 2 ∨ j / 8 = 3 := by omega
  unfold bit inAddrBytes
  rcases hbyte with hbyte | hbyte | hbyte | hbyte <;> rw [hbyte] <;> simp [hbit]

theorem htonl_eq_word (endian : Endian) (x : UInt32)
    : htonl endian x = word (inAddrBytes endian x) 0 := by
  apply eq_of_bits
  intro i hi
  have hword := getLsbD_word (inAddrBytes endian x) 0 (31 - i) (by omega)
  rw [show 31 - (31 - i) = i by omega, Nat.mul_zero, Nat.zero_add] at hword
  rw [hword]
  cases endian with
  | little =>
    rw [htonl, getLsbD_bswap32 _ _ hi, bit_inAddrBytes_little _ _ (by omega)]
    congr 1
    omega
  | big =>
    rw [htonl, bit_inAddrBytes_big _ _ (by omega)]
    congr 1
    omega

theorem ipv4InNetwork_iff (endian : Endian) (ip net : UInt32) (pfxlen : Int)
    : ipv4InNetwork endian ip net pfxlen = true
        ↔
      0 ≤ pfxlen ∧ pfxlen ≤ 32
        ∧ AgreeOn pfxlen.toNat (inAddrBytes endian ip) (inAddrBytes endian net) := by
  unfold ipv4InNetwork
  dsimp only
  split
  . next h =>
    simp only [Bool.false_eq_true, false_iff]
    omega
  . next h =>
    simp only [not_or, not_lt] at h
    rcases h with ⟨h0, h32⟩
    lift pfxlen to Nat using h0 with n
    have hshift : UInt64.ofInt (32 - n) = UInt64.ofNat (32 - n) := by
      rw [show (32 - n : Int) = ((32 - n : Nat) : Int) by omega, ← UInt64.toNat_inj]
      unfold UInt64.ofInt
      simp
      omega
    rw [hshift, beq_iff_eq, and_eq_and_iff (isMask_shiftLeft64 (by omega)), htonl_eq_word,
      htonl_eq_word]
    constructor
    . intro h
      refine ⟨by omega, by omega, ?_⟩
      intro i hi
      have := h i (by omega) hi
      rwa [getLsbD_word _ _ _ (by omega), getLsbD_word _ _ _ (by omega), Nat.mul_zero, Nat.zero_add]
        at this
    . rintro ⟨-, -, h⟩ i hi hn
      rw [getLsbD_word _ _ _ hi, getLsbD_word _ _ _ hi, Nat.mul_zero, Nat.zero_add]
      exact h i hn

theorem ipv6Mask_eq_htonl (endian : Endian) (pfxlen i : Nat)
    : ∃ m, ipv6Mask endian pfxlen i = htonl endian m ∧ IsMask m (pfxlen - 32 * i) := by
  unfold ipv6Mask
  split
  . next h =>
    refine ⟨_, rfl, ?_⟩
    rw [show pfxlen - 32 * i = pfxlen % 32 by omega]
    apply isMask_shiftLeft32 <;> omega
  . next hpart =>
    split
    . next h =>
      refine ⟨0, ?_, ?_⟩
      . cases endian <;> rfl
      . rw [show pfxlen - 32 * i = 0 by omega]
        exact isMask_zero
    . next h =>
      refine ⟨0xFFFFFFFF, ?_, ?_⟩
      . cases endian <;> rfl
      . apply isMask_ones
        omega

theorem load32_and_ipv6Mask_eq_iff (endian : Endian) (s t : List UInt8) (pfxlen i : Nat)
    : load32 endian s (4 * i) &&& ipv6Mask endian pfxlen i
          = load32 endian t (4 * i) &&& ipv6Mask endian pfxlen i
        ↔
      ∀ j < 32, 32 * i + j < pfxlen → bit s (32 * i + j) = bit t (32 * i + j) := by
  rcases ipv6Mask_eq_htonl endian pfxlen i with ⟨m, hmask, hm⟩
  have hload : ∀ u, load32 endian u (4 * i) = htonl endian (word u (4 * i)) := by
    intro u
    rfl
  have hcancel : htonl endian (word s (4 * i) &&& m) = htonl endian (word t (4 * i) &&& m)
      ↔ word s (4 * i) &&& m = word t (4 * i) &&& m := by
    constructor
    . exact htonl_injective endian
    . intro h
      rw [h]
  rw [hmask, hload, hload, ← htonl_and, ← htonl_and, hcancel, and_eq_and_iff hm]
  constructor
  . intro h j hj hlt
    have := h j hj (by omega)
    rwa [getLsbD_word _ _ _ hj, getLsbD_word _ _ _ hj, show 8 * (4 * i) + j = 32 * i + j by omega]
      at this
  . intro h j hj hlt
    rw [getLsbD_word _ _ _ hj, getLsbD_word _ _ _ hj, show 8 * (4 * i) + j = 32 * i + j by omega]
    exact h j hj (by omega)

theorem ipv6InNetwork_iff (endian : Endian) (ip net : In6Addr) (pfxlen : Int)
    : ipv6InNetwork endian ip net pfxlen = true
        ↔
      0 ≤ pfxlen ∧ pfxlen ≤ 128 ∧ AgreeOn pfxlen.toNat ip.s6Addr net.s6Addr := by
  unfold ipv6InNetwork
  split
  . next h =>
    simp only [Bool.false_eq_true, false_iff]
    omega
  . next h =>
    simp only [not_or, not_lt] at h
    rcases h with ⟨h0, h128⟩
    simp only [List.all_eq_true, List.mem_range, beq_iff_eq, load32_and_ipv6Mask_eq_iff]
    constructor
    . intro h
      refine ⟨h0, by omega, ?_⟩
      intro i hi
      have := h (i / 32) (by omega) (i % 32) (by omega)
      rw [show 32 * (i / 32) + i % 32 = i by omega] at this
      exact this hi
    . rintro ⟨-, -, h⟩ i hi j hj hlt
      exact h _ hlt

/--
`ipv4_in_network` on a machine that yields `undef` for a shift that C does not define, by a negative
distance or by one that reaches the width of the operand.
-/
def ipv4InNetworkUndef (undef : Int → UInt32) (endian : Endian) (ip net : UInt32) (pfxlen : Int) : Bool :=
  let mask :=
    if 0 ≤ 32 - pfxlen ∧ 32 - pfxlen < 64 then
      ((~~~(0 : UInt64)) <<< UInt64.ofInt (32 - pfxlen)).toUInt32
    else
      undef pfxlen
  if pfxlen < 0 ∨ pfxlen > 32 then
    false
  else
    (htonl endian ip &&& mask) == (htonl endian net &&& mask)

theorem ipv4InNetworkUndef_eq (undef : Int → UInt32) (endian : Endian) (ip net : UInt32) (pfxlen : Int)
    : ipv4InNetworkUndef undef endian ip net pfxlen = ipv4InNetwork endian ip net pfxlen := by
  unfold ipv4InNetworkUndef ipv4InNetwork
  dsimp only
  split
  . rfl
  . next h =>
    simp only [not_or, not_lt] at h
    rw [if_pos (by omega)]

/--
The network tests compare exactly the bits of the prefix, in the order of the wire, and refuse a prefix
length that is out of range.
-/
theorem inNetwork_iff_agreeOn (endian : Endian) (undef : Int → UInt32) (pfxlen : Int)
    : (∀ ip net : UInt32,
        (ipv4InNetwork endian ip net pfxlen = true
          ↔
        0 ≤ pfxlen ∧ pfxlen ≤ 32
          ∧ AgreeOn pfxlen.toNat (inAddrBytes endian ip) (inAddrBytes endian net))
          ∧
        ipv4InNetworkUndef undef endian ip net pfxlen = ipv4InNetwork endian ip net pfxlen)
        ∧
      (∀ ip net : In6Addr,
        ipv6InNetwork endian ip net pfxlen = true
          ↔
        0 ≤ pfxlen ∧ pfxlen ≤ 128 ∧ AgreeOn pfxlen.toNat ip.s6Addr net.s6Addr) := by
  constructor
  . intro ip net
    constructor
    . apply ipv4InNetwork_iff
    . apply ipv4InNetworkUndef_eq
  . intro ip net
    apply ipv6InNetwork_iff
