import TsIngress.BasicLemmas
import TsIngress.Util.Impl.Base64
import Mathlib.Tactic.IntervalCases

namespace b64group

theorem eq_of_bits {a b : UInt8} (h : ∀ i < 8, a.toBitVec.getLsbD i = b.toBitVec.getLsbD i)
    : a = b := by
  apply UInt8.eq_of_toBitVec_eq
  apply BitVec.eq_of_getLsbD_eq
  exact h

theorem d0_and (a : UInt8) : b64d0 a &&& (0x3F : UInt8) = b64d0 a := by
  apply eq_of_bits
  intro i hi
  simp [b64d0]
  interval_cases i <;> simp

theorem d1_and (a b : UInt8) : b64d1 a b &&& (0x3F : UInt8) = b64d1 a b := by
  apply eq_of_bits
  intro i hi
  simp [b64d1]
  interval_cases i <;> simp

theorem d2_and (b c : UInt8) : b64d2 b c &&& (0x3F : UInt8) = b64d2 b c := by
  apply eq_of_bits
  intro i hi
  simp [b64d2]
  interval_cases i <;> simp

theorem d3_and (c : UInt8) : b64d3 c &&& (0x3F : UInt8) = b64d3 c := by
  apply eq_of_bits
  intro i hi
  simp [b64d3]

theorem byte0 (a b : UInt8)
    : ((b64d1 a b &&& (0x30 : UInt8)) >>> (4 : UInt8)) ||| (b64d0 a <<< (2 : UInt8)) = a := by
  apply eq_of_bits
  intro i hi
  simp [b64d0, b64d1]
  interval_cases i <;> simp

theorem byte1 (a b c : UInt8)
    : ((b64d2 b c &&& (0x3C : UInt8)) >>> (2 : UInt8))
        ||| ((b64d1 a b &&& (0x0F : UInt8)) <<< (4 : UInt8))
        =
      b := by
  apply eq_of_bits
  intro i hi
  simp [b64d1, b64d2]
  interval_cases i <;> simp

theorem byte2 (b c : UInt8)
    : (b64d3 c &&& (0x3F : UInt8)) ||| ((b64d2 b c &&& (0x03 : UInt8)) <<< (6 : UInt8)) = c := by
  apply eq_of_bits
  intro i hi
  simp [b64d2, b64d3]
  interval_cases i <;> simp

theorem eq_bytes (a b c : UInt8)
    : b64group (b64d0 a) (b64d1 a b) (b64d2 b c) (b64d3 c) = [a, b, c] := by
  unfold b64group
  rw [byte0, byte1, byte2]

end b64group

set_option maxRecDepth 2000 in
theorem b64untable_b64char_ofNat
    : ∀ n : Fin 64,
        b64untable (b64char (UInt8.ofNat n)) = some (UInt8.ofNat n)
          ∧
        b64char (UInt8.ofNat n) ≠ 61 := by
  decide

theorem exists_eq_ofNat_of_and {d : UInt8} (h : d &&& (0x3F : UInt8) = d)
    : ∃ n : Fin 64, d = UInt8.ofNat n := by
  have hlt : d.toNat < 64 := by
    rw [← h, UInt8.toNat_and]
    apply Nat.lt_of_le_of_lt Nat.and_le_right
    decide
  exact ⟨⟨d.toNat, hlt⟩, by simp⟩

theorem b64untable_b64char {d : UInt8} (h : d &&& (0x3F : UInt8) = d)
    : b64untable (b64char d) = some d := by
  rcases exists_eq_ofNat_of_and h with ⟨n, rfl⟩
  exact (b64untable_b64char_ofNat n).1

theorem b64char_ne_pad {d : UInt8} (h : d &&& (0x3F : UInt8) = d) : b64char d ≠ 61 := by
  rcases exists_eq_ofNat_of_and h with ⟨n, rfl⟩
  exact (b64untable_b64char_ofNat n).2

theorem b64untable_pad : b64untable 61 = some (b64d3 0) := by
  decide

namespace base64Decode

theorem group (a b c : UInt8) (rest : List UInt8)
    : base64Decode (base64Encode (a :: b :: c :: rest))
        =
      (if (base64Decode (base64Encode rest)).1 = -1 then -1
        else 3 + (base64Decode (base64Encode rest)).1,
        [a, b, c] ++ (base64Decode (base64Encode rest)).2) := by
  rw [base64Encode, base64Decode]
  simp only [b64char_ne_pad (b64group.d0_and a), b64char_ne_pad (b64group.d1_and a b),
    b64char_ne_pad (b64group.d2_and b c), b64char_ne_pad (b64group.d3_and c),
    b64untable_b64char (b64group.d0_and a), b64untable_b64char (b64group.d1_and a b),
    b64untable_b64char (b64group.d2_and b c), b64untable_b64char (b64group.d3_and c),
    b64group.eq_bytes, or_self, ↓reduceIte, Nat.add_zero, ne_eq, not_true_eq_false, false_and]

theorem pair (a b : UInt8) : base64Decode (base64Encode [a, b]) = (2, [a, b]) := by
  rw [base64Encode, base64Decode]
  simp only [b64char_ne_pad (b64group.d0_and a), b64char_ne_pad (b64group.d1_and a b),
    b64char_ne_pad (b64group.d2_and b 0), b64untable_b64char (b64group.d0_and a),
    b64untable_b64char (b64group.d1_and a b), b64untable_b64char (b64group.d2_and b 0),
    b64untable_pad, b64group.eq_bytes, or_self, ↓reduceIte]
  rfl

theorem single (a : UInt8) : base64Decode (base64Encode [a]) = (1, [a]) := by
  have hpad : b64untable 61 = some (b64d2 0 0) := by
    decide
  rw [base64Encode, base64Decode]
  simp only [b64char_ne_pad (b64group.d0_and a), b64char_ne_pad (b64group.d1_and a 0),
    b64untable_b64char (b64group.d0_and a), b64untable_b64char (b64group.d1_and a 0), or_self,
    ↓reduceIte, hpad]
  have hbytes : b64group (b64d0 a) (b64d1 a 0) (b64d2 0 0) (b64d2 0 0) = [a, 0, 0] :=
    b64group.eq_bytes a 0 0
  rw [hbytes]
  rfl

end base64Decode

theorem base64Decode_base64Encode (x : List UInt8)
    : base64Decode (base64Encode x) = ((x.length : Int), x) := by
  induction x using base64Encode.induct with
  | case1 => rfl
  | case2 a => apply base64Decode.single
  | case3 a b => apply base64Decode.pair
  | case4 a b c rest ih =>
    rw [base64Decode.group, ih]
    dsimp only
    rw [if_neg]
    . simp only [List.length_cons, Prod.mk.injEq, List.cons_append, List.nil_append, and_true]
      omega
    . omega

theorem base64Encode_injective {x y : List UInt8} (h : base64Encode x = base64Encode y)
    : x = y := by
  have hx := base64Decode_base64Encode x
  rw [h, base64Decode_base64Encode y] at hx
  exact (Prod.mk.inj hx).2.symm

theorem length_base64Encode (x : List UInt8) : (base64Encode x).length = base64EncodeLen x.length := by
  unfold base64EncodeLen
  induction x using base64Encode.induct with
  | case1 => rfl
  | case2 a => simp [base64Encode]
  | case3 a b => simp [base64Encode]
  | case4 a b c rest ih =>
    rw [base64Encode]
    simp only [List.length_cons]
    omega

theorem length_b64group (v0 v1 v2 v3 : UInt8) : (b64group v0 v1 v2 v3).length = 3 := by
  rfl

namespace base64Decode

theorem group_cases (p0 p1 p2 p3 : UInt8) (rest : Str)
    : base64Decode (p0 :: p1 :: p2 :: p3 :: rest) = (-1, [])
        ∨
      (∃ (d : List UInt8) (n : Nat),
        d.length = 3 ∧ n ≤ 3 ∧ base64Decode (p0 :: p1 :: p2 :: p3 :: rest) = ((n : Int), d.take n))
        ∨
      ∃ d : List UInt8,
        d.length = 3
          ∧
        base64Decode (p0 :: p1 :: p2 :: p3 :: rest)
          =
        (if (base64Decode rest).1 = -1 then -1 else 3 + (base64Decode rest).1,
          d ++ (base64Decode rest).2) := by
  rw [base64Decode]
  dsimp only
  generalize (if p3 = 61 then 1 else 0) + (if p2 = 61 then 1 else 0) = padding
  split
  . exact .inl rfl
  . split
    . exact .inl rfl
    . split
      . split
        . right
          left
          refine ⟨_, _, length_b64group _ _ _ _, ?_, rfl⟩
          omega
        . right
          right
          exact ⟨_, length_b64group _ _ _ _, rfl⟩
      . exact .inl rfl

theorem bounds (inbuf : Str)
    : (base64Decode inbuf).2.length ≤ 3 * (inbuf.length / 4)
        ∧
      ((base64Decode inbuf).1 = -1 ∨ (base64Decode inbuf).1 = (base64Decode inbuf).2.length) := by
  match inbuf with
  | [] => simp [base64Decode]
  | [_] => simp [base64Decode]
  | [_, _] => simp [base64Decode]
  | [_, _, _] => simp [base64Decode]
  | p0 :: p1 :: p2 :: p3 :: rest =>
    rcases bounds rest with ⟨hlen, hret⟩
    rcases group_cases p0 p1 p2 p3 rest with h | ⟨d, n, hd, hn, h⟩ | ⟨d, hd, h⟩
    . rw [h]
      simp
    . rw [h]
      simp only [List.length_cons, List.length_take, hd]
      omega
    . rw [h]
      simp only [List.length_cons, List.length_append, hd]
      rcases hret with hret | hret
      . rw [if_pos hret]
        omega
      . rw [hret]
        rw [if_neg]
        . omega
        . omega

end base64Decode

theorem base64DecodeBuf_eq (inbuf : Str) {outbuf : List UInt8} {pos : Nat}
    (h : pos + (base64Decode inbuf).2.length ≤ outbuf.length)
    : base64DecodeBuf outbuf pos inbuf
        =
      .ok ((base64Decode inbuf).1, ClipBuffer.store outbuf pos (base64Decode inbuf).2) := by
  match inbuf with
  | [] => simp [base64Decode, base64DecodeBuf, ClipBuffer.store]
  | [_] => simp [base64Decode, base64DecodeBuf, ClipBuffer.store]
  | [_, _] => simp [base64Decode, base64DecodeBuf, ClipBuffer.store]
  | [_, _, _] => simp [base64Decode, base64DecodeBuf, ClipBuffer.store]
  | p0 :: p1 :: p2 :: p3 :: rest =>
    have ih := @base64DecodeBuf_eq rest
    rw [base64Decode] at h ⊢
    rw [base64DecodeBuf]
    dsimp only at h ⊢
    generalize (if p3 = 61 then 1 else 0) + (if p2 = 61 then 1 else 0) = padding at h ⊢
    by_cases hpad : p1 = 61 ∨ p0 = 61
    . simp [if_pos hpad, ClipBuffer.store]
    . rw [if_neg hpad] at h ⊢
      rw [if_neg hpad]
      by_cases hmore : padding ≠ 0 ∧ rest ≠ []
      . simp [if_pos hmore, ClipBuffer.store]
      . rw [if_neg hmore] at h ⊢
        rw [if_neg hmore]
        split at h
        . next v0 v1 v2 v3 _ _ _ _ =>
          have hlen := length_b64group v0 v1 v2 v3
          by_cases hlast : padding ≠ 0
          . rw [if_pos hlast] at h ⊢
            rw [storeBuf_eq h]
            simp only [bind, Except.bind, if_pos hlast]
            rfl
          . rw [if_neg hlast] at h ⊢
            dsimp only at h
            rw [List.length_append, hlen] at h
            have htake : (b64group v0 v1 v2 v3).take (3 - padding) = b64group v0 v1 v2 v3 := by
              apply List.take_of_length_le
              omega
            have hfits : pos + (b64group v0 v1 v2 v3).length ≤ outbuf.length := by
              omega
            have hrest : pos + 3 + (base64Decode rest).2.length
                ≤ (ClipBuffer.store outbuf pos (b64group v0 v1 v2 v3)).length := by
              rw [ClipBuffer.length_store hfits]
              omega
            rw [htake, storeBuf_eq hfits]
            simp only [bind, Except.bind, if_neg hlast, ih hrest]
            rw [← RawBuffer.store_store hfits, hlen]
            rfl
        . simp [ClipBuffer.store]

/--
What is encoded has the announced length and decodes to itself. Decoding stays within the announced
length whatever it is given, and returns how much it wrote.
-/
theorem base64_roundTrip (x inbuf : List UInt8)
    : (base64Encode x).length = base64EncodeLen x.length
        ∧
      base64Decode (base64Encode x) = ((x.length : Int), x)
        ∧
      (base64Decode inbuf).2.length ≤ base64DecodeLen inbuf.length
        ∧
      ((base64Decode inbuf).1 = -1 ∨ (base64Decode inbuf).1 = (base64Decode inbuf).2.length) := by
  rcases base64Decode.bounds inbuf with ⟨hlen, hret⟩
  refine ⟨length_base64Encode x, base64Decode_base64Encode x, ?_, hret⟩
  unfold base64DecodeLen
  omega
