import TsIngress.Crypt.Impl.Sha
import TsIngress.BasicLemmas
import TsIngress.Lib.ExceptFold
import Mathlib.Algebra.Group.Nat.Defs

/-!
This module contains the verification of the digests of `crypt/crypt_sha256.c` and `crypt/crypt_sha512.c`: in whatever
pieces a message is given to them, they compute the function of FIPS 180-2 of the whole message.
-/

namespace ShaKind

variable (v : ShaKind)

theorem wordBytes_pos : 0 < v.wordBytes := by
  cases v with
  | sha256 => decide
  | sha512 => decide

theorem blockBytes_pos : 0 < v.blockBytes := by
  exact Nat.mul_pos (by decide) v.wordBytes_pos

theorem buffer_lt : 2 * v.blockBytes < 2 ^ (8 * v.wordBytes) := by
  cases v with
  | sha256 => decide
  | sha512 => decide

end ShaKind

-- The padding of FIPS 180-2: a bit, as many zeros as it takes, and the length of the message in bits in two words.
def shaPad (v : ShaKind) (m : List UInt8) : List UInt8 :=
  m ++ 0x80 :: List.replicate ((2 * v.blockBytes - 1 - 2 * v.wordBytes - m.length % v.blockBytes) % v.blockBytes) 0
    ++ (shaStore v (BitVec.ofNat _ (8 * m.length / 2 ^ (8 * v.wordBytes)))
      ++ shaStore v (BitVec.ofNat _ (8 * m.length)))

def shaDigest (v : ShaKind) (m : List UInt8) : List UInt8 :=
  (BlockHash.absorb v.blockBytes (shaCompress v) (shaInitState v) (shaPad v m)).bytes

theorem div_add_of_lt {W n len : Nat} (hW : 0 < W) (hlen : len < W)
    : (n + len) / W = if (n + len) % W < len then n / W + 1 else n / W := by
  have hr : n % W < W := Nat.mod_lt n hW
  have hn : n + len = W * (n / W) + (n % W + len) := by
    have := Nat.div_add_mod n W
    omega
  rw [hn, Nat.mul_add_div hW, Nat.mul_add_mod]
  by_cases hcarry : n % W + len < W
  . rw [Nat.div_eq_of_lt hcarry, Nat.mod_eq_of_lt hcarry, if_neg (by omega), Nat.add_zero]
  . have hdiv : (n % W + len) / W = 1 := by
      rw [Nat.div_eq_sub_div hW (by omega), Nat.div_eq_of_lt (by omega)]
    have hmod : (n % W + len) % W = n % W + len - W := by
      rw [Nat.mod_eq_sub_mod (by omega), Nat.mod_eq_of_lt (by omega)]
    rw [hdiv, hmod, if_pos (by omega)]

theorem length_shaStore (v : ShaKind) (w : v.Word) : (shaStore v w).length = v.wordBytes := by
  rw [shaStore, List.length_map, List.length_range]

theorem bits_low (w n : Nat) : BitVec.ofNat w n <<< (3 : Nat) = BitVec.ofNat w (8 * n) := by
  apply BitVec.eq_of_toNat_eq
  rw [BitVec.toNat_shiftLeft, BitVec.toNat_ofNat, BitVec.toNat_ofNat, Nat.shiftLeft_eq, Nat.mod_mul_mod, Nat.mul_comm]

theorem bits_high {w : Nat} (hw : 3 ≤ w) (n : Nat)
    : (BitVec.ofNat w (n / 2 ^ w) <<< (3 : Nat)) ||| (BitVec.ofNat w n >>> (w - 3))
        =
      BitVec.ofNat w (8 * n / 2 ^ w) := by
  have hW : 2 ^ w = 8 * 2 ^ (w - 3) := by
    rw [show 8 = 2 ^ 3 from rfl, ← Nat.pow_add]
    congr 1
    omega
  have hV : 0 < 2 ^ (w - 3) := Nat.two_pow_pos _
  apply BitVec.eq_of_toNat_eq
  rw [BitVec.toNat_or, BitVec.toNat_shiftLeft, BitVec.toNat_ushiftRight, BitVec.toNat_ofNat, BitVec.toNat_ofNat,
    BitVec.toNat_ofNat, Nat.shiftRight_eq_div_pow, Nat.shiftLeft_eq, Nat.mod_mul_mod, hW]
  generalize 2 ^ (w - 3) = V at hV
  have hlow : n % (8 * V) / V < 8 := by
    rw [Nat.div_lt_iff_lt_mul hV]
    exact Nat.mod_lt _ (by omega)
  have hdiv : 8 * n / (8 * V) = 8 * (n / (8 * V)) + n % (8 * V) / V := by
    have hn : n = V * (8 * (n / (8 * V))) + n % (8 * V) := by
      rw [← Nat.mul_assoc, Nat.mul_comm V 8, Nat.div_add_mod]
    rw [Nat.mul_div_mul_left _ _ (by decide)]
    nth_rewrite 1 [hn]
    exact Nat.mul_add_div hV _ _
  rw [hdiv]
  generalize n / (8 * V) = q
  generalize n % (8 * V) / V = y at hlow
  -- The low bits of the first word are free for the high bits of the second.
  have hhigh : q * 2 ^ 3 % (8 * V) = (q % V) <<< 3 := by
    rw [Nat.shiftLeft_eq, Nat.mul_comm q, Nat.mul_comm (q % V), show 2 ^ 3 = 8 from rfl, Nat.mul_mod_mul_left]
  have hsum : (8 * q + y) % (8 * V) = y + 8 * (q % V) := by
    have hdiv8 : (8 * q + y) / 8 = q := by
      omega
    rw [Nat.mod_mul, hdiv8]
    omega
  rw [hhigh, hsum, ← Nat.shiftLeft_add_eq_or_of_lt hlow, Nat.shiftLeft_eq]
  omega

namespace ShaCtx

variable {v : ShaKind} {ctx : ShaCtx v}

structure Absorbed (ctx : ShaCtx v) (done : List UInt8) : Prop where
  dvd : v.blockBytes ∣ done.length
  H : ctx.H = BlockHash.absorb v.blockBytes (shaCompress v) (shaInitState v) done
  total0 : ctx.total0 = BitVec.ofNat _ done.length
  total1 : ctx.total1 = BitVec.ofNat _ (done.length / 2 ^ (8 * v.wordBytes))

theorem count_total {n len : Nat} (h0 : ctx.total0 = BitVec.ofNat _ n)
    (h1 : ctx.total1 = BitVec.ofNat _ (n / 2 ^ (8 * v.wordBytes))) (hlen : len < 2 ^ (8 * v.wordBytes))
    : (ctx.count len).total0 = BitVec.ofNat _ (n + len)
        ∧ (ctx.count len).total1 = BitVec.ofNat _ ((n + len) / 2 ^ (8 * v.wordBytes)) := by
  have htotal : ctx.total0 + BitVec.ofNat _ len = BitVec.ofNat _ (n + len) := by
    rw [h0, BitVec.ofNat_add]
  refine ⟨htotal, ?_⟩
  unfold count
  dsimp only
  rw [htotal, h1, BitVec.toNat_ofNat, div_add_of_lt (Nat.two_pow_pos _) hlen]
  split
  . rw [BitVec.ofNat_add]
    rfl
  . rfl

theorem Absorbed.processBlock {done data : List UInt8} (h : ctx.Absorbed done) (hdvd : v.blockBytes ∣ data.length)
    (hlen : data.length < 2 ^ (8 * v.wordBytes))
    : (shaProcessBlock data ctx).Absorbed (done ++ data) := by
  rcases count_total h.total0 h.total1 hlen with ⟨htotal0, htotal1⟩
  rw [← List.length_append] at htotal0 htotal1
  refine ⟨?_, ?_, htotal0, htotal1⟩
  . rw [List.length_append]
    exact Nat.dvd_add h.dvd hdvd
  . rw [BlockHash.absorb_append v.blockBytes_pos h.dvd, ← h.H]
    rfl

theorem Absorbed.congr {ctx' : ShaCtx v} {done : List UInt8} (h : ctx.Absorbed done) (hH : ctx'.H = ctx.H)
    (h0 : ctx'.total0 = ctx.total0) (h1 : ctx'.total1 = ctx.total1)
    : ctx'.Absorbed done := by
  exact ⟨h.dvd, hH.trans h.H, h0.trans h.total0, h1.trans h.total1⟩

-- The context has been given a message, of which it has processed all but what is in its buffer.
def Holds (ctx : ShaCtx v) (m : List UInt8) : Prop :=
  ∃ done, ctx.Absorbed done ∧ m = done ++ ctx.buffer ∧ ctx.buffer.length ≤ v.blockBytes

theorem holds_init (v : ShaKind) : (shaInitCtx v).Holds [] := by
  refine ⟨[], ⟨Nat.dvd_zero _, ?_, rfl, ?_⟩, rfl, Nat.zero_le _⟩
  . rw [BlockHash.absorb_nil]
    rfl
  . rw [List.length_nil, Nat.zero_div]
    rfl

theorem fill_eq {data : List UInt8} (h : ctx.buffer.length + data.length ≤ 2 * v.blockBytes)
    : ctx.fill data = .ok { ctx with buffer := ctx.buffer ++ data } := by
  rw [fill, if_pos h]

structure Takes (ctx : ShaCtx v) (done rest : List UInt8) : Prop where
  absorbed : ctx.Absorbed done
  buffer_le : ctx.buffer.length ≤ v.blockBytes
  alone : rest = [] ∨ ctx.buffer = []

theorem processBlock_buffer (data : List UInt8) (ctx : ShaCtx v) : (shaProcessBlock data ctx).buffer = ctx.buffer := by
  rfl

theorem Absorbed.flush {done : List UInt8} {full : Nat} (h : ctx.Absorbed done) (hdvd : v.blockBytes ∣ full)
    (hfull : full ≤ ctx.buffer.length) (hbuffer : ctx.buffer.length ≤ 2 * v.blockBytes) (buffer : List UInt8)
    : ShaCtx.Absorbed { shaProcessBlock (ctx.buffer.take full) ctx with buffer := buffer }
        (done ++ ctx.buffer.take full) := by
  have hlen : (ctx.buffer.take full).length = full := by
    rw [List.length_take, Nat.min_eq_left hfull]
  have hlt := v.buffer_lt
  have hprocess := h.processBlock (hlen.symm ▸ hdvd) (by omega)
  exact hprocess.congr rfl rfl rfl

theorem topUp_takes {m : List UInt8} (h : ctx.Holds m) (data : List UInt8)
    : ∃ ctx' rest done, shaTopUp data ctx = .ok (ctx', rest) ∧ ctx'.Takes done rest
        ∧ m ++ data = done ++ ctx'.buffer ++ rest ∧ rest.length ≤ data.length := by
  rcases h with ⟨done, habsorbed, rfl, hle⟩
  have hpos := v.blockBytes_pos
  unfold shaTopUp
  split
  . next hempty =>
    refine ⟨ctx, data, done, rfl, ⟨habsorbed, hle, .inr ?_⟩, rfl, Nat.le_refl _⟩
    exact List.eq_nil_of_length_eq_zero hempty
  generalize hadd : (if 2 * v.blockBytes - ctx.buffer.length > data.length then data.length
    else 2 * v.blockBytes - ctx.buffer.length) = add
  have hfits : ctx.buffer.length + (data.take add).length ≤ 2 * v.blockBytes := by
    rw [List.length_take]
    split at hadd <;> omega
  have hrest : (data.drop add).length ≤ data.length := by
    rw [List.length_drop]
    omega
  have hjoin : done ++ ctx.buffer ++ data = done ++ (ctx.buffer ++ data.take add) ++ data.drop add := by
    simp
  -- Either all of the data is in the buffer now, or the buffer is full.
  have hcases : data.drop add = [] ∨ (ctx.buffer ++ data.take add).length = 2 * v.blockBytes := by
    rw [List.length_append, List.length_take, List.drop_eq_nil_iff]
    split at hadd <;> omega
  simp only [hadd, fill_eq hfits, Except.ok_bind]
  rw [← List.length_append] at hfits
  generalize ctx.buffer ++ data.take add = buffer at hfits hjoin hcases ⊢
  have habsorbed' : Absorbed { ctx with buffer := buffer } done := habsorbed.congr rfl rfl rfl
  split
  . generalize hfull : buffer.length - buffer.length % v.blockBytes = full
    have hmod := Nat.mod_lt buffer.length hpos
    have hkept : (buffer.drop full).length = buffer.length % v.blockBytes := by
      have := Nat.mod_le buffer.length v.blockBytes
      rw [List.length_drop]
      omega
    have hflush := habsorbed'.flush (hfull ▸ Nat.dvd_sub_mod _) (by dsimp only; omega) hfits (buffer.drop full)
    refine ⟨_, _, _, rfl, ⟨hflush, ?_, ?_⟩, ?_, hrest⟩
    . simp only [processBlock_buffer]
      omega
    . apply hcases.imp_right
      intro htwo
      apply List.eq_nil_of_length_eq_zero
      simp only [processBlock_buffer]
      rw [hkept, htwo, Nat.mul_mod_left]
    . simp only [processBlock_buffer]
      rw [hjoin, List.append_assoc done (buffer.take full), List.take_append_drop]
  . next hless =>
    refine ⟨_, _, done, rfl, ⟨habsorbed', Nat.le_of_not_lt hless, .inl ?_⟩, hjoin, hrest⟩
    rcases hcases with hnil | htwo
    . exact hnil
    . omega

theorem unaligned_takes {n : Nat} {done data : List UInt8} (h : ctx.Absorbed done) (hn : data.length ≤ n)
    (hlen : data.length < 2 ^ (8 * v.wordBytes))
    : ∃ done', (shaUnaligned v n data ctx).1.Absorbed done'
        ∧ (shaUnaligned v n data ctx).1.buffer = ctx.buffer
        ∧ done ++ data = done' ++ (shaUnaligned v n data ctx).2
        ∧ (shaUnaligned v n data ctx).2.length ≤ v.blockBytes := by
  have hpos := v.blockBytes_pos
  induction n generalizing ctx done data with
  | zero => exact ⟨done, h, rfl, rfl, by simp only [shaUnaligned]; omega⟩
  | succ n ih =>
    unfold shaUnaligned
    split
    . next hmore =>
      have htake : (data.take v.blockBytes).length = v.blockBytes := by
        rw [List.length_take]
        omega
      have hdrop := List.length_drop (i := v.blockBytes) (l := data)
      have hdvd : v.blockBytes ∣ (data.take v.blockBytes).length := by
        simp only [htake, Nat.dvd_refl]
      rcases ih (h.processBlock hdvd (by omega)) (show (data.drop v.blockBytes).length ≤ n by omega) (by omega) with
        ⟨done', habsorbed, hbuffer, hjoin, hle⟩
      refine ⟨done', habsorbed, hbuffer, ?_, hle⟩
      rw [← hjoin, List.append_assoc, List.take_append_drop]
    . next hless => exact ⟨done, h, rfl, rfl, Nat.le_of_not_lt hless⟩

theorem whole_takes {done data : List UInt8} (h : ctx.Takes done data) (addr : Nat)
    (hlen : data.length < 2 ^ (8 * v.wordBytes))
    : ∃ done', (shaWhole addr data ctx).1.Takes done' (shaWhole addr data ctx).2
        ∧ done ++ ctx.buffer ++ data = done' ++ (shaWhole addr data ctx).1.buffer ++ (shaWhole addr data ctx).2
        ∧ (shaWhole addr data ctx).2.length ≤ v.blockBytes := by
  have hpos := v.blockBytes_pos
  unfold shaWhole
  split
  . next hmore =>
    have hbuffer : ctx.buffer = [] := by
      rcases h.alone with hnil | hbuffer
      . rw [hnil, List.length_nil] at hmore
        omega
      . exact hbuffer
    rw [hbuffer, List.append_nil]
    split
    . rcases unaligned_takes h.absorbed (Nat.le_refl _) hlen with ⟨done', habsorbed, hbuffer', hjoin, hle⟩
      rw [hbuffer] at hbuffer'
      refine ⟨done', ⟨habsorbed, ?_, .inr hbuffer'⟩, ?_, hle⟩
      . rw [hbuffer', List.length_nil]
        omega
      . rw [hbuffer', List.append_nil, hjoin]
    . generalize hfull : data.length - data.length % v.blockBytes = full
      have hmod := Nat.mod_lt data.length hpos
      have htake : (data.take full).length = full := by
        rw [List.length_take]
        omega
      have hdvd : v.blockBytes ∣ (data.take full).length := by
        rw [htake, ← hfull]
        exact Nat.dvd_sub_mod _
      have hprocess := h.absorbed.processBlock hdvd (by omega)
      refine ⟨done ++ data.take full, ⟨hprocess, ?_, .inr hbuffer⟩, ?_, ?_⟩
      . rw [processBlock_buffer, hbuffer, List.length_nil]
        omega
      . rw [processBlock_buffer, hbuffer, List.append_nil, List.append_assoc, List.take_append_drop]
      . rw [List.length_drop]
        have := Nat.mod_le data.length v.blockBytes
        omega
  . next hless => exact ⟨done, h, rfl, by dsimp only; omega⟩

theorem remaining_holds {done data : List UInt8} (h : ctx.Takes done data) (hdata : data.length ≤ v.blockBytes)
    : ∃ ctx', shaRemaining data ctx = .ok ctx' ∧ ctx'.Holds (done ++ ctx.buffer ++ data) := by
  unfold shaRemaining
  split
  . next hmore =>
    have hbuffer : ctx.buffer = [] := by
      rcases h.alone with hnil | hbuffer
      . rw [hnil] at hmore
        cases hmore
      . exact hbuffer
    have hfits : ctx.buffer.length + data.length ≤ 2 * v.blockBytes := by
      rw [hbuffer, List.length_nil]
      omega
    have habsorbed : Absorbed { ctx with buffer := data } done := h.absorbed.congr rfl rfl rfl
    simp only [fill_eq hfits, Except.ok_bind]
    rw [hbuffer, List.nil_append, List.append_nil]
    split
    . next hfull =>
      have hflush := habsorbed.flush (Nat.dvd_refl _) hfull (by dsimp only; omega) (data.drop v.blockBytes)
      refine ⟨_, rfl, _, hflush, ?_, ?_⟩
      . dsimp only
        rw [List.append_assoc, List.take_append_drop]
      . dsimp only
        rw [List.length_drop]
        omega
    . exact ⟨_, rfl, done, habsorbed, rfl, hdata⟩
  . next hnone =>
    have hnil : data = [] := by
      apply List.eq_nil_of_length_eq_zero
      omega
    rw [hnil, List.append_nil]
    exact ⟨ctx, rfl, done, h.absorbed, rfl, h.buffer_le⟩

theorem Holds.processBytes {m : List UInt8} (h : ctx.Holds m) (addr : Nat) {data : List UInt8}
    (hlen : data.length < 2 ^ (8 * v.wordBytes))
    : ∃ ctx', shaProcessBytes addr data ctx = .ok ctx' ∧ ctx'.Holds (m ++ data) := by
  rcases topUp_takes h data with ⟨ctx', rest, done, heq, htakes, hjoin, hrest⟩
  rcases whole_takes htakes (addr + (data.length - rest.length)) (by omega) with ⟨done', htakes', hjoin', hle⟩
  rcases remaining_holds htakes' hle with ⟨ctx'', hremaining, hholds⟩
  refine ⟨ctx'', ?_, ?_⟩
  . unfold shaProcessBytes
    rw [heq]
    exact hremaining
  . rw [hjoin, hjoin']
    exact hholds

theorem take_shaFillbuf {pad : Nat} (hpos : 0 < pad) (hpad : pad ≤ v.blockBytes)
    : (shaFillbuf v).take pad = 0x80 :: List.replicate (pad - 1) 0 := by
  obtain ⟨n, rfl⟩ : ∃ n, pad = n + 1 := ⟨pad - 1, by omega⟩
  rw [shaFillbuf, List.take_succ_cons, List.take_replicate, Nat.add_sub_cancel, Nat.min_eq_left (by omega)]

theorem shaPadBytes_spec {bytes : Nat} (h : bytes ≤ v.blockBytes)
    : 0 < shaPadBytes v bytes ∧ shaPadBytes v bytes ≤ v.blockBytes
        ∧ (bytes + shaPadBytes v bytes + 2 * v.wordBytes = v.blockBytes
          ∨ bytes + shaPadBytes v bytes + 2 * v.wordBytes = 2 * v.blockBytes)
        ∧ (2 * v.blockBytes - 1 - 2 * v.wordBytes - bytes % v.blockBytes) % v.blockBytes = shaPadBytes v bytes - 1 := by
  have hword := v.wordBytes_pos
  have hblock : v.blockBytes = 16 * v.wordBytes := rfl
  unfold shaPadBytes
  by_cases hfull : bytes = v.blockBytes
  . have hmod : (2 * v.blockBytes - 1 - 2 * v.wordBytes) % v.blockBytes = 14 * v.wordBytes - 1 := by
      rw [show 2 * v.blockBytes - 1 - 2 * v.wordBytes = v.blockBytes + (14 * v.wordBytes - 1) by omega,
        Nat.add_mod_left, Nat.mod_eq_of_lt (by omega)]
    rw [hfull, Nat.mod_self, Nat.sub_zero, hmod, if_pos (by omega)]
    omega
  . rw [Nat.mod_eq_of_lt (show bytes < v.blockBytes by omega)]
    split
    . rw [Nat.mod_eq_of_lt (by omega)]
      omega
    . rw [show 2 * v.blockBytes - 1 - 2 * v.wordBytes - bytes = v.blockBytes + (14 * v.wordBytes - bytes - 1) by omega,
        Nat.add_mod_left, Nat.mod_eq_of_lt (by omega)]
      omega

theorem Holds.finishCtx {m : List UInt8} (h : ctx.Holds m) : shaFinishCtx ctx = .ok (shaDigest v m) := by
  rcases h with ⟨done, habsorbed, rfl, hle⟩
  have hlt := v.buffer_lt
  rcases count_total habsorbed.total0 habsorbed.total1 (show ctx.buffer.length < 2 ^ (8 * v.wordBytes) by omega) with
    ⟨htotal0, htotal1⟩
  rw [← List.length_append] at htotal0 htotal1
  rcases shaPadBytes_spec hle with ⟨hpos, hpad, hsize, hzeros⟩
  have hmod : (done ++ ctx.buffer).length % v.blockBytes = ctx.buffer.length % v.blockBytes := by
    rcases habsorbed.dvd with ⟨k, hk⟩
    rw [List.length_append, hk, Nat.mul_add_mod]
  have hfill : ((shaFillbuf v).take (shaPadBytes v ctx.buffer.length)).length = shaPadBytes v ctx.buffer.length := by
    rw [take_shaFillbuf hpos hpad, List.length_cons, List.length_replicate]
    omega
  have hlength : (shaFillbuf v).length = v.blockBytes := by
    have := v.blockBytes_pos
    rw [shaFillbuf, List.length_cons, List.length_replicate]
    omega
  have hpadded : shaPad v (done ++ ctx.buffer)
      = done ++ (ctx.buffer ++ (shaFillbuf v).take (shaPadBytes v ctx.buffer.length)
        ++ (shaStore v (((ctx.count ctx.buffer.length).total1 <<< (3 : Nat))
            ||| ((ctx.count ctx.buffer.length).total0 >>> (8 * v.wordBytes - 3)))
          ++ shaStore v ((ctx.count ctx.buffer.length).total0 <<< (3 : Nat)))) := by
    have hword := v.wordBytes_pos
    rw [htotal0, htotal1, bits_high (by omega), bits_low, take_shaFillbuf hpos hpad, ← hzeros, ← hmod]
    simp [shaPad]
  have hfirst : (ctx.count ctx.buffer.length).fill ((shaFillbuf v).take (shaPadBytes v ctx.buffer.length))
      = .ok { ctx.count ctx.buffer.length with
        buffer := ctx.buffer ++ (shaFillbuf v).take (shaPadBytes v ctx.buffer.length) } := by
    apply fill_eq
    rw [hfill]
    exact (show ctx.buffer.length + shaPadBytes v ctx.buffer.length ≤ 2 * v.blockBytes by omega)
  unfold shaFinishCtx
  dsimp only
  rw [if_pos (hlength ▸ hpad), hfirst, Except.ok_bind, fill_eq]
  . rw [Except.ok_bind, shaDigest, hpadded, BlockHash.absorb_append v.blockBytes_pos habsorbed.dvd, ← habsorbed.H]
    rfl
  . dsimp only
    rw [List.length_append, List.length_append, hfill, length_shaStore, length_shaStore]
    omega

end ShaCtx

def Appends (v : ShaKind) (f : ShaCtx v → Result (ShaCtx v)) (data : List UInt8) : Prop :=
  ∀ ctx m, ctx.Holds m → ∃ ctx', f ctx = .ok ctx' ∧ ctx'.Holds (m ++ data)

namespace Appends

variable {v : ShaKind} {f g : ShaCtx v → Result (ShaCtx v)} {data more : List UInt8}

theorem processBytes (addr : Nat) (h : data.length < 2 ^ (8 * v.wordBytes))
    : Appends v (shaProcessBytes addr data) data := by
  intro ctx m hholds
  exact hholds.processBytes addr h

theorem nothing : Appends v .ok [] := by
  intro ctx m hholds
  refine ⟨ctx, rfl, ?_⟩
  rw [List.append_nil]
  exact hholds

theorem bind (hf : Appends v f data) (hg : Appends v g more) : Appends v (fun ctx => f ctx >>= g) (data ++ more) := by
  intro ctx m hholds
  rcases hf ctx m hholds with ⟨ctx', heq, hholds'⟩
  rcases hg ctx' _ hholds' with ⟨ctx'', heq', hholds''⟩
  rw [List.append_assoc] at hholds''
  refine ⟨ctx'', ?_, hholds''⟩
  dsimp only
  rw [heq, Except.ok_bind, heq']

theorem digest (h : Appends v f data) : (f (shaInitCtx v) >>= shaFinishCtx) = .ok (shaDigest v data) := by
  rcases h _ _ (ShaCtx.holds_init v) with ⟨ctx, heq, hholds⟩
  rw [heq, Except.ok_bind, hholds.finishCtx, List.nil_append]

theorem foldlM {pieces : List (Nat × List UInt8)} (h : ∀ p ∈ pieces, p.2.length < 2 ^ (8 * v.wordBytes))
    : Appends v (fun ctx => pieces.foldlM (fun ctx p => shaProcessBytes p.1 p.2 ctx) ctx)
        (pieces.flatMap Prod.snd) := by
  induction pieces with
  | nil => exact nothing
  | cons p pieces ih =>
    simp only [List.foldlM_cons, List.flatMap_cons]
    exact (processBytes p.1 (h p (by simp))).bind (ih fun q hq => h q (by simp [hq]))

end Appends

/--
However a message is cut into pieces and wherever they are in memory, the buffer of the context is not overrun and the
digest is that of FIPS 180-2.
-/
theorem sha_stream (v : ShaKind) (pieces : List (Nat × List UInt8))
    (h : ∀ p ∈ pieces, p.2.length < 2 ^ (8 * v.wordBytes))
    : (pieces.foldlM (fun ctx p => shaProcessBytes p.1 p.2 ctx) (shaInitCtx v) >>= shaFinishCtx)
        =
      .ok (shaDigest v (pieces.flatMap Prod.snd)) := by
  exact (Appends.foldlM h).digest

theorem sha_stream_abc
    : ([(0, str "a"), (3, str "bc")].foldlM (fun ctx p => shaProcessBytes p.1 p.2 ctx) (shaInitCtx .sha256)
        >>= shaFinishCtx)
        =
      .ok (shaDigest .sha256 (str "abc")) := by
  exact sha_stream .sha256 [(0, str "a"), (3, str "bc")] (by decide +kernel)

example : shaDigest .sha256 (str "abc")
    = [0xba, 0x78, 0x16, 0xbf, 0x8f, 0x01, 0xcf, 0xea, 0x41, 0x41, 0x40, 0xde, 0x5d, 0xae, 0x22, 0x23,
      0xb0, 0x03, 0x61, 0xa3, 0x96, 0x17, 0x7a, 0x9c, 0xb4, 0x10, 0xff, 0x61, 0xf2, 0x00, 0x15, 0xad] := by
  decide +kernel
