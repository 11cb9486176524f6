import TsIngress.Crypt.Impl.CryptSha
import TsIngress.Crypt.Lemmas.Sha
import Mathlib.Data.Nat.Bits

/-!
This module contains the scheme of SHA-crypt, for any digest, and that `crypt_sha256` and `crypt_sha512` compute it.
-/

namespace ShaCrypt

section

variable (H : List UInt8 → List UInt8) (key salt : List UInt8)

def cycle (text : List UInt8) (n : Nat) : List UInt8 :=
  (List.range n).map fun i => text.getD (i % text.length) 0

def alternate : List UInt8 :=
  H (key ++ salt ++ key)

def first : List UInt8 :=
  H (key ++ salt ++ cycle (alternate H key salt) key.length
    ++ key.length.bits.flatMap fun bit => if bit then alternate H key salt else key)

def seqP : List UInt8 :=
  cycle (H (List.replicate key.length key).flatten) key.length

def seqS : List UInt8 :=
  cycle (H (List.replicate (16 + ((first H key salt).getD 0 0).toNat) salt).flatten) salt.length

def round (C : List UInt8) (i : Nat) : List UInt8 :=
  H ((if i % 2 ≠ 0 then seqP H key else C)
    ++ (if i % 3 ≠ 0 then seqS H key salt else [])
    ++ (if i % 7 ≠ 0 then seqP H key else [])
    ++ (if i % 2 ≠ 0 then C else seqP H key))

-- The scheme for a digest: a first value that is made of the key and the salt, and a number of rounds.
def result (rounds : Nat) : List UInt8 :=
  (List.range rounds).foldl (round H key salt) (first H key salt)

end

theorem length_cycle (text : List UInt8) (n : Nat) : (cycle text n).length = n := by
  rw [cycle, List.length_map, List.length_range]

theorem cycle_of_le {text : List UInt8} {n : Nat} (h : n ≤ text.length) : cycle text n = text.take n := by
  apply List.ext_getElem
  . rw [length_cycle, List.length_take, Nat.min_eq_left h]
  . intro i hi hi'
    rw [length_cycle] at hi
    have hlt : i < text.length := by
      omega
    simp [cycle, Nat.mod_eq_of_lt hlt, List.getElem?_eq_getElem hlt]

theorem cycle_add (text : List UInt8) (n : Nat) : cycle text (text.length + n) = text ++ cycle text n := by
  unfold cycle
  rw [List.range_add, List.map_append, List.map_map]
  have hhead : (List.range text.length).map (fun i => text.getD (i % text.length) 0) = text := by
    have htake := cycle_of_le (Nat.le_refl text.length)
    rw [List.take_length] at htake
    exact htake
  rw [hhead]
  simp [Function.comp_def]

end ShaCrypt

namespace ShaKind

variable (v : ShaKind)

theorem resultBytes_pos : 0 < v.resultBytes := by
  exact Nat.mul_pos (by decide) v.wordBytes_pos

theorem resultBytes_le : v.resultBytes ≤ 64 := by
  cases v with
  | sha256 => decide
  | sha512 => decide

theorem lt_word {n : Nat} (h : n < 0x100000000) : n < 2 ^ (8 * v.wordBytes) := by
  cases v with
  | sha256 => exact h
  | sha512 => exact Nat.lt_trans h (by decide)

end ShaKind

theorem length_shaDigest (v : ShaKind) (m : List UInt8) : (shaDigest v m).length = v.resultBytes := by
  unfold shaDigest ShaState.bytes ShaKind.resultBytes
  simp only [List.length_append, length_shaStore]
  omega

theorem shaSequence_eq {v : ShaKind} {temp : List UInt8} (htemp : temp.length = v.resultBytes) {n cnt : Nat}
    (h : cnt ≤ n)
    : shaSequence v temp n cnt = ShaCrypt.cycle temp cnt := by
  induction n generalizing cnt with
  | zero => rw [Nat.le_zero.mp h]; rfl
  | succ n ih =>
    have hpos := v.resultBytes_pos
    unfold shaSequence
    split
    . next hge =>
      have hcnt : cnt = temp.length + (cnt - v.resultBytes) := by
        omega
      rw [← htemp, List.take_length, htemp, ih (by omega)]
      nth_rewrite 2 [hcnt]
      rw [ShaCrypt.cycle_add]
    . next hlt => rw [ShaCrypt.cycle_of_le (by omega)]

theorem bits_of_pos {n : Nat} (h : n > 0) : n.bits = decide (n % 2 ≠ 0) :: (n / 2).bits := by
  rcases Nat.mod_two_eq_zero_or_one n with heven | hodd
  . have hn : 2 * (n / 2) = n := by
      omega
    have hbits := Nat.bit0_bits (n / 2) (by omega)
    rw [hn] at hbits
    rw [hbits, heven]
    rfl
  . have hn : 2 * (n / 2) + 1 = n := by
      omega
    have hbits := Nat.bit1_bits (n / 2)
    rw [hn] at hbits
    rw [hbits, hodd]
    rfl

namespace Appends

variable {v : ShaKind} (a : ShaAddrs)

theorem addAlt {alt : List UInt8} (halt : alt.length = v.resultBytes) {n cnt : Nat} (h : cnt ≤ n)
    : Appends v (shaAddAlt a alt n cnt) (ShaCrypt.cycle alt cnt) := by
  have hle := v.resultBytes_le
  have hlt : ∀ k, (alt.take k).length < 2 ^ (8 * v.wordBytes) := by
    intro k
    apply v.lt_word
    rw [List.length_take]
    omega
  induction n generalizing cnt with
  | zero =>
    rw [ShaCrypt.cycle_of_le (by omega)]
    exact processBytes a.altResult (hlt cnt)
  | succ n ih =>
    have hpos := v.resultBytes_pos
    by_cases hgt : cnt > v.resultBytes
    . have hturn : shaAddAlt (v := v) a alt (n + 1) cnt
          = fun ctx => shaProcessBytes a.altResult (alt.take v.resultBytes) ctx
            >>= shaAddAlt a alt n (cnt - v.resultBytes) := by
        funext ctx
        rw [shaAddAlt, if_pos hgt]
      have hdata : ShaCrypt.cycle alt cnt = alt.take v.resultBytes ++ ShaCrypt.cycle alt (cnt - v.resultBytes) := by
        rw [List.take_of_length_le (Nat.le_of_eq halt), ← ShaCrypt.cycle_add, halt,
          Nat.add_sub_cancel' (Nat.le_of_lt hgt)]
      rw [hturn, hdata]
      exact (processBytes a.altResult (hlt v.resultBytes)).bind (ih (by omega))
    . have hturn : shaAddAlt (v := v) a alt (n + 1) cnt = shaProcessBytes a.altResult (alt.take cnt) := by
        funext ctx
        rw [shaAddAlt, if_neg hgt]
      rw [hturn, ShaCrypt.cycle_of_le (by omega)]
      exact processBytes a.altResult (hlt cnt)

theorem repeated (addr : Nat) {data : List UInt8} (h : data.length < 2 ^ (8 * v.wordBytes)) (n : Nat)
    : Appends v (shaRepeat addr data n) (List.replicate n data).flatten := by
  induction n with
  | zero => exact nothing
  | succ n ih =>
    rw [List.replicate_succ, List.flatten_cons]
    exact (processBytes addr h).bind ih

theorem ite {c : Prop} [Decidable c] {f g : ShaCtx v → Result (ShaCtx v)} {data more : List UInt8}
    (hf : Appends v f data) (hg : Appends v g more)
    : Appends v (fun ctx => if c then f ctx else g ctx) (if c then data else more) := by
  split
  . exact hf
  . exact hg

theorem addIf (c : Prop) [Decidable c] (addr : Nat) {data : List UInt8} (h : data.length < 2 ^ (8 * v.wordBytes))
    : Appends v (shaAddIf v c addr data) (if c then data else []) := by
  exact (processBytes addr h).ite nothing

theorem addBits {key alt : List UInt8} (hkey : key.length < 2 ^ (8 * v.wordBytes))
    (halt : alt.length < 2 ^ (8 * v.wordBytes)) {n cnt : Nat} (h : cnt ≤ n)
    : Appends v (shaAddBits a key alt n cnt) (cnt.bits.flatMap fun bit => if bit then alt else key) := by
  induction n generalizing cnt with
  | zero =>
    rw [Nat.le_zero.mp h, Nat.zero_bits]
    exact nothing
  | succ n ih =>
    by_cases hpos : cnt > 0
    . have hturn : shaAddBits (v := v) a key alt (n + 1) cnt
          = fun ctx => (if cnt % 2 ≠ 0 then shaProcessBytes a.altResult alt ctx else shaProcessBytes a.key key ctx)
            >>= shaAddBits a key alt n (cnt / 2) := by
        funext ctx
        rw [shaAddBits, if_pos hpos]
        by_cases hbit : cnt % 2 ≠ 0
        . simp only [if_pos hbit]
        . simp only [if_neg hbit]
      have hone := ite (c := cnt % 2 ≠ 0) (processBytes a.altResult halt) (processBytes a.key hkey)
      rw [hturn, bits_of_pos hpos, List.flatMap_cons]
      simp only [decide_eq_true_eq]
      exact hone.bind (ih (by omega))
    . have hturn : shaAddBits (v := v) a key alt (n + 1) cnt = .ok := by
        funext ctx
        rw [shaAddBits, if_neg hpos]
      rw [hturn, show cnt = 0 by omega, Nat.zero_bits]
      exact nothing

end Appends

section

variable (v : ShaKind) (a : ShaAddrs) {key salt : Str}

theorem shaAlternate_eq (hkey : key.length < 0x100000000) (hsalt : salt.length ≤ saltLenMax)
    : shaAlternate v a key salt = .ok (ShaCrypt.alternate (shaDigest v) key salt) := by
  have hsalt' := Appends.processBytes (v := v) a.salt (v.lt_word (Nat.lt_of_le_of_lt hsalt (by decide)))
  have hkey' := Appends.processBytes (v := v) a.key (v.lt_word hkey)
  have hdigest := ((hkey'.bind hsalt').bind hkey').digest
  unfold shaAlternate ShaCrypt.alternate
  rw [← hdigest]
  simp only [bind_assoc]

theorem shaIntermediate_eq (hkey : key.length < 0x100000000) (hsalt : salt.length ≤ saltLenMax)
    : shaIntermediate v a key salt (ShaCrypt.alternate (shaDigest v) key salt)
        =
      .ok (ShaCrypt.first (shaDigest v) key salt) := by
  have halt := length_shaDigest v (key ++ salt ++ key)
  have hle := v.resultBytes_le
  have hsalt' := Appends.processBytes (v := v) a.salt (v.lt_word (Nat.lt_of_le_of_lt hsalt (by decide)))
  have hkey' := Appends.processBytes (v := v) a.key (v.lt_word hkey)
  have hadd := Appends.addAlt (v := v) a halt (Nat.le_refl key.length)
  have halt' : (shaDigest v (key ++ salt ++ key)).length < 0x100000000 := by
    omega
  have hbits := Appends.addBits (v := v) a (v.lt_word hkey) (v.lt_word halt') (Nat.le_refl key.length)
  have hdigest := (((hkey'.bind hsalt').bind hadd).bind hbits).digest
  unfold shaIntermediate ShaCrypt.first ShaCrypt.alternate
  rw [← hdigest]
  simp only [bind_assoc]

theorem shaRepeated_eq (addr : Nat) {data : List UInt8} (h : data.length < 0x100000000) (n : Nat)
    : shaRepeated v addr data n = .ok (shaDigest v (List.replicate n data).flatten) := by
  exact (Appends.repeated addr (v.lt_word h) n).digest

theorem shaRound_eq {C : List UInt8} (hkey : key.length < 0x100000000) (hsalt : salt.length ≤ saltLenMax)
    (hC : C.length = v.resultBytes) (i : Nat)
    : shaRound v a (ShaCrypt.seqP (shaDigest v) key) (ShaCrypt.seqS (shaDigest v) key salt) C i
        =
      .ok (ShaCrypt.round (shaDigest v) key salt C i) := by
  have hle := v.resultBytes_le
  have hP : (ShaCrypt.seqP (shaDigest v) key).length < 0x100000000 := by
    rw [ShaCrypt.seqP, ShaCrypt.length_cycle]
    exact hkey
  have hS : (ShaCrypt.seqS (shaDigest v) key salt).length < 0x100000000 := by
    rw [ShaCrypt.seqS, ShaCrypt.length_cycle]
    exact Nat.lt_of_le_of_lt hsalt (by decide)
  have hC' := Appends.processBytes (v := v) a.altResult (v.lt_word (show C.length < 0x100000000 by omega))
  have hP' := Appends.processBytes (v := v) a.pBytes (v.lt_word hP)
  have hfirst := hP'.ite (c := i % 2 ≠ 0) hC'
  have hlast := hC'.ite (c := i % 2 ≠ 0) hP'
  have hthird := Appends.addIf (v := v) (i % 3 ≠ 0) a.sBytes (v.lt_word hS)
  have hseventh := Appends.addIf (v := v) (i % 7 ≠ 0) a.pBytes (v.lt_word hP)
  have hdigest := (((hfirst.bind hthird).bind hseventh).bind hlast).digest
  unfold shaRound ShaCrypt.round
  by_cases hodd : i % 2 ≠ 0
  . simp only [if_pos hodd, bind_assoc] at hdigest ⊢
    exact hdigest
  . simp only [if_neg hodd, bind_assoc] at hdigest ⊢
    exact hdigest

theorem shaRounds_eq {C : List UInt8} (hkey : key.length < 0x100000000) (hsalt : salt.length ≤ saltLenMax)
    (hC : C.length = v.resultBytes) (rounds : List Nat)
    : rounds.foldlM (shaRound v a (ShaCrypt.seqP (shaDigest v) key) (ShaCrypt.seqS (shaDigest v) key salt)) C
        =
      .ok (rounds.foldl (ShaCrypt.round (shaDigest v) key salt) C) := by
  induction rounds generalizing C with
  | nil => rfl
  | cons i rounds ih =>
    rw [List.foldlM_cons, shaRound_eq v a hkey hsalt hC, Except.ok_bind, List.foldl_cons]
    exact ih (length_shaDigest v _)

theorem shaCryptResult_eq {s : ShaSetting} (hkey : key.length < 0x100000000) (hsalt : s.salt.length ≤ saltLenMax)
    : shaCryptResult v a key s = .ok (ShaCrypt.result (shaDigest v) key s.salt s.rounds) := by
  have hsalt' : s.salt.length < 0x100000000 := Nat.lt_of_le_of_lt hsalt (by decide)
  unfold shaCryptResult
  rw [shaAlternate_eq v a hkey hsalt, Except.ok_bind, shaIntermediate_eq v a hkey hsalt, Except.ok_bind,
    shaRepeated_eq v a.key hkey, Except.ok_bind]
  dsimp only
  rw [shaRepeated_eq v a.salt hsalt', Except.ok_bind, shaSequence_eq (length_shaDigest v _) (Nat.le_refl _),
    shaSequence_eq (length_shaDigest v _) (Nat.le_refl _)]
  exact shaRounds_eq v a hkey hsalt (length_shaDigest v _) _

end
