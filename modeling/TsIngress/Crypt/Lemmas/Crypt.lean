import TsIngress.Auth.Impl.Basic
import TsIngress.Crypt.Impl.Md5
import TsIngress.Util.Lemmas.Base64

/-!
This module contains what a password check rests on: the stored hash, or what was on the stack before it.
-/

def Recomputed (crypt : Str → Str → CryptCall) (plain hash : Str) : Prop :=
  ∃ out, crypt plain hash = .done out ∧ out.text = hash

-- A stored hash is that of a password, by the format it was recognised as.
def HashOf (alg : CryptAlgorithms) (plain hash : Str) : CryptCheckFn → Prop
  | .des => Recomputed alg.cryptDes plain hash
  | .phkMd5 => Recomputed alg.cryptMd5 plain hash
  | .blowfish => Recomputed alg.cryptBlowfish plain hash
  | .sha256 => Recomputed alg.cryptSha256 plain hash
  | .sha512 => Recomputed alg.cryptSha512 plain hash
  | .rfc2307Plain => hash = str "{PLAIN}" ++ plain
  | .rfc2307Sha => ∃ text, hash = str "{SHA}" ++ text ∧ base64Decode text = (20, alg.sha1 plain)
  | .rfc2307Ssha =>
    ∃ text salt,
      hash = str "{SSHA}" ++ text
        ∧ salt ≠ []
        ∧ base64Decode text = (20 + (salt.length : Int), alg.sha1 (plain ++ salt) ++ salt)

-- The answer is the same whatever was on the stack, and it is yes only for the password of the stored hash.
def ChecksStoredHash (alg : CryptAlgorithms) (plain hash : Str) : Prop :=
  ∃ r,
    (∀ buf, cryptCheck alg plain hash buf = .ok r)
      ∧
    (r = true
      → ∃ fn, getCryptFunction (cryptPayload hash) = some fn ∧ HashOf alg plain (cryptPayload hash) fn)

def CryptCheckFn.algorithm (alg : CryptAlgorithms) : CryptCheckFn → Option (Str → Str → CryptCall)
  | .des => some alg.cryptDes
  | .phkMd5 => some alg.cryptMd5
  | .blowfish => some alg.cryptBlowfish
  | .sha256 => some alg.cryptSha256
  | .sha512 => some alg.cryptSha512
  | .rfc2307Plain => none
  | .rfc2307Sha => none
  | .rfc2307Ssha => none

/--
The selected algorithm reports success, or one of the bytes it wrote before it failed is not the one that the
stored hash has there.
-/
def ResultWritten (alg : CryptAlgorithms) (plain hash : Str) : Prop :=
  ∀ fn crypt, getCryptFunction hash = some fn → fn.algorithm alg = some crypt
    → (∃ out, crypt plain hash = .done out) ∨ Overlay.Clash 0 (crypt plain hash).written hash

theorem notMem_cryptPayload {hash : Str} (h : 0 ∉ hash) : 0 ∉ cryptPayload hash := by
  unfold cryptPayload
  split
  . intro hmem
    exact h (List.mem_of_mem_drop hmem)
  . exact h

namespace CryptCall

theorem length_written_le (call : CryptCall) : call.written.length ≤ 128 := by
  cases call with
  | done out =>
    have := out.length_text
    simp only [written, List.length_map, List.length_append, List.length_singleton]
    omega
  | failed written length_written => exact length_written

end CryptCall

namespace cryptCheckWith

variable {crypt : Str → Str → CryptCall} {plain hashed : Str}

theorem eq_of_done {out : CryptText} (h : crypt plain hashed = .done out) (hhashed : 0 ∉ hashed) (buf : StackBuf)
    : cryptCheckWith crypt plain hashed buf = .ok (decide (out.text = hashed)) := by
  have hlen : (out.text ++ [0]).length ≤ buf.bytes.length := by
    have := out.length_text
    rw [buf.length_bytes, List.length_append, List.length_singleton]
    omega
  unfold cryptCheckWith strcmpBuf
  rw [h, CryptCall.written, Overlay.overlay_map_some _ _ hlen, List.append_assoc, List.singleton_append,
    Overlay.compare_append out.notMem_text hhashed]

theorem eq_false_of_clash (h : Overlay.Clash 0 (crypt plain hashed).written hashed) (buf : StackBuf)
    : cryptCheckWith crypt plain hashed buf = .ok false := by
  have hlen : (crypt plain hashed).written.length ≤ buf.bytes.length := by
    rw [buf.length_bytes]
    exact CryptCall.length_written_le _
  unfold cryptCheckWith strcmpBuf
  rw [Overlay.compare_overlay_of_clash h hlen]

-- The stack may hold the stored hash itself, as far as it fits.
theorem exists_of_not_clash (h : ¬ Overlay.Clash 0 (crypt plain hashed).written hashed)
    : ∃ buf, cryptCheckWith crypt plain hashed buf
        = if hashed.length < 128 then .ok true else .error .outOfBounds := by
  rcases Overlay.exists_compare_of_not_clash h 128 with ⟨bytes, hlen, hcmp⟩
  refine ⟨⟨bytes, hlen⟩, ?_⟩
  unfold cryptCheckWith strcmpBuf
  rw [hcmp]
  by_cases hfits : hashed.length < 128
  . rw [if_pos hfits, if_pos hfits]
  . rw [if_neg hfits, if_neg hfits]

end cryptCheckWith

theorem append_drop_of_isPrefix {p s : Str} (h : p <+: s) : s = p ++ s.drop p.length := by
  rw [List.prefix_iff_eq_append] at h
  exact h.symm

theorem checkBehindName_iff (name hashed : Str) (check : Str → Bool)
    : (if ¬ name <+: hashed then false else check (hashed.drop name.length)) = true
        ↔
      ∃ text, hashed = name ++ text ∧ check text = true := by
  constructor
  . intro h
    split at h
    . cases h
    . next hname =>
      rw [not_not] at hname
      exact ⟨hashed.drop name.length, append_drop_of_isPrefix hname, h⟩
  . rintro ⟨text, rfl, h⟩
    rw [if_neg (not_not.mpr (List.prefix_append name text)), List.drop_left]
    exact h

theorem cryptCheckRfc2307Plain_iff (plain hashed : Str)
    : cryptCheckRfc2307Plain plain hashed = true ↔ hashed = str "{PLAIN}" ++ plain := by
  have hnamed := checkBehindName_iff (str "{PLAIN}") hashed (fun text => text == plain)
  have hlen : (str "{PLAIN}").length = 7 := by
    decide
  rw [hlen] at hnamed
  refine hnamed.trans ?_
  constructor
  . rintro ⟨text, rfl, h⟩
    rw [beq_iff_eq] at h
    rw [h]
  . intro h
    exact ⟨plain, h, beq_self_eq_true plain⟩

namespace base64Decode

theorem length_of_nonneg {text : Str} {s : Int} {b : List UInt8} (h : base64Decode text = (s, b)) (hs : 0 ≤ s)
    : (b.length : Int) = s := by
  rcases (base64Decode.bounds text).2 with hret | hret
  . rw [h] at hret
    simp only at hret
    omega
  . rw [h] at hret
    exact hret.symm

end base64Decode

theorem cryptCheckRfc2307Sha_iff (alg : CryptAlgorithms) (plain hashed : Str)
    : cryptCheckRfc2307Sha alg plain hashed = true
        ↔
      ∃ text, hashed = str "{SHA}" ++ text ∧ base64Decode text = (20, alg.sha1 plain) := by
  have hlen : (str "{SHA}").length = 5 := by
    decide
  have hsha := alg.length_sha1 plain
  have hnamed := checkBehindName_iff (str "{SHA}") hashed fun text =>
    if (base64Decode text).1 ≠ 20 then false else (base64Decode text).2.take 20 == alg.sha1 plain
  rw [hlen] at hnamed
  refine hnamed.trans (exists_congr fun text => and_congr_right fun _ => ?_)
  rcases hb : base64Decode text with ⟨s, b⟩
  rw [Prod.mk.injEq]
  by_cases hs : s = 20
  . have hblen := base64Decode.length_of_nonneg hb (by omega)
    simp only [hs, ne_eq, not_true_eq_false, if_false, beq_iff_eq, true_and]
    rw [List.take_of_length_le (by omega)]
  . simp [hs]

theorem cryptCheckRfc2307Ssha_iff (alg : CryptAlgorithms) (plain hashed : Str)
    : cryptCheckRfc2307Ssha alg plain hashed = true
        ↔
      ∃ text salt,
        hashed = str "{SSHA}" ++ text
          ∧ salt ≠ []
          ∧ base64Decode text = (20 + (salt.length : Int), alg.sha1 (plain ++ salt) ++ salt) := by
  have hlen : (str "{SSHA}").length = 6 := by
    decide
  have hnamed := checkBehindName_iff (str "{SSHA}") hashed fun text =>
    if (base64Decode text).1 ≤ 20 then false else
      (base64Decode text).2.take 20
        ==
      alg.sha1 (plain ++ ((base64Decode text).2.drop 20).take ((base64Decode text).1.toNat - 20))
  rw [hlen] at hnamed
  refine hnamed.trans (exists_congr fun text => ?_)
  rw [exists_and_left]
  refine and_congr_right fun _ => ?_
  rcases hb : base64Decode text with ⟨s, b⟩
  simp only [Prod.mk.injEq]
  constructor
  . intro h
    by_cases hs : s ≤ 20
    . simp [hs] at h
    . have hblen := base64Decode.length_of_nonneg hb (by omega)
      have hsalt : (b.drop 20).take (s.toNat - 20) = b.drop 20 := by
        apply List.take_of_length_le
        rw [List.length_drop]
        omega
      rw [if_neg hs, hsalt, beq_iff_eq] at h
      refine ⟨b.drop 20, ?_, ?_, ?_⟩
      . rw [← List.length_pos_iff, List.length_drop]
        omega
      . rw [List.length_drop]
        omega
      . rw [← h, List.take_append_drop]
  . rintro ⟨salt, hne, rfl, rfl⟩
    have hsha := alg.length_sha1 (plain ++ salt)
    have hpos := List.length_pos_iff.mpr hne
    have hs : ¬ (20 + (salt.length : Int)) ≤ 20 := by
      omega
    have hn : (20 + (salt.length : Int)).toNat - 20 = salt.length := by
      omega
    rw [if_neg hs, hn, List.take_left' hsha, List.drop_left' hsha, List.take_length, beq_self_eq_true]

namespace CryptCheckFn

theorem run_eq_cryptCheckWith {alg : CryptAlgorithms} {fn : CryptCheckFn} {crypt : Str → Str → CryptCall}
    (h : fn.algorithm alg = some crypt) (plain hashed : Str) (buf : StackBuf)
    : fn.run alg plain hashed buf = cryptCheckWith crypt plain hashed buf := by
  cases fn <;> cases h <;> rfl

theorem hashOf_iff_recomputed {alg : CryptAlgorithms} {fn : CryptCheckFn} {crypt : Str → Str → CryptCall}
    (h : fn.algorithm alg = some crypt) (plain hashed : Str)
    : HashOf alg plain hashed fn ↔ Recomputed crypt plain hashed := by
  cases fn <;> cases h <;> rfl

theorem exists_run_of_algorithm_eq_none {alg : CryptAlgorithms} {fn : CryptCheckFn} (h : fn.algorithm alg = none)
    (plain hashed : Str)
    : ∃ r, (∀ buf, fn.run alg plain hashed buf = .ok r) ∧ (r = true → HashOf alg plain hashed fn) := by
  cases fn with
  | rfc2307Plain =>
    exact ⟨_, fun _ => rfl, (cryptCheckRfc2307Plain_iff plain hashed).mp⟩
  | rfc2307Sha =>
    exact ⟨_, fun _ => rfl, (cryptCheckRfc2307Sha_iff alg plain hashed).mp⟩
  | rfc2307Ssha =>
    exact ⟨_, fun _ => rfl, (cryptCheckRfc2307Ssha_iff alg plain hashed).mp⟩
  | des => cases h
  | phkMd5 => cases h
  | blowfish => cases h
  | sha256 => cases h
  | sha512 => cases h

end CryptCheckFn

theorem cryptCheck_eq {alg : CryptAlgorithms} {hash : Str} {fn : CryptCheckFn}
    (h : getCryptFunction (cryptPayload hash) = some fn) (plain : Str) (buf : StackBuf)
    : cryptCheck alg plain hash buf = fn.run alg plain (cryptPayload hash) buf := by
  rw [cryptCheck, h]

theorem exists_cryptCheck_of_not_clash {alg : CryptAlgorithms} {plain hash : Str} {fn : CryptCheckFn}
    {crypt : Str → Str → CryptCall} (hfn : getCryptFunction (cryptPayload hash) = some fn)
    (hcrypt : fn.algorithm alg = some crypt)
    (hclash : ¬ Overlay.Clash 0 (crypt plain (cryptPayload hash)).written (cryptPayload hash))
    : ∃ buf, cryptCheck alg plain hash buf
        = if (cryptPayload hash).length < 128 then .ok true else .error .outOfBounds := by
  rcases cryptCheckWith.exists_of_not_clash hclash with ⟨buf, hbuf⟩
  refine ⟨buf, ?_⟩
  rw [cryptCheck_eq hfn, CryptCheckFn.run_eq_cryptCheckWith hcrypt, hbuf]

theorem not_checksStoredHash_of_not_clash {alg : CryptAlgorithms} {plain hash : Str} {fn : CryptCheckFn}
    {crypt : Str → Str → CryptCall} (hfn : getCryptFunction (cryptPayload hash) = some fn)
    (hcrypt : fn.algorithm alg = some crypt)
    (hfailed : ¬ ∃ out, crypt plain (cryptPayload hash) = .done out)
    (hclash : ¬ Overlay.Clash 0 (crypt plain (cryptPayload hash)).written (cryptPayload hash))
    : ¬ ChecksStoredHash alg plain hash := by
  rintro ⟨r, hrun, hsound⟩
  rcases exists_cryptCheck_of_not_clash hfn hcrypt hclash with ⟨buf, hbuf⟩
  have hr := hrun buf
  rw [hbuf] at hr
  split at hr
  . cases hr
    rcases hsound rfl with ⟨fn', hfn', hhash⟩
    rw [hfn] at hfn'
    cases hfn'
    rw [CryptCheckFn.hashOf_iff_recomputed hcrypt] at hhash
    rcases hhash with ⟨out, hout, -⟩
    exact hfailed ⟨out, hout⟩
  . cases hr

theorem checksStoredHash_of_resultWritten {alg : CryptAlgorithms} {plain hash : Str} (hhash : 0 ∉ hash)
    (h : ResultWritten alg plain (cryptPayload hash))
    : ChecksStoredHash alg plain hash := by
  cases hfn : getCryptFunction (cryptPayload hash) with
  | none =>
    refine ⟨false, ?_, by simp⟩
    intro buf
    rw [cryptCheck, hfn]
  | some fn =>
    cases hcrypt : fn.algorithm alg with
    | none =>
      rcases CryptCheckFn.exists_run_of_algorithm_eq_none hcrypt plain (cryptPayload hash) with ⟨r, hrun, hsound⟩
      refine ⟨r, ?_, fun hr => ⟨fn, hfn, hsound hr⟩⟩
      intro buf
      rw [cryptCheck_eq hfn, hrun]
    | some crypt =>
      rcases h fn crypt hfn hcrypt with ⟨out, hout⟩ | hclash
      . refine ⟨decide (out.text = cryptPayload hash), ?_, ?_⟩
        . intro buf
          rw [cryptCheck_eq hfn, CryptCheckFn.run_eq_cryptCheckWith hcrypt,
            cryptCheckWith.eq_of_done hout (notMem_cryptPayload hhash)]
        . intro hr
          refine ⟨fn, hfn, ?_⟩
          rw [CryptCheckFn.hashOf_iff_recomputed hcrypt]
          exact ⟨out, hout, by simpa using hr⟩
      . refine ⟨false, ?_, by simp⟩
        intro buf
        rw [cryptCheck_eq hfn, CryptCheckFn.run_eq_cryptCheckWith hcrypt, cryptCheckWith.eq_false_of_clash hclash]

theorem checksStoredHash_iff_done {alg : CryptAlgorithms} {plain hash : Str} {fn : CryptCheckFn}
    {crypt : Str → Str → CryptCall} (hhash : 0 ∉ hash) (hfn : getCryptFunction (cryptPayload hash) = some fn)
    (hcrypt : fn.algorithm alg = some crypt)
    (hcopies : (∃ out, crypt plain (cryptPayload hash) = .done out)
      ∨ ¬ Overlay.Clash 0 (crypt plain (cryptPayload hash)).written (cryptPayload hash))
    : ChecksStoredHash alg plain hash ↔ ∃ out, crypt plain (cryptPayload hash) = .done out := by
  constructor
  . intro h
    by_contra hfailed
    rcases hcopies with hdone | hclash
    . exact hfailed hdone
    . exact not_checksStoredHash_of_not_clash hfn hcrypt hfailed hclash h
  . intro hdone
    apply checksStoredHash_of_resultWritten hhash
    intro fn' crypt' hfn' hcrypt'
    rw [hfn, Option.some.injEq] at hfn'
    subst hfn'
    rw [hcrypt, Option.some.injEq] at hcrypt'
    subst hcrypt'
    exact .inl hdone

def Md5Setting (hash : Str) : Prop :=
  ∃ (magic : Md5Magic) (salt rest : Str),
    hash = magic.text ++ salt ++ 36 :: rest ∧ 36 ∉ salt ∧ 0 ∉ salt ∧ salt.length ≤ 8

theorem md5Magic_eq_some_iff (salt : Str) (magic : Md5Magic)
    : md5Magic salt = some magic ↔ magic.text <+: salt := by
  -- neither magic begins with the other
  have hdisjoint : str "$1$" <+: salt → ¬ str "$apr1$" <+: salt := by
    intro hmd5 hapr1
    have hpre := List.prefix_of_prefix_length_le hmd5 hapr1 (by decide)
    revert hpre
    decide
  unfold md5Magic
  cases magic with
  | md5 =>
    split
    . next h => exact iff_of_true rfl h
    . next h =>
      refine iff_of_false ?_ h
      split <;> simp
  | apr1 =>
    split
    . next h => exact iff_of_false (by simp) (hdisjoint h)
    . split
      . next h => exact iff_of_true rfl h
      . next h => exact iff_of_false (by simp) h

theorem md5Salt_eq_some_iff (left : Nat) (sp salt : Str)
    : md5Salt left sp = some salt
        ↔
      (∃ rest, sp = salt ++ 36 :: rest) ∧ 36 ∉ salt ∧ 0 ∉ salt ∧ salt.length ≤ left := by
  induction sp generalizing left salt with
  | nil => simp [md5Salt]
  | cons c sp ih =>
    unfold md5Salt
    cases salt with
    | nil =>
      split
      . next hc => simp [hc]
      . next hc =>
        refine iff_of_false ?_ (by simp [hc])
        split
        . simp
        . cases left <;> simp
    | cons d salt =>
      split
      . next hc =>
        subst hc
        refine iff_of_false (by simp) ?_
        rintro ⟨⟨rest, hrest⟩, hdollar, -⟩
        cases hrest
        simp at hdollar
      . next hdollar =>
        split
        . next hc =>
          subst hc
          refine iff_of_false (by simp) ?_
          rintro ⟨⟨rest, hrest⟩, -, hnul, -⟩
          cases hrest
          simp at hnul
        . next hnul =>
          cases left with
          | zero => simp
          | succ left =>
            simp only [Option.map_eq_some_iff, List.cons.injEq, ih, List.cons_append, List.mem_cons, not_or,
              List.length_cons, Nat.add_le_add_iff_right]
            constructor
            . rintro ⟨_, ⟨⟨rest, rfl⟩, h36, h0, hlen⟩, rfl, rfl⟩
              exact ⟨⟨rest, rfl, rfl⟩, ⟨Ne.symm hdollar, h36⟩, ⟨Ne.symm hnul, h0⟩, hlen⟩
            . rintro ⟨⟨rest, rfl, rfl⟩, ⟨-, h36⟩, ⟨-, h0⟩, hlen⟩
              exact ⟨salt, ⟨⟨rest, rfl⟩, h36, h0, hlen⟩, rfl, rfl⟩

namespace cryptMd5

theorem eq_done_or_eq_failed (md5 : Md5Digits) (pw salt : Str)
    : (∃ out, cryptMd5 md5 pw salt = .done out) ∨ cryptMd5 md5 pw salt = .failed [] CryptCall.length_nil := by
  unfold cryptMd5
  split
  . exact .inr rfl
  . split
    . exact .inr rfl
    . exact .inl ⟨_, rfl⟩

theorem eq_failed_of_md5Salt (md5 : Md5Digits) (pw : Str) {salt : Str} {magic : Md5Magic}
    (hmagic : md5Magic salt = some magic) (hsalt : md5Salt 8 (salt.drop magic.text.length) = none)
    : cryptMd5 md5 pw salt = .failed [] CryptCall.length_nil := by
  unfold cryptMd5
  rw [hmagic]
  split
  . rfl
  . next heq =>
    cases heq
    split
    . rfl
    . next heq =>
      rw [hsalt] at heq
      cases heq

theorem done_iff (md5 : Md5Digits) (pw salt : Str)
    : (∃ out, cryptMd5 md5 pw salt = .done out) ↔ Md5Setting salt := by
  unfold cryptMd5
  split
  . next hmagic =>
    refine iff_of_false (by simp) ?_
    rintro ⟨magic, sl, rest, rfl, -⟩
    have hpre : magic.text <+: magic.text ++ sl ++ 36 :: rest := by
      rw [List.append_assoc]
      exact List.prefix_append _ _
    rw [← md5Magic_eq_some_iff, hmagic] at hpre
    cases hpre
  . next magic hmagic =>
    have hpre := (md5Magic_eq_some_iff salt magic).mp hmagic
    split
    . next hsalt =>
      refine iff_of_false (by simp) ?_
      rintro ⟨magic', sl, rest, rfl, h36, h0, hlen⟩
      have hpre' : magic'.text <+: magic'.text ++ sl ++ 36 :: rest := by
        rw [List.append_assoc]
        exact List.prefix_append _ _
      rw [← md5Magic_eq_some_iff, hmagic] at hpre'
      cases hpre'
      have hsome := (md5Salt_eq_some_iff 8 (sl ++ 36 :: rest) sl).mpr ⟨⟨rest, rfl⟩, h36, h0, hlen⟩
      rw [List.append_assoc, List.drop_left, hsome] at hsalt
      cases hsalt
    . next sl hsalt =>
      refine iff_of_true ⟨_, rfl⟩ ?_
      rcases (md5Salt_eq_some_iff 8 _ sl).mp hsalt with ⟨⟨rest, hrest⟩, h36, h0, hlen⟩
      refine ⟨magic, sl, rest, ?_, h36, h0, hlen⟩
      rw [List.append_assoc, ← hrest]
      exact append_drop_of_isPrefix hpre

end cryptMd5

theorem checksStoredHash_md5_iff {alg : CryptAlgorithms} {md5 : Md5Digits} (halg : alg.cryptMd5 = cryptMd5 md5)
    (plain : Str) {hash : Str} (hhash : 0 ∉ hash) (hfn : getCryptFunction (cryptPayload hash) = some .phkMd5)
    : ChecksStoredHash alg plain hash ↔ Md5Setting (cryptPayload hash) := by
  have hcrypt : CryptCheckFn.phkMd5.algorithm alg = some (cryptMd5 md5) := by
    rw [← halg]
    rfl
  rw [← cryptMd5.done_iff md5 plain]
  apply checksStoredHash_iff_done hhash hfn hcrypt
  rcases cryptMd5.eq_done_or_eq_failed md5 plain (cryptPayload hash) with hdone | hfailed
  . exact .inl hdone
  . right
    rw [hfailed]
    exact Overlay.not_clash_nil 0 _

/--
A password check answers for the stored hash exactly when its algorithm has written its result, or at least a
byte that tells it apart from the stored hash. Otherwise the comparison is with what was on the stack.
-/
theorem checksStoredHash_iff (alg : CryptAlgorithms) (plain hash : Str) (hhash : 0 ∉ hash)
    : ChecksStoredHash alg plain hash ↔ ResultWritten alg plain (cryptPayload hash) := by
  constructor
  . intro h fn crypt hfn hcrypt
    by_contra hneither
    rw [not_or] at hneither
    exact not_checksStoredHash_of_not_clash hfn hcrypt hneither.1 hneither.2 h
  . exact checksStoredHash_of_resultWritten hhash

def dotDigits : Md5Digits where
  digits := fun _ _ _ => List.replicate 22 46
  notMem_digits := by simp
  length_digits := by simp

def md5Only : CryptAlgorithms where
  cryptDes := fun _ _ => .failed [] CryptCall.length_nil
  cryptMd5 := cryptMd5 dotDigits
  cryptBlowfish := fun _ _ => .failed [] CryptCall.length_nil
  cryptSha256 := fun _ _ => .failed [] CryptCall.length_nil
  cryptSha512 := fun _ _ => .failed [] CryptCall.length_nil
  sha1 := fun _ => List.replicate 20 0
  length_sha1 := fun _ => List.length_replicate

theorem checksStoredHash_iff_salted
    : ChecksStoredHash md5Only (str "secret") (str "$1$salt$......................") := by
  have hpayload : cryptPayload (str "$1$salt$......................") = str "$1$salt$......................" := by
    decide
  have hselects : getCryptFunction (str "$1$salt$......................") = some .phkMd5 := by
    decide
  have hsetting : Md5Setting (str "$1$salt$......................") :=
    ⟨.md5, str "salt", str "......................", by decide, by decide, by decide, by decide⟩
  apply (checksStoredHash_iff md5Only (str "secret") (str "$1$salt$......................") (by decide)).mpr
  rw [hpayload]
  generalize str "$1$salt$......................" = hash at hselects hsetting
  intro fn crypt hfn hcrypt
  rw [hselects, Option.some.injEq] at hfn
  subst hfn
  cases hcrypt
  exact .inl ((cryptMd5.done_iff dotDigits (str "secret") hash).mpr hsetting)

/--
The salt has no end, so the algorithm writes nothing. With the stored hash itself on the stack, any password
is right.
-/
theorem not_checksStoredHash_unterminatedSalt
    : (∃ buf, cryptCheck md5Only (str "guess") (str "$1$abcdefghijk") buf = .ok true)
      ∧ ¬ ChecksStoredHash md5Only (str "guess") (str "$1$abcdefghijk") := by
  have hpayload : cryptPayload (str "$1$abcdefghijk") = str "$1$abcdefghijk" := by
    decide
  have hfn : getCryptFunction (str "$1$abcdefghijk") = some .phkMd5 := by
    decide
  have hlen : (str "$1$abcdefghijk").length < 128 := by
    decide
  have hmagic : md5Magic (str "$1$abcdefghijk") = some .md5 := by
    decide
  have hsalt : md5Salt 8 ((str "$1$abcdefghijk").drop Md5Magic.md5.text.length) = none := by
    decide +kernel
  generalize str "$1$abcdefghijk" = hash at *
  have hcrypt : CryptCheckFn.phkMd5.algorithm md5Only = some (cryptMd5 dotDigits) := by
    rfl
  have hfailed : cryptMd5 dotDigits (str "guess") (cryptPayload hash) = .failed [] CryptCall.length_nil := by
    rw [hpayload]
    exact cryptMd5.eq_failed_of_md5Salt dotDigits (str "guess") hmagic hsalt
  have hclash : ¬ Overlay.Clash 0 (cryptMd5 dotDigits (str "guess") (cryptPayload hash)).written
      (cryptPayload hash) := by
    rw [hfailed]
    exact Overlay.not_clash_nil 0 _
  rw [← hpayload] at hfn hlen
  constructor
  . rcases exists_cryptCheck_of_not_clash hfn hcrypt hclash with ⟨buf, hbuf⟩
    rw [if_pos hlen] at hbuf
    exact ⟨buf, hbuf⟩
  . refine not_checksStoredHash_of_not_clash hfn hcrypt ?_ hclash
    rw [hfailed]
    simp

def ChecksPasswordsWith (env : Env) (alg : CryptAlgorithms) : Prop :=
  ∀ plain hash buf, 0 ∉ hash → cryptCheck alg plain hash buf = .ok (env.cryptCheck plain hash)

theorem exists_checksPasswordsWith (env : Env) {alg : CryptAlgorithms}
    (h : ∀ plain hash, 0 ∉ hash → ResultWritten alg plain (cryptPayload hash))
    : ∃ check, ChecksPasswordsWith { env with cryptCheck := check } alg := by
  have hresult : ∀ plain hash, ∃ r, 0 ∉ hash → ∀ buf, cryptCheck alg plain hash buf = .ok r := by
    intro plain hash
    by_cases hhash : 0 ∈ hash
    . exact ⟨false, fun hn => absurd hhash hn⟩
    . rcases checksStoredHash_of_resultWritten hhash (h plain hash hhash) with ⟨r, hrun, -⟩
      exact ⟨r, fun _ => hrun⟩
  choose check hcheck using hresult
  exact ⟨check, fun plain hash buf hhash => hcheck plain hash hhash buf⟩

theorem hashOf_of_authCheckPassword {env : Env} {alg : CryptAlgorithms} (henv : ChecksPasswordsWith env alg)
    {users : Hash Str} {user pass hash : Str} (hget : hashGet users user = some hash) (hhash : 0 ∉ hash)
    (hwritten : ResultWritten alg pass (cryptPayload hash)) (h : authCheckPassword env users user pass = true)
    : ∃ fn, getCryptFunction (cryptPayload hash) = some fn ∧ HashOf alg pass (cryptPayload hash) fn := by
  rcases checksStoredHash_of_resultWritten hhash hwritten with ⟨r, hrun, hsound⟩
  apply hsound
  have hbuf := hrun ⟨List.replicate 128 0, List.length_replicate⟩
  rw [henv pass hash _ hhash, Except.ok.injEq] at hbuf
  rw [authCheckPassword, hget] at h
  rw [← hbuf]
  exact h
