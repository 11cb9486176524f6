import TsIngress.BasicLemmas
import TsIngress.Crypt.Impl.Crypt

/-!
This module contains what `crypt/crypt_md5.c` makes of a stored hash. The digest is a parameter.
-/

inductive Md5Magic where
  | md5
  | apr1
  deriving DecidableEq, Repr

def Md5Magic.text : Md5Magic → Str
  | .md5 => str "$1$"
  | .apr1 => str "$apr1$"

structure Md5Digits where
  digits : Str → Md5Magic → Str → Str
  notMem_digits : ∀ pw magic salt, 0 ∉ digits pw magic salt
  length_digits : ∀ pw magic salt, (digits pw magic salt).length = 22

def md5Magic (salt : Str) : Option Md5Magic :=
  if str "$1$" <+: salt then
    some .md5
  else if str "$apr1$" <+: salt then
    some .apr1
  else
    none

-- The salt stops at the first dollar. It fails at the end of the string, and at any other character once
-- `left` are taken.
def md5Salt (left : Nat) (sp : Str) : Option Str :=
  match sp with
  | [] => none
  | c :: rest =>
    if c = 36 then
      some []
    else if c = 0 then
      none
    else
      match left with
      | 0 => none
      | left + 1 => (md5Salt left rest).map (c :: ·)

theorem md5Salt_spec {left : Nat} {sp salt : Str} (h : md5Salt left sp = some salt)
    : 0 ∉ salt ∧ salt.length ≤ left := by
  induction sp generalizing left salt with
  | nil => simp [md5Salt] at h
  | cons c rest ih =>
    unfold md5Salt at h
    split at h
    . cases h
      simp
    . split at h
      . cases h
      . next hc =>
        cases left with
        | zero => cases h
        | succ left =>
          rw [Option.map_eq_some_iff] at h
          rcases h with ⟨salt', hsalt, rfl⟩
          rcases ih hsalt with ⟨hnul, hlen⟩
          simp only [List.mem_cons, not_or, List.length_cons]
          exact ⟨⟨Ne.symm hc, hnul⟩, by omega⟩

def md5Text (md5 : Md5Digits) (pw : Str) (magic : Md5Magic) (salt : Str) (h : 0 ∉ salt ∧ salt.length ≤ 8)
    : CryptText where
  text := magic.text ++ salt ++ 36 :: md5.digits pw magic salt
  notMem_text := by
    have hmagic : 0 ∉ magic.text := by
      cases magic <;> decide
    simp [hmagic, h.1, md5.notMem_digits]
  length_text := by
    have hmagic : magic.text.length ≤ 6 := by
      cases magic <;> decide
    simp only [List.length_append, List.length_cons, md5.length_digits]
    omega

def cryptMd5 (md5 : Md5Digits) (pw salt : Str) : CryptCall :=
  match md5Magic salt with
  | none => .failed [] CryptCall.length_nil
  | some magic =>
    match h : md5Salt 8 (salt.drop magic.text.length) with
    | none => .failed [] CryptCall.length_nil
    | some sl => .done (md5Text md5 pw magic sl (md5Salt_spec h))
