import TsIngress.Crypt.Impl.Crypt

/-!
This module contains what `crypt/crypt_des.c` makes of a stored hash. The cipher is a parameter.
-/

structure DesDigits where
  digits : Str → Str → Str
  notMem_digits : ∀ key setting, 0 ∉ digits key setting
  length_digits : ∀ key setting, (digits key setting).length = 11

def itoa64 : Str :=
  str "./0123456789ABCDEFGHIJKLMNOPQRSTUVWXYZabcdefghijklmnopqrstuvwxyz"

-- The character is taken as a signed one.
def asciiToBin (ch : UInt8) : UInt8 :=
  let retval :=
    if 97 ≤ ch && ch < 128 then
      ch - 59
    else if 65 ≤ ch && ch < 128 then
      ch - 53
    else
      ch - 46
  retval &&& (0x3F : UInt8)

def asciiIsUnsafe (ch : UInt8) : Bool :=
  ch == 0 || ch == 10 || ch == 58

def isDesDigit (ch : UInt8) : Bool :=
  itoa64.getD (asciiToBin ch).toNat 0 == ch

-- The bytes of a setting. What is behind its terminator is read as well.
def settingAt (beyond : Nat → UInt8) (setting : Str) (i : Nat) : UInt8 :=
  (setting ++ [0]).getD i (beyond i)

-- A field is copied from its last byte to its first, and no further than to the first that is not a digit.
def desCopy (setting : Nat → UInt8) (pos n : Nat) (encp : List (Option UInt8)) : Bool × List (Option UInt8) :=
  match n with
  | 0 => (true, encp)
  | i + 1 =>
    if isDesDigit (setting (pos + i)) then
      desCopy setting pos i (encp.set (pos + i) (some (setting (pos + i))))
    else
      (false, encp)

theorem length_desCopy (setting : Nat → UInt8) (pos n : Nat) (encp : List (Option UInt8))
    : (desCopy setting pos n encp).2.length = encp.length := by
  induction n generalizing encp with
  | zero => rfl
  | succ i ih =>
    unfold desCopy
    split
    . rw [ih, List.length_set]
    . rfl

theorem desCopy_eq_true_iff (setting : Nat → UInt8) (pos n : Nat) (encp : List (Option UInt8))
    : (desCopy setting pos n encp).1 = true ↔ ∀ i < n, isDesDigit (setting (pos + i)) = true := by
  induction n generalizing encp with
  | zero => simp [desCopy]
  | succ n ih =>
    unfold desCopy
    split
    . next hdigit =>
      rw [ih]
      constructor
      . intro h i hi
        rcases Nat.lt_succ_iff_lt_or_eq.mp hi with hlt | rfl
        . exact h i hlt
        . exact hdigit
      . intro h i hi
        exact h i (by omega)
    . next hdigit =>
      refine iff_of_false Bool.false_ne_true ?_
      intro h
      exact hdigit (h n (by omega))

def desNumIter (setting : Nat → UInt8) : Nat :=
  [4, 3, 2, 1].foldl (fun numIter i => numIter * 64 + (asciiToBin (setting i)).toNat) 0

def desText (des : DesDigits) (key : Str) (setting : Nat → UInt8) (n : Nat) (hn : n ≤ 9)
    (h : ∀ i < n, setting i ≠ 0)
    : CryptText where
  text := (List.range n).map setting ++ des.digits key ((List.range n).map setting)
  notMem_text := by
    rw [List.mem_append, not_or]
    refine ⟨?_, des.notMem_digits _ _⟩
    rw [List.mem_map]
    rintro ⟨i, hi, hzero⟩
    exact h i (List.mem_range.mp hi) hzero
  length_text := by
    rw [List.length_append, des.length_digits, List.length_map, List.length_range]
    omega

theorem ne_zero_of_isDesDigit {ch : UInt8} (h : isDesDigit ch = true) : ch ≠ 0 := by
  rintro rfl
  revert h
  decide

def desCopyCount (setting : Nat → UInt8) : Bool × List (Option UInt8) :=
  desCopy setting 1 4 ((List.replicate 21 none).set 0 (some (setting 0)))

def desCopySalt (setting : Nat → UInt8) : Bool × List (Option UInt8) :=
  desCopy setting 5 4 (desCopyCount setting).2

theorem length_desCopyCount (setting : Nat → UInt8) : (desCopyCount setting).2.length ≤ 128 := by
  rw [desCopyCount, length_desCopy, List.length_set, List.length_replicate]
  decide

theorem length_desCopySalt (setting : Nat → UInt8) : (desCopySalt setting).2.length ≤ 128 := by
  rw [desCopySalt, length_desCopy]
  exact length_desCopyCount setting

theorem isDesDigit_of_desCopy {setting : Nat → UInt8} (hcount : (desCopyCount setting).1 = true)
    (hsalt : (desCopySalt setting).1 = true)
    : ∀ i, 1 ≤ i → i < 9 → isDesDigit (setting i) = true := by
  intro i hpos hi
  by_cases hfirst : i < 5
  . have hdigit := (desCopy_eq_true_iff _ _ _ _).mp hcount (i - 1) (by omega)
    rwa [Nat.add_sub_cancel' hpos] at hdigit
  . have hdigit := (desCopy_eq_true_iff _ _ _ _).mp hsalt (i - 5) (by omega)
    rwa [Nat.add_sub_cancel' (by omega)] at hdigit

theorem ne_zero_of_desCopy {setting : Nat → UInt8} (hext : setting 0 = 95)
    (hcount : (desCopyCount setting).1 = true) (hsalt : (desCopySalt setting).1 = true)
    : ∀ i < 9, setting i ≠ 0 := by
  intro i hi
  by_cases hzero : i = 0
  . rw [hzero, hext]
    decide
  . exact ne_zero_of_isDesDigit (isDesDigit_of_desCopy hcount hsalt i (by omega) hi)

theorem ne_zero_of_not_asciiIsUnsafe {setting : Nat → UInt8}
    (h : ¬ (asciiIsUnsafe (setting 0) || asciiIsUnsafe (setting 1)) = true)
    : ∀ i < 2, setting i ≠ 0 := by
  intro i hi hzero
  apply h
  rcases Nat.lt_succ_iff_lt_or_eq.mp hi with hfirst | rfl
  . have hi : i = 0 := by
      omega
    rw [← hi, hzero]
    rfl
  . rw [hzero]
    simp [asciiIsUnsafe]

def cryptDes (des : DesDigits) (beyond : Nat → UInt8) (key setting : Str) : CryptCall :=
  if hext : settingAt beyond setting 0 = 95 then
    if hcount : (desCopyCount (settingAt beyond setting)).1 = true then
      if desNumIter (settingAt beyond setting) = 0 then
        .failed (desCopyCount (settingAt beyond setting)).2 (length_desCopyCount _)
      else if hsalt : (desCopySalt (settingAt beyond setting)).1 = true then
        .done (desText des key (settingAt beyond setting) 9 (by decide) (ne_zero_of_desCopy hext hcount hsalt))
      else
        .failed (desCopySalt (settingAt beyond setting)).2 (length_desCopySalt _)
    else
      .failed (desCopyCount (settingAt beyond setting)).2 (length_desCopyCount _)
  else
    -- any other salt of two characters will do
    if hsafe : (asciiIsUnsafe (settingAt beyond setting 0) || asciiIsUnsafe (settingAt beyond setting 1)) = true then
      .failed [] CryptCall.length_nil
    else
      .done (desText des key (settingAt beyond setting) 2 (by decide) (ne_zero_of_not_asciiIsUnsafe hsafe))
