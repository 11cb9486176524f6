import TsIngress.Crypt.Impl.Des
import TsIngress.Crypt.Lemmas.Crypt

/-!
This module contains the stored hashes that `crypt_des` accepts. What it writes before it refuses one are bytes
of the stored hash itself.
-/

/--
An extended setting is an underscore, an iteration count other than zero and a salt, of four digits each. Any other
setting begins with two characters that may be in a password file.
-/
def DesSetting (hash : Str) : Prop :=
  if hash.head? = some 95 then
    9 ≤ hash.length
      ∧ (∀ ch ∈ (hash.drop 1).take 8, isDesDigit ch = true)
      ∧ (hash.drop 1).take 4 ≠ str "...."
  else
    2 ≤ hash.length ∧ ∀ ch ∈ hash.take 2, asciiIsUnsafe ch = false

variable {beyond : Nat → UInt8}

theorem settingAt_eq_of_getElem? {setting : Str} {i : Nat} {ch : UInt8} (h : (setting ++ [0])[i]? = some ch)
    : settingAt beyond setting i = ch := by
  rw [settingAt, List.getD_eq_getElem?_getD, h, Option.getD_some]

theorem settingAt_length (setting : Str) : settingAt beyond setting setting.length = 0 := by
  apply settingAt_eq_of_getElem?
  simp

theorem take_drop_eq_map (beyond : Nat → UInt8) {setting : Str} {pos n : Nat} (h : pos + n ≤ setting.length)
    : (setting.drop pos).take n = (List.range n).map fun i => settingAt beyond setting (pos + i) := by
  apply List.ext_getElem?
  intro i
  by_cases hi : i < n
  . have hlt : pos + i < setting.length := by
      omega
    have hat : settingAt beyond setting (pos + i) = setting[pos + i] := by
      apply settingAt_eq_of_getElem?
      rw [List.getElem?_append_left hlt, List.getElem?_eq_getElem hlt]
    rw [List.getElem?_take_of_lt hi, List.getElem?_drop, List.getElem?_eq_getElem hlt]
    simp [hi, hat]
  . rw [List.getElem?_eq_none, List.getElem?_eq_none]
    . simpa using hi
    . rw [List.length_take]
      omega

theorem settingAt_zero_eq_iff (setting : Str) : settingAt beyond setting 0 = 95 ↔ setting.head? = some 95 := by
  cases setting with
  | nil => simp [settingAt]
  | cons ch setting => simp [settingAt]

theorem isDesDigit_iff_of_setting (setting : Str) (hhead : setting ≠ [])
    : (∀ i < 8, isDesDigit (settingAt beyond setting (1 + i)) = true)
        ↔
      9 ≤ setting.length ∧ ∀ ch ∈ (setting.drop 1).take 8, isDesDigit ch = true := by
  have hpos := List.length_pos_iff.mpr hhead
  by_cases hlen : 9 ≤ setting.length
  . rw [take_drop_eq_map beyond (by omega)]
    simp [hlen]
  . refine iff_of_false ?_ (fun h => hlen h.1)
    intro h
    have hdigit := h (setting.length - 1) (by omega)
    rw [Nat.add_sub_cancel' hpos, settingAt_length] at hdigit
    exact ne_zero_of_isDesDigit hdigit rfl

theorem desCopy_eq_true_iff_digits (setting : Nat → UInt8)
    : (desCopyCount setting).1 = true ∧ (desCopySalt setting).1 = true
        ↔
      ∀ i < 8, isDesDigit (setting (1 + i)) = true := by
  unfold desCopyCount desCopySalt
  rw [desCopy_eq_true_iff, desCopy_eq_true_iff]
  constructor
  . rintro ⟨hcount, hsalt⟩ i hi
    by_cases hfirst : i < 4
    . exact hcount i hfirst
    . have hdigit := hsalt (i - 4) (by omega)
      have hpos : 5 + (i - 4) = 1 + i := by
        omega
      rwa [hpos] at hdigit
  . intro h
    refine ⟨fun i hi => h i (by omega), fun i hi => ?_⟩
    have hdigit := h (4 + i) (by omega)
    have hpos : 1 + (4 + i) = 5 + i := by
      omega
    rwa [hpos] at hdigit

theorem asciiToBin_eq_zero_iff {ch : UInt8} (h : isDesDigit ch = true) : (asciiToBin ch).toNat = 0 ↔ ch = 46 := by
  constructor
  . intro hzero
    unfold isDesDigit at h
    rw [hzero, beq_iff_eq] at h
    rw [← h]
    decide
  . rintro rfl
    decide

theorem desNumIter_eq_zero_iff {setting : Nat → UInt8} (h : ∀ i < 8, isDesDigit (setting (1 + i)) = true)
    : desNumIter setting = 0 ↔ (List.range 4).map (fun i => setting (1 + i)) = str "...." := by
  have h1 := asciiToBin_eq_zero_iff (h 0 (by decide))
  have h2 := asciiToBin_eq_zero_iff (h 1 (by decide))
  have h3 := asciiToBin_eq_zero_iff (h 2 (by decide))
  have h4 := asciiToBin_eq_zero_iff (h 3 (by decide))
  have hdots : str "...." = [46, 46, 46, 46] := by
    decide
  have hrange : (List.range 4).map (fun i => setting (1 + i)) = [setting 1, setting 2, setting 3, setting 4] := by
    rfl
  rw [hdots, hrange]
  simp only [List.cons.injEq, and_true, desNumIter, List.foldl_cons, List.foldl_nil]
  simp only [Nat.add_zero, Nat.reduceAdd] at h1 h2 h3 h4
  rw [← h1, ← h2, ← h3, ← h4]
  omega

namespace cryptDes

theorem done_iff_of_extended (des : DesDigits) (key : Str) {setting : Str} (hhead : setting.head? = some 95)
    : (∃ out, cryptDes des beyond key setting = .done out) ↔ DesSetting setting := by
  have hext : settingAt beyond setting 0 = 95 := (settingAt_zero_eq_iff setting).mpr hhead
  have hne : setting ≠ [] := by
    rintro rfl
    simp at hhead
  have hdigits := desCopy_eq_true_iff_digits (settingAt beyond setting)
  rw [isDesDigit_iff_of_setting setting hne] at hdigits
  unfold cryptDes DesSetting
  rw [dif_pos hext, if_pos hhead]
  by_cases hcount : (desCopyCount (settingAt beyond setting)).1 = true
  . rw [dif_pos hcount]
    by_cases hsalt : (desCopySalt (settingAt beyond setting)).1 = true
    . rcases hdigits.mp ⟨hcount, hsalt⟩ with ⟨hlen, hmem⟩
      have hiter := desNumIter_eq_zero_iff ((desCopy_eq_true_iff_digits _).mp ⟨hcount, hsalt⟩)
      rw [← take_drop_eq_map beyond (by omega)] at hiter
      by_cases hzero : desNumIter (settingAt beyond setting) = 0
      . rw [if_pos hzero]
        exact iff_of_false (by simp) (fun h => h.2.2 (hiter.mp hzero))
      . rw [if_neg hzero, dif_pos hsalt]
        exact iff_of_true ⟨_, rfl⟩ ⟨hlen, hmem, fun h => hzero (hiter.mpr h)⟩
    . refine iff_of_false ?_ (fun h => hsalt (hdigits.mpr ⟨h.1, h.2.1⟩).2)
      rw [dif_neg hsalt]
      split <;> simp
  . rw [dif_neg hcount]
    exact iff_of_false (by simp) (fun h => hcount (hdigits.mpr ⟨h.1, h.2.1⟩).1)

theorem done_iff_of_traditional (des : DesDigits) (key : Str) {setting : Str} (hhead : setting.head? ≠ some 95)
    : (∃ out, cryptDes des beyond key setting = .done out) ↔ DesSetting setting := by
  have hext : ¬ settingAt beyond setting 0 = 95 := by
    rw [settingAt_zero_eq_iff]
    exact hhead
  unfold cryptDes DesSetting
  rw [dif_neg hext, if_neg hhead]
  match setting with
  | [] => simp [settingAt, asciiIsUnsafe]
  | [ch] => simp [settingAt, asciiIsUnsafe]
  | ch :: ch' :: rest =>
    have hfirst : settingAt beyond (ch :: ch' :: rest) 0 = ch := by
      rfl
    have hsecond : settingAt beyond (ch :: ch' :: rest) 1 = ch' := by
      rfl
    split
    . next hunsafe =>
      rw [hfirst, hsecond, Bool.or_eq_true] at hunsafe
      refine iff_of_false (by simp) ?_
      rintro ⟨-, h⟩
      simp only [List.take_succ_cons, List.take_zero, List.mem_cons, List.not_mem_nil, or_false, forall_eq_or_imp,
        forall_eq] at h
      simp [h] at hunsafe
    . next hsafe =>
      rw [hfirst, hsecond, Bool.or_eq_true, not_or, Bool.not_eq_true, Bool.not_eq_true] at hsafe
      refine iff_of_true ⟨_, rfl⟩ ⟨by simp, ?_⟩
      simpa using hsafe

theorem done_iff (des : DesDigits) (key setting : Str)
    : (∃ out, cryptDes des beyond key setting = .done out) ↔ DesSetting setting := by
  by_cases hhead : setting.head? = some 95
  . exact done_iff_of_extended des key hhead
  . exact done_iff_of_traditional des key hhead

theorem desCopy_written {setting : Nat → UInt8} {pos n : Nat} {encp : List (Option UInt8)}
    (h : ∀ i ch, encp[i]? = some (some ch) → ch = setting i)
    : ∀ i ch, (desCopy setting pos n encp).2[i]? = some (some ch) → ch = setting i := by
  induction n generalizing encp with
  | zero => exact h
  | succ n ih =>
    unfold desCopy
    split
    . apply ih
      intro i ch hset
      rw [List.getElem?_set] at hset
      split at hset
      . next heq =>
        split at hset
        . cases hset
          rw [heq]
        . cases hset
      . exact h i ch hset
    . exact h

theorem desCopyCount_written (setting : Nat → UInt8)
    : ∀ i ch, (desCopyCount setting).2[i]? = some (some ch) → ch = setting i := by
  apply desCopy_written
  intro i ch hset
  rw [List.getElem?_set] at hset
  split at hset
  . next heq =>
    subst heq
    simpa using hset.symm
  . rw [List.getElem?_replicate] at hset
    split at hset <;> simp at hset

theorem desCopySalt_written (setting : Nat → UInt8)
    : ∀ i ch, (desCopySalt setting).2[i]? = some (some ch) → ch = setting i := by
  exact desCopy_written (desCopyCount_written setting)

theorem not_clash_of_written {setting : Str} {written : List (Option UInt8)}
    (h : ∀ i ch, written[i]? = some (some ch) → ch = settingAt beyond setting i)
    : ¬ Overlay.Clash 0 written setting := by
  rintro ⟨i, ch, d, hch, hd, hne⟩
  apply hne
  rw [h i ch hch, settingAt_eq_of_getElem? hd]

theorem done_or_not_clash (des : DesDigits) (key setting : Str)
    : (∃ out, cryptDes des beyond key setting = .done out)
        ∨
      ¬ Overlay.Clash 0 (cryptDes des beyond key setting).written setting := by
  unfold cryptDes
  split
  . split
    . split
      . exact .inr (not_clash_of_written (desCopyCount_written _))
      . split
        . exact .inl ⟨_, rfl⟩
        . exact .inr (not_clash_of_written (desCopySalt_written _))
    . exact .inr (not_clash_of_written (desCopyCount_written _))
  . split
    . exact .inr (Overlay.not_clash_nil 0 _)
    . exact .inl ⟨_, rfl⟩

end cryptDes

theorem checksStoredHash_des_iff {alg : CryptAlgorithms} {des : DesDigits} (halg : alg.cryptDes = cryptDes des beyond)
    (plain : Str) {hash : Str} (hhash : 0 ∉ hash) (hfn : getCryptFunction (cryptPayload hash) = some .des)
    : ChecksStoredHash alg plain hash ↔ DesSetting (cryptPayload hash) := by
  have hcrypt : CryptCheckFn.des.algorithm alg = some (cryptDes des beyond) := by
    rw [← halg]
    rfl
  have hdone := checksStoredHash_iff_done hhash hfn hcrypt (cryptDes.done_or_not_clash des plain (cryptPayload hash))
  exact hdone.trans (cryptDes.done_iff des plain (cryptPayload hash))
