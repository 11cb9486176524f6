import TsIngress.Crypt.Lemmas.Crypt
import TsIngress.Crypt.Lemmas.ShaCrypt
import TsIngress.Tsapi.Lemmas.Synth

/-!
This module contains the strings that `crypt_sha256` and `crypt_sha512` make of the result of the scheme, that they are
read back, and what `crypt_check` makes of them.
-/

theorem formatInt_ofNat (n : Nat) : formatInt n = (Nat.toDigits 10 n).map fun c => UInt8.ofNat c.toNat := by
  unfold formatInt str
  rw [← Nat.toList_repr]
  rfl

theorem toNat_of_isDigit {c : Char} (h : c.isDigit = true)
    : (UInt8.ofNat c.toNat).toNat = c.toNat ∧ 48 ≤ c.toNat ∧ c.toNat ≤ 57 := by
  have hval : c.toNat = c.val.toNat := rfl
  simp only [Char.isDigit, Bool.and_eq_true, decide_eq_true_eq, ge_iff_le, UInt32.le_iff_toNat_le] at h
  simp at h ⊢
  omega

theorem isdigit_formatInt {n : Nat} {c : UInt8} (h : c ∈ formatInt n) : isdigit c = true := by
  rw [formatInt_ofNat, List.mem_map] at h
  rcases h with ⟨d, hd, rfl⟩
  rcases toNat_of_isDigit (Nat.isDigit_of_mem_toDigits (by omega) (by omega) hd) with ⟨htoNat, hge, hle⟩
  unfold isdigit
  simp only [Bool.and_eq_true, decide_eq_true_eq, UInt8.le_iff_toNat_le, htoNat]
  exact ⟨hge, hle⟩

theorem formatInt_ne_nil (n : Nat) : formatInt n ≠ [] := by
  rw [formatInt_ofNat]
  simp [Nat.toDigits_ne_nil]

theorem digitsValue_formatInt (n : Nat) : digitsValue (formatInt n) = n := by
  have hfold : ∀ (digits : List Char) (init : Nat), (∀ c ∈ digits, c.isDigit = true)
      → (digits.map fun c => UInt8.ofNat c.toNat).foldl (fun n c => n * 10 + (c.toNat - 48)) init
        = Nat.ofDigitChars 10 digits init := by
    intro digits
    induction digits with
    | nil => intros; rfl
    | cons d digits ih =>
      intro init h
      have hd := (toNat_of_isDigit (h d (by simp))).1
      rw [List.map_cons, List.foldl_cons, ih _ fun c hc => h c (by simp [hc]), hd, Nat.mul_comm]
      rfl
  rw [digitsValue, formatInt_ofNat, hfold _ _ fun c hc => Nat.isDigit_of_mem_toDigits (by omega) (by omega) hc]
  exact Nat.ofDigitChars_ten_toDigits

structure ShaSetting.Valid (s : ShaSetting) : Prop where
  length_salt : s.salt.length ≤ saltLenMax
  salt : 36 ∉ s.salt
  min : roundsMin ≤ s.rounds
  max : s.rounds ≤ roundsMax
  custom : s.roundsCustom = false → s.rounds = roundsDefault

theorem length_shaSalt (salt : Str) : (shaSalt salt).length ≤ saltLenMax := by
  rw [shaSalt, List.length_take]
  exact Nat.min_le_left _ _

theorem notMem_shaSalt (salt : Str) : 36 ∉ shaSalt salt := by
  intro hmem
  have htake := List.mem_takeWhile_imp (List.mem_of_mem_take hmem)
  simp at htake

theorem valid_shaRounds (salt : Str) : (shaRounds salt).Valid := by
  have hdefault : ∀ salt, ShaSetting.Valid ⟨roundsDefault, false, shaSalt salt⟩ := by
    intro salt
    exact ⟨length_shaSalt salt, notMem_shaSalt salt, show roundsMin ≤ roundsDefault by decide,
      show roundsDefault ≤ roundsMax by decide, fun _ => rfl⟩
  unfold shaRounds
  split
  . split
    . next srounds salt _ =>
      have hbounds : roundsMin ≤ roundsMax := by
        decide
      exact ⟨length_shaSalt salt, notMem_shaSalt salt, Nat.le_max_left _ _,
        Nat.max_le.mpr ⟨hbounds, Nat.min_le_right _ _⟩, nofun⟩
    . exact hdefault _
  . exact hdefault _

def b64Digits (w : Nat) : Nat → Str
  | 0 => []
  | n + 1 => itoa64.getD (w % 64) 0 :: b64Digits (w / 64) n

def ShaSetting.text (s : ShaSetting) : Str :=
  (if s.roundsCustom then roundsPrefix ++ formatInt s.rounds ++ [36] else []) ++ s.salt

def shaDigits (v : ShaKind) (result : List UInt8) : Str :=
  v.groups.flatMap fun g => b64Digits (shaGroup result g) g.2.2.2

/--
The string for a setting and a result: the prefix, the number of rounds if it was given, the salt and the result in
groups of 24 bits.
-/
def shaCryptText (v : ShaKind) (s : ShaSetting) (result : List UInt8) : Str :=
  v.saltPrefix ++ (s.text ++ 36 :: shaDigits v result)

theorem length_b64Digits (w n : Nat) : (b64Digits w n).length = n := by
  induction n generalizing w with
  | zero => rfl
  | succ n ih => rw [b64Digits, List.length_cons, ih]

def ShaOut.Tracks (buflen : Int) (o : ShaOut) (text : Str) : Prop :=
  (text.length < buflen ∧ o = ⟨text, buflen - text.length⟩) ∨ (buflen ≤ text.length ∧ o.buflen ≤ 0)

namespace ShaOut.Tracks

variable {buflen : Int} {o : ShaOut} {text : Str}

theorem putChar (h : o.Tracks buflen text) (c : UInt8) : (o.putChar c).Tracks buflen (text ++ [c]) := by
  have hlen : (text ++ [c]).length = text.length + 1 := List.length_append
  unfold ShaOut.putChar Tracks
  rcases h with ⟨hroom, rfl⟩ | ⟨hfull, hnone⟩
  . rw [if_pos (by dsimp only; omega), hlen]
    by_cases hlast : text.length + 1 < buflen
    . exact .inl ⟨by omega, by simp only [ShaOut.mk.injEq, true_and]; omega⟩
    . exact .inr ⟨by omega, by dsimp only; omega⟩
  . rw [if_neg (by omega), hlen]
    exact .inr ⟨by omega, hnone⟩

theorem putSalt (h : o.Tracks buflen text) (salt : Str) : (o.putSalt salt).Tracks buflen (text ++ salt) := by
  have hlen : (text ++ salt).length = text.length + salt.length := List.length_append
  unfold ShaOut.putSalt Tracks
  rw [hlen]
  rcases h with ⟨hroom, rfl⟩ | ⟨hfull, hnone⟩
  . by_cases hlast : (text.length + salt.length : Int) < buflen
    . refine .inl ⟨by omega, ?_⟩
      dsimp only
      rw [Nat.min_eq_right (by omega), List.take_length]
      simp only [ShaOut.mk.injEq, true_and]
      omega
    . exact .inr ⟨by omega, by dsimp only; omega⟩
  . exact .inr ⟨by omega, by dsimp only; omega⟩

theorem putRounds (h : o.Tracks buflen text) (s : ShaSetting)
    : (o.putRounds s).Tracks buflen
        (text ++ if s.roundsCustom then roundsPrefix ++ formatInt s.rounds ++ [36] else []) := by
  unfold ShaOut.putRounds
  split
  . dsimp only
    generalize roundsPrefix ++ formatInt s.rounds ++ [36] = rounds
    have hlen : (text ++ rounds).length = text.length + rounds.length := List.length_append
    unfold Tracks
    rw [hlen]
    rcases h with ⟨hroom, rfl⟩ | ⟨hfull, hnone⟩
    . by_cases hlast : (text.length + rounds.length : Int) < buflen
      . refine .inl ⟨by omega, ?_⟩
        rw [snprintf, List.take_of_length_le (by dsimp only; omega)]
        simp only [ShaOut.mk.injEq, true_and]
        omega
      . exact .inr ⟨by omega, by dsimp only; omega⟩
    . exact .inr ⟨by omega, by dsimp only; omega⟩
  . rw [List.append_nil]
    exact h

theorem digits (h : o.Tracks buflen text) (w n : Nat)
    : (b64From24bit w n o).Tracks buflen (text ++ b64Digits w n) := by
  induction n generalizing w o text with
  | zero =>
    rw [b64Digits, List.append_nil]
    exact h
  | succ n ih =>
    have hrest := ih (h.putChar (itoa64.getD (w % 64) 0)) (w / 64)
    rw [List.append_assoc] at hrest
    exact hrest

theorem groups (h : o.Tracks buflen text) (result : List UInt8)
    (groups : List (Option Nat × Option Nat × Option Nat × Nat))
    : (groups.foldl (fun o g => b64From24bit (shaGroup result g) g.2.2.2 o) o).Tracks buflen
        (text ++ groups.flatMap fun g => b64Digits (shaGroup result g) g.2.2.2) := by
  induction groups generalizing o text with
  | nil =>
    rw [List.flatMap_nil, List.append_nil]
    exact h
  | cons g groups ih =>
    have hrest := ih (h.digits (shaGroup result g) g.2.2.2)
    rw [List.append_assoc] at hrest
    exact hrest

end ShaOut.Tracks

theorem length_formatInt {n : Nat} (h : n ≤ roundsMax) : (formatInt n).length ≤ 9 := by
  have hlt : n < 10 ^ 9 := Nat.lt_of_le_of_lt h (by decide)
  rw [formatInt_ofNat, List.length_map, Nat.length_toDigits_le_iff (by omega) (by omega)]
  exact hlt

-- The string as far as there is room for it and its terminator.
def fitting (buflen : Int) (text : Str) : Option Str :=
  if text.length < buflen then some text else none

theorem shaResult_eq (v : ShaKind) (s : ShaSetting) (result : List UInt8) (buflen : Int)
    : shaResult v s result buflen = fitting buflen (shaCryptText v s result) := by
  have hlead : ShaOut.Tracks buflen ⟨v.saltPrefix.take buflen.toNat, buflen - v.saltPrefix.length⟩ v.saltPrefix := by
    by_cases hroom : v.saltPrefix.length < buflen
    . rw [List.take_of_length_le (by omega)]
      exact .inl ⟨hroom, rfl⟩
    . exact .inr ⟨by omega, by dsimp only; omega⟩
  have htracks := (((hlead.putRounds s).putSalt s.salt).putChar 36).groups result v.groups
  have htext : shaCryptText v s result
      = v.saltPrefix ++ (if s.roundsCustom then roundsPrefix ++ formatInt s.rounds ++ [36] else []) ++ s.salt ++ [36]
        ++ v.groups.flatMap fun g => b64Digits (shaGroup result g) g.2.2.2 := by
    simp only [shaCryptText, ShaSetting.text, shaDigits, List.append_assoc, List.singleton_append]
  rw [← htext] at htracks
  unfold shaResult fitting
  dsimp only
  rcases htracks with ⟨hroom, heq⟩ | ⟨hfull, hnone⟩
  . rw [heq, if_pos hroom, if_neg (by dsimp only; omega)]
  . rw [if_pos hnone, if_neg (by omega)]

theorem ShaSetting.length_text {s : ShaSetting} (hs : s.Valid) : s.text.length ≤ 33 := by
  have hsalt := hs.length_salt
  have hdigits := length_formatInt hs.max
  have hlead : roundsPrefix.length = 7 := by
    decide
  unfold saltLenMax at hsalt
  unfold ShaSetting.text
  split
  . simp only [List.length_append, List.length_singleton]
    omega
  . rw [List.nil_append]
    omega

theorem length_shaDigits (v : ShaKind) (result : List UInt8) : (shaDigits v result).length ≤ 86 := by
  have hsum : (v.groups.map fun g => g.2.2.2).sum ≤ 86 := by
    cases v with
    | sha256 => decide
    | sha512 => decide
  unfold shaDigits
  simp only [List.length_flatMap, length_b64Digits]
  exact hsum

theorem length_shaCryptText (v : ShaKind) {s : ShaSetting} (hs : s.Valid) (result : List UInt8)
    : (shaCryptText v s result).length < 128 := by
  have htext := ShaSetting.length_text hs
  have hdigits := length_shaDigits v result
  have hlead : v.saltPrefix.length = 3 := by
    cases v <;> rfl
  unfold shaCryptText
  simp only [List.length_append, List.length_cons]
  omega

theorem valid_shaSetting (v : ShaKind) (salt : Str) : (shaSetting v salt).Valid := by
  exact valid_shaRounds _

def shaCryptOf (v : ShaKind) (key : Str) (s : ShaSetting) : Str :=
  shaCryptText v s (ShaCrypt.result (shaDigest v) key s.salt s.rounds)

theorem cryptSha_eq (v : ShaKind) (a : ShaAddrs) {key : Str} (hkey : key.length < 0x100000000) (salt : Str)
    (buflen : Int)
    : cryptSha v a key salt buflen = .ok (fitting buflen (shaCryptOf v key (shaSetting v salt))) := by
  unfold cryptSha shaCryptOf
  dsimp only
  rw [shaCryptResult_eq v a hkey (valid_shaSetting v salt).length_salt, Except.ok_bind, shaResult_eq]
  rfl

theorem cryptSha_check (v : ShaKind) (a : ShaAddrs) {key : Str} (hkey : key.length < 0x100000000) (salt : Str)
    : cryptSha v a key salt 128 = .ok (some (shaCryptOf v key (shaSetting v salt))) := by
  have hroom : (shaCryptOf v key (shaSetting v salt)).length < 128 := length_shaCryptText v (valid_shaSetting v salt) _
  rw [cryptSha_eq v a hkey, fitting, if_pos (by omega)]

/--
Wherever its data is in memory, and whatever the setting is, a call makes the string of the scheme, if there is room for
it and its terminator.
-/
theorem cryptSha_scheme (a : ShaAddrs) (key salt : Str) (buflen : Int) (hkey : key.length < 0x100000000)
    : cryptSha256 a key salt buflen = .ok (fitting buflen (shaCryptOf .sha256 key (shaSetting .sha256 salt)))
        ∧ cryptSha512 a key salt buflen = .ok (fitting buflen (shaCryptOf .sha512 key (shaSetting .sha512 salt))) := by
  exact ⟨cryptSha_eq .sha256 a hkey salt buflen, cryptSha_eq .sha512 a hkey salt buflen⟩

theorem cryptSha_scheme_rounds
    : cryptSha256 ⟨0, 1, 2, 3, 4⟩ (str "secret") (str "$5$rounds=10$salt") 64
        = .ok (fitting 64 (shaCryptOf .sha256 (str "secret") ⟨1000, true, str "salt"⟩))
      ∧ cryptSha512 ⟨0, 1, 2, 3, 4⟩ (str "secret") (str "$5$rounds=10$salt") 64
        = .ok (fitting 64 (shaCryptOf .sha512 (str "secret") ⟨5000, false, str ""⟩)) := by
  have h256 : shaSetting .sha256 (str "$5$rounds=10$salt") = ⟨1000, true, str "salt"⟩ := by
    decide +kernel
  have h512 : shaSetting .sha512 (str "$5$rounds=10$salt") = ⟨5000, false, str ""⟩ := by
    decide +kernel
  have hscheme := cryptSha_scheme ⟨0, 1, 2, 3, 4⟩ (str "secret") (str "$5$rounds=10$salt") 64 (by decide)
  rw [h256, h512] at hscheme
  exact hscheme

theorem isPrefix_append_cons_iff {p l r : Str} {c : UInt8} (hc : c ∉ p) : p <+: l ++ c :: r ↔ p <+: l := by
  constructor
  . intro h
    rcases List.prefix_or_prefix_of_prefix h (List.prefix_append l (c :: r)) with hle | ⟨t, rfl⟩
    . exact hle
    . rw [List.prefix_append_right_inj, List.prefix_cons_iff] at h
      rcases h with rfl | ⟨t', rfl, -⟩
      . rw [List.append_nil]
      . simp at hc
  . intro h
    exact h.trans (List.prefix_append l (c :: r))

theorem isspace_eq_false_of_isdigit {c : UInt8} (h : isdigit c = true) : isspace c = false := by
  unfold isdigit at h
  unfold isspace
  simp only [Bool.and_eq_true, decide_eq_true_eq, UInt8.le_iff_toNat_le] at h
  simp only [Bool.or_eq_false_iff, Bool.and_eq_false_iff, decide_eq_false_iff_not, UInt8.le_iff_toNat_le,
    beq_eq_false_iff_ne, ne_eq, ← UInt8.toNat_inj]
  simp at h ⊢
  omega

theorem takeWhile_append_stop {p : UInt8 → Bool} {c : UInt8} (hc : p c = false) (s r : Str)
    : (s ++ c :: r).takeWhile p = s.takeWhile p := by
  induction s with
  | nil => rw [List.nil_append, List.takeWhile_cons_of_neg (by simp [hc])]; rfl
  | cons d s ih => rw [List.cons_append, List.takeWhile_cons, List.takeWhile_cons, ih]

theorem dropWhile_append_stop {p : UInt8 → Bool} {c : UInt8} (hc : p c = false) (s r : Str)
    : (s ++ c :: r).dropWhile p = s.dropWhile p ++ c :: r := by
  induction s with
  | nil => rw [List.nil_append, List.dropWhile_cons_of_neg (by simp [hc])]; rfl
  | cons d s ih =>
    rw [List.cons_append, List.dropWhile_cons, List.dropWhile_cons, ih]
    split
    . rfl
    . rfl

def ulongAt (num : Str) (negative : Bool) (s : Str) : Nat × Str :=
  if s.takeWhile isdigit = [] then (0, num) else (ulongOf negative (s.takeWhile isdigit), s.dropWhile isdigit)

theorem ulongAt_append (num : Str) (negative : Bool) (s rest : Str)
    : ulongAt (num ++ 36 :: rest) negative (s ++ 36 :: rest)
        =
      ((ulongAt num negative s).1, (ulongAt num negative s).2 ++ 36 :: rest) := by
  unfold ulongAt
  rw [takeWhile_append_stop (by decide), dropWhile_append_stop (by decide)]
  split
  . rfl
  . rfl

theorem ulongAt_isSuffix {num s : Str} (negative : Bool) (h : s <:+ num) : (ulongAt num negative s).2 <:+ num := by
  unfold ulongAt
  split
  . exact List.suffix_rfl
  . exact (List.dropWhile_suffix _).trans h

theorem strtoul_minus {num s : Str} (h : num.dropWhile isspace = 45 :: s) : strtoul num = ulongAt num true s := by
  unfold strtoul
  rw [h]
  rfl

theorem strtoul_plus {num s : Str} (h : num.dropWhile isspace = 43 :: s) : strtoul num = ulongAt num false s := by
  unfold strtoul
  rw [h]
  rfl

theorem strtoul_unsigned {num s : Str} (h : num.dropWhile isspace = s) (hminus : s.head? ≠ some 45)
    (hplus : s.head? ≠ some 43)
    : strtoul num = ulongAt num false s := by
  unfold strtoul
  rw [h]
  split
  . exact absurd rfl hminus
  . exact absurd rfl hplus
  . rfl

theorem strtoul_append (num rest : Str)
    : strtoul (num ++ 36 :: rest) = ((strtoul num).1, (strtoul num).2 ++ 36 :: rest) := by
  have happend := dropWhile_append_stop (p := isspace) (c := 36) (by decide) num rest
  cases hspace : num.dropWhile isspace with
  | nil =>
    rw [hspace] at happend
    rw [strtoul_unsigned happend (by simp) (by simp), strtoul_unsigned hspace (by simp) (by simp), ulongAt_append]
  | cons c s =>
    rw [hspace] at happend
    by_cases hminus : c = 45
    . subst hminus
      rw [List.cons_append] at happend
      rw [strtoul_minus happend, strtoul_minus hspace, ulongAt_append]
    . by_cases hplus : c = 43
      . subst hplus
        rw [List.cons_append] at happend
        rw [strtoul_plus happend, strtoul_plus hspace, ulongAt_append]
      . rw [strtoul_unsigned happend (by simpa using hminus) (by simpa using hplus),
          strtoul_unsigned hspace (by simpa using hminus) (by simpa using hplus), ulongAt_append]

theorem strtoul_formatInt {n : Nat} (h : n ≤ ulongMax) : strtoul (formatInt n) = (n, []) := by
  have htake : (formatInt n).takeWhile isdigit = formatInt n := by
    rw [List.takeWhile_eq_self_iff]
    intro c
    exact isdigit_formatInt
  have hdrop : (formatInt n).dropWhile isdigit = [] := by
    rw [List.dropWhile_eq_nil_iff]
    intro c
    exact isdigit_formatInt
  have hvalue : ulongOf false (formatInt n) = n := by
    rw [ulongOf, digitsValue_formatInt, if_neg (by omega)]
    rfl
  rcases List.exists_cons_of_ne_nil (formatInt_ne_nil n) with ⟨c, s, hcons⟩
  have hc : isdigit c = true := by
    apply isdigit_formatInt (n := n)
    simp [hcons]
  have hspace : (formatInt n).dropWhile isspace = c :: s := by
    rw [hcons, List.dropWhile_cons_of_neg]
    simp [isspace_eq_false_of_isdigit hc]
  have hminus : c ≠ 45 := by
    rintro rfl
    exact absurd hc (by decide)
  have hplus : c ≠ 43 := by
    rintro rfl
    exact absurd hc (by decide)
  rw [strtoul_unsigned hspace (by simpa using hminus) (by simpa using hplus), ← hcons, ulongAt, htake, hdrop,
    if_neg (formatInt_ne_nil n), hvalue]

theorem strtoul_isSuffix (num : Str) : (strtoul num).2 <:+ num := by
  have hspace := List.dropWhile_suffix (l := num) isspace
  unfold strtoul
  split
  . next s heq =>
    rw [heq] at hspace
    exact ulongAt_isSuffix true ((List.suffix_cons 45 s).trans hspace)
  . next s heq =>
    rw [heq] at hspace
    exact ulongAt_isSuffix false ((List.suffix_cons 43 s).trans hspace)
  . exact ulongAt_isSuffix false hspace

theorem shaSalt_append {salt : Str} (hlen : salt.length ≤ saltLenMax) (hsalt : 36 ∉ salt) (rest : Str)
    : shaSalt (salt ++ 36 :: rest) = salt := by
  have hne : ∀ c ∈ salt, decide (c ≠ 36) = true := by
    intro c hc
    simp only [decide_eq_true_eq]
    rintro rfl
    exact hsalt hc
  rw [shaSalt, List.takeWhile_append_of_pos hne, List.takeWhile_cons_of_neg (by decide), List.append_nil,
    List.take_of_length_le hlen]

-- The salt does not become a number of rounds when a `$` follows.
def ShaSetting.Unambiguous (s : ShaSetting) : Prop :=
  s.roundsCustom = false → roundsPrefix <+: s.salt → (strtoul (s.salt.drop roundsPrefix.length)).2 ≠ []

instance (s : ShaSetting) : Decidable s.Unambiguous :=
  inferInstanceAs (Decidable (_ → _ → _))

section

variable {s : ShaSetting}

theorem shaRounds_of_custom (hs : s.Valid) (hcustom : s.roundsCustom = true) (rest : Str)
    : shaRounds (s.text ++ 36 :: rest) = s := by
  have hmax : s.rounds ≤ ulongMax := Nat.le_trans hs.max (by decide)
  have htext : s.text ++ 36 :: rest = roundsPrefix ++ (formatInt s.rounds ++ 36 :: (s.salt ++ 36 :: rest)) := by
    simp [ShaSetting.text, hcustom]
  rw [htext, shaRounds, if_pos (List.prefix_append _ _), List.drop_left, strtoul_append, strtoul_formatInt hmax]
  show ShaSetting.mk (max roundsMin (min s.rounds roundsMax)) true (shaSalt (s.salt ++ 36 :: rest)) = s
  rw [shaSalt_append hs.length_salt hs.salt, Nat.min_eq_left hs.max, Nat.max_eq_right hs.min, ← hcustom]

theorem strtoul_salt (hlike : roundsPrefix <+: s.salt) (rest : Str)
    : strtoul ((s.salt ++ 36 :: rest).drop roundsPrefix.length)
        =
      ((strtoul (s.salt.drop roundsPrefix.length)).1, (strtoul (s.salt.drop roundsPrefix.length)).2 ++ 36 :: rest) := by
  rw [List.drop_append_of_le_length hlike.length_le, strtoul_append]

theorem shaRounds_of_default (hs : s.Valid) (hdefault : s.roundsCustom = false) (hplain : s.Unambiguous) (rest : Str)
    : shaRounds (s.text ++ 36 :: rest) = s := by
  have htext : s.text = s.salt := by
    simp [ShaSetting.text, hdefault]
  have heq : ShaSetting.mk roundsDefault false (shaSalt (s.salt ++ 36 :: rest)) = s := by
    rw [shaSalt_append hs.length_salt hs.salt, ← hs.custom hdefault, ← hdefault]
  rw [htext, shaRounds]
  split
  . next hlike =>
    rw [isPrefix_append_cons_iff (by decide)] at hlike
    rw [strtoul_salt hlike]
    -- what stops the number is a byte of the salt, and so not a dollar sign
    rcases List.exists_cons_of_ne_nil (hplain hdefault hlike) with ⟨c, t, hrest⟩
    have hmem : c ∈ s.salt := by
      apply List.mem_of_mem_drop (i := roundsPrefix.length)
      apply (strtoul_isSuffix _).subset
      simp [hrest]
    rw [hrest]
    split
    . next hcons =>
      cases hcons
      exact absurd hmem hs.salt
    . exact heq
  . exact heq

theorem shaRounds_of_ambiguous (hplain : ¬ s.Unambiguous) (rest : Str)
    : s.roundsCustom = false ∧ (shaRounds (s.text ++ 36 :: rest)).roundsCustom = true := by
  unfold ShaSetting.Unambiguous at hplain
  rw [Classical.not_imp, Classical.not_imp, not_not] at hplain
  rcases hplain with ⟨hdefault, hlike, hend⟩
  have htext : s.text = s.salt := by
    simp [ShaSetting.text, hdefault]
  refine ⟨hdefault, ?_⟩
  rw [htext, shaRounds, if_pos (hlike.trans (List.prefix_append _ _)), strtoul_salt hlike, hend]
  rfl

end

theorem shaSetting_shaCryptText (v : ShaKind) (s : ShaSetting) (result : List UInt8)
    : shaSetting v (shaCryptText v s result) = shaRounds (s.text ++ 36 :: shaDigits v result) := by
  unfold shaSetting shaCryptText
  rw [if_pos (List.prefix_append _ _), List.drop_left]

theorem shaSetting_text (v : ShaKind) {s : ShaSetting} (hs : s.Valid) (hplain : s.Unambiguous) (result : List UInt8)
    : shaSetting v (shaCryptText v s result) = s := by
  rw [shaSetting_shaCryptText]
  cases hcustom : s.roundsCustom with
  | true => exact shaRounds_of_custom hs hcustom _
  | false => exact shaRounds_of_default hs hcustom hplain _

theorem itoa64_injective : ∀ i < 64, ∀ j < 64, itoa64.getD i 0 = itoa64.getD j 0 → i = j := by
  decide +kernel

theorem b64Digits_injective {n w w' : Nat} (h : b64Digits w n = b64Digits w' n) (hw : w < 64 ^ n) (hw' : w' < 64 ^ n)
    : w = w' := by
  induction n generalizing w w' with
  | zero => omega
  | succ n ih =>
    rw [b64Digits, b64Digits, List.cons.injEq] at h
    have hlow := itoa64_injective _ (Nat.mod_lt w (by decide)) _ (Nat.mod_lt w' (by decide)) h.1
    have hhigh := ih h.2 (by omega) (by omega)
    omega

theorem eq_of_flatMap_eq {α : Type} {f g : α → Str} {l : List α} (hlen : ∀ x ∈ l, (f x).length = (g x).length)
    (h : l.flatMap f = l.flatMap g)
    : ∀ x ∈ l, f x = g x := by
  induction l with
  | nil => nofun
  | cons y l ih =>
    rw [List.flatMap_cons, List.flatMap_cons] at h
    rcases List.append_inj h (hlen y (by simp)) with ⟨hhead, htail⟩
    intro x hx
    rcases List.mem_cons.mp hx with rfl | hx
    . exact hhead
    . exact ih (fun z hz => hlen z (by simp [hz])) htail x hx

theorem groups_wide (v : ShaKind) : ∀ g ∈ v.groups, g.2.2.2 = 4 ∨ (g.1 = none ∧ g.2.2.2 = 3)
    ∨ (g.1 = none ∧ g.2.1 = none ∧ g.2.2.2 = 2) := by
  cases v with
  | sha256 => decide
  | sha512 => decide

theorem groups_cover (v : ShaKind)
    : ∀ i < v.resultBytes, ∃ g ∈ v.groups, g.1 = some i ∨ g.2.1 = some i ∨ g.2.2.1 = some i := by
  cases v with
  | sha256 => decide +kernel
  | sha512 => decide +kernel

theorem shaGroup_lt {v : ShaKind} (result : List UInt8) {g : Option Nat × Option Nat × Option Nat × Nat}
    (hg : g ∈ v.groups)
    : shaGroup result g < 64 ^ g.2.2.2 := by
  have h1 := (g.1.elim 0 (result.getD · 0)).toNat_lt
  have h2 := (g.2.1.elim 0 (result.getD · 0)).toNat_lt
  have h3 := (g.2.2.1.elim 0 (result.getD · 0)).toNat_lt
  unfold shaGroup
  dsimp only
  rcases groups_wide v g hg with hn | ⟨hfirst, hn⟩ | ⟨hfirst, hsecond, hn⟩
  . rw [hn]
    omega
  . rw [hn, hfirst]
    simp only [Option.elim_none, UInt8.toNat_zero]
    omega
  . rw [hn, hfirst, hsecond]
    simp only [Option.elim_none, UInt8.toNat_zero]
    omega

theorem getD_of_shaGroup_eq {r r' : List UInt8} {g : Option Nat × Option Nat × Option Nat × Nat}
    (h : shaGroup r g = shaGroup r' g) {i : Nat} (hi : g.1 = some i ∨ g.2.1 = some i ∨ g.2.2.1 = some i)
    : r.getD i 0 = r'.getD i 0 := by
  have h1 := (g.1.elim 0 (r.getD · 0)).toNat_lt
  have h2 := (g.2.1.elim 0 (r.getD · 0)).toNat_lt
  have h3 := (g.2.2.1.elim 0 (r.getD · 0)).toNat_lt
  have h1' := (g.1.elim 0 (r'.getD · 0)).toNat_lt
  have h2' := (g.2.1.elim 0 (r'.getD · 0)).toNat_lt
  have h3' := (g.2.2.1.elim 0 (r'.getD · 0)).toNat_lt
  unfold shaGroup at h
  dsimp only at h
  apply UInt8.toNat_inj.mp
  rcases hi with hi | hi | hi
  . simp only [hi, Option.elim_some] at h h1 h1'
    omega
  . simp only [hi, Option.elim_some] at h h2 h2'
    omega
  . simp only [hi, Option.elim_some] at h h3 h3'
    omega

theorem shaDigits_injective {v : ShaKind} {r r' : List UInt8} (hr : r.length = v.resultBytes)
    (hr' : r'.length = v.resultBytes)
    (h : shaDigits v r = shaDigits v r')
    : r = r' := by
  apply List.ext_getElem (by rw [hr, hr'])
  intro i hi hi'
  rcases groups_cover v i (by omega) with ⟨g, hg, hin⟩
  have hdigits := eq_of_flatMap_eq (fun g _ => by rw [length_b64Digits, length_b64Digits]) h g hg
  have hgroup := b64Digits_injective hdigits (shaGroup_lt r hg) (shaGroup_lt r' hg)
  simpa [hi, hi'] using getD_of_shaGroup_eq hgroup hin

theorem notMem_shaSetting {salt : Str} (h : 0 ∉ salt) (v : ShaKind) : 0 ∉ (shaSetting v salt).salt := by
  have hsalt : ∀ {text : Str}, 0 ∉ text → 0 ∉ shaSalt text := by
    intro text htext hmem
    exact htext ((List.takeWhile_prefix _).subset (List.mem_of_mem_take hmem))
  have hrounds : ∀ {text : Str}, 0 ∉ text → 0 ∉ (shaRounds text).salt := by
    intro text htext
    unfold shaRounds
    split
    . split
      . next srounds rest heq =>
        have hsuffix := (strtoul_isSuffix (text.drop roundsPrefix.length)).trans (List.drop_suffix _ _)
        rw [heq] at hsuffix
        exact hsalt fun hmem => htext (hsuffix.subset (List.mem_cons_of_mem _ hmem))
      . exact hsalt htext
    . exact hsalt htext
  unfold shaSetting
  split
  . exact hrounds fun hmem => h (List.mem_of_mem_drop hmem)
  . exact hrounds h

theorem notMem_b64Digits {c : UInt8} (h : ∀ i < 64, c ≠ itoa64.getD i 0) (w n : Nat) : c ∉ b64Digits w n := by
  induction n generalizing w with
  | zero => nofun
  | succ n ih =>
    rw [b64Digits, List.mem_cons, not_or]
    exact ⟨h _ (Nat.mod_lt w (by decide)), ih _⟩

theorem notMem_shaDigits {c : UInt8} (h : ∀ i < 64, c ≠ itoa64.getD i 0) (v : ShaKind) (result : List UInt8)
    : c ∉ shaDigits v result := by
  intro hmem
  rcases List.mem_flatMap.mp hmem with ⟨g, -, hg⟩
  exact notMem_b64Digits h _ _ hg

theorem notMem_shaCryptText (v : ShaKind) {s : ShaSetting} (hs : 0 ∉ s.salt) (result : List UInt8)
    : 0 ∉ shaCryptText v s result := by
  have hlead : 0 ∉ v.saltPrefix := by
    cases v <;> decide
  have hrounds : 0 ∉ roundsPrefix := by
    decide
  have htext : 0 ∉ s.text := by
    unfold ShaSetting.text
    split
    . simp [hs, hrounds, formatInt_text]
    . simpa using hs
  have hdigits : 0 ∉ shaDigits v result := notMem_shaDigits (by decide +kernel) v result
  simp [shaCryptText, hlead, htext, hdigits]

namespace ShaKind

def checkFn : ShaKind → CryptCheckFn
  | .sha256 => .sha256
  | .sha512 => .sha512

def algorithm (alg : CryptAlgorithms) : ShaKind → Str → Str → CryptCall
  | .sha256 => alg.cryptSha256
  | .sha512 => alg.cryptSha512

end ShaKind

def cryptShaCall (v : ShaKind) (a : ShaAddrs) (key salt : Str) : CryptCall :=
  match cryptSha v a key salt 128 with
  | .ok (some text) =>
    if h : 0 ∉ text ∧ text.length < 128 then .done ⟨text, h.1, h.2⟩ else .failed [] CryptCall.length_nil
  | _ => .failed [] CryptCall.length_nil

theorem cryptShaCall_eq (v : ShaKind) (a : ShaAddrs) {key salt : Str} (hkey : key.length < 0x100000000)
    (hsalt : 0 ∉ salt)
    : ∃ out, out.text = shaCryptOf v key (shaSetting v salt) ∧ cryptShaCall v a key salt = .done out := by
  have hzero : 0 ∉ shaCryptOf v key (shaSetting v salt) := notMem_shaCryptText v (notMem_shaSetting hsalt v) _
  have hlen : (shaCryptOf v key (shaSetting v salt)).length < 128 := length_shaCryptText v (valid_shaSetting v salt) _
  refine ⟨⟨_, hzero, hlen⟩, rfl, ?_⟩
  unfold cryptShaCall
  rw [cryptSha_check v a hkey]
  dsimp only
  rw [dif_pos ⟨hzero, hlen⟩]

theorem getCryptFunction_mcf {c : UInt8} (hc : c ≠ 36) (rest : Str)
    : getCryptFunction (36 :: c :: 36 :: rest) = mcfFunction [c] := by
  have hcut : strcut 36 (c :: 36 :: rest) = some ([c], rest) := by
    simp [strcut, hc]
  unfold getCryptFunction
  rw [if_neg (by simp), if_neg (by simp)]
  simp only [hcut]

theorem getCryptFunction_sha (v : ShaKind) (s : ShaSetting) (result : List UInt8)
    : cryptPayload (shaCryptText v s result) = shaCryptText v s result
        ∧ getCryptFunction (shaCryptText v s result) = some v.checkFn := by
  unfold shaCryptText
  generalize s.text ++ 36 :: shaDigits v result = rest
  cases v with
  | sha256 => exact ⟨rfl, getCryptFunction_mcf (c := 53) (by decide) rest⟩
  | sha512 => exact ⟨rfl, getCryptFunction_mcf (c := 54) (by decide) rest⟩

theorem length_result (v : ShaKind) (key salt : Str) (rounds : Nat)
    : (ShaCrypt.result (shaDigest v) key salt rounds).length = v.resultBytes := by
  unfold ShaCrypt.result
  cases rounds with
  | zero => exact length_shaDigest v _
  | succ rounds =>
    rw [List.range_succ, List.foldl_concat]
    exact length_shaDigest v _

theorem shaCryptText_inj {v : ShaKind} {s : ShaSetting} {r r' : List UInt8} (hr : r.length = v.resultBytes)
    (hr' : r'.length = v.resultBytes)
    : shaCryptText v s r = shaCryptText v s r' ↔ r = r' := by
  constructor
  . intro h
    unfold shaCryptText at h
    rw [List.append_cancel_left_eq, List.append_cancel_left_eq, List.cons.injEq] at h
    exact shaDigits_injective hr hr' h.2
  . intro h
    rw [h]

theorem count_shaCryptText (v : ShaKind) {s : ShaSetting} (hs : s.Valid) (result : List UInt8)
    : (shaCryptText v s result).count 36 = if s.roundsCustom then 4 else 3 := by
  have hlead : v.saltPrefix.count 36 = 2 := by
    cases v <;> decide
  have hrounds : roundsPrefix.count 36 = 0 := by
    decide
  have hnumber : (formatInt s.rounds).count 36 = 0 := by
    rw [List.count_eq_zero]
    intro hmem
    exact absurd (isdigit_formatInt hmem) (by decide)
  have hsalt := List.count_eq_zero.mpr hs.salt
  have hdigits := List.count_eq_zero.mpr (notMem_shaDigits (c := 36) (by decide +kernel) v result)
  unfold shaCryptText ShaSetting.text
  split
  . simp [List.count_append, hlead, hrounds, hnumber, hsalt, hdigits]
  . simp [List.count_append, hlead, hsalt, hdigits]

theorem shaCryptOf_shaCryptText (v : ShaKind) (plain : Str) {s : ShaSetting} (hs : s.Valid) {r : List UInt8}
    (hr : r.length = v.resultBytes)
    : shaCryptOf v plain (shaSetting v (shaCryptText v s r)) = shaCryptText v s r
        ↔
      s.Unambiguous ∧ ShaCrypt.result (shaDigest v) plain s.salt s.rounds = r := by
  by_cases hplain : s.Unambiguous
  . rw [shaSetting_text v hs hplain, shaCryptOf, shaCryptText_inj (length_result v _ _ _) hr]
    simp [hplain]
  . rcases shaRounds_of_ambiguous hplain (shaDigits v r) with ⟨hdefault, hcustom⟩
    rw [← shaSetting_shaCryptText] at hcustom
    simp only [hplain, false_and, iff_false]
    intro heq
    have hcount := congrArg (List.count 36) heq
    rw [shaCryptOf, count_shaCryptText v (valid_shaSetting v _), count_shaCryptText v hs, hcustom, hdefault] at hcount
    exact absurd hcount (by decide)

/--
A hash that was made of a key and a setting is accepted by `crypt_check`, whatever is on the stack, for exactly the
passwords that have the same result in the scheme, or for none if the salt is one that becomes a number of rounds.
-/
theorem cryptCheck_cryptSha (v : ShaKind) (a b : ShaAddrs) {alg : CryptAlgorithms}
    (halg : v.algorithm alg = cryptShaCall v a)
    (key plain salt : Str) {hash : Str} (hkey : key.length < 0x100000000) (hplain : plain.length < 0x100000000)
    (hsalt : 0 ∉ salt) (hmade : cryptSha v b key salt 128 = .ok (some hash))
    : ∀ buf, cryptCheck alg plain hash buf
        =
      .ok (decide ((shaSetting v salt).Unambiguous
        ∧ ShaCrypt.result (shaDigest v) plain (shaSetting v salt).salt (shaSetting v salt).rounds
          = ShaCrypt.result (shaDigest v) key (shaSetting v salt).salt (shaSetting v salt).rounds)) := by
  intro buf
  have hs := valid_shaSetting v salt
  have hhash : hash = shaCryptOf v key (shaSetting v salt) := by
    rw [cryptSha_check v b hkey] at hmade
    cases hmade
    rfl
  have hzero : 0 ∉ hash := hhash ▸ notMem_shaCryptText v (notMem_shaSetting hsalt v) _
  have hfn : v.checkFn.algorithm alg = some (cryptShaCall v a) := by
    rw [← halg]
    cases v <;> rfl
  rcases cryptShaCall_eq v a hplain hzero with ⟨out, htext, hcall⟩
  rcases getCryptFunction_sha v (shaSetting v salt)
    (ShaCrypt.result (shaDigest v) key (shaSetting v salt).salt (shaSetting v salt).rounds) with ⟨hpayload, hget⟩
  change cryptPayload (shaCryptOf v key (shaSetting v salt)) = shaCryptOf v key (shaSetting v salt) at hpayload
  rw [← hhash] at hpayload
  have hget' : getCryptFunction (cryptPayload hash) = some v.checkFn := by
    rw [hpayload, hhash]
    exact hget
  rw [cryptCheck_eq hget', CryptCheckFn.run_eq_cryptCheckWith hfn, hpayload, cryptCheckWith.eq_of_done hcall hzero,
    htext, hhash]
  congr 1
  rw [decide_eq_decide]
  exact shaCryptOf_shaCryptText v plain hs (length_result v _ _ _)

theorem cryptCheck_cryptSha_salted
    : 0 ∉ str "$5$salt"
      ∧ ∀ buf,
          cryptCheck { md5Only with cryptSha256 := cryptShaCall .sha256 ⟨0, 1, 2, 3, 4⟩ } (str "secret")
            (shaCryptOf .sha256 (str "secret") (shaSetting .sha256 (str "$5$salt"))) buf
              =
          .ok true := by
  have hsalt : 0 ∉ str "$5$salt" := by
    decide
  have hplain : (shaSetting .sha256 (str "$5$salt")).Unambiguous := by
    decide +kernel
  have hkey : (str "secret").length < 0x100000000 := by
    decide
  refine ⟨hsalt, fun buf => ?_⟩
  rw [cryptCheck_cryptSha .sha256 ⟨0, 1, 2, 3, 4⟩ ⟨0, 0, 0, 0, 0⟩ rfl (str "secret") (str "secret") (str "$5$salt")
    hkey hkey
    hsalt (cryptSha_check .sha256 _ hkey (str "$5$salt")), decide_eq_true ⟨hplain, rfl⟩]

-- The salt of this setting is the text of a number.
example : ¬ (shaSetting .sha256 (str "$5$rounds=5")).Unambiguous := by
  decide +kernel
