import TsIngress.Basic
import TsIngress.Lib.Fields
import Mathlib.Data.List.TakeWhile

theorem strcut_eq_none_iff (c : UInt8) (s : Str) : strcut c s = none ↔ c ∉ s := by
  unfold strcut
  split <;> simp_all

theorem decide_ne_of_notMem {c : UInt8} {s : Str} (h : c ∉ s) : ∀ x ∈ s, decide (x ≠ c) = true := by
  intro x hx
  rw [decide_eq_true_eq]
  exact ne_of_mem_of_not_mem hx h

theorem takeWhile_of_notMem {c : UInt8} {s : Str} (h : c ∉ s) : s.takeWhile (· ≠ c) = s := by
  rw [List.takeWhile_eq_self_iff]
  exact decide_ne_of_notMem h

theorem takeWhile_append_of_notMem {c : UInt8} {s : Str} (h : c ∉ s) (rest : Str)
    : (s ++ c :: rest).takeWhile (· ≠ c) = s := by
  rw [List.takeWhile_append_of_pos (decide_ne_of_notMem h)]
  simp

theorem notMem_cstr (buf : List UInt8) : 0 ∉ cstr buf := by
  intro h
  have := List.mem_takeWhile_imp h
  simp at this

theorem cstr_of_notMem {s : Str} (h : 0 ∉ s) : cstr s = s := by
  exact takeWhile_of_notMem h

theorem strcut_append (c : UInt8) (before after : Str) (h : c ∉ before)
    : strcut c (before ++ c :: after) = some (before, after) := by
  unfold strcut
  rw [if_pos (by simp), takeWhile_append_of_notMem h, List.dropWhile_append_of_pos (decide_ne_of_notMem h)]
  simp

theorem strcut_eq_some_iff (c : UInt8) (s before after : Str)
    : strcut c s = some (before, after) ↔ s = before ++ c :: after ∧ c ∉ before := by
  constructor
  . intro h
    have hmem : c ∈ s := by
      by_contra hmem
      rw [← strcut_eq_none_iff] at hmem
      rw [hmem] at h
      cases h
    rcases List.eq_append_cons_of_mem hmem with ⟨xs, ys, rfl, hxs⟩
    rw [strcut_append c xs ys hxs] at h
    cases h
    exact ⟨rfl, hxs⟩
  . rintro ⟨rfl, h⟩
    exact strcut_append c before after h

theorem length_lt_of_strcut {c : UInt8} {s before after : Str} (h : strcut c s = some (before, after))
    : after.length < s.length := by
  rw [strcut_eq_some_iff] at h
  rw [h.1]
  simp only [List.length_append, List.length_cons]
  omega

theorem notMem_delim_of_mem_strsep {delim s t : Str} (h : t ∈ strsep delim s)
    : ∀ c ∈ t, c ∉ delim := by
  intro c hc
  have := Fields.eq_false_of_mem h c hc
  simpa using this

theorem isdigit_iff (c : UInt8) : isdigit c ↔ 48 ≤ c.toNat ∧ c.toNat ≤ 57 := by
  unfold isdigit
  simp [UInt8.le_iff_toNat_le]

theorem isspace_of_isdigit {c : UInt8} (h : isdigit c) : isspace c = false := by
  rw [isdigit_iff] at h
  have hne : c ≠ 32 := by
    rintro rfl
    simp at h
  have hgt : ¬ c ≤ 13 := by
    simp only [UInt8.le_iff_toNat_le, UInt8.reduceToNat]
    omega
  simp [isspace, hne, hgt]

theorem strtol_eq_digitsValue {s : Str} (h : ∀ c ∈ s, isdigit c) (hv : digitsValue s < 0x80000000)
    : strtol s = digitsValue s := by
  have htake : s.takeWhile isdigit = s := by
    rw [List.takeWhile_eq_self_iff]
    exact h
  have hdrop : s.dropWhile isspace = s := by
    cases s with
    | nil => rfl
    | cons c s =>
      apply List.dropWhile_cons_of_neg
      rw [isspace_of_isdigit (h c (by simp))]
      simp
  unfold strtol
  dsimp only
  rw [hdrop]
  split
  . exact absurd (h 45 (by simp)) (by decide)
  . exact absurd (h 43 (by simp)) (by decide)
  . rw [htake]
    unfold longMax
    omega

theorem atoi_eq_digitsValue {s : Str} (h : ∀ c ∈ s, isdigit c) (hv : digitsValue s < 0x80000000)
    : atoi s = digitsValue s := by
  unfold atoi
  rw [strtol_eq_digitsValue h hv]
  apply Int.bmod_eq_of_le <;> omega

theorem tolower_eq_iff {c d : UInt8} (hd : d < 65 ∨ (90 < d ∧ d < 97)) : tolower c = d ↔ c = d := by
  unfold tolower
  split
  . next hupper =>
    simp only [Bool.and_eq_true, decide_eq_true_eq, UInt8.le_iff_toNat_le] at hupper
    simp only [UInt8.lt_iff_toNat_lt] at hd
    constructor
    . rintro rfl
      rw [UInt8.toNat_add] at hd
      simp at hd hupper
      omega
    . rintro rfl
      simp at hd hupper
      omega
  . rfl

theorem Str.read_eq_of_lt {s : Str} {i : Nat} {c : UInt8} (h : s[i]? = some c) : s.read i = .ok c := by
  have hlt : i < s.length := by
    exact (List.getElem?_eq_some_iff.mp h).1
  unfold Str.read
  rw [if_pos hlt, List.getD_eq_getElem?_getD, h, Option.getD_some]

theorem Str.read_length (s : Str) : s.read s.length = .ok 0 := by
  simp [Str.read]

theorem Str.read_of_gt {s : Str} {i : Nat} (h : s.length < i) : s.read i = .error .outOfBounds := by
  unfold Str.read
  rw [if_neg (by omega), if_neg (by omega)]

theorem Str.read_cases (s : Str) (i : Nat)
    : (∃ c, s[i]? = some c ∧ s.read i = .ok c)
      ∨ (i = s.length ∧ s.read i = .ok 0)
      ∨ (s.length < i ∧ s.read i = .error .outOfBounds) := by
  rcases Nat.lt_trichotomy i s.length with h | h | h
  . have hget := List.getElem?_eq_getElem h
    exact Or.inl ⟨_, hget, Str.read_eq_of_lt hget⟩
  . rw [h]
    exact Or.inr (Or.inl ⟨rfl, Str.read_length s⟩)
  . exact Or.inr (Or.inr ⟨h, Str.read_of_gt h⟩)

theorem storeBuf_eq {buf data : List UInt8} {pos : Nat} (h : pos + data.length ≤ buf.length)
    : storeBuf buf pos data = .ok (ClipBuffer.store buf pos data) := by
  rw [storeBuf, RawBuffer.write_eq h]
  rfl

theorem strBuf_append {s : Str} (h : 0 ∉ s) (rest : List UInt8) : strBuf (s ++ 0 :: rest) = .ok s := by
  rw [strBuf, RawBuffer.textOf_of_holds ⟨rest, rfl⟩ h]
  rfl

theorem exists_rest_of_cstr (buf : List UInt8)
    : ∃ rest, buf = cstr buf ++ rest ∧ (rest = [] ∨ rest.head? = some 0) := by
  refine ⟨buf.dropWhile (· ≠ 0), ?_, ?_⟩
  . unfold cstr
    rw [List.takeWhile_append_dropWhile]
  . cases hdrop : buf.dropWhile (· ≠ 0) with
    | nil =>
      left
      rfl
    | cons c rest =>
      right
      have hhead := List.head?_dropWhile_not (fun c : UInt8 => decide (c ≠ 0)) buf
      rw [hdrop] at hhead
      simpa using hhead
