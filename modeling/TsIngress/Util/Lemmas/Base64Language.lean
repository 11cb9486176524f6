import TsIngress.Util.Lemmas.Base64

/-!
This module contains the language of base64 and the one that `base64_decode` accepts, which is larger.
-/

theorem b64table_eq
    : b64table
        =
      (List.range' 65 26).map UInt8.ofNat ++ (List.range' 97 26).map UInt8.ofNat
        ++ (List.range' 48 10).map UInt8.ofNat ++ [43, 47] := by
  decide +kernel

theorem mem_map_range'_iff {a n : Nat} (h : a + n ≤ 256) (c : UInt8)
    : c ∈ (List.range' a n).map UInt8.ofNat ↔ a ≤ c.toNat ∧ c.toNat < a + n := by
  rw [List.mem_map]
  simp only [List.mem_range'_1]
  constructor
  . rintro ⟨i, hi, rfl⟩
    rw [UInt8.toNat_ofNat_of_lt' (by have : UInt8.size = 256 := rfl; omega)]
    exact hi
  . intro hc
    exact ⟨c.toNat, hc, UInt8.ofNat_toNat⟩

theorem b64untable_eq_none_iff (c : UInt8) : b64untable c = none ↔ c ∉ b64table ∧ c ≠ 61 := by
  rw [b64table_eq]
  simp only [List.mem_append, mem_map_range'_iff (show 65 + 26 ≤ 256 by decide),
    mem_map_range'_iff (show 97 + 26 ≤ 256 by decide), mem_map_range'_iff (show 48 + 10 ≤ 256 by decide),
    List.mem_cons, List.not_mem_nil, or_false]
  unfold b64untable
  repeat' split
  all_goals
    simp only [Bool.and_eq_true, decide_eq_true_eq, UInt8.le_iff_toNat_le, ← UInt8.toNat_inj,
      UInt8.reduceToNat, reduceCtorEq, false_iff, true_iff, ne_eq] at *
    omega

theorem ne_pad_of_mem_b64table {c : UInt8} (h : c ∈ b64table) : c ≠ 61 := by
  have hpad : 61 ∉ b64table := by
    decide +kernel
  intro heq
  rw [heq] at h
  exact hpad h

theorem b64untable_ne_none_iff (c : UInt8) : b64untable c ≠ none ↔ c ∈ b64table ∨ c = 61 := by
  rw [Ne, b64untable_eq_none_iff]
  by_cases h : c = 61
  . simp [h]
  . simp [h]

def Digits (s : Str) : Prop :=
  ∀ c ∈ s, c ∈ b64table

-- Groups of four digits, of which the last may end in one or two padding characters.
def IsBase64 (s : Str) : Prop :=
  s.length % 4 = 0
    ∧
  ∃ body pad, s = body ++ List.replicate pad 61 ∧ pad ≤ 2 ∧ Digits body

-- Groups of four digits with one to three bytes behind them.
def EndsInGroup (s : Str) : Prop :=
  s.length % 4 ≠ 0 ∧ Digits (s.take (s.length / 4 * 4))

-- The padding of the last group stands before a digit.
def PadsInside (s : Str) : Prop :=
  s.length % 4 = 0
    ∧
  ∃ body c, s = body ++ [61, c] ∧ c ∈ b64table ∧ Digits body

theorem exists_group {s : Str} (h : 4 ≤ s.length) : ∃ p0 p1 p2 p3 rest, s = p0 :: p1 :: p2 :: p3 :: rest := by
  match s with
  | p0 :: p1 :: p2 :: p3 :: rest => exact ⟨p0, p1, p2, p3, rest, rfl⟩
  | [_, _, _] => simp at h
  | [_, _] => simp at h
  | [_] => simp at h
  | [] => simp at h

section

variable {p0 p1 p2 p3 : UInt8} {rest : Str}

def DigitGroup (p0 p1 p2 p3 : UInt8) : Prop :=
  p0 ∈ b64table ∧ p1 ∈ b64table ∧ p2 ∈ b64table ∧ p3 ∈ b64table

theorem digits_group_iff : Digits (p0 :: p1 :: p2 :: p3 :: rest) ↔ DigitGroup p0 p1 p2 p3 ∧ Digits rest := by
  simp [Digits, DigitGroup, and_assoc]

theorem exists_body_of_group {body tail : Str} (hlen : 4 ≤ body.length)
    (heq : p0 :: p1 :: p2 :: p3 :: rest = body ++ tail)
    : ∃ body', body = p0 :: p1 :: p2 :: p3 :: body' ∧ rest = body' ++ tail := by
  rcases exists_group hlen with ⟨a0, a1, a2, a3, body', rfl⟩
  simp only [List.cons_append, List.cons.injEq] at heq
  rcases heq with ⟨rfl, rfl, rfl, rfl, rfl⟩
  exact ⟨body', rfl, rfl⟩

theorem isBase64_group_iff (hrest : rest ≠ [])
    : IsBase64 (p0 :: p1 :: p2 :: p3 :: rest) ↔ DigitGroup p0 p1 p2 p3 ∧ IsBase64 rest := by
  have hlen : 0 < rest.length := List.length_pos_iff.mpr hrest
  unfold IsBase64
  constructor
  . rintro ⟨hmod, body, pad, heq, hpad, hbody⟩
    have hlen' := congrArg List.length heq
    simp only [List.length_cons, List.length_append, List.length_replicate] at hmod hlen'
    rcases exists_body_of_group (by omega) heq with ⟨body', rfl, rfl⟩
    rw [digits_group_iff] at hbody
    exact ⟨hbody.1, by omega, body', pad, rfl, hpad, hbody.2⟩
  . rintro ⟨hgroup, hmod, body, pad, rfl, hpad, hbody⟩
    refine ⟨?_, p0 :: p1 :: p2 :: p3 :: body, pad, rfl, hpad, digits_group_iff.mpr ⟨hgroup, hbody⟩⟩
    simp only [List.length_cons]
    omega

theorem endsInGroup_group_iff
    : EndsInGroup (p0 :: p1 :: p2 :: p3 :: rest) ↔ DigitGroup p0 p1 p2 p3 ∧ EndsInGroup rest := by
  have htake : (p0 :: p1 :: p2 :: p3 :: rest).length / 4 * 4 = rest.length / 4 * 4 + 4 := by
    simp only [List.length_cons]
    omega
  have hmod : (p0 :: p1 :: p2 :: p3 :: rest).length % 4 = rest.length % 4 := by
    simp only [List.length_cons]
    omega
  unfold EndsInGroup
  rw [htake, hmod]
  simp only [List.take_succ_cons, digits_group_iff]
  exact and_left_comm

theorem padsInside_group_iff (hrest : rest ≠ [])
    : PadsInside (p0 :: p1 :: p2 :: p3 :: rest) ↔ DigitGroup p0 p1 p2 p3 ∧ PadsInside rest := by
  have hlen : 0 < rest.length := List.length_pos_iff.mpr hrest
  unfold PadsInside
  constructor
  . rintro ⟨hmod, body, c, heq, hc, hbody⟩
    have hlen' := congrArg List.length heq
    simp only [List.length_cons, List.length_append, List.length_nil] at hmod hlen'
    rcases exists_body_of_group (by omega) heq with ⟨body', rfl, rfl⟩
    rw [digits_group_iff] at hbody
    exact ⟨hbody.1, by omega, body', c, rfl, hc, hbody.2⟩
  . rintro ⟨hgroup, hmod, body, c, rfl, hc, hbody⟩
    refine ⟨?_, p0 :: p1 :: p2 :: p3 :: body, c, rfl, hc, digits_group_iff.mpr ⟨hgroup, hbody⟩⟩
    simp only [List.length_cons]
    omega

theorem isBase64_single_iff
    : IsBase64 [p0, p1, p2, p3]
        ↔
      p0 ∈ b64table ∧ p1 ∈ b64table
        ∧ ((p2 ∈ b64table ∧ (p3 ∈ b64table ∨ p3 = 61)) ∨ (p2 = 61 ∧ p3 = 61)) := by
  unfold IsBase64 Digits
  constructor
  . rintro ⟨-, body, pad, heq, hpad, hbody⟩
    have hlen := congrArg List.length heq
    simp only [List.length_cons, List.length_nil, List.length_append, List.length_replicate] at hlen
    obtain rfl | rfl | rfl : pad = 0 ∨ pad = 1 ∨ pad = 2 := by omega
    . rw [List.replicate_zero, List.append_nil] at heq
      subst heq
      simp only [List.forall_mem_cons] at hbody
      exact ⟨hbody.1, hbody.2.1, .inl ⟨hbody.2.2.1, .inl hbody.2.2.2.1⟩⟩
    . rcases List.length_eq_three.mp (show body.length = 3 by omega) with ⟨a, b, c, rfl⟩
      simp at heq
      rcases heq with ⟨rfl, rfl, rfl, rfl⟩
      simp only [List.forall_mem_cons] at hbody
      exact ⟨hbody.1, hbody.2.1, .inl ⟨hbody.2.2.1, .inr rfl⟩⟩
    . rcases List.length_eq_two.mp (show body.length = 2 by omega) with ⟨a, b, rfl⟩
      simp [List.replicate] at heq
      rcases heq with ⟨rfl, rfl, rfl, rfl⟩
      simp only [List.forall_mem_cons] at hbody
      exact ⟨hbody.1, hbody.2.1, .inr ⟨rfl, rfl⟩⟩
  . rintro ⟨h0, h1, ⟨h2, h3 | rfl⟩ | ⟨rfl, rfl⟩⟩
    . exact ⟨by simp, [p0, p1, p2, p3], 0, rfl, by omega, by simp [h0, h1, h2, h3]⟩
    . exact ⟨by simp, [p0, p1, p2], 1, rfl, by omega, by simp [h0, h1, h2]⟩
    . exact ⟨by simp, [p0, p1], 2, rfl, by omega, by simp [h0, h1]⟩

theorem padsInside_single_iff
    : PadsInside [p0, p1, p2, p3]
        ↔
      p0 ∈ b64table ∧ p1 ∈ b64table ∧ p2 = 61 ∧ p3 ∈ b64table := by
  unfold PadsInside Digits
  constructor
  . rintro ⟨-, body, c, heq, hc, hbody⟩
    have hlen := congrArg List.length heq
    simp only [List.length_cons, List.length_nil, List.length_append] at hlen
    rcases List.length_eq_two.mp (show body.length = 2 by omega) with ⟨a, b, rfl⟩
    simp at heq
    rcases heq with ⟨rfl, rfl, rfl, rfl⟩
    simp only [List.forall_mem_cons] at hbody
    exact ⟨hbody.1, hbody.2.1, rfl, hc⟩
  . rintro ⟨h0, h1, rfl, h3⟩
    exact ⟨by simp, [p0, p1], p3, rfl, h3, by simp [h0, h1]⟩

theorem base64Decode_ge (s : Str) : (base64Decode s).1 = -1 ∨ 0 ≤ (base64Decode s).1 := by
  rcases (base64Decode.bounds s).2 with h | h
  . exact .inl h
  . right
    omega

theorem base64Decode_group_ne_iff
    : (base64Decode (p0 :: p1 :: p2 :: p3 :: rest)).1 ≠ -1
        ↔
      (p0 ≠ 61 ∧ p1 ≠ 61)
        ∧
      (b64untable p0 ≠ none ∧ b64untable p1 ≠ none ∧ b64untable p2 ≠ none ∧ b64untable p3 ≠ none)
        ∧
      (p2 = 61 ∨ p3 = 61 → rest = [])
        ∧
      (¬ (p2 = 61 ∨ p3 = 61) → (base64Decode rest).1 ≠ -1) := by
  rw [base64Decode]
  dsimp only
  generalize hpadding : (if p3 = 61 then 1 else 0) + (if p2 = 61 then 1 else 0) = padding
  have hpad : padding ≠ 0 ↔ p2 = 61 ∨ p3 = 61 := by
    rw [← hpadding]
    by_cases h2 : p2 = 61
    . simp [h2]
    . by_cases h3 : p3 = 61
      . simp [h2, h3]
      . simp [h2, h3]
  rw [← hpad]
  split
  . next hfront =>
    rcases hfront with hfront | hfront
    . simp [hfront]
    . simp [hfront]
  . next hfront =>
    rw [not_or] at hfront
    split
    . next hlast => simp [hlast.1, hlast.2]
    . next hlast =>
      split
      . next v0 v1 v2 v3 h0 h1 h2 h3 =>
        rw [h0, h1, h2, h3]
        split
        . next hpadded =>
          have hrest : rest = [] := by
            by_contra hrest
            exact hlast ⟨hpadded, hrest⟩
          simp [hpadded, hrest, hfront]
        . next hpadded =>
          have hge := base64Decode_ge rest
          simp only [hpadded, ne_eq, reduceCtorEq, not_false_eq_true, false_implies, true_implies, true_and,
            hfront, and_self]
          split
          . next h => simp [h]
          . next h =>
            simp [h]
            omega
      . next hnone =>
        simp only [ne_eq, not_true_eq_false, false_iff]
        rintro ⟨-, ⟨h0, h1, h2, h3⟩, -, -⟩
        rw [← ne_eq, Option.ne_none_iff_exists'] at h0 h1 h2 h3
        rcases h0 with ⟨v0, h0⟩
        rcases h1 with ⟨v1, h1⟩
        rcases h2 with ⟨v2, h2⟩
        rcases h3 with ⟨v3, h3⟩
        exact hnone v0 v1 v2 v3 h0 h1 h2 h3

theorem ne_pad_and_b64untable_iff
    : ((p0 ≠ 61 ∧ p1 ≠ 61)
        ∧ b64untable p0 ≠ none ∧ b64untable p1 ≠ none ∧ b64untable p2 ≠ none ∧ b64untable p3 ≠ none)
        ↔
      (p0 ∈ b64table ∧ p1 ∈ b64table) ∧ (p2 ∈ b64table ∨ p2 = 61) ∧ (p3 ∈ b64table ∨ p3 = 61) := by
  simp only [b64untable_ne_none_iff]
  constructor
  . rintro ⟨⟨hne0, hne1⟩, h0, h1, h2, h3⟩
    exact ⟨⟨h0.resolve_right hne0, h1.resolve_right hne1⟩, h2, h3⟩
  . rintro ⟨⟨h0, h1⟩, h2, h3⟩
    exact ⟨⟨ne_pad_of_mem_b64table h0, ne_pad_of_mem_b64table h1⟩, .inl h0, .inl h1, h2, h3⟩

end

/--
Beside base64, what is accepted is base64 without padding with bytes behind it, and base64 with a digit
behind its padding.
-/
theorem base64Decode_ne_iff (s : Str)
    : (base64Decode s).1 ≠ -1 ↔ IsBase64 s ∨ EndsInGroup s ∨ PadsInside s := by
  match s with
  | [] => simp [base64Decode, IsBase64, Digits]
  | [_] => simp [base64Decode, EndsInGroup, Digits]
  | [_, _] => simp [base64Decode, EndsInGroup, Digits]
  | [_, _, _] => simp [base64Decode, EndsInGroup, Digits]
  | p0 :: p1 :: p2 :: p3 :: rest =>
    rw [base64Decode_group_ne_iff, ← and_assoc, ne_pad_and_b64untable_iff, endsInGroup_group_iff]
    by_cases hlast : rest = []
    . subst hlast
      rw [isBase64_single_iff, padsInside_single_iff]
      simp only [base64Decode, EndsInGroup, List.length_nil, Nat.zero_mod, ne_eq, not_true_eq_false, false_and,
        and_false, false_or, implies_true, and_true, reduceCtorEq, not_false_eq_true]
      constructor
      . rintro ⟨⟨h0, h1⟩, h2 | h2, h3⟩
        . exact .inl ⟨h0, h1, .inl ⟨h2, h3⟩⟩
        . rcases h3 with h3 | h3
          . exact .inr ⟨h0, h1, h2, h3⟩
          . exact .inl ⟨h0, h1, .inr ⟨h2, h3⟩⟩
      . rintro (⟨h0, h1, ⟨h2, h3⟩ | ⟨h2, h3⟩⟩ | ⟨h0, h1, h2, h3⟩)
        . exact ⟨⟨h0, h1⟩, .inl h2, h3⟩
        . exact ⟨⟨h0, h1⟩, .inr h2, .inr h3⟩
        . exact ⟨⟨h0, h1⟩, .inr h2, .inl h3⟩
    . rw [base64Decode_ne_iff rest, isBase64_group_iff hlast, padsInside_group_iff hlast]
      by_cases hpad : p2 = 61 ∨ p3 = 61
      . have hgroup : ¬ DigitGroup p0 p1 p2 p3 := by
          rintro ⟨-, -, h2, h3⟩
          rcases hpad with hpad | hpad
          . exact ne_pad_of_mem_b64table h2 hpad
          . exact ne_pad_of_mem_b64table h3 hpad
        simp [hpad, hlast, hgroup]
      . have hgroup : (p0 ∈ b64table ∧ p1 ∈ b64table) ∧ (p2 ∈ b64table ∨ p2 = 61)
            ∧ (p3 ∈ b64table ∨ p3 = 61) ↔ DigitGroup p0 p1 p2 p3 := by
          rw [not_or] at hpad
          unfold DigitGroup
          rw [or_iff_left hpad.1, or_iff_left hpad.2, and_assoc]
        rw [hgroup]
        simp only [hpad, false_implies, not_false_eq_true, true_implies, true_and]
        rw [and_or_left, and_or_left]

theorem IsBase64.not_endsInGroup {s : Str} (h : IsBase64 s) : ¬ EndsInGroup s := by
  intro hends
  exact hends.1 h.1

theorem IsBase64.not_padsInside {s : Str} (h : IsBase64 s) : ¬ PadsInside s := by
  rintro ⟨-, body', c, heq, hc, -⟩
  rcases h with ⟨-, body, pad, rfl, hpad, hbody⟩
  have hc' := ne_pad_of_mem_b64table hc
  cases pad with
  | zero =>
    rw [List.replicate_zero, List.append_nil] at heq
    rw [heq] at hbody
    exact ne_pad_of_mem_b64table (hbody 61 (by simp)) rfl
  | succ pad =>
    have hlast := congrArg List.getLast? heq
    rw [List.replicate_succ', ← List.append_assoc, List.getLast?_concat, List.getLast?_append] at hlast
    simp at hlast
    exact hc' hlast.symm

/--
`base64_decode` accepts exactly base64 on all inputs but those two kinds.
-/
theorem base64Decode_acceptsExactly_iff (s : Str)
    : ((IsBase64 s → 0 ≤ (base64Decode s).1) ∧ (¬ IsBase64 s → (base64Decode s).1 = -1))
        ↔
      ¬ EndsInGroup s ∧ ¬ PadsInside s := by
  have hne := base64Decode_ne_iff s
  have hge := base64Decode_ge s
  by_cases h : IsBase64 s
  . have hends := h.not_endsInGroup
    have hpads := h.not_padsInside
    have hret := hne.mpr (.inl h)
    simp only [h, hends, hpads, true_implies, not_true_eq_false, false_implies, and_true, not_false_eq_true,
      iff_true]
    omega
  . simp only [h, false_implies, not_false_eq_true, true_implies, true_and]
    rw [← not_or, ← not_iff_not.mpr (hne.trans (or_iff_right h))]
    simp

-- The fifth character is not looked at.
theorem not_base64Decode_acceptsExactly
    : ¬ ∀ s : Str,
        (IsBase64 s → 0 ≤ (base64Decode s).1) ∧ (¬ IsBase64 s → (base64Decode s).1 = -1) := by
  intro haccepts
  have hnot : ¬ IsBase64 (str "YWJjZ") := by
    rintro ⟨hlen, -⟩
    revert hlen
    decide
  have hret := (haccepts (str "YWJjZ")).2 hnot
  revert hret
  decide
