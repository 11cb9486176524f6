import TsIngress.BasicLemmas
import TsIngress.Api.Lemmas.DomainAccess

/-!
This module contains the languages of the domain patterns that certificates and domain access lists are
keyed by.
-/

/--
A name directly below a domain: a label, a dot and the domain. A label is any text without a dot, and it
may be empty.
-/
def BelowDomain (d s : Str) : Prop :=
  ∃ label, 46 ∉ label ∧ s = label ++ 46 :: d

/--
What a domain pattern stands for. A star alone stands for every name. Any other pattern only compares with
names of three characters and more, and a star then stands for at most one label.
-/
def DomainPattern (pat s : Str) : Prop :=
  pat = str "*"
    ∨ (3 ≤ pat.length
      ∧ 3 ≤ s.length
      ∧ ((pat.head? ≠ some 42 ∧ pat = s)
        ∨ (∃ d, pat = 42 :: 46 :: d ∧ BelowDomain d s)
        ∨ (∃ d, pat = 42 :: d ∧ d.head? ≠ some 46 ∧ (s = d ∨ BelowDomain d s))))

theorem belowDomain_iff_strcut (d s : Str) : BelowDomain d s ↔ ∃ label, strcut 46 s = some (label, d) := by
  constructor
  . rintro ⟨label, hlabel, rfl⟩
    exact ⟨label, strcut_append 46 label d hlabel⟩
  . rintro ⟨label, h⟩
    rw [strcut_eq_some_iff] at h
    exact ⟨label, h.2, h.1⟩

theorem strcut_match_iff (d s : Str)
    : (match strcut 46 s with
        | none => false
        | some (_, dc) => d == dc) = true
        ↔
      BelowDomain d s := by
  rw [belowDomain_iff_strcut]
  cases h : strcut 46 s with
  | none => simp
  | some p =>
    rcases p with ⟨label, dc⟩
    simp only [beq_iff_eq, Option.some.injEq, Prod.mk.injEq]
    constructor
    . rintro rfl
      exact ⟨label, rfl, rfl⟩
    . rintro ⟨_, _, rfl⟩
      rfl

theorem BelowDomain.notMem_of_append {d before : Str} (h : BelowDomain d (before ++ 46 :: d)) : 46 ∉ before := by
  rcases h with ⟨label, hlabel, heq⟩
  rw [List.append_cancel_right heq]
  exact hlabel

theorem pattern_cases {pat : Str} (h : 3 ≤ pat.length)
    : pat.head? ≠ some 42
      ∨ (∃ d, d ≠ [] ∧ pat = 42 :: 46 :: d)
      ∨ (∃ d, d.head? ≠ some 46 ∧ 2 ≤ d.length ∧ pat = 42 :: d) := by
  by_cases hhead : pat.head? = some 42
  . rcases List.head?_eq_some_iff.mp hhead with ⟨d, rfl⟩
    by_cases hdot : d.head? = some 46
    . rcases List.head?_eq_some_iff.mp hdot with ⟨d, rfl⟩
      refine .inr (.inl ⟨d, ?_, rfl⟩)
      rintro rfl
      simp at h
    . refine .inr (.inr ⟨d, hdot, ?_, rfl⟩)
      rw [List.length_cons] at h
      omega
  . exact .inl hhead

namespace domainMatch

theorem eq_true_of_star (s : Str) : domainMatch (str "*") s = true := by
  simp [domainMatch]

theorem eq_false_of_short {pat s : Str} (hpat : pat ≠ str "*") (h : pat.length < 3 ∨ s.length < 3)
    : domainMatch pat s = false := by
  unfold domainMatch
  rw [if_neg hpat, if_pos]
  simp only [Bool.or_eq_true, decide_eq_true_eq]
  omega

theorem exact_iff {pat s : Str} (hpat : pat.head? ≠ some 42) (hplen : 3 ≤ pat.length) (hslen : 3 ≤ s.length)
    : domainMatch pat s = true ↔ pat = s := by
  have hstar : pat ≠ str "*" := by
    rintro rfl
    exact hpat rfl
  have hshort : ¬ (s.length < 3 || pat.length < 3) = true := by
    simp only [Bool.or_eq_true, decide_eq_true_eq]
    omega
  unfold domainMatch
  rw [if_neg hstar, if_neg hshort]
  split
  . exact absurd rfl hpat
  . exact absurd rfl hpat
  . simp

theorem starDot_iff {d s : Str} (hd : d ≠ []) (hslen : 3 ≤ s.length)
    : domainMatch (42 :: 46 :: d) s = true ↔ BelowDomain d s := by
  have hlen : 0 < d.length := List.length_pos_iff.mpr hd
  have hshort : ¬ (s.length < 3 || (42 :: 46 :: d).length < 3) = true := by
    simp only [List.length_cons, Bool.or_eq_true, decide_eq_true_eq]
    omega
  rw [domainMatch, if_neg (by simp [str]), if_neg hshort]
  exact strcut_match_iff d s

theorem star_iff {d s : Str} (hd : d.head? ≠ some 46) (hdlen : 2 ≤ d.length) (hslen : 3 ≤ s.length)
    : domainMatch (42 :: d) s = true ↔ s = d ∨ BelowDomain d s := by
  have hstar : 42 :: d ≠ str "*" := by
    intro h
    have hlen := congrArg List.length h
    simp only [str, List.length_cons, List.length_map] at hlen
    have hone : "*".toList.length = 1 := by
      decide
    omega
  have hshort : ¬ (s.length < 3 || (42 :: d).length < 3) = true := by
    simp only [List.length_cons, Bool.or_eq_true, decide_eq_true_eq]
    omega
  unfold domainMatch
  rw [if_neg hstar, if_neg hshort]
  split
  . next heq =>
    cases heq
    exact absurd rfl hd
  . next heq =>
    cases heq
    split
    . next heq => simp [heq]
    . next hne =>
      have hbelow : BelowDomain d s ↔ s = d ∨ BelowDomain d s := by
        simp [Ne.symm hne]
      exact (strcut_match_iff d s).trans hbelow
  . next hne => exact absurd rfl (hne d)

theorem iff_domainPattern (pat s : Str) : domainMatch pat s = true ↔ DomainPattern pat s := by
  by_cases hstar : pat = str "*"
  . rw [hstar]
    exact iff_of_true (eq_true_of_star s) (.inl rfl)
  by_cases hlen : pat.length < 3 ∨ s.length < 3
  . rw [eq_false_of_short hstar hlen]
    apply iff_of_false Bool.false_ne_true
    rintro (h | ⟨hplen, hslen, -⟩)
    . exact hstar h
    . omega
  have hplen : 3 ≤ pat.length := by
    omega
  have hslen : 3 ≤ s.length := by
    omega
  simp only [DomainPattern, hstar, hplen, hslen, true_and, false_or]
  rcases pattern_cases hplen with hpat | ⟨d, hd, rfl⟩ | ⟨d, hdot, hdlen, rfl⟩
  . rw [exact_iff hpat hplen hslen]
    constructor
    . intro h
      exact .inl ⟨hpat, h⟩
    . rintro (⟨-, h⟩ | ⟨d, rfl, -⟩ | ⟨d, rfl, -⟩)
      . exact h
      . exact absurd rfl hpat
      . exact absurd rfl hpat
  . rw [starDot_iff hd hslen]
    simp
  . rw [star_iff hdot hdlen hslen]
    constructor
    . intro h
      exact .inr (.inr ⟨d, rfl, hdot, h⟩)
    . rintro (⟨h, -⟩ | ⟨d', h, -⟩ | ⟨d', h, -, hd'⟩)
      . exact absurd rfl h
      . cases h
        exact absurd rfl hdot
      . cases h
        exact hd'

theorem star_eq_or {d : Str} (hdlen : 3 ≤ d.length) (hstar : d.head? ≠ some 42) (hdot : d.head? ≠ some 46)
    (s : Str)
    : domainMatch (42 :: d) s = (domainMatch d s || domainMatch (42 :: 46 :: d) s) := by
  have hd : d ≠ [] := List.ne_nil_of_length_pos (by omega)
  rw [Bool.eq_iff_iff, Bool.or_eq_true]
  by_cases hslen : 3 ≤ s.length
  . rw [star_iff hdot (by omega) hslen, exact_iff hstar hdlen hslen, starDot_iff hd hslen, eq_comm]
  . have hshort : s.length < 3 := by
      omega
    have hd' : d ≠ str "*" := by
      rintro rfl
      exact hstar rfl
    have hstar' : 42 :: d ≠ str "*" := by
      intro h
      cases h
      exact hd rfl
    rw [eq_false_of_short hstar' (.inr hshort), eq_false_of_short hd' (.inr hshort),
      eq_false_of_short (by simp [str]) (.inr hshort)]
    simp

theorem starDot_eq_false {d before : Str} (hd : d ≠ []) (hbefore : 46 ∈ before)
    : domainMatch (42 :: 46 :: d) (before ++ 46 :: d) = false := by
  have hlen : 0 < d.length ∧ 0 < before.length :=
    ⟨List.length_pos_iff.mpr hd, List.length_pos_of_mem hbefore⟩
  have hslen : 3 ≤ (before ++ 46 :: d).length := by
    simp only [List.length_append, List.length_cons]
    omega
  rw [Bool.eq_false_iff, ne_eq, starDot_iff hd hslen]
  intro h
  exact h.notMem_of_append hbefore

theorem star_eq_false {d before : Str} (hdlen : 3 ≤ d.length) (hstar : d.head? ≠ some 42)
    (hdot : d.head? ≠ some 46) (hbefore : 46 ∈ before)
    : domainMatch (42 :: d) (before ++ 46 :: d) = false := by
  have hd : d ≠ [] := List.ne_nil_of_length_pos (by omega)
  have hslen : 3 ≤ (before ++ 46 :: d).length := by
    simp only [List.length_append, List.length_cons]
    omega
  rw [star_eq_or hdlen hstar hdot, starDot_eq_false hd hbefore, Bool.or_false, Bool.eq_false_iff, ne_eq,
    exact_iff hstar hdlen hslen]
  intro h
  have := congrArg List.length h
  simp only [List.length_append, List.length_cons] at this
  omega

end domainMatch

/--
The code matches exactly the language of a pattern. In front of a domain a star alone is the domain or a star
and a dot, and neither form reaches below two labels.
-/
theorem domainMatch_language
    : (∀ pat s, domainMatch pat s = true ↔ DomainPattern pat s)
      ∧ ∀ d : Str, 3 ≤ d.length → d.head? ≠ some 42 → d.head? ≠ some 46
        → (∀ s, domainMatch (42 :: d) s = (domainMatch d s || domainMatch (42 :: 46 :: d) s))
          ∧ ∀ before : Str, 46 ∈ before
            → domainMatch (42 :: d) (before ++ 46 :: d) = false
              ∧ domainMatch (42 :: 46 :: d) (before ++ 46 :: d) = false := by
  refine ⟨domainMatch.iff_domainPattern, ?_⟩
  intro d hdlen hstar hdot
  refine ⟨domainMatch.star_eq_or hdlen hstar hdot, ?_⟩
  intro before hbefore
  have hd : d ≠ [] := List.ne_nil_of_length_pos (by omega)
  exact ⟨domainMatch.star_eq_false hdlen hstar hdot hbefore, domainMatch.starDot_eq_false hd hbefore⟩
