import TsIngress.Util.Lemmas.StrMatch

/-!
This module contains the walk of the glob matcher over a name that something follows in the same string. The matcher
compares a literal with the byte behind the name without a test for the end, so that what follows can lead it out of
the name.
-/

namespace strmatch

inductive Moves (pat n : Str) : Nat × Nat → Nat × Nat → Prop where
  | any {pos ppos next : Nat} (hitem : item pat ppos = .ok (.any, next)) (hpos : pos < n.length)
    : Moves pat n (pos, ppos) (pos + 1, next)
  | star {pos pos' ppos next : Nat} (hitem : item pat ppos = .ok (.star, next)) (hnext : next ≠ pat.length)
    (hle : pos ≤ pos') (hpos : pos' < n.length)
    : Moves pat n (pos, ppos) (pos', next)
  | range {pos ppos inner next : Nat} {c : UInt8} (hitem : item pat ppos = .ok (.range, inner))
    (hc : n[pos]? = some c) (hrange : strrangematch pat inner (tolowerInt c) = .ok (some next))
    : Moves pat n (pos, ppos) (pos + 1, next)
  | literal {pos ppos next : Nat} {c c' : UInt8} (hitem : item pat ppos = .ok (.literal c, next))
    (hc : n[pos]? = some c') (heq : schar c = tolowerInt c')
    : Moves pat n (pos, ppos) (pos + 1, next)

def Reaches (pat n : Str) (pos ppos : Nat) : Prop :=
  Relation.ReflTransGen (Moves pat n) (0, 0) (pos, ppos)

/--
The tail leads the glob out of the name: the matcher comes to the end of the name at a literal, which is compared
with the first byte of the tail, and does not fail there.
-/
def LedOn (pat n t : Str) : Prop :=
  ∃ ppos c next, Reaches pat n n.length ppos ∧ item pat ppos = .ok (.literal c, next)
    ∧ walk (n ++ t) n.length pat n.length ppos ≠ .ok false

-- The outcome where no literal gets over the end of the name. The byte 0x80 is equal to no `char`.
def outcomeIn (pat n : Str) : Result Bool :=
  strmatch (n ++ [0x80]) n.length pat

theorem schar_ne (c : UInt8) : schar c ≠ tolowerInt 0x80 := by
  intro h
  have hc := eq_tolower_of_schar h
  subst hc
  revert h
  decide

theorem range_strend (s : Str) (strend : Nat) (pat : Str) (k : Nat → Nat → Result Bool) (ppos : Nat)
    : range s strend pat k strend ppos = .ok false := by
  unfold range
  rw [if_pos rfl]

theorem range_of_ne (s : Str) {strend : Nat} (pat : Str) (k : Nat → Nat → Result Bool) {pos : Nat} (ppos : Nat)
    (h : pos ≠ strend)
    : range s strend pat k pos ppos
        =
      s.read pos >>= fun c => strrangematch pat ppos (tolowerInt c) >>= fun r =>
        match r with
        | none => .ok false
        | some next => k (pos + 1) next := by
  unfold range
  rw [if_neg h]
  rfl

theorem anyFrom_ne_false {f : Nat → Result Bool} {n pos i : Nat} (hlo : pos ≤ i) (hhi : i < pos + n)
    (h : f i ≠ .ok false) : anyFrom f n pos ≠ .ok false := by
  induction n generalizing pos with
  | zero => omega
  | succ n ih =>
    rw [anyFrom]
    intro hfalse
    rw [Except.bind_eq_ok_iff] at hfalse
    rcases hfalse with ⟨found, hfound, hrest⟩
    cases found with
    | true => cases hrest
    | false =>
      by_cases heq : i = pos
      . subst heq
        exact h hfound
      . exact ih (by omega) (by omega) hrest

section

variable {pat n : Str}

theorem read_append {pos : Nat} {c : UInt8} (h : n[pos]? = some c) (t : Str) : (n ++ t).read pos = .ok c := by
  apply Str.read_eq_of_lt
  rw [List.getElem?_append_left (List.getElem?_eq_some_iff.mp h).1]
  exact h

theorem ne_length_of_getElem? {pos : Nat} {c : UInt8} (h : n[pos]? = some c) : pos ≠ n.length := by
  exact Nat.ne_of_lt (List.getElem?_eq_some_iff.mp h).1

theorem exists_getElem? {pos : Nat} (hpos : pos ≤ n.length) (hne : pos ≠ n.length) : ∃ c, n[pos]? = some c := by
  exact ⟨_, List.getElem?_eq_getElem (by omega)⟩

theorem Moves.walk_ne_false {a b : Nat × Nat} (h : Moves pat n a b) {t : Str}
    (hb : walk (n ++ t) n.length pat b.1 b.2 ≠ .ok false) : walk (n ++ t) n.length pat a.1 a.2 ≠ .ok false := by
  cases h with
  | any hitem hpos =>
    rw [walk_any _ hitem, if_neg (by omega)]
    exact hb
  | star hitem hnext hle hpos =>
    rw [walk_star _ hitem, if_neg hnext]
    intro hfalse
    rw [Except.bind_eq_ok_iff] at hfalse
    rcases hfalse with ⟨found, hfound, hrest⟩
    cases found with
    | true => cases hrest
    | false =>
      apply anyFrom_ne_false hle _ hb hfound
      dsimp only at hle ⊢
      omega
  | range hitem hc hrange =>
    rw [walk_range _ hitem, range_of_ne _ _ _ _ (ne_length_of_getElem? hc), read_append hc, Except.ok_bind, hrange]
    exact hb
  | literal hitem hc heq =>
    rw [walk_literal _ hitem, read_append hc, Except.ok_bind, if_neg (by simpa using heq)]
    exact hb

theorem Reaches.walk_ne_false {pos ppos : Nat} (h : Reaches pat n pos ppos) {t : Str}
    (hb : walk (n ++ t) n.length pat pos ppos ≠ .ok false) : strmatch (n ++ t) n.length pat ≠ .ok false := by
  rw [strmatch_eq_walk]
  unfold Reaches at h
  generalize hend : (pos, ppos) = b at h
  have hb' : walk (n ++ t) n.length pat b.1 b.2 ≠ .ok false := by
    rw [← hend]
    exact hb
  clear hend hb
  induction h with
  | refl => exact hb'
  | tail _ hmove ih => exact ih (hmove.walk_ne_false hb')

theorem LedOn.strmatch_ne_false {t : Str} (h : LedOn pat n t) : strmatch (n ++ t) n.length pat ≠ .ok false := by
  rcases h with ⟨ppos, c, next, hreach, -, hne⟩
  exact hreach.walk_ne_false hne

section

-- A turn of the matcher in the name, where the turns after it end alike with both tails.
variable {t t' : Str} {pos ppos : Nat} (hpos : pos ≤ n.length)
  (hrec : ∀ pos' next, ppos < next → pos' ≤ n.length → Moves pat n (pos, ppos) (pos', next) →
    walk (n ++ t) n.length pat pos' next = walk (n ++ t') n.length pat pos' next)

include hpos hrec

theorem walk_congr_any {next : Nat} (hitem : item pat ppos = .ok (.any, next))
    : walk (n ++ t) n.length pat pos ppos = walk (n ++ t') n.length pat pos ppos := by
  rw [walk_any _ hitem, walk_any _ hitem]
  by_cases hend : pos = n.length
  . rw [if_pos hend, if_pos hend]
  . rw [if_neg hend, if_neg hend]
    exact hrec (pos + 1) next (by simpa using item_bounds hitem) (by omega) (.any hitem (by omega))

theorem walk_congr_star {next : Nat} (hitem : item pat ppos = .ok (.star, next))
    : walk (n ++ t) n.length pat pos ppos = walk (n ++ t') n.length pat pos ppos := by
  rw [walk_star _ hitem, walk_star _ hitem]
  by_cases hlast : next = pat.length
  . rw [if_pos hlast, if_pos hlast]
  . have hstarts : anyFrom (fun pos => walk (n ++ t) n.length pat pos next) (n.length - pos) pos
        = anyFrom (fun pos => walk (n ++ t') n.length pat pos next) (n.length - pos) pos := by
      apply anyFrom_congr
      intro i hlo hhi
      exact hrec i next (by simpa using item_bounds hitem) (by omega) (.star hitem hlast hlo (by omega))
    rw [if_neg hlast, if_neg hlast, hstarts, Nat.max_eq_right hpos, range_strend, range_strend]

theorem walk_congr_range {inner : Nat} (hitem : item pat ppos = .ok (.range, inner))
    : walk (n ++ t) n.length pat pos ppos = walk (n ++ t') n.length pat pos ppos := by
  rw [walk_range _ hitem, walk_range _ hitem]
  by_cases hend : pos = n.length
  . rw [hend, range_strend, range_strend]
  . rcases exists_getElem? hpos hend with ⟨c, hc⟩
    rw [range_of_ne _ _ _ _ hend, range_of_ne _ _ _ _ hend, read_append hc, read_append hc, Except.ok_bind,
      Except.ok_bind]
    cases hrange : strrangematch pat inner (tolowerInt c) with
    | error e => rfl
    | ok r =>
      cases r with
      | none => rfl
      | some next =>
        have hlt : ppos < inner := by
          simpa using item_bounds hitem
        exact hrec (pos + 1) next (Nat.lt_trans hlt (strrangematch_bounds hrange).1) (by omega)
          (.range hitem hc hrange)

theorem walk_congr_literal {c : UInt8} {next : Nat} (hitem : item pat ppos = .ok (.literal c, next))
    (hend : pos ≠ n.length)
    : walk (n ++ t) n.length pat pos ppos = walk (n ++ t') n.length pat pos ppos := by
  rcases exists_getElem? hpos hend with ⟨c', hc⟩
  rw [walk_literal _ hitem, walk_literal _ hitem, read_append hc, read_append hc, Except.ok_bind, Except.ok_bind]
  by_cases heq : schar c = tolowerInt c'
  . rw [if_neg (by simpa using heq), if_neg (by simpa using heq)]
    exact hrec (pos + 1) next (by simpa using item_bounds hitem) (by omega) (.literal hitem hc heq)
  . rw [if_pos heq, if_pos heq]

end

theorem walk_congr {t t' : Str} (ht : ¬ LedOn pat n t) (ht' : ¬ LedOn pat n t') {pos ppos : Nat}
    (hpos : pos ≤ n.length) (hreach : Reaches pat n pos ppos)
    : walk (n ++ t) n.length pat pos ppos = walk (n ++ t') n.length pat pos ppos := by
  induction hm : pat.length + 2 - ppos using Nat.strongRecOn generalizing pos ppos with
  | ind m ih =>
    cases hitem : item pat ppos with
    | error e => rw [walk_of_error _ hitem, walk_of_error _ hitem]
    | ok r =>
      rcases r with ⟨i, next⟩
      have hppos := le_length_of_item hitem
      have hrec : ∀ pos' next, ppos < next → pos' ≤ n.length → Moves pat n (pos, ppos) (pos', next) →
          walk (n ++ t) n.length pat pos' next = walk (n ++ t') n.length pat pos' next := by
        intro pos' next hlt hle hmove
        exact ih (pat.length + 2 - next) (by omega) hle (Relation.ReflTransGen.tail hreach hmove) rfl
      cases i with
      | finish => rw [walk_finish _ hitem, walk_finish _ hitem]
      | any => exact walk_congr_any hpos hrec hitem
      | star => exact walk_congr_star hpos hrec hitem
      | range => exact walk_congr_range hpos hrec hitem
      | literal c =>
        by_cases hend : pos = n.length
        . subst hend
          have hfails : ∀ {t : Str}, ¬ LedOn pat n t → walk (n ++ t) n.length pat n.length ppos = .ok false := by
            intro t ht
            by_contra hne
            exact ht ⟨ppos, c, next, hreach, hitem, hne⟩
          rw [hfails ht, hfails ht']
        . exact walk_congr_literal hpos hrec hitem hend

theorem read_tail (n : Str) (c : UInt8) (t : Str) : (n ++ c :: t).read n.length = .ok c := by
  apply Str.read_eq_of_lt
  simp

theorem not_ledOn_blank (pat n : Str) : ¬ LedOn pat n [0x80] := by
  rintro ⟨ppos, c, next, -, hitem, hne⟩
  apply hne
  rw [walk_literal _ hitem, read_tail, Except.ok_bind, if_pos (schar_ne c)]

theorem strmatch_of_not_ledOn {t : Str} (h : ¬ LedOn pat n t) : strmatch (n ++ t) n.length pat = outcomeIn pat n := by
  unfold outcomeIn
  rw [strmatch_eq_walk, strmatch_eq_walk]
  exact walk_congr h (not_ledOn_blank pat n) (Nat.zero_le _) Relation.ReflTransGen.refl

theorem mem_of_item_literal {ppos next : Nat} {c : UInt8} (hitem : item pat ppos = .ok (.literal c, next))
    (hlower : c < 65 ∨ (90 < c ∧ c < 97)) : c ∈ pat ∨ (c = 0 ∧ 92 ∈ pat) := by
  generalize hi : Item.literal c = i at hitem
  cases itemAt_of_item hitem with
  | terminator _ hmem =>
    injection hi with hzero
    exact .inr ⟨hzero, hmem⟩
  | literal hmem _ _ =>
    injection hi with heq
    rw [eq_comm, tolower_eq_iff hlower] at heq
    rw [← heq]
    exact .inl hmem
  | finish _ => cases hi
  | any _ => cases hi
  | star _ => cases hi
  | range _ _ => cases hi

theorem not_ledOn_of_notMem (hequals : 61 ∉ pat) (hescape : 92 ∉ pat) (hzero : 0 ∉ pat) {t : Str}
    (ht : t = [] ∨ t.head? = some 61) : ¬ LedOn pat n t := by
  rintro ⟨ppos, c, next, -, hitem, hne⟩
  apply hne
  rw [walk_literal _ hitem]
  rcases ht with rfl | ht
  . have hc : c ≠ 0 := by
      rintro rfl
      rcases mem_of_item_literal hitem (by decide) with hmem | ⟨-, hmem⟩
      . exact hzero hmem
      . exact hescape hmem
    rw [List.append_nil, Str.read_length, Except.ok_bind, if_pos]
    intro heq
    exact hc (eq_tolower_of_schar heq)
  . have hc : c ≠ 61 := by
      rintro rfl
      rcases mem_of_item_literal hitem (by decide) with hmem | ⟨hzero, -⟩
      . exact hequals hmem
      . exact absurd hzero (by decide)
    rcases List.head?_eq_some_iff.mp ht with ⟨v, rfl⟩
    rw [read_tail, Except.ok_bind, if_pos]
    intro heq
    exact hc (eq_tolower_of_schar heq)

end

end strmatch
