import TsIngress.BasicLemmas
import TsIngress.Lib.ExceptFold
import TsIngress.Util.Impl.StrMatch
import Mathlib.Logic.Relation

/-!
This module contains the walk of the glob matcher, item by item of the pattern, and that it does not depend on
what it does not read.
-/

-- The comparison fails for the bytes from 0x80 to 0xFE.
theorem eq_tolower_of_schar {c d : UInt8} (h : schar c = tolowerInt d) : c = tolower d := by
  have hbound := c.toNat_lt
  unfold schar tolowerInt at h
  split at h
  . split at h
    . omega
    . apply UInt8.toNat_inj.mp
      omega
  . split at h
    . next hd =>
      subst hd
      apply UInt8.toNat_inj.mp
      change c.toNat = 255
      omega
    . omega

namespace strrangematch

def escaped (pat : Str) (c : UInt8) (pos : Nat) : Result (UInt8 × Nat) :=
  if c = 92 then do
    let c ← pat.read pos
    return (tolower c, pos + 1)
  else
    .ok (c, pos)

def turn (pat : Str) (test : Int) (negate : Bool) (k : Nat → Bool → Result (Option Nat)) (pos : Nat) (ok : Bool)
    : Result (Option Nat) := do
  let c ← pat.read pos
  if tolower c = 93 then
    return if ok = negate then none else some (pos + 1)
  else
    let c ← escaped pat (tolower c) (pos + 1)
    if c.2 = pat.length then
      return none
    else
      let next ← pat.read c.2
      if next = 45 then
        let c2 ← pat.read (c.2 + 1)
        let c2 ← escaped pat (tolower c2) (if tolower c2 ≠ 93 then c.2 + 2 else c.2)
        if c2.2 = pat.length then
          return none
        else
          k c2.2 (ok || (schar c.1 ≤ test && test ≤ schar c2.1))
      else
        k c.2 (ok || schar c.1 == test)

theorem go_succ (pat : Str) (test : Int) (negate : Bool) (fuel pos : Nat) (ok : Bool)
    : go pat test negate (fuel + 1) pos ok = turn pat test negate (go pat test negate fuel) pos ok := by
  have hescaped : ∀ {α : Type} (c : UInt8) (pos : Nat) (f : UInt8 × Nat → Result α),
      (escaped pat c pos >>= f)
        =
      if c = 92 then pat.read pos >>= fun c => f (tolower c, pos + 1) else f (c, pos) := by
    intro α c pos f
    unfold escaped
    split
    . rw [bind_assoc]
      rfl
    . rfl
  unfold turn
  simp only [hescaped]
  rfl

theorem escaped_bounds {pat : Str} {c : UInt8} {pos : Nat} {r : UInt8 × Nat} (h : escaped pat c pos = .ok r)
    : pos ≤ r.2 := by
  unfold escaped at h
  split at h
  . rw [Except.bind_eq_ok_iff] at h
    rcases h with ⟨c, -, hr⟩
    cases hr
    exact Nat.le_succ pos
  . cases h
    exact Nat.le_refl pos

theorem go_bounds {pat : Str} {test : Int} {negate : Bool} {fuel pos next : Nat} {ok : Bool}
    (h : go pat test negate fuel pos ok = .ok (some next)) : pos < next ∧ next ≤ pat.length := by
  induction fuel generalizing pos ok with
  | zero => cases h
  | succ fuel ih =>
    rw [go_succ, turn, Except.bind_eq_ok_iff] at h
    rcases h with ⟨c, hread, h⟩
    split at h
    . next hclose =>
      have hlt : pos < pat.length := by
        rcases Str.read_cases pat pos with ⟨_, hget, -⟩ | ⟨-, hzero⟩ | ⟨-, hout⟩
        . exact (List.getElem?_eq_some_iff.mp hget).1
        . rw [hread] at hzero
          cases hzero
          exact absurd hclose (by decide)
        . rw [hread] at hout
          cases hout
      split at h
      . cases h
      . cases h
        exact ⟨Nat.lt_succ_self pos, hlt⟩
    . rw [Except.bind_eq_ok_iff] at h
      rcases h with ⟨c, hc, h⟩
      have hpos := escaped_bounds hc
      split at h
      . cases h
      . rw [Except.bind_eq_ok_iff] at h
        rcases h with ⟨dash, -, h⟩
        split at h
        . rw [Except.bind_eq_ok_iff] at h
          rcases h with ⟨c2, -, h⟩
          rw [Except.bind_eq_ok_iff] at h
          rcases h with ⟨c2, hc2, h⟩
          have hpos2 := escaped_bounds hc2
          split at h
          . cases h
          . have := ih h
            split at hpos2
            . omega
            . omega
        . have := ih h
          omega

end strrangematch

theorem strrangematch_bounds {pat : Str} {pos next : Nat} {test : Int}
    (h : strrangematch pat pos test = .ok (some next)) : pos < next ∧ next ≤ pat.length := by
  unfold strrangematch at h
  rw [Except.bind_eq_ok_iff] at h
  rcases h with ⟨first, -, h⟩
  have := strrangematch.go_bounds h
  split at this
  . omega
  . omega

namespace strmatch

inductive Item where
  | finish
  | any
  | star
  | range
  | literal (c : UInt8)

def afterStars (pat : Str) (pos : Nat) : Nat :=
  pos + ((pat.drop pos).takeWhile (· = 42)).length

def item (pat : Str) (ppos : Nat) : Result (Item × Nat) :=
  if ppos = pat.length then
    .ok (.finish, ppos)
  else do
    let c ← pat.read ppos
    if tolower c = 63 then
      return (.any, ppos + 1)
    else if tolower c = 42 then
      return (.star, afterStars pat (ppos + 1))
    else if tolower c = 91 then
      return (.range, ppos + 1)
    else if tolower c = 92 then
      let c ← pat.read (ppos + 1)
      if ppos + 2 = pat.length then
        return (.literal 92, ppos + 1)
      else
        return (.literal (tolower c), ppos + 2)
    else
      return (.literal (tolower c), ppos + 1)

def range (s : Str) (strend : Nat) (pat : Str) (k : Nat → Nat → Result Bool) (pos ppos : Nat) : Result Bool :=
  if pos = strend then
    .ok false
  else do
    let c ← s.read pos
    match ← strrangematch pat ppos (tolowerInt c) with
    | none => return false
    | some next => k (pos + 1) next

def turn (s : Str) (strend : Nat) (pat : Str) (k : Nat → Nat → Result Bool) (pos ppos : Nat) : Result Bool := do
  match ← item pat ppos with
  | (.finish, _) => return pos = strend
  | (.any, next) =>
    if pos = strend then
      return false
    else
      k (pos + 1) next
  | (.star, next) =>
    if next = pat.length then
      return true
    else if ← anyFrom (fun pos => k pos next) (strend - pos) pos then
      return true
    else
      range s strend pat k (max pos strend) next
  | (.range, next) => range s strend pat k pos next
  | (.literal c, next) =>
    let c' ← s.read pos
    if schar c ≠ tolowerInt c' then
      return false
    else
      k (pos + 1) next

theorem afterStars_bounds {pat : Str} {pos : Nat} (h : pos ≤ pat.length)
    : pos ≤ afterStars pat pos ∧ afterStars pat pos ≤ pat.length := by
  unfold afterStars
  have hle := (List.takeWhile_prefix (· = 42) (l := pat.drop pos)).length_le
  rw [List.length_drop] at hle
  constructor
  . exact Nat.le_add_right _ _
  . omega

theorem skipStars_eq {pat : Str} {fuel pos : Nat} (hpos : pos ≤ pat.length) (hfuel : pat.length < fuel + pos)
    : skipStars pat fuel pos = .ok (afterStars pat pos) := by
  induction fuel generalizing pos with
  | zero => omega
  | succ fuel ih =>
    rw [skipStars]
    rcases Str.read_cases pat pos with ⟨c, hget, hread⟩ | ⟨hend, hread⟩ | ⟨hout, -⟩
    . have hlt := (List.getElem?_eq_some_iff.mp hget).1
      have hdrop : pat.drop pos = c :: pat.drop (pos + 1) := by
        rw [List.drop_eq_getElem_cons hlt, (List.getElem?_eq_some_iff.mp hget).2]
      rw [hread, Except.ok_bind]
      unfold afterStars
      rw [hdrop]
      by_cases hstar : c = 42
      . subst hstar
        have hrest := @ih (pos + 1) hlt (by omega)
        rw [if_pos (by decide), hrest, List.takeWhile_cons_of_pos (by simp), List.length_cons]
        unfold afterStars
        congr 1
        omega
      . rw [if_neg (by rwa [tolower_eq_iff (by decide)]), List.takeWhile_cons_of_neg (by simpa using hstar)]
        rfl
    . subst hend
      rw [hread, Except.ok_bind, if_neg (by decide)]
      unfold afterStars
      rw [List.drop_length]
      rfl
    . omega

theorem go_succ (s : Str) (strend : Nat) (pat : Str) (fuel pos ppos : Nat)
    : go s strend pat (fuel + 1) pos ppos = turn s strend pat (go s strend pat fuel) pos ppos := by
  rw [go]
  unfold turn item
  by_cases hend : ppos = pat.length
  . rw [if_pos hend, if_pos hend]
    rfl
  . rw [if_neg hend, if_neg hend]
    rcases Str.read_cases pat ppos with ⟨c, hget, hread⟩ | ⟨hend', -⟩ | ⟨-, hread⟩
    . have hlt := (List.getElem?_eq_some_iff.mp hget).1
      rw [hread, Except.ok_bind, Except.ok_bind]
      by_cases hany : tolower c = 63
      . rw [if_pos hany, if_pos hany]
        rfl
      . rw [if_neg hany, if_neg hany]
        by_cases hstar : tolower c = 42
        . rw [if_pos hstar, if_pos hstar, pure_bind]
          dsimp only
          by_cases hlast : ppos + 1 = pat.length
          . have hafter := afterStars_bounds (Nat.le_of_eq hlast)
            rw [if_pos hlast, if_pos (by omega)]
          . rw [if_neg hlast, skipStars_eq (by omega) (by omega), Except.ok_bind]
            rfl
        . rw [if_neg hstar, if_neg hstar]
          by_cases hrange : tolower c = 91
          . rw [if_pos hrange, if_pos hrange]
            rfl
          . rw [if_neg hrange, if_neg hrange]
            by_cases hescape : tolower c = 92
            . rw [if_pos hescape, if_pos hescape, bind_assoc]
              congr 1
              funext c
              by_cases hlast : ppos + 2 = pat.length
              . rw [if_pos hlast, if_pos hlast]
                rfl
              . rw [if_neg hlast, if_neg hlast]
                rfl
            . rw [if_neg hescape, if_neg hescape]
              rfl
    . exact absurd hend' hend
    . rw [hread]
      rfl

inductive ItemAt (pat : Str) (ppos : Nat) : Item → Nat → Prop where
  | finish (hend : ppos = pat.length) : ItemAt pat ppos .finish ppos
  | any (hlt : ppos < pat.length) : ItemAt pat ppos .any (ppos + 1)
  | star (hlt : ppos < pat.length) : ItemAt pat ppos .star (afterStars pat (ppos + 1))
  | range (hlt : ppos < pat.length) (hmem : 91 ∈ pat) : ItemAt pat ppos .range (ppos + 1)
  -- a backslash at the end quotes the terminator
  | terminator (hlast : ppos + 1 = pat.length) (hmem : 92 ∈ pat) : ItemAt pat ppos (.literal 0) (ppos + 2)
  | literal {c : UInt8} {next : Nat} (hmem : c ∈ pat) (hlt : ppos < next) (hle : next ≤ pat.length)
    : ItemAt pat ppos (.literal (tolower c)) next

theorem exists_itemAt {pat : Str} {ppos : Nat} (h : ppos ≤ pat.length)
    : ∃ i next, item pat ppos = .ok (i, next) ∧ ItemAt pat ppos i next := by
  unfold item
  by_cases hend : ppos = pat.length
  . rw [if_pos hend]
    exact ⟨_, _, rfl, .finish hend⟩
  . have hlt : ppos < pat.length := by
      omega
    have hget := List.getElem?_eq_getElem hlt
    have hmem := List.getElem_mem hlt
    rw [if_neg hend, Str.read_eq_of_lt hget, Except.ok_bind]
    generalize pat[ppos] = c at hmem
    by_cases hany : tolower c = 63
    . rw [if_pos hany]
      exact ⟨_, _, rfl, .any hlt⟩
    . rw [if_neg hany]
      by_cases hstar : tolower c = 42
      . rw [if_pos hstar]
        exact ⟨_, _, rfl, .star hlt⟩
      . rw [if_neg hstar]
        by_cases hrange : tolower c = 91
        . rw [if_pos hrange]
          rw [tolower_eq_iff (by decide)] at hrange
          rw [hrange] at hmem
          exact ⟨_, _, rfl, .range hlt hmem⟩
        . rw [if_neg hrange]
          by_cases hescape : tolower c = 92
          . rw [if_pos hescape]
            rw [tolower_eq_iff (by decide)] at hescape
            rw [hescape] at hmem
            by_cases hlast : ppos + 1 = pat.length
            . rw [hlast, Str.read_length, Except.ok_bind, if_neg (by omega)]
              exact ⟨_, _, rfl, .terminator hlast hmem⟩
            . have hlt' : ppos + 1 < pat.length := by
                omega
              rw [Str.read_eq_of_lt (List.getElem?_eq_getElem hlt'), Except.ok_bind]
              split
              . exact ⟨_, _, rfl, .literal hmem (Nat.lt_succ_self _) hlt⟩
              . exact ⟨_, _, rfl, .literal (List.getElem_mem hlt') (by omega) hlt'⟩
          . rw [if_neg hescape]
            exact ⟨_, _, rfl, .literal hmem (Nat.lt_succ_self _) hlt⟩

theorem item_of_gt {pat : Str} {ppos : Nat} (h : pat.length < ppos)
    : item pat ppos = .error .outOfBounds := by
  unfold item
  rw [if_neg (by omega), Str.read_of_gt h]
  rfl

theorem le_length_of_item {pat : Str} {ppos : Nat} {r : Item × Nat} (h : item pat ppos = .ok r)
    : ppos ≤ pat.length := by
  by_contra hgt
  rw [item_of_gt (by omega)] at h
  cases h

theorem itemAt_of_item {pat : Str} {ppos next : Nat} {i : Item} (h : item pat ppos = .ok (i, next))
    : ItemAt pat ppos i next := by
  rcases exists_itemAt (le_length_of_item h) with ⟨i', next', heq, hat⟩
  rw [h] at heq
  cases heq
  exact hat

theorem item_bounds {pat : Str} {ppos next : Nat} {i : Item} (h : item pat ppos = .ok (i, next))
    : i = .finish ∨ ppos < next := by
  cases itemAt_of_item h with
  | finish _ => exact Or.inl rfl
  | any _ => exact Or.inr (Nat.lt_succ_self _)
  | star hlt => exact Or.inr (afterStars_bounds hlt).1
  | range _ _ => exact Or.inr (Nat.lt_succ_self _)
  | terminator _ _ => exact Or.inr (by omega)
  | literal _ hlt _ => exact Or.inr hlt

theorem anyFrom_congr {f g : Nat → Result Bool} {n pos : Nat} (h : ∀ i, pos ≤ i → i < pos + n → f i = g i)
    : anyFrom f n pos = anyFrom g n pos := by
  induction n generalizing pos with
  | zero => rfl
  | succ n ih =>
    rw [anyFrom, anyFrom, h pos (Nat.le_refl pos) (by omega), ih]
    intro i hlo hhi
    exact h i (by omega) (by omega)

theorem turn_congr {s : Str} {strend : Nat} {pat : Str} {k k' : Nat → Nat → Result Bool} {pos ppos : Nat}
    (h : ∀ pos' next, ppos < next → k pos' next = k' pos' next)
    : turn s strend pat k pos ppos = turn s strend pat k' pos ppos := by
  have hrange : ∀ pos' p, ppos < p → range s strend pat k pos' p = range s strend pat k' pos' p := by
    intro pos' p hp
    unfold range
    split
    . rfl
    . congr 1
      funext c
      cases hmatch : strrangematch pat p (tolowerInt c) with
      | error e => rfl
      | ok r =>
        cases r with
        | none => rfl
        | some next => exact h (pos' + 1) next (Nat.lt_trans hp (strrangematch_bounds hmatch).1)
  unfold turn
  cases hitem : item pat ppos with
  | error e => rfl
  | ok r =>
    rcases r with ⟨i, next⟩
    have hbounds := item_bounds hitem
    rw [Except.ok_bind, Except.ok_bind]
    cases i with
    | finish => rfl
    | any =>
      dsimp only
      rw [h (pos + 1) next (by simpa using hbounds)]
    | star =>
      have hlt : ppos < next := by
        simpa using hbounds
      have hfun : (fun pos => k pos next) = fun pos => k' pos next := by
        funext pos
        exact h pos next hlt
      dsimp only
      rw [hfun, hrange _ next hlt]
    | range =>
      dsimp only
      rw [hrange pos next (by simpa using hbounds)]
    | literal c =>
      dsimp only
      rw [h (pos + 1) next (by simpa using hbounds)]

def walk (s : Str) (strend : Nat) (pat : Str) (pos ppos : Nat) : Result Bool :=
  go s strend pat (pat.length + 2 - ppos) pos ppos

theorem turn_of_gt (s : Str) (strend : Nat) {pat : Str} (k : Nat → Nat → Result Bool) (pos : Nat) {ppos : Nat}
    (h : pat.length < ppos) : turn s strend pat k pos ppos = .error .outOfBounds := by
  unfold turn
  rw [item_of_gt h]
  rfl

theorem go_of_gt (s : Str) (strend : Nat) {pat : Str} (fuel pos : Nat) {ppos : Nat} (h : pat.length < ppos)
    : go s strend pat fuel pos ppos = .error .outOfBounds := by
  cases fuel with
  | zero => rfl
  | succ fuel => rw [go_succ, turn_of_gt s strend _ pos h]

theorem go_fuel (s : Str) (strend : Nat) {pat : Str} {fuel fuel' : Nat} (pos : Nat) {ppos : Nat}
    (h : pat.length + 2 ≤ fuel + ppos) (h' : pat.length + 2 ≤ fuel' + ppos)
    : go s strend pat fuel pos ppos = go s strend pat fuel' pos ppos := by
  induction fuel generalizing fuel' pos ppos with
  | zero => rw [go_of_gt _ _ _ _ (by omega), go_of_gt _ _ _ _ (by omega)]
  | succ fuel ih =>
    cases fuel' with
    | zero => rw [go_of_gt _ _ _ _ (by omega), go_of_gt _ _ _ _ (by omega)]
    | succ fuel' =>
      rw [go_succ, go_succ]
      apply turn_congr
      intro pos' next hnext
      exact ih pos' (by omega) (by omega)

theorem walk_eq (s : Str) (strend : Nat) (pat : Str) (pos ppos : Nat)
    : walk s strend pat pos ppos = turn s strend pat (walk s strend pat) pos ppos := by
  by_cases hout : pat.length < ppos
  . rw [walk, go_of_gt s strend _ pos hout, turn_of_gt s strend _ pos hout]
  . rw [walk, show pat.length + 2 - ppos = (pat.length + 1 - ppos) + 1 by omega, go_succ]
    apply turn_congr
    intro pos' next hnext
    exact go_fuel s strend pos' (by omega) (by omega)

theorem walk_of_error {s : Str} {strend : Nat} {pat : Str} (pos : Nat) {ppos : Nat} {e : Fault}
    (h : item pat ppos = .error e) : walk s strend pat pos ppos = .error e := by
  rw [walk_eq, turn, h]
  rfl

theorem walk_finish {s : Str} {strend : Nat} {pat : Str} (pos : Nat) {ppos next : Nat}
    (h : item pat ppos = .ok (.finish, next)) : walk s strend pat pos ppos = .ok (pos = strend) := by
  rw [walk_eq, turn, h]
  rfl

theorem walk_any {s : Str} {strend : Nat} {pat : Str} (pos : Nat) {ppos next : Nat}
    (h : item pat ppos = .ok (.any, next))
    : walk s strend pat pos ppos = if pos = strend then .ok false else walk s strend pat (pos + 1) next := by
  rw [walk_eq, turn, h]
  rfl

theorem walk_star {s : Str} {strend : Nat} {pat : Str} (pos : Nat) {ppos next : Nat}
    (h : item pat ppos = .ok (.star, next))
    : walk s strend pat pos ppos
        =
      if next = pat.length then
        .ok true
      else
        anyFrom (fun pos => walk s strend pat pos next) (strend - pos) pos >>= fun found =>
          if found then .ok true else range s strend pat (walk s strend pat) (max pos strend) next := by
  rw [walk_eq, turn, h]
  rfl

theorem walk_range {s : Str} {strend : Nat} {pat : Str} (pos : Nat) {ppos next : Nat}
    (h : item pat ppos = .ok (.range, next))
    : walk s strend pat pos ppos = range s strend pat (walk s strend pat) pos next := by
  rw [walk_eq, turn, h]
  rfl

theorem walk_literal {s : Str} {strend : Nat} {pat : Str} (pos : Nat) {ppos next : Nat} {c : UInt8}
    (h : item pat ppos = .ok (.literal c, next))
    : walk s strend pat pos ppos
        =
      s.read pos >>= fun c' => if schar c ≠ tolowerInt c' then .ok false else walk s strend pat (pos + 1) next := by
  rw [walk_eq, turn, h]
  rfl

theorem anyFrom_extends {f g : Nat → Result Bool} (h : ∀ i, Except.Extends (f i) (g i)) (n pos : Nat)
    : Except.Extends (anyFrom f n pos) (anyFrom g n pos) := by
  induction n generalizing pos with
  | zero => exact Except.Extends.refl _
  | succ n ih =>
    rw [anyFrom, anyFrom]
    apply Except.Extends.bind (h pos)
    intro found
    exact Except.Extends.ite (Except.Extends.refl _) (ih (pos + 1))

theorem range_extends {s s' : Str} (hread : ∀ i, Except.Extends (s.read i) (s'.read i)) (strend : Nat) (pat : Str)
    {k k' : Nat → Nat → Result Bool} (h : ∀ pos ppos, Except.Extends (k pos ppos) (k' pos ppos)) (pos ppos : Nat)
    : Except.Extends (range s strend pat k pos ppos) (range s' strend pat k' pos ppos) := by
  unfold range
  apply Except.Extends.ite (Except.Extends.refl _)
  apply Except.Extends.bind (hread pos)
  intro c
  apply Except.Extends.bind (Except.Extends.refl _)
  intro r
  cases r with
  | none => exact Except.Extends.refl _
  | some next => exact h (pos + 1) next

theorem go_extends {s s' : Str} (hread : ∀ i, Except.Extends (s.read i) (s'.read i)) (strend : Nat) (pat : Str)
    (fuel pos ppos : Nat)
    : Except.Extends (go s strend pat fuel pos ppos) (go s' strend pat fuel pos ppos) := by
  induction fuel generalizing pos ppos with
  | zero => exact Except.Extends.refl _
  | succ fuel ih =>
    rw [go_succ, go_succ]
    unfold turn
    apply Except.Extends.bind (Except.Extends.refl _)
    rintro ⟨i, next⟩
    cases i with
    | finish => exact Except.Extends.refl _
    | any => exact Except.Extends.ite (Except.Extends.refl _) (ih (pos + 1) next)
    | star =>
      apply Except.Extends.ite (Except.Extends.refl _)
      apply Except.Extends.bind (anyFrom_extends (fun pos => ih pos next) _ _)
      intro found
      exact Except.Extends.ite (Except.Extends.refl _) (range_extends hread strend pat ih _ next)
    | range => exact range_extends hread strend pat ih pos next
    | literal c =>
      apply Except.Extends.bind (hread pos)
      intro c'
      exact Except.Extends.ite (Except.Extends.refl _) (ih (pos + 1) next)

end strmatch

theorem strmatch_eq_walk (s : Str) (strend : Nat) (pat : Str)
    : strmatch s strend pat = strmatch.walk s strend pat 0 0 := by
  rfl

theorem Str.read_cstr_extends (mem : List UInt8) (i : Nat)
    : Except.Extends (Str.read (cstr mem) i) (Str.read mem i) := by
  intro c h
  rcases exists_rest_of_cstr mem with ⟨rest, hmem, hrest⟩
  rcases Str.read_cases (cstr mem) i with ⟨c', hget, hread⟩ | ⟨hend, hread⟩ | ⟨-, hread⟩
  . rw [h] at hread
    cases hread
    apply Str.read_eq_of_lt
    rw [hmem, List.getElem?_append_left (List.getElem?_eq_some_iff.mp hget).1]
    exact hget
  . rw [h] at hread
    cases hread
    rcases hrest with rfl | hhead
    . rw [List.append_nil] at hmem
      rw [hend, ← hmem]
      exact Str.read_length mem
    . apply Str.read_eq_of_lt
      rw [hend, hmem, List.getElem?_append_right (by rw [← hmem]), ← hmem, Nat.sub_self, ← List.head?_eq_getElem?]
      exact hhead
  . rw [h] at hread
    cases hread

-- An outcome that is found in a string of its own is found wherever the string stands in memory.
theorem strmatch_extends (mem : List UInt8) (strend : Nat) (pat : Str)
    : Except.Extends (strmatch (cstr mem) strend pat) (strmatch mem strend pat) := by
  exact strmatch.go_extends (Str.read_cstr_extends mem) strend pat _ 0 0
