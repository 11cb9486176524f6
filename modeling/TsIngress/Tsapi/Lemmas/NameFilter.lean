import TsIngress.Remap.Lemmas.Query
import TsIngress.Tsapi.Impl.Cookies
import TsIngress.Util.Lemmas.NameGlob

/-!
This module contains the filters for query parameters and cookies, and what they look at of a parameter or a
cookie.
-/

open strmatch

def Named (n : Str) (param : List UInt8) : Prop :=
  (cstr param).takeWhile (· ≠ 61) = n

-- What can follow a name in a string: nothing, or an equals sign and a value.
def Tail (t : Str) : Prop :=
  t = [] ∨ ∃ v, 0 ∉ v ∧ t = 61 :: v

theorem Named.exists_tail {n : Str} {param : List UInt8} (h : Named n param) : ∃ t, Tail t ∧ cstr param = n ++ t := by
  unfold Named at h
  subst h
  refine ⟨(cstr param).dropWhile (· ≠ 61), ?_, List.takeWhile_append_dropWhile.symm⟩
  cases hdrop : (cstr param).dropWhile (· ≠ 61) with
  | nil => exact .inl rfl
  | cons c v =>
    right
    have hc : c = 61 := by
      have := List.head?_dropWhile_not (· ≠ 61) (cstr param)
      rw [hdrop] at this
      simpa using this
    refine ⟨v, ?_, by rw [hc]⟩
    intro hv
    apply notMem_cstr param
    have hsuffix := List.dropWhile_suffix (· ≠ 61) (l := cstr param)
    rw [hdrop] at hsuffix
    exact hsuffix.subset (List.mem_cons_of_mem c hv)

theorem Tail.cstr_eq {n t : Str} (hzero : 0 ∉ n) (ht : Tail t) : cstr (n ++ t) = n ++ t := by
  apply cstr_of_notMem
  rcases ht with rfl | ⟨v, hv, rfl⟩
  . simpa using hzero
  . simp [hzero, hv]

theorem Tail.named {n t : Str} (hequals : 61 ∉ n) (hzero : 0 ∉ n) (ht : Tail t) : Named n (n ++ t) := by
  unfold Named
  rw [ht.cstr_eq hzero]
  have hname := decide_ne_of_notMem hequals
  rcases ht with rfl | ⟨v, -, rfl⟩
  . rw [List.append_nil, List.takeWhile_eq_self_iff]
    exact hname
  . rw [List.takeWhile_append_of_pos hname, List.takeWhile_cons_of_neg (by simp), List.append_nil]

abbrev Rule : Type :=
  Str × Bool

def listRules (list : Option (Hash Unit)) (listed : Bool) : List Rule :=
  (list.map fun hs => hs.entries.map fun entry => (entry.1, listed)).getD []

def paramRules (rp : RemapPath) : List Rule :=
  listRules rp.rpIgnoreParams false ++ listRules rp.rpWhitelistParams true

def cookieRules (rp : RemapPath) : List Rule :=
  listRules rp.rpIgnoreCookies true ++ listRules rp.rpWhitelistCookies false

def firstMatch (param : List UInt8) (unlisted : Bool) : List Rule → Result Bool
  | [] => .ok unlisted
  | (pat, listed) :: rest => do
    if ← strmatch param ((cstr param).takeWhile (· ≠ 61)).length pat then
      return listed
    else
      firstMatch param unlisted rest

theorem firstMatch_append (param : List UInt8) (unlisted listed : Bool) (globs : List Str) (rest : List Rule)
    : firstMatch param unlisted (globs.map (·, listed) ++ rest)
        =
      matchesParam.go param globs >>= fun found =>
        if found then .ok listed else firstMatch param unlisted rest := by
  induction globs with
  | nil => rfl
  | cons pat globs ih =>
    rw [List.map_cons, List.cons_append, firstMatch, matchesParam.go, ih, bind_assoc]
    congr 1
    funext found
    cases found with
    | true => rfl
    | false => rfl

theorem firstMatch_listRules (param : List UInt8) (unlisted listed : Bool) (list : Option (Hash Unit))
    (rest : List Rule)
    : firstMatch param unlisted (listRules list listed ++ rest)
        =
      (list.map (matchesParam param)).getD (.ok false) >>= fun found =>
        if found then .ok listed else firstMatch param unlisted rest := by
  cases list with
  | none => rfl
  | some hs =>
    have hmap : listRules (some hs) listed = (hs.entries.map Prod.fst).map (·, listed) := by
      rw [List.map_map]
      rfl
    rw [hmap, firstMatch_append, Option.map_some, Option.getD_some, matchesParam]

theorem firstMatch_whitelist (param : List UInt8) (unlisted listed : Bool) (list : Option (Hash Unit))
    : firstMatch param unlisted (listRules list listed)
        =
      (list.map (matchesParam param)).getD (.ok false) >>= fun found => .ok (if found then listed else unlisted) := by
  have happend := firstMatch_listRules param unlisted listed list []
  rw [List.append_nil] at happend
  rw [happend]
  congr 1
  funext found
  cases found with
  | true => rfl
  | false => rfl

theorem keepParameter_eq_firstMatch (rp : RemapPath) (param : List UInt8)
    : keepParameter rp param = firstMatch param rp.rpWhitelistParams.isNone (paramRules rp) := by
  have hwhite : (rp.rpWhitelistParams.map (matchesParam param)).getD (.ok true)
      = firstMatch param rp.rpWhitelistParams.isNone (listRules rp.rpWhitelistParams true) := by
    rw [firstMatch_whitelist]
    cases rp.rpWhitelistParams with
    | none => rfl
    | some hs =>
      rw [Option.map_some, Option.getD_some, Option.getD_some]
      cases matchesParam param hs with
      | error e => rfl
      | ok found =>
        cases found with
        | true => rfl
        | false => rfl
  unfold keepParameter paramRules
  rw [firstMatch_listRules, hwhite]
  rfl

theorem shouldIgnoreCookie_eq_firstMatch {rp : RemapPath} (hlist : rp.rpIgnoreCookies ≠ none) {cookie : List UInt8}
    (h : 61 ∈ cstr cookie)
    : shouldIgnoreCookie rp cookie = firstMatch cookie rp.rpWhitelistCookies.isSome (cookieRules rp) := by
  rcases Option.ne_none_iff_exists'.mp hlist with ⟨ignore, hignore⟩
  unfold shouldIgnoreCookie cookieRules
  rw [if_neg (not_not.mpr h), firstMatch_listRules, firstMatch_whitelist, hignore, deref_some, Except.ok_bind,
    Option.map_some, Option.getD_some]
  congr 1
  funext found
  cases found with
  | true => rfl
  | false =>
    cases rp.rpWhitelistCookies with
    | none => rfl
    | some white =>
      rw [Option.map_some, Option.getD_some, if_neg Bool.false_ne_true, if_neg Bool.false_ne_true]
      dsimp only
      cases matchesParam cookie white with
      | error e => rfl
      | ok found =>
        cases found with
        | true => rfl
        | false => rfl

/--
The globs, in the order in which they are tried, give this answer to the name with this tail. A glob is decided in the
name unless the tail leads it on, and then it has to match and to stand for the same answer.
-/
inductive DecidedAs (n t : Str) (answer unlisted : Bool) : List Rule → Prop where
  | ledOn {pat : Str} {rest : List Rule} (hled : LedOn pat n t) (hmatch : strmatch (n ++ t) n.length pat = .ok true)
    : DecidedAs n t answer unlisted ((pat, answer) :: rest)
  | name {pat : Str} {rest : List Rule} (hled : ¬ LedOn pat n t) (hname : outcomeIn pat n = .ok true)
    : DecidedAs n t answer unlisted ((pat, answer) :: rest)
  | next {pat : Str} {listed : Bool} {rest : List Rule} (hled : ¬ LedOn pat n t) (hname : outcomeIn pat n = .ok false)
    (hrest : DecidedAs n t answer unlisted rest) : DecidedAs n t answer unlisted ((pat, listed) :: rest)
  | unlisted (h : unlisted = answer) : DecidedAs n t answer unlisted []

theorem firstMatch_cons_eq_ok_iff (param : List UInt8) (unlisted answer : Bool) (pat : Str) (listed : Bool)
    (rest : List Rule)
    : firstMatch param unlisted ((pat, listed) :: rest) = .ok answer
        ↔
      (strmatch param ((cstr param).takeWhile (· ≠ 61)).length pat = .ok true ∧ listed = answer)
        ∨
      (strmatch param ((cstr param).takeWhile (· ≠ 61)).length pat = .ok false
        ∧ firstMatch param unlisted rest = .ok answer) := by
  rw [firstMatch, Except.bind_eq_ok_iff]
  constructor
  . rintro ⟨found, hfound, hrest⟩
    cases found with
    | true =>
      cases hrest
      exact .inl ⟨hfound, rfl⟩
    | false => exact .inr ⟨hfound, hrest⟩
  . rintro (⟨hfound, rfl⟩ | ⟨hfound, hrest⟩)
    . exact ⟨true, hfound, rfl⟩
    . exact ⟨false, hfound, hrest⟩

theorem firstMatch_eq_ok_iff {n t : Str} (hend : Named n (n ++ t)) (unlisted answer : Bool) (rules : List Rule)
    : firstMatch (n ++ t) unlisted rules = .ok answer ↔ DecidedAs n t answer unlisted rules := by
  unfold Named at hend
  induction rules with
  | nil =>
    rw [firstMatch]
    constructor
    . intro h
      cases h
      exact .unlisted rfl
    . intro h
      cases h with
      | unlisted h => rw [h]
  | cons rule rest ih =>
    rcases rule with ⟨pat, listed⟩
    rw [firstMatch_cons_eq_ok_iff, hend, ih]
    constructor
    . intro h
      by_cases hled : LedOn pat n t
      . rcases h with ⟨hmatch, rfl⟩ | ⟨hfails, -⟩
        . exact .ledOn hled hmatch
        . exact absurd hfails hled.strmatch_ne_false
      . rw [strmatch_of_not_ledOn hled] at h
        rcases h with ⟨hname, rfl⟩ | ⟨hname, hrest⟩
        . exact .name hled hname
        . exact .next hled hname hrest
    . intro h
      cases h with
      | ledOn hled hmatch => exact .inl ⟨hmatch, rfl⟩
      | name hled hname =>
        rw [strmatch_of_not_ledOn hled]
        exact .inl ⟨hname, rfl⟩
      | next hled hname hrest =>
        rw [strmatch_of_not_ledOn hled]
        exact .inr ⟨hname, hrest⟩

theorem shouldIgnoreCookie_extends (rp : RemapPath) (cookie : List UInt8)
    : Except.Extends (shouldIgnoreCookie rp (cstr cookie)) (shouldIgnoreCookie rp cookie) := by
  unfold shouldIgnoreCookie
  rw [cstr_cstr]
  apply Except.Extends.ite (Except.Extends.refl _)
  apply Except.Extends.bind (Except.Extends.refl _)
  intro ignore
  apply Except.Extends.bind (matchesParam_extends cookie ignore)
  intro found
  apply Except.Extends.ite (Except.Extends.refl _)
  cases rp.rpWhitelistCookies with
  | none => exact Except.Extends.refl _
  | some white =>
    apply Except.Extends.bind (matchesParam_extends cookie white)
    intro listed
    exact Except.Extends.refl _

/--
The filters of a path give the same answer to all parameters and to all cookies of a name, wherever these stand in
memory.
-/
structure AnswersByName (rp : RemapPath) (n : Str) : Prop where
  keepParameter : ∀ param param', Named n param → Named n param' →
    ∃ keep, keepParameter rp param = .ok keep ∧ keepParameter rp param' = .ok keep
  shouldIgnoreCookie : rp.rpIgnoreCookies ≠ none →
    ∀ cookie cookie', Named n cookie → Named n cookie' → 61 ∈ cstr cookie → 61 ∈ cstr cookie' →
      ∃ ignore, shouldIgnoreCookie rp cookie = .ok ignore ∧ shouldIgnoreCookie rp cookie' = .ok ignore

section

variable {rp : RemapPath} {n : Str} (hequals : 61 ∉ n) (hzero : 0 ∉ n)

include hequals hzero

theorem keepParameter_eq_ok_iff {t : Str} (ht : Tail t) (keep : Bool)
    : keepParameter rp (n ++ t) = .ok keep
        ↔
      DecidedAs n t keep rp.rpWhitelistParams.isNone (paramRules rp) := by
  rw [keepParameter_eq_firstMatch, firstMatch_eq_ok_iff (ht.named hequals hzero)]

theorem shouldIgnoreCookie_eq_ok_iff (hlist : rp.rpIgnoreCookies ≠ none) {v : Str} (hv : 0 ∉ v) (ignore : Bool)
    : shouldIgnoreCookie rp (n ++ 61 :: v) = .ok ignore
        ↔
      DecidedAs n (61 :: v) ignore rp.rpWhitelistCookies.isSome (cookieRules rp) := by
  have ht : Tail (61 :: v) := .inr ⟨v, hv, rfl⟩
  have hmem : 61 ∈ cstr (n ++ 61 :: v) := by
    rw [ht.cstr_eq hzero]
    simp
  rw [shouldIgnoreCookie_eq_firstMatch hlist hmem, firstMatch_eq_ok_iff (ht.named hequals hzero)]

theorem keepParameter_named {keep : Bool}
    (h : ∀ t, Tail t → DecidedAs n t keep rp.rpWhitelistParams.isNone (paramRules rp)) {param : List UInt8}
    (hparam : Named n param) : keepParameter rp param = .ok keep := by
  apply keepParameter_extends
  rcases hparam.exists_tail with ⟨t, ht, heq⟩
  rw [heq, keepParameter_eq_ok_iff hequals hzero ht]
  exact h t ht

theorem shouldIgnoreCookie_named (hlist : rp.rpIgnoreCookies ≠ none) {ignore : Bool}
    (h : ∀ v, 0 ∉ v → DecidedAs n (61 :: v) ignore rp.rpWhitelistCookies.isSome (cookieRules rp))
    {cookie : List UInt8} (hcookie : Named n cookie) (hmem : 61 ∈ cstr cookie)
    : shouldIgnoreCookie rp cookie = .ok ignore := by
  apply shouldIgnoreCookie_extends
  rcases hcookie.exists_tail with ⟨t, ht, heq⟩
  rw [heq] at hmem ⊢
  rcases ht with rfl | ⟨v, hv, rfl⟩
  . rw [List.append_nil] at hmem
    exact absurd hmem hequals
  . rw [shouldIgnoreCookie_eq_ok_iff hequals hzero hlist hv]
    exact h v hv

end

theorem paramRules_oneGlobPath (pat : Str) : paramRules (oneGlobPath pat) = [(pat, false)] := by
  unfold paramRules listRules oneGlobPath
  rw [Option.map_some, entries_oneGlob]
  rfl

theorem cookieRules_oneGlobPath (pat : Str) : cookieRules (oneGlobPath pat) = [] := by
  have hentries : (hashNew 127 : Hash Unit).entries = [] := by
    exact ChainTable.entries_new 127 _
  unfold cookieRules listRules oneGlobPath remapPathDefault
  rw [Option.map_some, hentries]
  rfl
