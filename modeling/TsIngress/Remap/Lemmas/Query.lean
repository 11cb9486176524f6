import TsIngress.BasicLemmas
import TsIngress.Lib.ExceptFold
import TsIngress.Lib.Fields
import TsIngress.Remap.Impl.Run
import TsIngress.Util.Lemmas.StrMatch

/-!
This module contains the canonical form that `make_query` gives a query: the parameters it keeps, in the order
of `strcmp`.
-/

theorem strcmp_swap (a b : Str) : (strcmp a b).swap = strcmp b a := by
  induction a generalizing b with
  | nil =>
    cases b with
    | nil => rfl
    | cons y b => rfl
  | cons x a ih =>
    cases b with
    | nil => rfl
    | cons y b =>
      unfold strcmp
      by_cases hlt : x < y
      . rw [if_pos hlt, if_neg (UInt8.lt_asymm hlt), if_pos hlt]
        rfl
      . rw [if_neg hlt]
        by_cases hgt : y < x
        . rw [if_pos hgt, if_pos hgt]
          rfl
        . rw [if_neg hgt, if_neg hgt, if_neg hlt]
          exact ih b

theorem strcmp_cons_ne_gt_iff (x y : UInt8) (a b : Str)
    : strcmp (x :: a) (y :: b) ≠ .gt ↔ x < y ∨ (x = y ∧ strcmp a b ≠ .gt) := by
  rw [strcmp]
  by_cases hlt : x < y
  . simp [hlt]
  . rw [if_neg hlt]
    by_cases hgt : y < x
    . have hne : x ≠ y := by
        rintro rfl
        exact UInt8.lt_irrefl x hgt
      simp [hgt, hlt, hne]
    . have heq : x = y := by
        apply UInt8.le_antisymm
        . exact UInt8.not_lt.mp hgt
        . exact UInt8.not_lt.mp hlt
      simp [heq, UInt8.lt_irrefl]

abbrev StrcmpLe (a b : Str) : Prop :=
  strcmp a b ≠ .gt

instance : Std.Total StrcmpLe where
  total := by
    intro a b
    unfold StrcmpLe
    rw [← strcmp_swap a b]
    cases strcmp a b with
    | lt => simp
    | eq => simp
    | gt => simp

instance : IsTrans Str StrcmpLe where
  trans := by
    intro a b c
    unfold StrcmpLe
    induction a generalizing b c with
    | nil =>
      intro _ _
      cases c with
      | nil => simp [strcmp]
      | cons z c => simp [strcmp]
    | cons x a ih =>
      cases b with
      | nil => simp [strcmp]
      | cons y b =>
        cases c with
        | nil => simp [strcmp]
        | cons z c =>
          rw [strcmp_cons_ne_gt_iff, strcmp_cons_ne_gt_iff, strcmp_cons_ne_gt_iff]
          rintro (hxy | ⟨rfl, hab⟩) (hyz | ⟨rfl, hbc⟩)
          . exact Or.inl (UInt8.lt_trans hxy hyz)
          . exact Or.inl hxy
          . exact Or.inl hyz
          . exact Or.inr ⟨rfl, ih b c hab hbc⟩

instance : Std.Antisymm StrcmpLe where
  antisymm := by
    intro a
    unfold StrcmpLe
    induction a with
    | nil =>
      intro b _ hba
      cases b with
      | nil => rfl
      | cons y b => simp [strcmp] at hba
    | cons x a ih =>
      intro b hab hba
      cases b with
      | nil => simp [strcmp] at hab
      | cons y b =>
        rw [strcmp_cons_ne_gt_iff] at hab hba
        rcases hab with hxy | ⟨rfl, hab⟩
        . rcases hba with hyx | ⟨rfl, -⟩
          . exact absurd hyx (UInt8.lt_asymm hxy)
          . exact absurd hxy (UInt8.lt_irrefl y)
        . rcases hba with hxx | ⟨-, hba⟩
          . exact absurd hxx (UInt8.lt_irrefl x)
          . rw [ih b hab hba]

theorem qsortStr_perm (l : List Str) : (qsortStr l).Perm l := by
  exact List.perm_insertionSort _ l

theorem qsortStr_pairwise (l : List Str) : (qsortStr l).Pairwise StrcmpLe := by
  exact List.pairwise_insertionSort StrcmpLe l

theorem qsortStr_eq_of_perm {l l' : List Str} (h : l.Perm l') : qsortStr l = qsortStr l' := by
  apply List.Perm.eq_of_pairwise' (qsortStr_pairwise l) (qsortStr_pairwise l')
  exact (qsortStr_perm l).trans (h.trans (qsortStr_perm l').symm)

theorem qsortStr_qsortStr (l : List Str) : qsortStr (qsortStr l) = qsortStr l := by
  exact qsortStr_eq_of_perm (qsortStr_perm l)

theorem cstr_cstr (mem : List UInt8) : cstr (cstr mem) = cstr mem := by
  exact cstr_of_notMem (notMem_cstr mem)

-- What is answered for a parameter that stands alone is answered wherever it stands.

theorem matchesParam_extends (param : List UInt8) (hs : Hash Unit)
    : Except.Extends (matchesParam (cstr param) hs) (matchesParam param hs) := by
  unfold matchesParam
  induction hs.entries.map Prod.fst with
  | nil => exact Except.Extends.refl _
  | cons p rest ih =>
    rw [matchesParam.go, matchesParam.go, cstr_cstr]
    apply Except.Extends.bind (strmatch_extends param _ p)
    intro found
    exact Except.Extends.ite (Except.Extends.refl _) ih

theorem list_extends (param : List UInt8) (list : Option (Hash Unit)) (unlisted : Bool)
    : Except.Extends ((list.map (matchesParam (cstr param))).getD (.ok unlisted))
        ((list.map (matchesParam param)).getD (.ok unlisted)) := by
  cases list with
  | none =>
    rw [Option.map_none, Option.map_none]
    exact Except.Extends.refl _
  | some hs =>
    rw [Option.map_some, Option.map_some, Option.getD_some, Option.getD_some]
    exact matchesParam_extends param hs

theorem keepParameter_extends (rp : RemapPath) (param : List UInt8)
    : Except.Extends (keepParameter rp (cstr param)) (keepParameter rp param) := by
  unfold keepParameter
  apply Except.Extends.bind (list_extends param rp.rpIgnoreParams false)
  intro ignored
  exact Except.Extends.ite (Except.Extends.refl _) (list_extends param rp.rpWhitelistParams true)

def keeps (rp : RemapPath) (param : List UInt8) : Bool :=
  match keepParameter rp param with
  | .ok keep => keep
  | .error _ => false

def queryTokens (query : Str) : List (List UInt8) :=
  strtokMem (str "&") (cstr query)

def keptTokens (rp : RemapPath) (query : Str) : List Str :=
  ((queryTokens query).filter (keeps rp)).map cstr

theorem keeps_eq {rp : RemapPath} {param : List UInt8} {b : Bool} (h : keepParameter rp param = .ok b)
    : keeps rp param = b := by
  unfold keeps
  rw [h]

theorem keeps_cstr {rp : RemapPath} {param : List UInt8} (h : Except.Returns (keepParameter rp (cstr param)))
    : keeps rp param = keeps rp (cstr param) := by
  rcases h with ⟨keep, h⟩
  rw [keeps_eq h, keeps_eq (keepParameter_extends rp param keep h)]

theorem keptParameters_eq_of_returns {rp : RemapPath} {params : List (List UInt8)}
    (h : ∀ p ∈ params, Except.Returns (keepParameter rp p))
    : keptParameters rp params = .ok ((params.filter (keeps rp)).map cstr) := by
  induction params with
  | nil => rfl
  | cons p rest ih =>
    rw [List.forall_mem_cons] at h
    rcases h with ⟨⟨keep, hkeep⟩, hrest⟩
    rw [keptParameters, hkeep, Except.ok_bind, ih hrest, Except.ok_bind, Except.pure_eq_ok]
    cases keep with
    | true => rw [if_pos rfl, List.filter_cons_of_pos (keeps_eq hkeep), List.map_cons]
    | false => rw [if_neg Bool.false_ne_true, List.filter_cons_of_neg (by simp [keeps_eq hkeep])]

theorem keptParameters_returns {rp : RemapPath} {params : List (List UInt8)}
    (h : Except.Returns (keptParameters rp params)) : ∀ p ∈ params, Except.Returns (keepParameter rp p) := by
  induction params with
  | nil => simp
  | cons p rest ih =>
    rw [keptParameters, Except.returns_bind_iff] at h
    rcases h with ⟨keep, hkeep, hrest⟩
    rw [Except.returns_bind_iff] at hrest
    rcases hrest with ⟨kept, hkept, -⟩
    rw [List.forall_mem_cons]
    exact ⟨⟨keep, hkeep⟩, ih ⟨kept, hkept⟩⟩

def joinParams (params : List Str) : Option Str :=
  if params = [] then none else some ([38].intercalate params)

theorem foldl_length_eq (params : List Str) (n : Nat)
    : params.foldl (fun len p => len + p.length + 1) n = n + (params.flatMap (· ++ str "&")).length := by
  induction params generalizing n with
  | nil => rfl
  | cons p rest ih =>
    have hone : (str "&").length = 1 := by
      decide
    rw [List.foldl_cons, ih, List.flatMap_cons, List.length_append, List.length_append, hone]
    omega

theorem flatMap_amp_eq {params : List Str} (h : params ≠ [])
    : params.flatMap (· ++ str "&") = [38].intercalate params ++ [38] := by
  have hamp : str "&" = [38] := by
    decide
  rw [hamp]
  induction params with
  | nil => exact absurd rfl h
  | cons p rest ih =>
    cases rest with
    | nil => simp [List.intercalate]
    | cons p' rest =>
      rw [List.flatMap_cons, ih (by simp)]
      simp [List.intercalate]

theorem makeQuery_join (params : List Str)
    : (if params.foldl (fun len p => len + p.length + 1) 0 = 0 then
        none
      else
        some (((qsortStr params).flatMap fun p => p ++ str "&").take
          (params.foldl (fun len p => len + p.length + 1) 0 - 1)))
        =
      joinParams (qsortStr params) := by
  have hperm := qsortStr_perm params
  have hlength : (params.flatMap (· ++ str "&")).length = ((qsortStr params).flatMap (· ++ str "&")).length := by
    exact (hperm.symm.flatMap_right _).length_eq
  unfold joinParams
  rw [foldl_length_eq, Nat.zero_add, hlength]
  by_cases hnil : qsortStr params = []
  . simp [hnil]
  . rw [flatMap_amp_eq hnil, if_neg hnil, if_neg (by simp)]
    simp

theorem makeQuery_eq_of_returns {rp : RemapPath} {query : Str}
    (h : ∀ p ∈ queryTokens query, Except.Returns (keepParameter rp p))
    : makeQuery rp query = .ok (joinParams (qsortStr (keptTokens rp query))) := by
  have hkept := keptParameters_eq_of_returns h
  unfold makeQuery keptTokens
  unfold queryTokens at hkept ⊢
  dsimp only
  rw [hkept, Except.ok_bind, ← makeQuery_join]
  exact (apply_ite Except.ok _ _ _).symm

theorem makeQuery_returns {rp : RemapPath} {query : Str} (h : Except.Returns (makeQuery rp query))
    : ∀ p ∈ queryTokens query, Except.Returns (keepParameter rp p) := by
  unfold makeQuery at h
  rw [Except.returns_bind_iff] at h
  rcases h with ⟨kept, hkept, -⟩
  exact keptParameters_returns ⟨kept, hkept⟩

structure IsParam (p : Str) : Prop where
  ne_nil : p ≠ []
  amp : 38 ∉ p
  nul : 0 ∉ p

theorem isParam_of_mem_queryTokens {query : Str} {p : List UInt8} (h : p ∈ queryTokens query) : IsParam (cstr p) where
  ne_nil := TokenBuffer.text_ne_nil h
  amp := by
    intro hamp
    have := TokenBuffer.sep_eq_false_of_mem h 38 hamp
    simp [str] at this
  nul := notMem_cstr p

theorem IsParam.isToken {p : Str} (h : IsParam p)
    : ∀ c ∈ p, TokenBuffer.isToken (fun c => (str "&").contains c) 0 c = true := by
  intro c hc
  have hamp : c ≠ 38 := ne_of_mem_of_not_mem hc h.amp
  have hnul : c ≠ 0 := ne_of_mem_of_not_mem hc h.nul
  simp [TokenBuffer.isToken, str, hamp, hnul]

theorem strsep_amp (s : Str) : strsep (str "&") s = s.splitOn 38 := by
  have hamp : str "&" = [38] := by
    decide
  unfold strsep List.splitOn
  rw [hamp]
  congr 1
  funext c
  rw [List.contains_cons, List.contains_nil, Bool.or_false]

theorem map_cstr_queryTokens (query : Str) : (queryTokens query).map cstr = strtok (str "&") (cstr query) := by
  have hnul : (fun c => (str "&").contains c) 0 = false := by
    decide
  have htexts := TokenBuffer.map_text_tokens hnul false (cstr query)
  change (queryTokens query).map cstr = (strsep (str "&") (cstr (cstr query))).filter fun t => !t.isEmpty at htexts
  rw [htexts, cstr_cstr]
  rfl

theorem queryTokens_joinParams {params : List Str} (h : ∀ p ∈ params, IsParam p)
    : (queryTokens ((joinParams params).getD [])).map cstr = params := by
  have hfilter : params.filter (fun p => !p.isEmpty) = params := by
    rw [List.filter_eq_self]
    intro p hp
    simp [(h p hp).ne_nil]
  have hnul : 0 ∉ (joinParams params).getD [] := by
    unfold joinParams
    split
    . simp
    . next hne =>
      intro hzero
      have hmem : 0 ∈ params.flatMap (· ++ str "&") := by
        rw [flatMap_amp_eq hne]
        exact List.mem_append_left _ hzero
      rcases List.mem_flatMap.mp hmem with ⟨p, hp, hzero⟩
      rcases List.mem_append.mp hzero with hzero | hzero
      . exact (h p hp).nul hzero
      . exact absurd hzero (by decide)
  rw [map_cstr_queryTokens, cstr_of_notMem hnul]
  unfold joinParams strtok
  rw [strsep_amp]
  by_cases hnil : params = []
  . subst hnil
    decide
  . rw [if_neg hnil, Option.getD_some, List.splitOn_intercalate 38 (fun p hp => (h p hp).amp) hnil, hfilter]

-- What `make_query` makes of a query is the canonical form of what it keeps of it.
structure Canonicalises (rp : RemapPath) (query : Str) : Prop where
  sorted : ∃ params, params.Perm (keptTokens rp query) ∧ params.Pairwise StrcmpLe
    ∧ makeQuery rp query = .ok (joinParams params)
  -- neither the order of the parameters matters nor what is dropped of the two queries
  reordered : ∀ query' same same' dropped dropped', (queryTokens query).Perm (same ++ dropped) →
    (queryTokens query').Perm (same' ++ dropped') → (same'.map cstr).Perm (same.map cstr) →
    (∀ p ∈ dropped ++ dropped', keepParameter rp p = .ok false) →
    makeQuery rp query' = makeQuery rp query
  kept : ∀ r, makeQuery rp query = .ok r →
    ((queryTokens (r.getD [])).map cstr).Perm (keptTokens rp query)
  idempotent : ∀ r, makeQuery rp query = .ok (some r) → makeQuery rp r = .ok (some r)

theorem filter_keeps_eq_nil {rp : RemapPath} {params : List (List UInt8)}
    (h : ∀ p ∈ params, keepParameter rp p = .ok false) : params.filter (keeps rp) = [] := by
  rw [List.filter_eq_nil_iff]
  intro p hp
  simp [keeps_eq (h p hp)]

theorem map_cstr_filter_keeps {rp : RemapPath} {params : List (List UInt8)}
    (h : ∀ t ∈ params.map cstr, Except.Returns (keepParameter rp t))
    : (params.filter (keeps rp)).map cstr = (params.map cstr).filter (keeps rp) := by
  rw [List.filter_map]
  congr 1
  apply List.filter_congr
  intro p hp
  exact keeps_cstr (h _ (List.mem_map_of_mem hp))

theorem returns_of_map_cstr {rp : RemapPath} {params : List (List UInt8)}
    (h : ∀ t ∈ params.map cstr, Except.Returns (keepParameter rp t))
    : ∀ p ∈ params, Except.Returns (keepParameter rp p) := by
  intro p hp
  rcases h _ (List.mem_map_of_mem hp) with ⟨keep, hkeep⟩
  exact ⟨keep, keepParameter_extends rp p keep hkeep⟩

theorem makeQuery_of_same {rp : RemapPath} {query : Str} {same dropped : List (List UInt8)}
    (hperm : (queryTokens query).Perm (same ++ dropped))
    (hsame : ∀ t ∈ same.map cstr, Except.Returns (keepParameter rp t))
    (hdropped : ∀ p ∈ dropped, keepParameter rp p = .ok false)
    : makeQuery rp query = .ok (joinParams (qsortStr ((same.map cstr).filter (keeps rp)))) := by
  have hreturns : ∀ p ∈ queryTokens query, Except.Returns (keepParameter rp p) := by
    intro p hp
    rw [hperm.mem_iff, List.mem_append] at hp
    rcases hp with hp | hp
    . exact returns_of_map_cstr hsame p hp
    . exact ⟨false, hdropped p hp⟩
  have hkept : (keptTokens rp query).Perm ((same.map cstr).filter (keeps rp)) := by
    have hfilter := (hperm.filter (keeps rp)).map cstr
    rw [List.filter_append, filter_keeps_eq_nil hdropped, List.append_nil, map_cstr_filter_keeps hsame] at hfilter
    exact hfilter
  rw [makeQuery_eq_of_returns hreturns, qsortStr_eq_of_perm hkept]

theorem makeQuery_reordered {rp : RemapPath} {query query' : Str} {same same' dropped dropped' : List (List UInt8)}
    (hreturns : ∀ p ∈ queryTokens query, Except.Returns (keepParameter rp (cstr p)))
    (hquery : (queryTokens query).Perm (same ++ dropped)) (hquery' : (queryTokens query').Perm (same' ++ dropped'))
    (hsame : (same'.map cstr).Perm (same.map cstr))
    (hdropped : ∀ p ∈ dropped ++ dropped', keepParameter rp p = .ok false)
    : makeQuery rp query' = makeQuery rp query := by
  rw [List.forall_mem_append] at hdropped
  have hreturns : ∀ t ∈ same.map cstr, Except.Returns (keepParameter rp t) := by
    intro t ht
    rw [List.mem_map] at ht
    rcases ht with ⟨p, hp, rfl⟩
    apply hreturns
    rw [hquery.mem_iff]
    exact List.mem_append_left _ hp
  have hreturns' : ∀ t ∈ same'.map cstr, Except.Returns (keepParameter rp t) := by
    intro t ht
    exact hreturns t (hsame.mem_iff.mp ht)
  rw [makeQuery_of_same hquery hreturns hdropped.1, makeQuery_of_same hquery' hreturns' hdropped.2,
    qsortStr_eq_of_perm (hsame.filter (keeps rp))]

theorem isParam_of_mem_keptTokens {rp : RemapPath} {query p : Str} (h : p ∈ qsortStr (keptTokens rp query))
    : IsParam p := by
  rw [(qsortStr_perm _).mem_iff, keptTokens, List.mem_map] at h
  rcases h with ⟨mem, hmem, rfl⟩
  exact isParam_of_mem_queryTokens (List.mem_of_mem_filter hmem)

theorem makeQuery_tokens (rp : RemapPath) (query : Str)
    : (queryTokens ((joinParams (qsortStr (keptTokens rp query))).getD [])).map cstr
        =
      qsortStr (keptTokens rp query) := by
  apply queryTokens_joinParams
  intro p hp
  exact isParam_of_mem_keptTokens hp

theorem makeQuery_idempotent {rp : RemapPath} {query r : Str}
    (h : ∀ p ∈ queryTokens query, Except.Returns (keepParameter rp (cstr p)))
    (hr : makeQuery rp query = .ok (some r)) : makeQuery rp r = .ok (some r) := by
  have htexts : ∀ t ∈ (queryTokens query).map cstr, Except.Returns (keepParameter rp t) := by
    rw [List.forall_mem_map]
    exact h
  have hjoin : joinParams (qsortStr (keptTokens rp query)) = some r := by
    rw [makeQuery_eq_of_returns (returns_of_map_cstr htexts)] at hr
    exact Except.ok.inj hr
  have htokens := makeQuery_tokens rp query
  rw [hjoin, Option.getD_some] at htokens
  have hkept : ∀ t ∈ (queryTokens r).map cstr, t ∈ ((queryTokens query).map cstr).filter (keeps rp) := by
    intro t ht
    rw [htokens, (qsortStr_perm _).mem_iff, keptTokens, map_cstr_filter_keeps htexts] at ht
    exact ht
  have hreturns : ∀ t ∈ (queryTokens r).map cstr, Except.Returns (keepParameter rp t) := by
    intro t ht
    exact htexts t (List.mem_of_mem_filter (hkept t ht))
  have hfilter : ((queryTokens r).map cstr).filter (keeps rp) = (queryTokens r).map cstr := by
    rw [List.filter_eq_self]
    intro t ht
    exact List.of_mem_filter (hkept t ht)
  have hperm : (queryTokens r).Perm (queryTokens r ++ []) := by
    rw [List.append_nil]
  rw [makeQuery_of_same hperm hreturns (by simp), hfilter, htokens, qsortStr_qsortStr, hjoin]

def queryOf (params : List Str) (last : Str) : Str :=
  params.flatMap (· ++ str "&") ++ last

section

variable {params : List Str} {last : Str} (hparams : ∀ p ∈ params, IsParam p) (hlast : IsParam last)

include hparams hlast

theorem notMem_queryOf : 0 ∉ queryOf params last := by
  unfold queryOf
  rw [List.mem_append, not_or, List.mem_flatMap]
  refine ⟨?_, hlast.nul⟩
  rintro ⟨p, hp, hzero⟩
  rw [List.mem_append] at hzero
  rcases hzero with hzero | hzero
  . exact (hparams p hp).nul hzero
  . exact absurd hzero (by decide)

theorem strtok_queryOf : strtok (str "&") (queryOf params last) = params ++ [last] := by
  unfold strtok
  rw [strsep_amp]
  induction params with
  | nil =>
    have hsingle : (queryOf [] last).splitOn 38 = [last] := by
      apply List.splitOnP_eq_singleton
      intro c hc
      simpa using ne_of_mem_of_not_mem hc hlast.amp
    rw [hsingle]
    simp [hlast.ne_nil]
  | cons p params ih =>
    rw [List.forall_mem_cons] at hparams
    have hcons : queryOf (p :: params) last = p ++ 38 :: queryOf params last := by
      have hamp : str "&" = [38] := by
        decide
      simp [queryOf, hamp]
    have hp : ∀ c ∈ p, (c == 38) = false := by
      intro c hc
      simpa using ne_of_mem_of_not_mem hc hparams.1.amp
    rw [hcons, List.splitOn, List.splitOnP_append_cons_of_forall_mem hp 38 (by simp),
      List.filter_cons_of_pos (by simp [hparams.1.ne_nil]), List.cons_append]
    congr 1
    exact ih hparams.2

theorem mem_queryTokens_queryOf : last ∈ queryTokens (queryOf params last) := by
  unfold queryTokens
  rw [cstr_of_notMem (notMem_queryOf hparams hlast)]
  unfold strtokMem
  induction params with
  | nil =>
    have htokens := TokenBuffer.tokens_of_token hlast.isToken hlast.ne_nil
    rw [queryOf, List.flatMap_nil, List.nil_append, htokens]
    simp
  | cons p params ih =>
    rw [List.forall_mem_cons] at hparams
    have hcons : queryOf (p :: params) last = p ++ 38 :: queryOf params last := by
      have hamp : str "&" = [38] := by
        decide
      simp [queryOf, hamp]
    rw [hcons]
    exact TokenBuffer.mem_tokens_append hparams.1.nul (by decide) (ih hparams.2) false

end

-- Put at the end of the query, a token stands alone.
theorem Canonicalises.returns {rp : RemapPath} {query : Str} (h : Canonicalises rp query)
    : ∀ p ∈ queryTokens query, Except.Returns (keepParameter rp (cstr p)) := by
  intro p hp
  rcases h.sorted with ⟨params, -, -, hok⟩
  have hmem : cstr p ∈ (queryTokens query).map cstr := List.mem_map_of_mem hp
  have hparams : ∀ t ∈ ((queryTokens query).map cstr).erase (cstr p), IsParam t := by
    intro t ht
    rcases List.mem_map.mp (List.mem_of_mem_erase ht) with ⟨mem, hmem, rfl⟩
    exact isParam_of_mem_queryTokens hmem
  have hlast := isParam_of_mem_queryTokens hp
  generalize hothers : ((queryTokens query).map cstr).erase (cstr p) = others at hparams
  have htexts : ((queryTokens (queryOf others (cstr p))).map cstr).Perm ((queryTokens query).map cstr) := by
    rw [map_cstr_queryTokens, cstr_of_notMem (notMem_queryOf hparams hlast), strtok_queryOf hparams hlast, ← hothers]
    exact (List.perm_append_singleton _ _).trans (List.perm_cons_erase hmem).symm
  have hsame := h.reordered (queryOf others (cstr p)) (queryTokens query) (queryTokens (queryOf others (cstr p))) [] []
    (by rw [List.append_nil]) (by rw [List.append_nil]) htexts (by simp)
  rw [hok] at hsame
  exact makeQuery_returns ⟨_, hsame⟩ _ (mem_queryTokens_queryOf hparams hlast)

/--
Queries are brought to a canonical form exactly if the filter has an answer to each parameter that it would also give
to the parameter alone.
-/
theorem makeQuery_canonicalises_iff (rp : RemapPath) (query : Str)
    : Canonicalises rp query ↔ ∀ p ∈ queryTokens query, Except.Returns (keepParameter rp (cstr p)) := by
  constructor
  . exact Canonicalises.returns
  . intro h
    have hreturns : ∀ p ∈ queryTokens query, Except.Returns (keepParameter rp p) := by
      apply returns_of_map_cstr
      rw [List.forall_mem_map]
      exact h
    constructor
    . exact ⟨_, qsortStr_perm _, qsortStr_pairwise _, makeQuery_eq_of_returns hreturns⟩
    . intro query' same same' dropped dropped' hquery hquery' hsame hdropped
      exact makeQuery_reordered h hquery hquery' hsame hdropped
    . intro r hr
      rw [makeQuery_eq_of_returns hreturns] at hr
      cases hr
      rw [makeQuery_tokens]
      exact qsortStr_perm _
    . intro r hr
      exact makeQuery_idempotent h hr

def oneGlobPath (pat : Str) : RemapPath :=
  { remapPathDefault with rpIgnoreParams := some (hashOfWords 127 [pat]) }

theorem entries_oneGlob (pat : Str) : (hashOfWords 127 [pat]).entries = [(pat, ())] := by
  exact ChainTable.entries_set_new 127 _ pat ()

theorem keepParameter_oneGlobPath (pat : Str) (param : List UInt8)
    : keepParameter (oneGlobPath pat) param
        =
      strmatch param ((cstr param).takeWhile (· ≠ 61)).length pat >>= fun ignored => .ok (!ignored) := by
  have hmatches : matchesParam param (hashOfWords 127 [pat])
      = strmatch param ((cstr param).takeWhile (· ≠ 61)).length pat := by
    unfold matchesParam
    rw [entries_oneGlob, List.map_singleton, matchesParam.go]
    cases strmatch param ((cstr param).takeWhile (· ≠ 61)).length pat with
    | error e => rfl
    | ok found =>
      cases found with
      | true => rfl
      | false => rfl
  unfold keepParameter oneGlobPath
  rw [Option.map_some, Option.getD_some, hmatches]
  congr 1
  funext ignored
  cases ignored with
  | true => rfl
  | false => rfl

-- The matcher follows the equals sign of the glob into the value `b`, and over the end of the memory.
theorem not_makeQuery_canonicalises : ¬ ∀ (rp : RemapPath) (query : Str), Canonicalises rp query := by
  intro hcanonical
  rcases (hcanonical (oneGlobPath (str "a=??x")) (str "a=b")).sorted with ⟨params, -, -, hok⟩
  rcases makeQuery_returns ⟨_, hok⟩ (str "a=b") (by decide) with ⟨keep, hkeep⟩
  have hstray : keepParameter (oneGlobPath (str "a=??x")) (str "a=b") = .error .outOfBounds := by
    rw [keepParameter_oneGlobPath]
    decide
  rw [hstray] at hkeep
  cases hkeep

-- In front of another parameter the matcher goes on there, so that the order of the parameters decides.
example : keepParameter (oneGlobPath (str "a=??c*")) (str "a=b" ++ 0 :: str "c=1&d=1") = .ok false
    ∧ keepParameter (oneGlobPath (str "a=??c*")) (str "a=b" ++ 0 :: str "d=1&c=1") = .ok true
    ∧ keepParameter (oneGlobPath (str "a=??x")) (str "a=b" ++ 0 :: str "c=1") = .ok true := by
  rw [keepParameter_oneGlobPath, keepParameter_oneGlobPath, keepParameter_oneGlobPath]
  decide
