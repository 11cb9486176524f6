import TsIngress.BasicLemmas
import TsIngress.Lib.ExceptFold
import TsIngress.Tsapi.Impl.Cookies
import TsIngress.Tsapi.Lemmas.Mime

/-!
This module contains what `check_cookies` knows about the cookies of a request when it lets the request
into the cache.
-/

-- The cookies of a value, each as the memory from it on in a copy of the value. Null bytes end cookies as well.
def valueCookies (value : Str) : List (List UInt8) :=
  strtokMem (str " ;" ++ [0]) value

def MimeField.cookies (field : MimeField) : List (List UInt8) :=
  field.values.flatMap valueCookies

def requestCookies (hdr : MimeHdr) : List (List UInt8) :=
  (hdr.filter (·.named "Cookie")).flatMap MimeField.cookies

-- The cookies of a field that `check_cookies` looks at: those of its first value, up to a null byte.
def MimeField.shownCookies (field : MimeField) : List (List UInt8) :=
  strtokMem (str " ;") (field.values.headD [])

def MimeField.hiddenCookies (field : MimeField) : List (List UInt8) :=
  valueCookies ((field.values.headD []).dropWhile (· ≠ 0)) ++ field.values.tail.flatMap valueCookies

theorem valueCookies_eq (value : Str)
    : valueCookies value = strtokMem (str " ;") value ++ valueCookies (value.dropWhile (· ≠ 0)) := by
  have hdelim : (fun c : UInt8 => (str " ;" ++ [0]).contains c)
      = fun c => (str " ;").contains c || decide (c = 0) := by
    funext c
    rw [List.contains_append, List.contains_cons, List.contains_nil, Bool.or_false]
    rfl
  unfold valueCookies strtokMem
  rw [hdelim]
  exact TokenBuffer.tokens_or_nul (by decide) false value

theorem MimeField.mem_cookies_iff (field : MimeField) (cookie : List UInt8)
    : cookie ∈ field.cookies ↔ cookie ∈ field.shownCookies ∨ cookie ∈ field.hiddenCookies := by
  unfold cookies shownCookies hiddenCookies
  cases field.values with
  | nil => simp [strtokMem, TokenBuffer.tokens, valueCookies]
  | cons value values =>
    rw [List.flatMap_cons, valueCookies_eq value]
    simp

theorem mem_requestCookies_iff (hdr : MimeHdr) (cookie : List UInt8)
    : cookie ∈ requestCookies hdr ↔ ∃ field ∈ hdr, field.named "Cookie" ∧ cookie ∈ field.cookies := by
  unfold requestCookies
  simp [and_assoc]

theorem foldlM_keepCookie_eq_nil_iff (path : RemapPath) {cookies : List (List UInt8)}
    (hne : ∀ cookie ∈ cookies, cstr cookie ≠ [])
    : cookies.foldlM (keepCookie path) [] = .ok []
        ↔
      ∀ cookie ∈ cookies, shouldIgnoreCookie path cookie = .ok true := by
  have hkeep : ∀ {cookies : List (List UInt8)} {newhdr newhdr' : Str}, newhdr ≠ [] →
      cookies.foldlM (keepCookie path) newhdr = .ok newhdr' → newhdr' ≠ [] := by
    intro cookies newhdr newhdr' hnewhdr h
    apply ExceptFold.foldlM_invariant (P := fun newhdr : Str => newhdr ≠ []) _ hnewhdr h
    intro newhdr cookie newhdr' _ hnewhdr hstep
    unfold keepCookie at hstep
    rw [Except.bind_eq_ok_iff] at hstep
    rcases hstep with ⟨ignored, -, hstep⟩
    split at hstep
    . cases hstep
      exact hnewhdr
    . cases hstep
      simp [hnewhdr]
  induction cookies with
  | nil => simp
  | cons cookie cookies ih =>
    rw [List.forall_mem_cons] at hne
    rw [List.foldlM_cons, List.forall_mem_cons]
    constructor
    . intro h
      rw [Except.bind_eq_ok_iff] at h
      rcases h with ⟨newhdr, hstep, h⟩
      unfold keepCookie at hstep
      rw [Except.bind_eq_ok_iff] at hstep
      rcases hstep with ⟨ignored, hignored, hstep⟩
      cases ignored with
      | true =>
        cases hstep
        exact ⟨hignored, (ih hne.2).mp h⟩
      | false =>
        cases hstep
        exact absurd rfl (hkeep (by simpa using hne.1) h)
    . rintro ⟨hignored, h⟩
      unfold keepCookie
      rw [hignored]
      exact (ih hne.2).mpr h

namespace FirstField

variable {hdr before after : MimeHdr} {field : MimeField}

theorem checkCookies_eq (h : FirstField "Cookie" hdr before field after) (path : RemapPath)
    : checkCookies path hdr
        =
      (field.shownCookies.foldlM (keepCookie path) [] >>= fun newhdr =>
        if newhdr ≠ [] then
          .ok (false, tsMimeHdrFieldValuesSet hdr before.length [newhdr])
        else
          .ok (true, before ++ after)) := by
  have hvalue : (tsMimeHdrFieldValueStringGet hdr before.length 0).getD [] = field.values.headD [] := by
    unfold tsMimeHdrFieldValueStringGet
    rw [h.values]
    simp [List.head?_eq_getElem?]
  unfold checkCookies
  rw [h.find]
  dsimp only
  rw [hvalue, h.remove]
  rfl

theorem checkCookies_eq_ok_iff (h : FirstField "Cookie" hdr before field after) (path : RemapPath)
    (hdr' : MimeHdr)
    : checkCookies path hdr = .ok (true, hdr')
        ↔
      (∀ cookie ∈ field.shownCookies, shouldIgnoreCookie path cookie = .ok true)
        ∧
      hdr' = before ++ after := by
  have hne : ∀ cookie ∈ field.shownCookies, cstr cookie ≠ [] := by
    intro cookie hcookie
    exact TokenBuffer.text_ne_nil hcookie
  rw [← foldlM_keepCookie_eq_nil_iff path hne, h.checkCookies_eq, Except.bind_eq_ok_iff]
  constructor
  . rintro ⟨newhdr, hnewhdr, hret⟩
    split at hret
    . cases hret
    . next hnil =>
      cases hret
      rw [ne_eq, not_not] at hnil
      rw [hnil] at hnewhdr
      exact ⟨hnewhdr, rfl⟩
  . rintro ⟨hnewhdr, rfl⟩
    exact ⟨[], hnewhdr, rfl⟩

end FirstField

theorem checkCookies_of_no_cookie {hdr : MimeHdr} (h : tsMimeHdrFieldFind hdr "Cookie" = none) (path : RemapPath)
    : checkCookies path hdr = .ok (true, hdr) := by
  unfold checkCookies
  rw [h]

theorem not_named_of_fieldsNamed {hdr : MimeHdr} {name : String} (h : fieldsNamed hdr name = [])
    : ∀ f ∈ hdr, ¬ f.named name := by
  exact List.filter_eq_nil_iff.mp h

/--
A request that is let into the cache had no cookie that counts, unless its first Cookie field shows none
and there is one in a second Cookie field or hidden in the first one.
-/
theorem checkCookies_canCache_iff (path : RemapPath) (hdr : MimeHdr)
    : (∀ hdr', checkCookies path hdr = .ok (true, hdr') →
        (∀ cookie ∈ requestCookies hdr, shouldIgnoreCookie path cookie = .ok true)
          ∧
        (∀ field ∈ hdr', ¬ field.named "Cookie"))
        ↔
      ∀ before field after, FirstField "Cookie" hdr before field after →
        (∀ cookie ∈ field.shownCookies, shouldIgnoreCookie path cookie = .ok true) →
        (∀ f ∈ after, ¬ f.named "Cookie")
          ∧
        (∀ cookie ∈ field.hiddenCookies, shouldIgnoreCookie path cookie = .ok true) := by
  constructor
  . intro h before field after hfirst hshown
    rcases h _ ((hfirst.checkCookies_eq_ok_iff path _).mpr ⟨hshown, rfl⟩) with ⟨hcookies, hleft⟩
    constructor
    . intro f hf
      apply hleft
      simp [hf]
    . intro cookie hcookie
      apply hcookies
      rw [mem_requestCookies_iff]
      refine ⟨field, by simp [hfirst.eq], hfirst.named, ?_⟩
      rw [MimeField.mem_cookies_iff]
      exact .inr hcookie
  . intro h hdr' hok
    rcases tsMimeHdrFieldFind_cases hdr "Cookie" with ⟨hfind, hfields⟩ | ⟨before, field, after, hfirst⟩
    . rw [checkCookies_of_no_cookie hfind] at hok
      cases hok
      have hnone := not_named_of_fieldsNamed hfields
      refine ⟨?_, hnone⟩
      intro cookie hcookie
      rw [mem_requestCookies_iff] at hcookie
      rcases hcookie with ⟨f, hf, hnamed, -⟩
      exact absurd hnamed (hnone f hf)
    . rw [hfirst.checkCookies_eq_ok_iff] at hok
      rcases hok with ⟨hshown, rfl⟩
      rcases h before field after hfirst hshown with ⟨hafter, hhidden⟩
      have hbefore := not_named_of_fieldsNamed hfirst.first
      have hothers : ∀ f ∈ before ++ after, ¬ f.named "Cookie" := by
        rw [List.forall_mem_append]
        exact ⟨hbefore, hafter⟩
      refine ⟨?_, hothers⟩
      intro cookie hcookie
      rw [mem_requestCookies_iff] at hcookie
      rcases hcookie with ⟨f, hf, hnamed, hcookie⟩
      have heq : f = field := by
        rw [hfirst.eq, List.mem_append, List.mem_cons] at hf
        rcases hf with hf | hf | hf
        . exact absurd hnamed (hbefore f hf)
        . exact hf
        . exact absurd hnamed (hafter f hf)
      rw [heq, MimeField.mem_cookies_iff] at hcookie
      rcases hcookie with hcookie | hcookie
      . exact hshown cookie hcookie
      . exact hhidden cookie hcookie

def trackedPath : RemapPath :=
  { remapPathDefault with rpIgnoreCookies := some (annotationWords (str "utm")) }

def trackedHdr : MimeHdr :=
  [⟨str "Cookie", [str "utm=1"]⟩, ⟨str "Cookie", [str "session=1"]⟩]

theorem not_checkCookies_canCache
    : ¬ ∀ (path : RemapPath) (hdr hdr' : MimeHdr), checkCookies path hdr = .ok (true, hdr') →
        (∀ cookie ∈ requestCookies hdr, shouldIgnoreCookie path cookie = .ok true)
          ∧
        (∀ field ∈ hdr', ¬ field.named "Cookie") := by
  intro hcookies
  have hok : checkCookies trackedPath trackedHdr = .ok (true, [⟨str "Cookie", [str "session=1"]⟩]) := by
    have hfirst : FirstField "Cookie" trackedHdr [] ⟨str "Cookie", [str "utm=1"]⟩
        [⟨str "Cookie", [str "session=1"]⟩] := by
      exact ⟨rfl, by decide, rfl, by decide⟩
    rw [hfirst.checkCookies_eq_ok_iff]
    refine ⟨?_, rfl⟩
    have hshown : (⟨str "Cookie", [str "utm=1"]⟩ : MimeField).shownCookies = [str "utm=1"] := by
      decide
    rw [hshown]
    intro cookie hcookie
    rw [List.mem_singleton.mp hcookie]
    decide
  have hleft := (hcookies trackedPath trackedHdr _ hok).2 _ List.mem_cons_self
  revert hleft
  decide

-- The glob leads the matcher over the end of the first cookie into the second one.
example : checkCookies { remapPathDefault with rpIgnoreCookies := some (annotationWords (str "a=???c* c")) }
      [⟨str "Cookie", [str "a=b; c=1"]⟩, ⟨str "Cookie", [str "session=1"]⟩]
    = .ok (true, [⟨str "Cookie", [str "session=1"]⟩]) := by
  decide +kernel
