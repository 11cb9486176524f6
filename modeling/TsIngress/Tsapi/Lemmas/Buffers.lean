import TsIngress.Remap.Lemmas.Query
import TsIngress.Remap.Lemmas.Rewrite
import TsIngress.Tsapi.Impl.Buffers
import TsIngress.Tsapi.Lemmas.Cookies
import TsIngress.Util.Lemmas.Base64

/-!
This module contains what the computed sizes of the assembled strings are good for: every store stays within
its allocation and nothing of a string is cut off.
-/

def Assembles (run : Result (List UInt8)) (text : Str) : Prop :=
  ∃ buf, run = .ok buf ∧ RawBuffer.Holds 0 buf text

theorem snprintfBuf_assembles (heap : Heap) {size : Nat} {text : Str} (h : text.length < size)
    : Assembles (snprintfBuf (heap.malloc size) size text) text := by
  have hlen := heap.length_malloc size
  have hfits : text.length < (heap.malloc size).length := by
    rw [hlen]
    exact h
  rcases RawBuffer.print_of_lt 0 hfits with ⟨buf, hbuf, hholds⟩
  rw [hlen] at hbuf
  refine ⟨buf, ?_, hholds⟩
  rw [snprintfBuf, hbuf, inBounds]

theorem storeBuf_terminator (heap : Heap) (n : Nat)
    : ∃ buf, storeBuf (heap.malloc (n + 1)) 0 [0] = .ok buf
        ∧ RawBuffer.Holds 0 buf []
        ∧ buf.length = n + 1 := by
  have hlen := heap.length_malloc (n + 1)
  have hfits : 0 + [(0 : UInt8)].length ≤ (heap.malloc (n + 1)).length := by
    rw [hlen, List.length_singleton]
    omega
  refine ⟨_, storeBuf_eq hfits, ⟨(heap.malloc (n + 1)).drop 1, ?_⟩, ?_⟩
  . simp [ClipBuffer.store]
  . rw [ClipBuffer.length_store hfits, hlen]

theorem strcatBuf_of_holds {dest : List UInt8} {text : Str} (h : RawBuffer.Holds 0 dest text) (hnul : 0 ∉ text)
    (src : Str) (hfits : text.length + src.length < dest.length)
    : ∃ dest', strcatBuf dest src = .ok dest'
        ∧ RawBuffer.Holds 0 dest' (text ++ src)
        ∧ dest'.length = dest.length := by
  rcases RawBuffer.append_of_holds h hnul hfits with ⟨dest', hdest, hholds, hlen⟩
  refine ⟨dest', ?_, hholds, hlen⟩
  rw [strcatBuf, hdest, inBounds]

def locationText (req : RemapRequest) (host : Str) : Str :=
  (if req.rrProto = str "ws" then str "wss" else str "https") ++ str "://" ++ host ++ str "/"
    ++ req.rrPath.getD []
    ++ (req.rrQuery.map fun query => str "?" ++ query).getD []

theorem tlsLocationBuf_assembles (heap : Heap) (req : RemapRequest) (host : Str)
    : Assembles (tlsLocationBuf heap req host) (locationText req host) := by
  have hsep : (str "://").length = 3 ∧ (str "/").length = 1 ∧ (str "?").length = 1 := by
    decide
  rcases hsep with ⟨hscheme, hslash, hmark⟩
  -- the text of the format is that of the URL, with and without a query
  have htext : ∀ front : Str,
      front ++ (if req.rrQuery.isSome then str "?" else []) ++ req.rrQuery.getD []
        = front ++ (req.rrQuery.map fun query => str "?" ++ query).getD [] := by
    intro front
    cases req.rrQuery with
    | none => simp
    | some query => simp
  unfold tlsLocationBuf locationText
  dsimp only
  rw [htext]
  apply snprintfBuf_assembles
  cases req.rrPath with
  | none =>
    cases req.rrQuery with
    | none =>
      simp only [Option.getD_none, Option.map_none, List.length_append, List.length_nil, hscheme, hslash]
      omega
    | some query =>
      simp only [Option.getD_none, Option.map_some, Option.getD_some, List.length_append, List.length_nil, hscheme,
        hslash, hmark]
      omega
  | some path =>
    cases req.rrQuery with
    | none =>
      simp only [Option.getD_some, Option.map_none, Option.getD_none, List.length_append, List.length_nil, hscheme,
        hslash]
      omega
    | some query =>
      simp only [Option.getD_some, Option.map_some, List.length_append, hscheme, hslash, hmark]
      omega

theorem tlsLocation_eq (req : RemapRequest) (host : Str) : tlsLocation req host = locationText req host := by
  have hsep : (str "://").length = 3 ∧ (str "/").length = 1 := by
    decide
  unfold tlsLocation locationText snprintf
  apply List.take_of_length_le
  simp only [List.length_append, hsep]
  omega

def wwwauthText (realm : Str) : Str :=
  str "Basic realm=\"" ++ realm ++ str "\""

theorem length_wwwauthText (realm : Str)
    : (wwwauthText realm).length < (str "Basic realm=\"\"").length + 1 + realm.length := by
  have hparts : (str "Basic realm=\"\"").length = 14
      ∧ (str "Basic realm=\"").length = 13
      ∧ (str "\"").length = 1 := by
    decide
  simp only [wwwauthText, List.length_append, hparts]
  omega

theorem wwwauthBuf_assembles (heap : Heap) (realm : Str) : Assembles (wwwauthBuf heap realm) (wwwauthText realm) := by
  exact snprintfBuf_assembles heap (length_wwwauthText realm)

theorem setWwwauthHeader_eq {rp : RemapPath} {realm : Str} (h : rp.rpAuthRealm = some realm) (res : RemapResult)
    : setWwwauthHeader rp res = .ok (setHeader res "WWW-Authenticate" (wwwauthText realm)) := by
  have htake : snprintf ((str "Basic realm=\"\"").length + 1 + realm.length) (wwwauthText realm)
      = wwwauthText realm := by
    have hlen := length_wwwauthText realm
    apply List.take_of_length_le
    omega
  rw [setWwwauthHeader, h, deref_some, Except.ok_bind]
  exact congrArg (fun value => Except.ok (setHeader res "WWW-Authenticate" value)) htake

theorem remapHostFindPath_le {env : Env} {rh : RemapHost} {path : Str} {rp : Option RemapPath} {pfxsz : Nat}
    (h : remapHostFindPath env rh (some path) = (rp, pfxsz))
    : pfxsz ≤ path.length := by
  have hgo : ∀ paths, (remapHostFindPath.go env rh path paths).2 ≤ path.length := by
    intro paths
    induction paths with
    | nil => exact Nat.zero_le _
    | cons first rest ih =>
      rw [remapHostFindPath.go]
      split
      . next m hm =>
        rcases Option.bind_eq_some_iff.mp hm with ⟨pat, -, hexec⟩
        have hbounds := env.regexec_bounds pat path m hexec
        dsimp only
        omega
      . exact ih
  have hsnd : (remapHostFindPath.go env rh path rh.rhPaths.tail).2 = pfxsz := congrArg Prod.snd h
  rw [← hsnd]
  exact hgo _

theorem urlpathBuf_assembles (heap : Heap) (target : Str) {path : Str} {pfxsz : Nat} (h : pfxsz ≤ path.length)
    : Assembles (urlpathBuf heap target path pfxsz) (target ++ path.drop pfxsz) := by
  unfold urlpathBuf strFrom sizeSub
  rw [if_pos h, if_pos h, Except.ok_bind]
  apply snprintfBuf_assembles
  rw [List.length_append, List.length_drop]
  omega

theorem notMem_of_mem_strtok {delim s t : Str} {c : UInt8} (h : t ∈ strtok delim s) (hc : c ∉ s) : c ∉ t := by
  unfold strtok at h
  intro hmem
  exact hc (Fields.mem_of_mem_field (List.mem_filter.mp h).1 hmem)

theorem qsortStr_ne_nil {params : List Str} (h : params ≠ []) : qsortStr params ≠ [] := by
  intro hnil
  have hperm := qsortStr_perm params
  rw [hnil] at hperm
  exact h hperm.symm.eq_nil

namespace joinParamsBuf

theorem joinParam_of_holds {ret : List UInt8} {done param : Str} (h : RawBuffer.Holds 0 ret done)
    (hdone : 0 ∉ done) (hparam : 0 ∉ param) (hfits : done.length + (param ++ str "&").length < ret.length)
    : ∃ ret', joinParam ret param = .ok ret'
        ∧ RawBuffer.Holds 0 ret' (done ++ (param ++ str "&"))
        ∧ ret'.length = ret.length := by
  rw [List.length_append] at hfits
  rcases strcatBuf_of_holds h hdone param (by omega) with ⟨ret', hret, hholds, hlen⟩
  have hnul : 0 ∉ done ++ param := by
    simp [hdone, hparam]
  have hfits' : (done ++ param).length + (str "&").length < ret'.length := by
    rw [hlen, List.length_append]
    omega
  rcases strcatBuf_of_holds hholds hnul (str "&") hfits' with ⟨ret'', hret', hholds', hlen'⟩
  refine ⟨ret'', ?_, ?_, hlen'.trans hlen⟩
  . rw [joinParam, hret, Except.ok_bind, hret']
  . rw [← List.append_assoc]
    exact hholds'

-- The invariant of the loop: the parameters so far are joined, and there is room for the others.
theorem foldlM_joinParam {params : List Str} (hparams : ∀ p ∈ params, 0 ∉ p) {ret : List UInt8} {done : Str}
    (h : RawBuffer.Holds 0 ret done) (hdone : 0 ∉ done)
    (hfits : done.length + (params.flatMap (· ++ str "&")).length < ret.length)
    : ∃ ret', params.foldlM joinParam ret = .ok ret'
        ∧ RawBuffer.Holds 0 ret' (done ++ params.flatMap (· ++ str "&"))
        ∧ ret'.length = ret.length := by
  induction params generalizing ret done with
  | nil => exact ⟨ret, rfl, by simpa using h, rfl⟩
  | cons param rest ih =>
    rw [List.forall_mem_cons] at hparams
    rw [List.flatMap_cons, List.length_append] at hfits
    rcases joinParam_of_holds h hdone hparams.1 (by omega) with ⟨ret', hret, hholds, hlen⟩
    have hnul : 0 ∉ done ++ (param ++ str "&") := by
      have hamp : 0 ∉ str "&" := by
        decide
      simp [hdone, hparams.1, hamp]
    have hfits' : (done ++ (param ++ str "&")).length + (rest.flatMap (· ++ str "&")).length < ret'.length := by
      rw [hlen, List.length_append]
      omega
    rcases ih hparams.2 hholds hnul hfits' with ⟨ret'', hret', hholds', hlen'⟩
    refine ⟨ret'', ?_, ?_, hlen'.trans hlen⟩
    . rw [List.foldlM_cons, hret, Except.ok_bind, hret']
    . rw [List.flatMap_cons, ← List.append_assoc]
      exact hholds'

theorem eq_of_nil (heap : Heap) : joinParamsBuf heap [] = .ok none := by
  rfl

theorem storeBuf_last {ret : List UInt8} {text : Str} (h : RawBuffer.Holds 0 ret (text ++ [38]))
    : ∃ ret', storeBuf ret ((text ++ [38]).length - 1) [0] = .ok ret' ∧ RawBuffer.Holds 0 ret' text := by
  have hlen := h.length_lt
  have hpos : (text ++ [38]).length - 1 = text.length := by
    rw [List.length_append, List.length_singleton, Nat.add_sub_cancel]
  have hfits : text.length + [(0 : UInt8)].length ≤ ret.length := by
    rw [List.length_append] at hlen
    exact Nat.le_of_lt hlen
  rw [hpos, storeBuf_eq hfits]
  refine ⟨_, rfl, ret.drop (text.length + 1), ?_⟩
  rcases h with ⟨rest, rfl⟩
  have htake : (text ++ [38] ++ 0 :: rest).take text.length = text := by
    rw [List.append_assoc, List.take_left]
  rw [ClipBuffer.store, htake, List.append_assoc, List.singleton_append, List.length_singleton]

theorem assembles (heap : Heap) {params : List Str} (hne : params ≠ []) (hparams : ∀ p ∈ params, 0 ∉ p)
    : ∃ ret, joinParamsBuf heap params = .ok (some ret)
        ∧ RawBuffer.Holds 0 ret ([38].intercalate (qsortStr params)) := by
  have hperm := qsortStr_perm params
  have hlength : params.foldl (fun len p => len + p.length + 1) 0
      = ((qsortStr params).flatMap (· ++ str "&")).length := by
    rw [foldl_length_eq, Nat.zero_add]
    exact (hperm.symm.flatMap_right _).length_eq
  have hamp := flatMap_amp_eq (qsortStr_ne_nil hne)
  unfold joinParamsBuf
  rw [hlength]
  dsimp only
  have hpos : ((qsortStr params).flatMap (· ++ str "&")).length ≠ 0 := by
    rw [hamp, List.length_append, List.length_singleton]
    omega
  rw [if_neg hpos]
  rcases storeBuf_terminator heap ((qsortStr params).flatMap (· ++ str "&")).length with ⟨ret, hret, hholds, hlen⟩
  have hfits : ([] : Str).length + ((qsortStr params).flatMap (· ++ str "&")).length < ret.length := by
    rw [hlen, List.length_nil]
    omega
  rcases foldlM_joinParam (fun p hp => hparams p (hperm.mem_iff.mp hp)) hholds (by simp) hfits
    with ⟨ret', hret', hholds', -⟩
  rw [List.nil_append, hamp] at hholds'
  rcases storeBuf_last hholds' with ⟨ret'', hret'', hholds''⟩
  rw [← hamp] at hret''
  refine ⟨ret'', ?_, hholds''⟩
  rw [hret, Except.ok_bind, hret', Except.ok_bind, hret'']
  rfl

end joinParamsBuf

theorem joinParamsBuf_related (heap : Heap) {params : List Str} (hparams : ∀ p ∈ params, 0 ∉ p)
    : ∃ ret, joinParamsBuf heap params = .ok ret
        ∧ Option.Rel (RawBuffer.Holds 0) ret (joinParams (qsortStr params)) := by
  by_cases hnil : params = []
  . subst hnil
    exact ⟨none, joinParamsBuf.eq_of_nil heap, .none⟩
  . rcases joinParamsBuf.assembles heap hnil hparams with ⟨ret, hret, hholds⟩
    refine ⟨some ret, hret, ?_⟩
    rw [joinParams, if_neg (qsortStr_ne_nil hnil)]
    exact .some hholds

def joinCookie (newhdr r : Str) : Str :=
  (if newhdr = [] then [] else newhdr ++ str "; ") ++ r

theorem foldl_joinCookie_of_ne {newhdr : Str} (h : newhdr ≠ []) (cookies : List Str)
    : cookies.foldl joinCookie newhdr = newhdr ++ cookies.flatMap (str "; " ++ ·) := by
  induction cookies generalizing newhdr with
  | nil => simp
  | cons r cookies ih =>
    have hne : joinCookie newhdr r ≠ [] := by
      simp [joinCookie, h]
    rw [List.foldl_cons, ih hne, joinCookie, if_neg h, List.flatMap_cons]
    simp only [List.append_assoc]

theorem foldl_joinCookie {cookies : List Str} (h : [] ∉ cookies)
    : cookies.foldl joinCookie [] = (str "; ").intercalate cookies := by
  cases cookies with
  | nil => rfl
  | cons r cookies =>
    have hr : r ≠ [] := by
      rintro rfl
      simp at h
    have hfirst : joinCookie [] r = r := by
      simp [joinCookie]
    rw [List.foldl_cons, hfirst, foldl_joinCookie_of_ne hr]
    clear h hr hfirst
    induction cookies generalizing r with
    | nil => simp [List.intercalate]
    | cons r' cookies ih =>
      rw [List.flatMap_cons, List.append_assoc, ih r']
      simp [List.intercalate]

namespace appendCookie

theorem notMem_joinCookie {newhdr r : Str} (hnewhdr : 0 ∉ newhdr) (hr : 0 ∉ r) : 0 ∉ joinCookie newhdr r := by
  have hsep : 0 ∉ str "; " := by
    decide
  unfold joinCookie
  split
  . simpa using hr
  . simp [hnewhdr, hsep, hr]

theorem assembles (heap : Heap) {newhdr : List UInt8} {text : Str} (h : RawBuffer.Holds 0 newhdr text)
    (htext : 0 ∉ text) (r : Str)
    : Assembles (appendCookie heap newhdr r) (joinCookie text r) := by
  have hstrlen : strlenBuf newhdr = .ok text.length := by
    rw [strlenBuf, RawBuffer.textOf_of_holds h htext]
    rfl
  have hsize := heap.length_malloc (text.length + r.length + 3)
  have hlen : (heap.realloc newhdr (text.length + r.length + 3)).length = text.length + r.length + 3 := by
    rw [Heap.realloc, RawBuffer.length_resize, hsize]
  have hholds : RawBuffer.Holds 0 (heap.realloc newhdr (text.length + r.length + 3)) text := by
    apply h.resize
    rw [hsize]
    omega
  unfold Assembles appendCookie
  rw [hstrlen, Except.ok_bind]
  dsimp only
  generalize heap.realloc newhdr (text.length + r.length + 3) = newhdr at hlen hholds
  cases text with
  | nil =>
    -- nothing in front of the first cookie
    have hhead : newhdr.head? = some 0 := by
      rcases hholds with ⟨rest, rfl⟩
      rfl
    have hfits : ([] : Str).length + r.length < newhdr.length := by
      rw [hlen]
      omega
    rcases strcatBuf_of_holds hholds (by simp) r hfits with ⟨newhdr', hcat, hholds', -⟩
    refine ⟨newhdr', ?_, by simpa [joinCookie] using hholds'⟩
    rw [hhead, inBounds, Except.ok_bind, if_neg (by simp), Except.ok_bind, hcat]
  | cons c text =>
    have hhead : newhdr.head? = some c := by
      rcases hholds with ⟨rest, rfl⟩
      rfl
    have hc : c ≠ 0 := by
      rintro rfl
      simp at htext
    have hsep : (str "; ").length = 2 ∧ 0 ∉ str "; " := by
      decide
    rcases strcatBuf_of_holds hholds htext (str "; ") (by omega) with ⟨newhdr', hcat, hholds', hlen'⟩
    have hnul : 0 ∉ c :: text ++ str "; " := by
      rw [List.mem_append, not_or]
      exact ⟨htext, hsep.2⟩
    have hfits : (c :: text ++ str "; ").length + r.length < newhdr'.length := by
      rw [hlen', hlen, List.length_append, hsep.1]
      omega
    rcases strcatBuf_of_holds hholds' hnul r hfits with ⟨newhdr'', hcat', hholds'', -⟩
    refine ⟨newhdr'', ?_, by simpa [joinCookie] using hholds''⟩
    rw [hhead, inBounds, Except.ok_bind, if_pos hc, hcat, Except.ok_bind, hcat']

theorem foldlM_assembles (heap : Heap) {cookies : List Str} (hcookies : ∀ r ∈ cookies, 0 ∉ r) {newhdr : List UInt8}
    {text : Str} (h : RawBuffer.Holds 0 newhdr text) (htext : 0 ∉ text)
    : Assembles (cookies.foldlM (appendCookie heap) newhdr) (cookies.foldl joinCookie text) := by
  induction cookies generalizing newhdr text with
  | nil => exact ⟨newhdr, rfl, h⟩
  | cons r cookies ih =>
    rw [List.forall_mem_cons] at hcookies
    rcases assembles heap h htext r with ⟨newhdr', hstep, hholds⟩
    rw [List.foldlM_cons, hstep, Except.ok_bind, List.foldl_cons]
    exact ih hcookies.2 hholds (notMem_joinCookie htext hcookies.1)

end appendCookie

def keepsCookie (path : RemapPath) (cookie : List UInt8) : Bool :=
  match shouldIgnoreCookie path cookie with
  | .ok ignored => !ignored
  | .error _ => false

namespace cookieHeaderBuf

theorem foldlM_keepCookieBuf (heap : Heap) {path : RemapPath} {cookies : List (List UInt8)}
    (h : ∀ r ∈ cookies, Except.Returns (shouldIgnoreCookie path r)) (newhdr : List UInt8)
    : cookies.foldlM (keepCookieBuf heap path) newhdr
        =
      ((cookies.filter (keepsCookie path)).map cstr).foldlM (appendCookie heap) newhdr := by
  induction cookies generalizing newhdr with
  | nil => rfl
  | cons r cookies ih =>
    rw [List.forall_mem_cons] at h
    rcases h with ⟨⟨ignored, hignored⟩, hrest⟩
    rw [List.foldlM_cons, keepCookieBuf, hignored, Except.ok_bind]
    cases ignored with
    | true =>
      have hkeeps : ¬ keepsCookie path r = true := by
        simp [keepsCookie, hignored]
      rw [List.filter_cons_of_neg hkeeps, ← ih hrest]
      rfl
    | false =>
      have hkeeps : keepsCookie path r = true := by
        simp [keepsCookie, hignored]
      rw [List.filter_cons_of_pos hkeeps, List.map_cons, List.foldlM_cons, if_neg Bool.false_ne_true]
      congr 1
      funext newhdr'
      exact ih hrest newhdr'

end cookieHeaderBuf

theorem length_take_uint8 (s : Str) : (s.take (UInt8.ofNat s.length).toNat).length = (UInt8.ofNat s.length).toNat := by
  rw [List.length_take, UInt8.toNat_ofNat']
  have := Nat.mod_le s.length (2 ^ 8)
  omega

theorem length_take_uint16 (s : Str)
    : (s.take (UInt16.ofNat s.length).toNat).length = (UInt16.ofNat s.length).toNat := by
  rw [List.length_take, UInt16.toNat_ofNat']
  have := Nat.mod_le s.length (2 ^ 16)
  omega

theorem inBounds_fill (heap : Heap) {chunks : List (List UInt8)} {size : Nat} (h : chunks.flatten.length = size)
    : inBounds (RawBuffer.fill (heap.malloc size) 0 chunks) = .ok chunks.flatten := by
  have hlen := heap.length_malloc size
  have hfits : 0 + chunks.flatten.length ≤ (heap.malloc size).length := by
    rw [hlen, h]
    omega
  rw [RawBuffer.fill_eq hfits, RawBuffer.store_zero (h.trans hlen.symm), inBounds]

theorem cacheKeyBinary_eq (heap : Heap) (proto host : Str) (path query : Option Str)
    : cacheKeyBinary heap proto host path query
        =
      .ok (cacheKeyBuf proto host (path.getD []) (query.getD [])) := by
  unfold cacheKeyBinary cacheKeyBuf
  dsimp only
  generalize path.getD [] = path
  generalize query.getD [] = query
  have hproto := length_take_uint8 proto
  have hhost := length_take_uint8 host
  have hpath := length_take_uint16 path
  have hquery := length_take_uint16 query
  rw [inBounds_fill]
  . simp
  . simp only [List.flatten_cons, List.flatten_nil, List.append_nil, List.length_append, List.length_singleton, hproto,
      hhost, hpath, hquery]
    omega

theorem cacheKeyText_eq (heap : Heap) (buf : List UInt8) : cacheKeyText heap buf = .ok (47 :: base64Encode buf) := by
  have hlen := heap.length_malloc (base64EncodeLen buf.length + 1)
  have hfirst : 0 + [(47 : UInt8)].length ≤ (heap.malloc (base64EncodeLen buf.length + 1)).length := by
    rw [hlen, List.length_singleton]
    omega
  have hstored := ClipBuffer.length_store hfirst
  have henc : (base64Encode buf).length = base64EncodeLen buf.length := length_base64Encode buf
  have hrest : 1 + (base64Encode buf).length
      ≤ (ClipBuffer.store (heap.malloc (base64EncodeLen buf.length + 1)) 0 [47]).length := by
    rw [hstored, hlen, henc]
    omega
  have hall : ([47] ++ base64Encode buf).length = (heap.malloc (base64EncodeLen buf.length + 1)).length := by
    rw [hlen, List.length_append, List.length_singleton, henc]
    omega
  unfold cacheKeyText
  dsimp only
  rw [storeBuf_eq hfirst, Except.ok_bind, storeBuf_eq hrest]
  exact congrArg Except.ok ((RawBuffer.store_store hfirst).trans (RawBuffer.store_zero hall))

theorem remapMakeCacheKeyBuf_eq (heap : Heap) (req : RemapRequest) (res : RemapResult)
    : remapMakeCacheKeyBuf heap req res = remapMakeCacheKey req res := by
  unfold remapMakeCacheKeyBuf remapMakeCacheKey
  cases req.rrHost with
  | none => rfl
  | some host =>
    rw [deref_some, Except.ok_bind, Except.ok_bind, cacheKeyBinary_eq, Except.ok_bind, cacheKeyText_eq]
    rfl

def keptCookiesBuf (heap : Heap) (kept : List Str) : Result (List UInt8) := do
  let newhdr ← storeBuf (heap.malloc 1) 0 [0]
  kept.foldlM (appendCookie heap) newhdr

theorem keptCookiesBuf_assembles (heap : Heap) {cs : Str} {kept : List Str}
    (h : kept.Sublist (strtok (str " ;") (cstr cs)))
    : Assembles (keptCookiesBuf heap kept) ((str "; ").intercalate kept) := by
  rcases storeBuf_terminator heap 0 with ⟨newhdr, hnewhdr, hholds, -⟩
  have hne : [] ∉ kept := by
    intro hnil
    have := h.subset hnil
    simp [strtok] at this
  have hnul : ∀ r ∈ kept, 0 ∉ r := by
    intro r hr
    exact notMem_of_mem_strtok (h.subset hr) (notMem_cstr cs)
  rw [keptCookiesBuf, hnewhdr, Except.ok_bind, ← foldl_joinCookie hne]
  exact appendCookie.foldlM_assembles heap hnul hholds (by simp)

def keptCookies (path : RemapPath) (cs : Str) : List Str :=
  ((strtokMem (str " ;") cs).filter (keepsCookie path)).map cstr

theorem keptCookies_sublist (path : RemapPath) (cs : Str)
    : (keptCookies path cs).Sublist (strtok (str " ;") (cstr cs)) := by
  have htexts : (strtokMem (str " ;") cs).map cstr = strtok (str " ;") (cstr cs) := by
    exact TokenBuffer.map_text_tokens (by decide) false cs
  rw [← htexts]
  exact List.filter_sublist.map cstr

theorem keptTokens_sublist (rp : RemapPath) {query : Str} (h : 0 ∉ query)
    : (keptTokens rp query).Sublist (strtok (str "&") query) := by
  have htexts := map_cstr_queryTokens query
  rw [cstr_of_notMem h] at htexts
  rw [← htexts]
  exact List.filter_sublist.map cstr

/--
The strings that are put together in memory of a computed size. Each run stays within its memory, and the
memory then has the whole text.
-/
structure BuildersFit (env : Env) (heap : Heap) : Prop where
  location : ∀ req host,
    Assembles (tlsLocationBuf heap req host) (locationText req host) ∧ tlsLocation req host = locationText req host
  wwwauth : ∀ (rp : RemapPath) realm res, rp.rpAuthRealm = some realm →
    Assembles (wwwauthBuf heap realm) (wwwauthText realm)
      ∧ setWwwauthHeader rp res = .ok (setHeader res "WWW-Authenticate" (wwwauthText realm))
  urlpath : ∀ rh path (rp : RemapPath) pfxsz target, remapHostFindPath env rh (some path) = (some rp, pfxsz) →
    rp.rpRewriteTarget = some target →
    pfxsz ≤ path.length
      ∧ Assembles (urlpathBuf heap target path pfxsz) (target ++ path.drop pfxsz)
      ∧ rewrittenPath rp (some path) pfxsz = some (target ++ path.drop pfxsz)
  -- whatever is kept of the parameters and of the cookies is all there
  joinedQuery : ∀ query kept, 0 ∉ query → kept.Sublist (strtok (str "&") query) →
    ∃ ret, joinParamsBuf heap kept = .ok ret ∧ Option.Rel (RawBuffer.Holds 0) ret (joinParams (qsortStr kept))
  keptQuery : ∀ rp query, (∀ p ∈ queryTokens query, Except.Returns (keepParameter rp p)) →
    makeQueryBuf heap rp query = joinParamsBuf heap (keptTokens rp query)
      ∧ (0 ∉ query → (keptTokens rp query).Sublist (strtok (str "&") query))
  joinedCookies : ∀ cs kept, kept.Sublist (strtok (str " ;") (cstr cs)) →
    Assembles (keptCookiesBuf heap kept) ((str "; ").intercalate kept)
  keptCookies : ∀ path cs, (∀ r ∈ strtokMem (str " ;") cs, Except.Returns (shouldIgnoreCookie path r)) →
    cookieHeaderBuf heap path cs = keptCookiesBuf heap (keptCookies path cs)
      ∧ (keptCookies path cs).Sublist (strtok (str " ;") (cstr cs))
  -- neither form of the cache key has a terminator
  cacheKey : ∀ (req : RemapRequest) (res : RemapResult) host, req.rrHost = some host →
    cacheKeyBinary heap req.rrProto host req.rrPath res.rzQuery
        = .ok (cacheKeyBuf req.rrProto host (req.rrPath.getD []) (res.rzQuery.getD []))
      ∧ remapMakeCacheKeyBuf heap req res
        = .ok (47 :: base64Encode (cacheKeyBuf req.rrProto host (req.rrPath.getD []) (res.rzQuery.getD [])))

theorem buildersFit (env : Env) (heap : Heap) : BuildersFit env heap where
  location := by
    intro req host
    exact ⟨tlsLocationBuf_assembles heap req host, tlsLocation_eq req host⟩
  wwwauth := by
    intro rp realm res h
    exact ⟨wwwauthBuf_assembles heap realm, setWwwauthHeader_eq h res⟩
  urlpath := by
    intro rh path rp pfxsz target hfind htarget
    have hle := remapHostFindPath_le hfind
    exact ⟨hle, urlpathBuf_assembles heap target hle, rewrittenPath_of_target htarget path pfxsz⟩
  joinedQuery := by
    intro query kept hquery hkept
    apply joinParamsBuf_related
    intro p hp
    exact notMem_of_mem_strtok (hkept.subset hp) hquery
  keptQuery := by
    intro rp query h
    have hkept := keptParameters_eq_of_returns h
    refine ⟨?_, keptTokens_sublist rp⟩
    unfold makeQueryBuf keptTokens
    unfold queryTokens at hkept ⊢
    rw [hkept, Except.ok_bind]
  joinedCookies := by
    intro cs kept hkept
    exact keptCookiesBuf_assembles heap hkept
  keptCookies := by
    intro path cs h
    refine ⟨?_, keptCookies_sublist path cs⟩
    unfold cookieHeaderBuf keptCookiesBuf
    congr 1
    funext newhdr
    exact cookieHeaderBuf.foldlM_keepCookieBuf heap h newhdr
  cacheKey := by
    intro req res host hhost
    refine ⟨cacheKeyBinary_eq heap req.rrProto host req.rrPath res.rzQuery, ?_⟩
    rw [remapMakeCacheKeyBuf_eq, remapMakeCacheKey, hhost, deref_some]
    rfl
