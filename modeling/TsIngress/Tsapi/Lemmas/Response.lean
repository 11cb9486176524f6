import TsIngress.Tsapi.Impl.Response
import TsIngress.Tsapi.Lemmas.Forward

/-!
This module contains the header that a client gets: which of its fields the hooks of a transaction have changed.
-/

theorem tsiHook_rctx {henv : HookEnv} {st st' : HookState} {event : TxnEvent} (h : tsiHook henv st event = .ok st')
    : st'.rctx = st.rctx := by
  cases event with
  | cacheLookupComplete status resp =>
    simp only [tsiHook, Except.bind_eq_ok_iff] at h
    rcases h with ⟨comp, -, h⟩
    cases h
    rfl
  | sendRequestHdr req =>
    simp only [tsiHook, Except.bind_eq_ok_iff] at h
    rcases h with ⟨comp, -, h⟩
    cases h
    rfl
  | readResponseHdr resp =>
    simp only [tsiHook, Except.bind_eq_ok_iff] at h
    rcases h with ⟨comp, -, h⟩
    cases h
    rfl
  | sendResponseHdr resp =>
    simp only [tsiHook, Except.bind_eq_ok_iff] at h
    rcases h with ⟨comp, -, h⟩
    cases h
    rfl

theorem tsiHooks_rctx {henv : HookEnv} {rctx : TxnCtx} {events : List TxnEvent} {st : HookState}
    (h : tsiHooks henv rctx events = .ok st)
    : st.rctx = rctx := by
  apply ExceptFold.foldlM_invariant (P := fun st : HookState => st.rctx = rctx) _ rfl h
  intro st event st' _ hst hstep
  exact (tsiHook_rctx hstep).trans hst

theorem fieldsNamed_setField (hdr : MimeHdr) (name : String) (values : List Str → List Str)
    : (fieldsNamed (setField hdr name values) name).map MimeField.values
        =
      values (((fieldsNamed hdr name).head?.map MimeField.values).getD [])
        :: (fieldsNamed hdr name).tail.map MimeField.values := by
  unfold setField
  rcases tsMimeHdrFieldFind_cases hdr name with ⟨hfind, hnone⟩ | ⟨before, field, after, hfirst⟩
  . rw [hfind]
    dsimp only
    rw [fieldsNamed_append, hnone]
    simp [fieldsNamed]
  . have hnamed : ∀ values, ({ field with values := values } : MimeField).named name = true := fun _ => hfirst.named
    rw [hfirst.find]
    dsimp only
    rw [hfirst.valuesSet, hfirst.values, fieldsNamed_append, hfirst.first, hfirst.fieldsNamed_eq]
    unfold fieldsNamed
    rw [List.filter_cons, if_pos (hnamed _)]
    rfl

theorem filter_setField {p : MimeField → Bool} {name : String} (hp : ∀ f : MimeField, f.named name → p f = false)
    (hdr : MimeHdr) (values : List Str → List Str)
    : (setField hdr name values).filter p = hdr.filter p := by
  unfold setField
  rcases tsMimeHdrFieldFind_cases hdr name with ⟨hfind, -⟩ | ⟨before, field, after, hfirst⟩
  . rw [hfind]
    dsimp only
    rw [List.filter_append, List.filter_cons_of_neg (by simp [hp]), List.filter_nil, List.append_nil]
  . have hfield : ∀ values, p { field with values := values } = false := fun _ => hp _ hfirst.named
    rw [hfirst.find]
    dsimp only
    rw [hfirst.valuesSet, List.filter_append, List.filter_cons_of_neg (by simp [hfield]), ← List.filter_append]
    exact hfirst.filter_remove (hp field hfirst.named)

theorem fieldsNamed_setField_of_ne {name other : String} (hne : (str name).map tolower ≠ (str other).map tolower)
    (hdr : MimeHdr) (values : List Str → List Str)
    : fieldsNamed (setField hdr name values) other = fieldsNamed hdr other := by
  exact filter_setField (fun f hf => MimeField.named_eq_false_of_ne hf hne) hdr values

theorem compSetCompressHeaders_eq (resp : MimeHdr)
    : compSetCompressHeaders resp = setField resp "Vary" (· ++ [str "Accept-Encoding"]) := by
  unfold compSetCompressHeaders setField
  cases tsMimeHdrFieldFind resp "Vary" with
  | none => rfl
  | some hdr => rfl

theorem compSetContentEncoding_eq (state : CompState) (resp : MimeHdr)
    : ∃ new : MimeHdr, (∀ f ∈ new, f.named "Content-Encoding") ∧ compSetContentEncoding state resp = resp ++ new := by
  have hnamed : ∀ value : Str, ∀ f ∈ [(⟨str "Content-Encoding", [value]⟩ : MimeField)], f.named "Content-Encoding" := by
    intro value f hf
    rw [List.mem_singleton] at hf
    rw [hf]
    exact MimeField.named_str _ _
  unfold compSetContentEncoding
  split
  . exact ⟨[], by simp, by simp⟩
  . exact ⟨_, hnamed (str "gzip"), rfl⟩
  . exact ⟨_, hnamed (str "deflate"), rfl⟩
  . exact ⟨_, hnamed (str "br"), rfl⟩

def headerFields (headers : Hash Str) : MimeHdr :=
  headers.entries.map fun e => ⟨e.1, [e.2]⟩

theorem setResponseHeaders_eq (headers : Hash Str) (resp : MimeHdr)
    : setResponseHeaders headers resp = resp ++ headerFields headers := by
  unfold setResponseHeaders headerFields
  induction headers.entries generalizing resp with
  | nil => simp
  | cons e entries ih =>
    rw [List.foldl_cons, ih, List.map_cons, List.append_assoc, List.singleton_append]

theorem filter_setCacheControl {p : MimeField → Bool} (hcc : ∀ f : MimeField, f.named "Cache-Control" → p f = false)
    (hnext : ∀ f : MimeField, f.named "X-Next-Hop-Cache-Control" → p f = false) (resp : MimeHdr)
    : (setCacheControl resp).filter p = resp.filter p := by
  unfold setCacheControl
  split
  . rfl
  . dsimp only
    rw [List.filter_append, List.filter_cons_of_neg (by simp [hcc]), List.filter_nil, List.append_nil,
      filter_removeField hnext, filter_removeField hcc]

theorem fieldsNamed_next_setCacheControl (resp : MimeHdr)
    : fieldsNamed (setCacheControl resp) "X-Next-Hop-Cache-Control"
        =
      (fieldsNamed resp "X-Next-Hop-Cache-Control").tail := by
  have hcc : fieldsNamed (removeField resp "Cache-Control") "X-Next-Hop-Cache-Control"
      = fieldsNamed resp "X-Next-Hop-Cache-Control" :=
    filter_removeField (fun f hf => MimeField.named_eq_false_of_ne hf (by decide)) resp
  unfold setCacheControl
  rcases tsMimeHdrFieldFind_cases resp "X-Next-Hop-Cache-Control" with ⟨hfind, hnone⟩ | ⟨before, field, after, hfirst⟩
  . rw [hfind]
    dsimp only
    rw [hnone]
    rfl
  . have hnew : ∀ values, fieldsNamed [⟨str "Cache-Control", values⟩] "X-Next-Hop-Cache-Control" = [] := by
      intro values
      apply List.filter_eq_nil_iff.mpr
      intro f hf
      rw [List.mem_singleton] at hf
      rw [hf, MimeField.named_eq_false_of_ne (MimeField.named_str "Cache-Control" values) (by decide)]
      decide
    rw [hfirst.find]
    dsimp only
    rw [fieldsNamed_append, fieldsNamed_removeField, hcc, hnew, List.append_nil]

-- What the next hop was told about caching takes the place of the first thing that everybody was told.
def clientCacheControl (resp : MimeHdr) : MimeHdr :=
  match fieldsNamed resp "X-Next-Hop-Cache-Control" with
  | [] => fieldsNamed resp "Cache-Control"
  | next :: _ => (fieldsNamed resp "Cache-Control").tail ++ [⟨str "Cache-Control", next.values⟩]

theorem fieldsNamed_setCacheControl (resp : MimeHdr)
    : fieldsNamed (setCacheControl resp) "Cache-Control" = clientCacheControl resp := by
  unfold setCacheControl clientCacheControl
  rcases tsMimeHdrFieldFind_cases resp "X-Next-Hop-Cache-Control" with ⟨hfind, hnone⟩ | ⟨before, field, after, hfirst⟩
  . rw [hfind, hnone]
  . have hnext : fieldsNamed (removeField (removeField resp "Cache-Control") "X-Next-Hop-Cache-Control") "Cache-Control"
        = (fieldsNamed resp "Cache-Control").tail := by
      rw [← fieldsNamed_removeField]
      exact filter_removeField (fun f hf => MimeField.named_eq_false_of_ne hf (by decide)) _
    have hnew : ∀ values, fieldsNamed [⟨str "Cache-Control", values⟩] "Cache-Control"
        = [⟨str "Cache-Control", values⟩] := by
      intro values
      simp [fieldsNamed]
    rw [hfirst.find, hfirst.fieldsNamed_eq]
    dsimp only
    rw [fieldsNamed_append, hnext, hnew, hfirst.values]

section ClientResp

variable {p : MimeField → Bool}

theorem filter_tsiEvent_sendResponseHdr (hvary : ∀ f : MimeField, f.named "Vary" → p f = false)
    (hcoding : ∀ f : MimeField, f.named "Content-Encoding" → p f = false) {txn txn' : TxnState} {resp : MimeHdr}
    (h : tsiEvent txn (.sendResponseHdr resp) = .ok txn')
    : txn'.clientResp.filter p = resp.filter p := by
  have hcompress : (if txn.rctx.rqCompress then compSetCompressHeaders resp else resp).filter p = resp.filter p := by
    split
    . rw [compSetCompressHeaders_eq, filter_setField hvary]
    . rfl
  unfold tsiEvent at h
  dsimp only at h
  rw [← hcompress]
  split at h
  . rw [Except.bind_eq_ok_iff] at h
    rcases h with ⟨state, -, h⟩
    cases h
    rcases compSetContentEncoding_eq state (if txn.rctx.rqCompress then compSetCompressHeaders resp else resp)
      with ⟨new, hnew, heq⟩
    have hnil : new.filter p = [] := by
      rw [List.filter_eq_nil_iff]
      intro f hf
      simp [hcoding f (hnew f hf)]
    dsimp only
    rw [heq, List.filter_append, hnil, List.append_nil]
  . cases h
    rfl

theorem filter_clientResp (hvary : ∀ f : MimeField, f.named "Vary" → p f = false)
    (hcoding : ∀ f : MimeField, f.named "Content-Encoding" → p f = false)
    (hstatus : ∀ f : MimeField, f.named "X-Cache-Status" → p f = false) {henv : HookEnv} {rctx : TxnCtx}
    {events : List TxnEvent} {resp : MimeHdr} {st : HookState}
    (h : tsiHooks henv rctx (events ++ [.sendResponseHdr resp]) = .ok st)
    : st.comp.clientResp.filter p = (setHeaders henv.proxy rctx resp).filter p := by
  unfold tsiHooks at h
  rw [List.foldlM_append, Except.bind_eq_ok_iff] at h
  rcases h with ⟨st', hst', h⟩
  have hrctx := tsiHooks_rctx hst'
  rw [List.foldlM_cons, Except.bind_eq_ok_iff] at h
  rcases h with ⟨st'', hlast, h⟩
  cases h
  simp only [tsiHook, Except.bind_eq_ok_iff] at hlast
  rcases hlast with ⟨comp, hcomp, hlast⟩
  cases hlast
  rw [hrctx] at hcomp
  rw [← filter_tsiEvent_sendResponseHdr hvary hcoding hcomp]
  dsimp only
  split
  . exact filter_setField hstatus _ _
  . rfl

end ClientResp

-- The header that the hooks start from: that of the response, with the fields that `remap_run` has asked for.
def sentHdr (rctx : TxnCtx) (resp : MimeHdr) : MimeHdr :=
  resp ++ headerFields rctx.rqResponseHeaders

theorem setHeaders_eq (proxy : Proxy) (rctx : TxnCtx) (resp : MimeHdr)
    : setHeaders proxy rctx resp = setCacheControl (setServer proxy (setVia proxy (sentHdr rctx resp))) := by
  unfold setHeaders sentHdr
  rw [setResponseHeaders_eq]

theorem fieldsNamed_setServer_setVia {name : String} (hserver : (str "Server").map tolower ≠ (str name).map tolower)
    (hvia : (str "Via").map tolower ≠ (str name).map tolower) (proxy : Proxy) (hdr : MimeHdr)
    : fieldsNamed (setServer proxy (setVia proxy hdr)) name = fieldsNamed hdr name := by
  unfold setServer setVia
  rw [fieldsNamed_setField_of_ne hserver, fieldsNamed_setField_of_ne hvia]

def MimeField.unhooked (field : MimeField) : Bool :=
  ["Via", "Server", "Cache-Control", "X-Next-Hop-Cache-Control", "Vary", "Content-Encoding", "X-Cache-Status"].all
    fun name => !field.named name

theorem MimeField.unhooked_of_named {field : MimeField} {name : String} (h : field.named name = true)
    (hname : name ∈ ["Via", "Server", "Cache-Control", "X-Next-Hop-Cache-Control", "Vary", "Content-Encoding",
      "X-Cache-Status"])
    : field.unhooked = false := by
  unfold unhooked
  rw [List.all_eq_false]
  exact ⟨name, hname, by simp [h]⟩

theorem filter_unhooked_clientResp {henv : HookEnv} {rctx : TxnCtx} {events : List TxnEvent} {resp : MimeHdr}
    {st : HookState} (h : tsiHooks henv rctx (events ++ [.sendResponseHdr resp]) = .ok st)
    : st.comp.clientResp.filter MimeField.unhooked = (sentHdr rctx resp).filter MimeField.unhooked := by
  have hname : ∀ name ∈ ["Via", "Server", "Cache-Control", "X-Next-Hop-Cache-Control", "Vary", "Content-Encoding",
      "X-Cache-Status"], ∀ f : MimeField, f.named name → f.unhooked = false :=
    fun name hmem f hf => MimeField.unhooked_of_named hf hmem
  rw [filter_clientResp (hname _ (by simp)) (hname _ (by simp)) (hname _ (by simp)) h, setHeaders_eq,
    filter_setCacheControl (hname _ (by simp)) (hname _ (by simp))]
  unfold setServer setVia
  rw [filter_setField (hname _ (by simp)), filter_setField (hname _ (by simp))]

/--
The header that a client gets from any run of the hooks. Its first Server field is the plugin's, the value of the first
X-Next-Hop-Cache-Control field takes the place of the first Cache-Control field, and the fields that no hook has to do
with are those of the response and of `remap_run` in their order.
-/
theorem tsiHooks_clientFields (henv : HookEnv) (rctx : TxnCtx) (events : List TxnEvent) (resp : MimeHdr)
    (st : HookState) (h : tsiHooks henv rctx (events ++ [.sendResponseHdr resp]) = .ok st)
    : (fieldsNamed st.comp.clientResp "Server").map MimeField.values
        =
      [henv.proxy.viaName] :: (fieldsNamed (sentHdr rctx resp) "Server").tail.map MimeField.values
        ∧
      fieldsNamed st.comp.clientResp "X-Next-Hop-Cache-Control"
        =
      (fieldsNamed (sentHdr rctx resp) "X-Next-Hop-Cache-Control").tail
        ∧
      fieldsNamed st.comp.clientResp "Cache-Control" = clientCacheControl (sentHdr rctx resp)
        ∧
      st.comp.clientResp.filter MimeField.unhooked = (sentHdr rctx resp).filter MimeField.unhooked := by
  have hnamed : ∀ name : String, (str "Vary").map tolower ≠ (str name).map tolower →
      (str "Content-Encoding").map tolower ≠ (str name).map tolower →
      (str "X-Cache-Status").map tolower ≠ (str name).map tolower →
      fieldsNamed st.comp.clientResp name
        = fieldsNamed (setCacheControl (setServer henv.proxy (setVia henv.proxy (sentHdr rctx resp)))) name := by
    intro name hvary hcoding hstatus
    rw [← setHeaders_eq]
    exact filter_clientResp (fun f hf => MimeField.named_eq_false_of_ne hf hvary)
      (fun f hf => MimeField.named_eq_false_of_ne hf hcoding)
      (fun f hf => MimeField.named_eq_false_of_ne hf hstatus) h
  refine ⟨?_, ?_, ?_, filter_unhooked_clientResp h⟩
  . have hcontrol : ∀ hdr, fieldsNamed (setCacheControl hdr) "Server" = fieldsNamed hdr "Server" := by
      intro hdr
      exact filter_setCacheControl (fun f hf => MimeField.named_eq_false_of_ne hf (by decide))
        (fun f hf => MimeField.named_eq_false_of_ne hf (by decide)) hdr
    rw [hnamed "Server" (by decide) (by decide) (by decide), hcontrol, setServer, fieldsNamed_setField, setVia,
      fieldsNamed_setField_of_ne (by decide)]
  . rw [hnamed _ (by decide) (by decide) (by decide), fieldsNamed_next_setCacheControl,
      fieldsNamed_setServer_setVia (by decide) (by decide)]
  . rw [hnamed "Cache-Control" (by decide) (by decide) (by decide), fieldsNamed_setCacheControl]
    unfold clientCacheControl
    rw [fieldsNamed_setServer_setVia (by decide) (by decide), fieldsNamed_setServer_setVia (by decide) (by decide)]

def nextHopResp : MimeHdr :=
  [⟨str "Cache-Control", [str "private"]⟩, ⟨str "X-Next-Hop-Cache-Control", [str "max-age=60"]⟩]

theorem tsiHooks_clientFields_nextHop
    : ∃ st, tsiHooks edgeEnv {} ([] ++ [.sendResponseHdr nextHopResp]) = .ok st
        ∧ fieldsNamed st.comp.clientResp "Cache-Control" = [⟨str "Cache-Control", [str "max-age=60"]⟩] := by
  have hrun : ∃ st, tsiHooks edgeEnv {} ([] ++ [.sendResponseHdr nextHopResp]) = .ok st := ⟨_, rfl⟩
  rcases hrun with ⟨st, hst⟩
  refine ⟨st, hst, ?_⟩
  rw [(tsiHooks_clientFields edgeEnv {} [] nextHopResp st hst).2.2.1]
  decide +kernel
