import TsIngress.Tsapi.Lemmas.Response

/-!
This module contains the verification of `server_push`: what is pushed to a client over a whole transaction.
-/

def linkWords (value : Str) : List Str :=
  strtok (str "; ") (cstr value)

def linkPath (t : Str) : Option Str :=
  if t ≠ str "nopush" ∧ t ≠ str "rel=preload" ∧ 3 ≤ t.length ∧ t[0]? = some 60 ∧ t[1]? = some 47
      ∧ t.getLast? = some 62 then
    some ((t.drop 2).take (t.length - 3))
  else
    none

/--
A value asks for a path to be pushed: it says that the path is to be preloaded, it does not say that it is not to be
pushed, and the path is the last one that it names.
-/
def Preloads (value path : Str) : Prop :=
  str "rel=preload" ∈ linkWords value
    ∧
  str "nopush" ∉ linkWords value
    ∧
  ((linkWords value).filterMap linkPath).getLast? = some path

theorem linkToken_eq (link : LinkValue) (t : Str)
    : linkToken link t
        =
      { nopush := link.nopush || t = str "nopush"
        relpreload := link.relpreload || t = str "rel=preload"
        url := (linkPath t).or link.url } := by
  have hne : str "nopush" ≠ str "rel=preload" := by
    decide
  unfold linkToken linkPath
  by_cases hnopush : t = str "nopush"
  . simp [hnopush, hne]
  . by_cases hpreload : t = str "rel=preload"
    . simp [hpreload, hne.symm]
    . simp only [hnopush, hpreload, if_false, ne_eq, not_false_eq_true, true_and, decide_false, Bool.or_false]
      split
      . rfl
      . rfl

theorem foldl_linkToken (words : List Str) (link : LinkValue)
    : words.foldl linkToken link
        =
      { nopush := link.nopush || words.contains (str "nopush")
        relpreload := link.relpreload || words.contains (str "rel=preload")
        url := (words.filterMap linkPath).getLast?.or link.url } := by
  induction words generalizing link with
  | nil => simp
  | cons t words ih =>
    have hcontains : ∀ w : Str, (t :: words).contains w = (decide (t = w) || words.contains w) := by
      intro w
      rw [List.contains_cons, Bool.beq_comm, Bool.beq_eq_decide_eq]
    have hlast : ((t :: words).filterMap linkPath).getLast? = (words.filterMap linkPath).getLast?.or (linkPath t) := by
      rw [List.filterMap_cons]
      cases linkPath t with
      | none => simp
      | some path =>
        dsimp only
        rw [List.getLast?_cons]
        cases (words.filterMap linkPath).getLast? with
        | none => rfl
        | some last => rfl
    rw [List.foldl_cons, ih, linkToken_eq, hcontains, hcontains, hlast, Option.or_assoc, Bool.or_assoc, Bool.or_assoc]

theorem linkPush_eq_some_iff (value path : Str) : linkPush value = some path ↔ Preloads value path := by
  unfold linkPush Preloads
  rw [← linkWords, foldl_linkToken]
  simp only [Bool.false_or, Option.or_none, List.contains_iff_mem, Bool.not_eq_true', Bool.eq_false_iff, ne_eq]
  split
  . next h =>
    constructor
    . intro hnone
      cases hnone
    . rintro ⟨hpreload, hnopush, -⟩
      exact absurd h (by simp [hpreload, hnopush])
  . next h =>
    rw [not_or, not_not] at h
    simp only [h, not_false_eq_true, true_and]

def TxnEvent.linked : TxnEvent → Option MimeHdr
  | .cacheLookupComplete status cachedResp => if status = .hitFresh then cachedResp else none
  | .readResponseHdr serverResp => serverResp
  | _ => none

theorem tsiHook_pushed {henv : HookEnv} {st st' : HookState} {event : TxnEvent} (h : tsiHook henv st event = .ok st')
    : st'.pushed = st.pushed ++ pushesOf henv st.rctx event.linked := by
  cases event with
  | cacheLookupComplete status resp =>
    simp only [tsiHook, Except.bind_eq_ok_iff] at h
    rcases h with ⟨comp, -, h⟩
    cases h
    rfl
  | sendRequestHdr req =>
    simp only [tsiHook, Except.bind_eq_ok_iff] at h
    rcases h with ⟨comp, -, h⟩
    cases h
    exact (List.append_nil _).symm
  | readResponseHdr resp =>
    simp only [tsiHook, Except.bind_eq_ok_iff] at h
    rcases h with ⟨comp, -, h⟩
    cases h
    rfl
  | sendResponseHdr resp =>
    simp only [tsiHook, Except.bind_eq_ok_iff] at h
    rcases h with ⟨comp, -, h⟩
    cases h
    exact (List.append_nil _).symm

theorem tsiHooks_pushed_eq {henv : HookEnv} {rctx : TxnCtx} {events : List TxnEvent} {st : HookState}
    (h : tsiHooks henv rctx events = .ok st)
    : st.pushed = events.flatMap fun event => pushesOf henv rctx event.linked := by
  have hcollect : st.pushed = [] ++ events.flatMap (fun event => pushesOf henv rctx event.linked) ∧ st.rctx = rctx := by
    refine ExceptFold.foldlM_collect (P := fun pushes (st : HookState) => st.pushed = pushes ∧ st.rctx = rctx)
      ?_ ⟨rfl, rfl⟩ h
    rintro pushes st event st' - ⟨hpushed, hrctx⟩ hstep
    rw [tsiHook_pushed hstep, tsiHook_rctx hstep, hpushed, hrctx]
    exact ⟨rfl, rfl⟩
  exact hcollect.1

/--
What a client is pushed in the course of a transaction is what the values of the Link fields of its responses ask for,
for a path that allows it and for no other responses than those of a backend and fresh ones of the cache. The URL is
that of the request with another path, and so keeps its query.
-/
theorem tsiHooks_pushed_iff (henv : HookEnv) (rctx : TxnCtx) (events : List TxnEvent) (st : HookState)
    (h : tsiHooks henv rctx events = .ok st) (url : Url)
    : url ∈ st.pushed
        ↔
      rctx.rqServerPush = true
        ∧
      ∃ event ∈ events, ∃ resp, event.linked = some resp
        ∧ ∃ field ∈ resp, field.name = str "Link"
        ∧ ∃ value ∈ field.values, ∃ path, Preloads value path
        ∧ url = ⟨if henv.tls then some (str "https") else henv.requrl.scheme, some path, henv.requrl.query⟩ := by
  have hpushes : ∀ resp : Option MimeHdr, url ∈ pushesOf henv rctx resp
      ↔ rctx.rqServerPush = true ∧ ∃ resp', resp = some resp' ∧ url ∈ serverPush henv.tls henv.requrl resp' := by
    intro resp
    unfold pushesOf
    cases resp with
    | none => simp
    | some resp =>
      by_cases hpush : rctx.rqServerPush = true
      . simp [hpush]
      . simp [hpush]
  rw [tsiHooks_pushed_eq h, List.mem_flatMap]
  simp only [hpushes, serverPush, List.mem_flatMap, List.mem_filter, List.mem_map, List.mem_filterMap,
    linkPush_eq_some_iff, decide_eq_true_eq]
  constructor
  . rintro ⟨event, hevent, hpush, resp, hresp, field, ⟨hfield, hname⟩, path, ⟨value, hvalue, hpath⟩, rfl⟩
    exact ⟨hpush, event, hevent, resp, hresp, field, hfield, hname, value, hvalue, path, hpath, rfl⟩
  . rintro ⟨hpush, event, hevent, resp, hresp, field, hfield, hname, value, hvalue, path, hpath, rfl⟩
    exact ⟨event, hevent, hpush, resp, hresp, field, ⟨hfield, hname⟩, path, ⟨value, hvalue, hpath⟩, rfl⟩

def linkedResp : MimeHdr :=
  [⟨str "Link", [str "</style.css>; rel=preload"]⟩]

theorem tsiHooks_pushed_iff_linkedResp
    : ∃ st, tsiHooks edgeEnv { rqServerPush := true } [.readResponseHdr (some linkedResp)] = .ok st
        ∧ ⟨none, some (str "style.css"), none⟩ ∈ st.pushed := by
  have hrun : ∃ st, tsiHooks edgeEnv { rqServerPush := true } [.readResponseHdr (some linkedResp)] = .ok st := ⟨_, rfl⟩
  rcases hrun with ⟨st, hst⟩
  refine ⟨st, hst, (tsiHooks_pushed_iff _ _ _ st hst _).mpr ⟨rfl, _, List.mem_singleton_self _, linkedResp, rfl, ?_⟩⟩
  refine ⟨_, List.mem_singleton_self _, rfl, _, List.mem_singleton_self _, str "style.css", ?_, rfl⟩
  unfold Preloads
  decide +kernel
