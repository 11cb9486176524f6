import TsIngress.Api.Lemmas.Forget
import TsIngress.Tsapi.Lemmas.Freshness

/-!
This module contains the verification of the way from the API server to the database: lists, then watches that are
read in turns, then a rebuild. In the end the database is made of the objects that the server has.
-/

open LineSplit StreamMerge Unwinding

namespace Represents

variable {env : Env} {cs cs' : Cluster} {m : ObjectKey → Option Json}

theorem of_namespaces_eq (h : Represents env cs m)
    (heq : ∀ name, (clusterGetNamespace cs' name).1 = (clusterGetNamespace cs name).1)
    : Represents env cs' m where
  unique := by
    intro kind ns
    rw [heq]
    exact h.unique kind ns
  query := by
    intro kind ns name
    rw [← h.query, clusterQuery_eq, clusterQuery_eq, heq]

theorem of_grown (h : Represents env cs m) (hgrown : Grown cs cs') : Represents env cs' m := by
  exact h.of_namespaces_eq hgrown.clusterGetNamespace_eq

theorem setConfig (h : Represents env cs m) (cc : ClusterConfig)
    : Represents env { cs with csConfig := cc } m := by
  exact h.of_namespaces_eq (clusterGetNamespace_setConfig cs cc)

end Represents

def LineEvent.update (ev : LineEvent) (m : ObjectKey → Option Json) : ObjectKey → Option Json :=
  fun key =>
    if str key.kind.watchKind = ev.kind ∧ key.ns = ev.ns ∧ key.name = ev.name then
      if ev.deleted then none else some ev.object
    else
      m key

def lineUpdate (env : Env) (m : ObjectKey → Option Json) (line : Str) : ObjectKey → Option Json :=
  match lineEvent env (cstr line) with
  | none => m
  | some ev => ev.update m

theorem ResourceKind.watchKind_eq (kind : ResourceKind) : kind.watchKind = kind.resource.watchKind := by
  cases kind <;> rfl

theorem ResourceKind.watchKind_inj {kind kind' : ResourceKind} (h : str kind.watchKind = str kind'.watchKind)
    : kind = kind' := by
  rw [watchKind_eq, watchKind_eq] at h
  exact resource_inj (Resource.watchKind_inj h)

theorem IsLineOf.lineEvent_eq {env : Env} {line : Str} {ev : WatchEvent} (h : IsLineOf env line ev)
    (hmeta : HasMetadata ev.item ev.key.ns ev.key.name)
    : lineEvent env line
        = some ⟨str ev.key.kind.watchKind, ev.key.ns, ev.key.name, ev.isDeleted, ev.item⟩ := by
  rcases h with ⟨obj, hparse, htype, hobj, hkind⟩
  rcases hmeta.isObject with ⟨fields, hfields⟩
  have hobject : jsonObjectMember obj "object" = some ev.item := by
    unfold jsonObjectMember
    rw [hobj, hfields]
  rcases hmeta with ⟨metadata, hmetadata, hns, hname⟩
  unfold lineEvent
  simp only [hparse, htype, hobject, hkind, hmetadata, hns, hname, Option.bind_eq_bind, Option.bind_some,
    Option.pure_def]
  rfl

theorem IsLineOf.lineUpdate_eq {env : Env} {line : Str} {ev : WatchEvent} (h : IsLineOf env (cstr line) ev)
    (hacc : Accepts env ev.key ev.item) (m : ObjectKey → Option Json)
    : lineUpdate env m line = Function.update m ev.key ev.result := by
  unfold lineUpdate
  rw [h.lineEvent_eq hacc.hasMetadata]
  funext key
  dsimp only [LineEvent.update]
  by_cases hkey : key = ev.key
  . subst hkey
    rw [if_pos ⟨rfl, rfl, rfl⟩, Function.update_self, ev.result_eq]
  . rw [Function.update_of_ne hkey, if_neg]
    rintro ⟨hkind, hns, hname⟩
    apply hkey
    rcases key with ⟨kind, ns, name⟩
    dsimp only at hkind hns hname
    rw [ResourceKind.watchKind_inj hkind, hns, hname]

-- The line is an event on an object that can be made, or it is on the watch of the ConfigMaps.
def GoodLine (env : Env) (r : Resource) (line : Str) : Prop :=
  (∃ ev, IsLineOf env (cstr line) ev ∧ Accepts env ev.key ev.item ∧ ev.key.kind.resource = r)
    ∨
  (r = .configmaps ∧ OwnLine env r line)

theorem GoodLine.ownLine {env : Env} {r : Resource} {line : Str} (h : GoodLine env r line) : OwnLine env r line := by
  rcases h with ⟨ev, hline, hacc, hr⟩ | ⟨-, hown⟩
  . intro ev' hev' r' hr'
    rw [hline.lineEvent_eq hacc.hasMetadata, Option.some.injEq] at hev'
    subst hev'
    rw [ResourceKind.watchKind_eq] at hr'
    rw [← hr]
    exact (Resource.watchKind_inj hr').symm
  . exact hown

theorem lineUpdate_of_other {env : Env} {r : Resource} {line : Str} (hown : OwnLine env r line) {key : ObjectKey}
    (hr : key.kind.resource ≠ r) (m : ObjectKey → Option Json)
    : lineUpdate env m line key = m key := by
  unfold lineUpdate
  cases hev : lineEvent env (cstr line) with
  | none => rfl
  | some ev =>
    dsimp only [LineEvent.update]
    rw [if_neg]
    rintro ⟨hkind, -⟩
    apply hr
    apply hown ev hev
    rw [← ResourceKind.watchKind_eq, hkind]

theorem feWatchLineAt_configmaps {env : Env} {cfg : K8sConfig} {line : Str} (hown : OwnLine env .configmaps line)
    {m : ObjectKey → Option Json} {fe : FetcherCtx} (h : Represents env fe.wtCluster m)
    : ∃ fe', feWatchLineAt env cfg fe line = .ok fe' ∧ Represents env fe'.wtCluster m := by
  unfold feWatchLineAt
  rw [feWatchLine_eq_effect]
  cases hev : lineEvent env (cstr line) with
  | none => exact ⟨fe, rfl, h⟩
  | some ev =>
    dsimp only
    have hother : ∀ r : Resource, r ≠ .configmaps → ev.kind ≠ str r.watchKind := by
      intro r hr hkind
      exact hr (hown ev hev r hkind)
    have hreturns : Except.Returns (ev.effect env cfg fe.wtCluster) := by
      have hingress : ev.kind ≠ str "Ingress" := hother .ingresses (by decide)
      have hservice : ev.kind ≠ str "Service" := hother .services (by decide)
      have hsecret : ev.kind ≠ str "Secret" := hother .secrets (by decide)
      unfold LineEvent.effect
      rw [if_neg hingress, if_neg hservice, if_neg hsecret]
      split
      . exact .ok _
      . split
        . exact .ok _
        . exact .ok _
    rcases hreturns with ⟨eff, heff⟩
    rw [heff]
    refine ⟨eff.apply ev.ns fe, rfl, ?_⟩
    have hns : Represents env (clusterGetNamespace fe.wtCluster ev.ns).2 m := h.getNamespace ev.ns
    cases eff with
    | nothing => exact hns
    | touched => exact hns
    | put kind obj =>
      exact absurd (LineEvent.effect_resource heff rfl) (hother kind.resource (by cases kind <;> decide))
    | del kind name =>
      exact absurd (LineEvent.effect_resource heff rfl) (hother kind.resource (by cases kind <;> decide))
    | config cc => exact hns.setConfig cc

theorem GoodLine.line {env : Env} (cfg : K8sConfig) {e : Resource × Str} (hgood : GoodLine env e.1 e.2)
    {m : ObjectKey → Option Json} {fs : Fetchers} (h : Represents env fs.wtCluster m)
    : ∃ fs', fs.line env cfg e = .ok fs' ∧ Represents env fs'.wtCluster (lineUpdate env m e.2) := by
  have hline : ∃ fe, feWatchLineAt env cfg ⟨fs.wtCluster, fs.changed e.1⟩ e.2 = .ok fe
      ∧ Represents env fe.wtCluster (lineUpdate env m e.2) := by
    rcases hgood with ⟨ev, hline, hacc, -⟩ | ⟨hr, hown⟩
    . rw [hline.lineUpdate_eq hacc]
      exact feWatchLine_represents cfg h hline hacc
    . rw [hr] at hown
      have hkeep : lineUpdate env m e.2 = m := by
        funext key
        exact lineUpdate_of_other hown (by cases key.kind <;> decide) m
      rw [hkeep]
      exact feWatchLineAt_configmaps hown h
  rcases hline with ⟨fe, hfe, hrep⟩
  unfold Fetchers.line
  rw [hfe]
  exact ⟨_, rfl, hrep⟩

def linesUpdate (env : Env) (m : ObjectKey → Option Json) (lines : List (Resource × Str)) : ObjectKey → Option Json :=
  lines.foldl (fun m e => lineUpdate env m e.2) m

theorem linesUpdate_append (env : Env) (m : ObjectKey → Option Json) (lines lines' : List (Resource × Str))
    : linesUpdate env m (lines ++ lines') = linesUpdate env (linesUpdate env m lines) lines' := by
  exact List.foldl_append

theorem foldlM_line_represents {env : Env} (cfg : K8sConfig) {lines : List (Resource × Str)}
    (hgood : ∀ e ∈ lines, GoodLine env e.1 e.2) {m : ObjectKey → Option Json} {fs : Fetchers}
    (h : Represents env fs.wtCluster m)
    : ∃ fs', lines.foldlM (Fetchers.line env cfg) fs = .ok fs'
        ∧ Represents env fs'.wtCluster (linesUpdate env m lines) := by
  induction lines generalizing fs m with
  | nil => exact ⟨fs, rfl, h⟩
  | cons e lines ih =>
    rw [List.forall_mem_cons] at hgood
    rcases hgood.1.line cfg h with ⟨fs1, hfs1, h1⟩
    rcases ih hgood.2 h1 with ⟨fs', hfs', h'⟩
    refine ⟨fs', ?_, h'⟩
    rw [List.foldlM_cons, hfs1, Except.ok_bind, hfs']

theorem reads_represents {env : Env} (cfg : K8sConfig) (fs : Fetchers) (hbuf : ∀ r, 10 ∉ fs.buf r)
    {chunks : List (Resource × Str)} (hgood : ∀ e ∈ segments 10 fs.buf chunks, GoodLine env e.1 e.2)
    {m : ObjectKey → Option Json} (h : Represents env fs.wtCluster m)
    : ∃ fs', fs.reads env cfg chunks = .ok fs'
        ∧ Represents env fs'.wtCluster (linesUpdate env m (segments 10 fs.buf chunks)) := by
  rcases foldlM_line_represents cfg hgood h with ⟨fs1, hfs1, h1⟩
  rw [Fetchers.reads_eq env cfg chunks fs hbuf, hfs1]
  exact ⟨_, rfl, h1⟩

section

variable {env : Env} {cfg : K8sConfig} {ρ : Type} {callback : Cluster → ρ → Result (Cluster × ρ)}

section

variable (hcallback : ∀ cs data cs' data', callback cs data = .ok (cs', data') → Grown cs cs')

include hcallback

theorem watchTurn_represents {deadline : Int} {turn : WatchTurn} {fs fs' : Fetchers} {data data' : ρ}
    (hbuf : ∀ r, 10 ∉ fs.buf r) (hgood : ∀ e ∈ segments 10 fs.buf turn.chunks, GoodLine env e.1 e.2)
    {m : ObjectKey → Option Json} (h : Represents env fs.wtCluster m)
    (hturn : watchTurn env cfg callback deadline turn fs data = .ok (none, fs', data'))
    : (fs'.buf = fun r => unfinished 10 (fs.buf r ++ bytesOf r turn.chunks))
        ∧
      (∀ r, 10 ∉ fs'.buf r)
        ∧
      Represents env fs'.wtCluster (linesUpdate env m (segments 10 fs.buf turn.chunks)) := by
  rcases watchTurn_cases hturn with ⟨fs1, hfs1, hcases⟩
  rcases reads_represents cfg fs hbuf hgood h with ⟨fs1', hfs1', h1⟩
  rw [hfs1, Except.ok.injEq] at hfs1'
  subst hfs1'
  have hbuf1 : fs1.buf = fun r => unfinished 10 (fs.buf r ++ bytesOf r turn.chunks) := by
    funext r
    exact Fetchers.reads_buf hbuf hfs1 r
  have hclean := notMem_buf_reads hbuf hfs1
  rcases hcases with ⟨rfl, -, -⟩ | ⟨-, cs, hcs, rfl⟩
  . exact ⟨hbuf1, hclean, h1⟩
  . exact ⟨hbuf1, hclean, h1.of_grown (hcallback _ _ _ _ hcs)⟩

theorem fetcherWatch_represents {deadline : Int} {turns : List WatchTurn} {fs fs' : Fetchers} {data data' : ρ}
    (hbuf : ∀ r, 10 ∉ fs.buf r)
    (hgood : ∀ e ∈ segments 10 fs.buf (turns.flatMap WatchTurn.chunks), GoodLine env e.1 e.2)
    {m : ObjectKey → Option Json} (h : Represents env fs.wtCluster m)
    (hrun : fetcherWatch env cfg callback deadline turns fs data = .ok (none, fs', data'))
    : Represents env fs'.wtCluster (linesUpdate env m (segments 10 fs.buf (turns.flatMap WatchTurn.chunks))) := by
  induction turns generalizing fs data m with
  | nil =>
    cases hrun
    exact h
  | cons turn turns ih =>
    rw [List.flatMap_cons, segments_append _ _ hbuf] at hgood ⊢
    rw [List.forall_mem_append] at hgood
    unfold fetcherWatch at hrun
    rw [Except.bind_eq_ok_iff] at hrun
    rcases hrun with ⟨⟨ret, fs1, data1⟩, hturn, hrun⟩
    cases ret with
    | some ret => cases hrun
    | none =>
      dsimp only at hrun
      rcases watchTurn_represents hcallback hbuf hgood.1 h hturn with ⟨hbuf1, hclean, h1⟩
      rw [linesUpdate_append, ← hbuf1]
      apply ih hclean _ h1 hrun
      rw [hbuf1]
      exact hgood.2

theorem fetcherWatch_error {deadline : Int} {turns : List WatchTurn} {fs : Fetchers} {data : ρ}
    (hbuf : ∀ r, 10 ∉ fs.buf r)
    (hgood : ∀ e ∈ segments 10 fs.buf (turns.flatMap WatchTurn.chunks), GoodLine env e.1 e.2)
    {m : ObjectKey → Option Json} (h : Represents env fs.wtCluster m) {e : Fault}
    (hrun : fetcherWatch env cfg callback deadline turns fs data = .error e)
    : ∃ before turn after fs1 data1 fs2,
        turns = before ++ turn :: after
          ∧
        fetcherWatch env cfg callback deadline before fs data = .ok (none, fs1, data1)
          ∧
        fs1.reads env cfg turn.chunks = .ok fs2
          ∧
        callback fs2.wtCluster data1 = .error e := by
  induction turns generalizing fs data m with
  | nil => cases hrun
  | cons turn turns ih =>
    rw [List.flatMap_cons, segments_append _ _ hbuf, List.forall_mem_append] at hgood
    unfold fetcherWatch at hrun
    cases hturn : watchTurn env cfg callback deadline turn fs data with
    | error e' =>
      rw [hturn, Except.error_bind, Except.error.injEq] at hrun
      subst hrun
      rcases reads_represents cfg fs hbuf hgood.1 h with ⟨fs2, hfs2, -⟩
      exact ⟨[], turn, turns, fs, data, fs2, rfl, rfl, hfs2, watchTurn_error hfs2 hturn⟩
    | ok r =>
      rcases r with ⟨ret, fs1, data1⟩
      rw [hturn, Except.ok_bind] at hrun
      cases ret with
      | some ret => cases hrun
      | none =>
        dsimp only at hrun
        rcases watchTurn_represents hcallback hbuf hgood.1 h hturn with ⟨hbuf1, hclean, h1⟩
        rw [← hbuf1] at hgood
        rcases ih hclean hgood.2 h1 hrun with ⟨before, turn', after, fs2, data2, fs3, rfl, hbefore, hreads, herror⟩
        refine ⟨turn :: before, turn', after, fs2, data2, fs3, rfl, ?_, hreads, herror⟩
        unfold fetcherWatch
        rw [hturn]
        exact hbefore

end

end

theorem lineUpdate_congr {env : Env} {m m' : ObjectKey → Option Json} {key : ObjectKey} (h : m key = m' key)
    (line : Str)
    : lineUpdate env m line key = lineUpdate env m' line key := by
  unfold lineUpdate
  cases lineEvent env (cstr line) with
  | none => exact h
  | some ev =>
    dsimp only [LineEvent.update]
    rw [h]

theorem linesUpdate_own {env : Env} {lines : List (Resource × Str)} (hown : ∀ e ∈ lines, OwnLine env e.1 e.2)
    {m m' : ObjectKey → Option Json} {key : ObjectKey} (h : m key = m' key)
    : linesUpdate env m lines key = linesUpdate env m' (ownActions key.kind.resource lines) key := by
  induction lines generalizing m m' with
  | nil => exact h
  | cons e lines ih =>
    rcases e with ⟨r, line⟩
    rw [List.forall_mem_cons] at hown
    by_cases hr : r = key.kind.resource
    . subst hr
      rw [ownActions_cons_self]
      exact ih hown.2 (lineUpdate_congr h line)
    . rw [ownActions_cons_of_ne hr]
      exact ih hown.2 ((lineUpdate_of_other hown.1 (Ne.symm hr) m).trans h)

theorem linesUpdate_map {env : Env} {lines : List Str} {evs : List WatchEvent}
    (hlines : List.Forall₂ (fun line ev => IsLineOf env (cstr line) ev) lines evs)
    (hacc : ∀ ev ∈ evs, Accepts env ev.key ev.item) (r : Resource) (objs : ObjectSet)
    : linesUpdate env objs.lookup (lines.map (r, ·)) = (evs.foldl WatchEvent.apply objs).lookup := by
  induction hlines generalizing objs with
  | nil => rfl
  | cons hline hrest ih =>
    next line ev lines evs =>
    rw [List.forall_mem_cons] at hacc
    rw [List.map_cons, List.foldl_cons, ← ih hacc.2, WatchEvent.lookup_apply, ← hline.lineUpdate_eq hacc.1]
    rfl

-- What the API server sends on its watches: events on objects that can be made, each kind on its own watch.
structure ServerSends (env : Env) (chunks : List (Resource × Str)) (evs : ResourceKind → List WatchEvent) : Prop where
  lines : ∀ kind : ResourceKind, List.Forall₂ (fun line ev => IsLineOf env (cstr line) ev)
    (complete 10 (bytesOf kind.resource chunks)) (evs kind)
  accepts : ∀ kind, ∀ ev ∈ evs kind, Accepts env ev.key ev.item ∧ ev.key.kind = kind
  configmaps : ∀ line ∈ complete 10 (bytesOf .configmaps chunks), OwnLine env .configmaps line

theorem exists_of_forall₂_of_mem {R : α → β → Prop} {l : List α} {l' : List β} (h : List.Forall₂ R l l')
    {a : α} (ha : a ∈ l)
    : ∃ b ∈ l', R a b := by
  induction h with
  | nil => cases ha
  | cons hab _ ih =>
    rcases List.mem_cons.mp ha with rfl | ha
    . exact ⟨_, List.mem_cons_self, hab⟩
    . rcases ih ha with ⟨b, hb, hR⟩
      exact ⟨b, List.mem_cons_of_mem _ hb, hR⟩

namespace ServerSends

variable {env : Env} {chunks : List (Resource × Str)} {evs : ResourceKind → List WatchEvent}

theorem resource_cases (r : Resource) : r = .configmaps ∨ ∃ kind : ResourceKind, kind.resource = r := by
  cases r with
  | services => exact .inr ⟨.service, rfl⟩
  | endpoints => exact .inr ⟨.endpoints, rfl⟩
  | secrets => exact .inr ⟨.secret, rfl⟩
  | configmaps => exact .inl rfl
  | ingresses => exact .inr ⟨.ingress, rfl⟩

theorem goodLine (h : ServerSends env chunks evs) : ∀ e ∈ segments 10 (fun _ => []) chunks, GoodLine env e.1 e.2 := by
  rintro ⟨r, line⟩ he
  have hmem : line ∈ complete 10 (bytesOf r chunks) := mem_segments (fun _ => List.not_mem_nil) he
  rcases resource_cases r with rfl | ⟨kind, rfl⟩
  . exact .inr ⟨rfl, h.configmaps line hmem⟩
  . rcases exists_of_forall₂_of_mem (h.lines kind) hmem with ⟨ev, hev, hline⟩
    rcases h.accepts kind ev hev with ⟨hacc, hkind⟩
    exact .inl ⟨ev, hline, hacc, by rw [hkind]⟩

theorem linesUpdate_eq (h : ServerSends env chunks evs) (objs : ObjectSet) (key : ObjectKey)
    : linesUpdate env objs.lookup (segments 10 (fun _ => []) chunks) key
        =
      ((evs key.kind).foldl WatchEvent.apply objs).lookup key := by
  rw [linesUpdate_own (fun e he => (h.goodLine e he).ownLine) rfl,
    ownActions_segments _ _ (fun _ => List.not_mem_nil), List.nil_append,
    linesUpdate_map (h.lines key.kind) (fun ev hev => (h.accepts key.kind ev hev).1)]

end ServerSends

-- The items of the lists are the objects, with some ConfigMaps between them.
def ItemsOf (items : List (Str × Json)) (objs : List (Sigma fun _ : ObjectKey => Json)) : Prop :=
  items.filter (·.1 ≠ str "ConfigMapList") = objs.map fun e => (str e.1.kind.listKind, e.2)

theorem processItem_configmap {env : Env} (cfg : K8sConfig) {m : ObjectKey → Option Json} {st : Fetch}
    (h : Represents env st.new m) (item : Json)
    : ∃ st', processItem env cfg st (str "ConfigMapList", item) = .ok st' ∧ Represents env st'.new m := by
  unfold processItem fetcherProcessItem
  dsimp only
  split
  . exact ⟨st, rfl, h⟩
  . next ns _ =>
    refine ⟨_, rfl, ?_⟩
    rw [fetcherSetConfigmap_new]
    exact h.getNamespace ns

theorem foldlM_processItem_represents {env : Env} (cfg : K8sConfig) {items : List (Str × Json)}
    {objs : List (Sigma fun _ : ObjectKey => Json)} (hitems : ItemsOf items objs)
    (hacc : ∀ e ∈ objs, Accepts env e.1 e.2) {m : ObjectKey → Option Json} {st : Fetch}
    (h : Represents env st.new m)
    : ∃ st', items.foldlM (processItem env cfg) st = .ok st'
        ∧ Represents env st'.new (objs.foldl addObject m) := by
  unfold ItemsOf at hitems
  induction items generalizing objs st m with
  | nil =>
    rw [List.filter_nil, eq_comm, List.map_eq_nil_iff] at hitems
    subst hitems
    exact ⟨st, rfl, h⟩
  | cons e items ih =>
    by_cases hkind : e.1 = str "ConfigMapList"
    . rw [List.filter_cons_of_neg (by simpa using hkind)] at hitems
      rcases e with ⟨kind, item⟩
      dsimp only at hkind
      subst hkind
      rcases processItem_configmap cfg h item with ⟨st1, hst1, h1⟩
      rcases ih hitems hacc h1 with ⟨st', hst', h'⟩
      refine ⟨st', ?_, h'⟩
      rw [List.foldlM_cons, hst1, Except.ok_bind, hst']
    . rw [List.filter_cons_of_pos (by simpa using hkind)] at hitems
      cases objs with
      | nil => cases hitems
      | cons obj objs =>
        rw [List.map_cons, List.cons.injEq] at hitems
        rw [List.forall_mem_cons] at hacc
        rcases fetcherProcessItem_represents cfg h hacc.1 with ⟨st1, hst1, h1⟩
        rcases ih hitems.2 hacc.2 h1 with ⟨st', hst', h'⟩
        refine ⟨st', ?_, h'⟩
        have hprocess : processItem env cfg st e = .ok st1 := by
          rw [hitems.1]
          exact hst1
        rw [List.foldlM_cons, hprocess, Except.ok_bind, hst']

theorem fetcherGetAll_represents {env : Env} {cfg : K8sConfig} {cs : Cluster} {version : Resource → Option Str}
    {msgs : List Completion} {res : GetAllResult} (h : fetcherGetAll env cfg cs version msgs = .ok res)
    (hok : NoFailure msgs) {objs : ObjectSet} (hlists : ItemsOf (processedItems env msgs) objs.entries)
    (hacc : ∀ e ∈ objs.entries, Accepts env e.1 e.2)
    : Represents env res.wtCluster objs.lookup := by
  have hnew : Represents env (Fetch.mk cs clusterMake).new (fun _ => none) := Represents.clusterMake env
  rcases foldlM_processItem_represents cfg hlists hacc hnew with ⟨st, hst, hrep⟩
  have hmap : objs.lookup = objs.entries.foldl addObject (fun _ => none) := by
    funext key
    rw [foldl_addObject objs.nodupKeys, Option.or_none]
    rfl
  rcases go_related env cfg msgs ⟨⟨cs, clusterMake⟩, version⟩ with ⟨res', fetch, hres', hfetch, hends⟩ | ⟨f, hf, -⟩
  . have hres : res = res' := Except.ok.inj (h.symm.trans hres')
    subst hres
    have hst' : st = fetch := Except.ok.inj (hst.symm.trans hfetch)
    subst hst'
    rcases hends with ⟨-, -, hcluster⟩ | ⟨hfailure, -⟩
    . rw [hcluster, hmap]
      apply hrep.of_namespaces_eq
      intro name
      rw [clusterGetNamespace_fst, clusterGetNamespace_fst]
    . exact absurd hok hfailure
  . cases h.symm.trans hf

theorem rebuildMaps_grown {env : Env} {cs cs' : Cluster} {state state' : State}
    (h : rebuildMaps env cs state = .ok (cs', state'))
    : Grown cs cs' := by
  unfold rebuildMaps at h
  rw [Except.bind_eq_ok_iff] at h
  rcases h with ⟨⟨db, cs1⟩, hbuild, h⟩
  cases h
  exact remapDbFromCluster.grown hbuild

theorem fetcherWatch_watched {env : Env} {cfg : K8sConfig} {deadline : Int} {turns : List WatchTurn}
    {fs fs' : Fetchers} {state state' : State} (h : Watched env fs state)
    (hrun : fetcherWatch env cfg (rebuildMaps env) deadline turns fs state = .ok (none, fs', state'))
    (hwaits : ∀ turn ∈ turns.getLast?, turn.timeout ≠ 0) (hquiet : turns = [] → ∀ r, fs.changed r = false)
    : Watched env fs' state' ∧ ∀ r, fs'.changed r = false := by
  induction turns generalizing fs state with
  | nil =>
    cases hrun
    exact ⟨h, hquiet rfl⟩
  | cons turn turns ih =>
    unfold fetcherWatch at hrun
    rw [Except.bind_eq_ok_iff] at hrun
    rcases hrun with ⟨⟨ret, fs1, state1⟩, hturn, hrun⟩
    cases ret with
    | some ret => cases hrun
    | none =>
      dsimp only at hrun
      apply ih (h.turn hturn) hrun
      . intro last hlast
        apply hwaits last
        cases turns with
        | nil => cases hlast
        | cons turn' turns => exact hlast
      . rintro rfl r
        rcases watchTurn_cases hturn with ⟨fs2, -, ⟨rfl, -, hdown⟩ | ⟨-, cs, -, rfl⟩⟩
        . rcases hdown rfl with hzero | hdown
          . exact absurd hzero (hwaits turn rfl)
          . exact hdown r (mem_resources r)
        . rfl

/--
After lists without failure and any number of turns, the last of which has waited, the cluster answers with what
the events have left of the lists, and the database is the one that this cluster gives. However the watches are
interleaved and cut, the reading of them does not fail: if the thread fails, it is in a rebuild.
-/
theorem listWatch_serves (env : Env) (cfg : K8sConfig) (server : Str) (resync : ResyncTurn) (msgs : List Completion)
    (hmsgs : resync.msgs = some msgs) (hok : NoFailure msgs) (snapshot : ObjectSet)
    (hlists : ItemsOf (processedItems env msgs) snapshot.entries)
    (hsnapshot : ∀ e ∈ snapshot.entries, Accepts env e.1 e.2)
    (wtCluster : Cluster) (version version' : Resource → Option Str) (state0 state : State) (urls : List Str)
    (deadline : Int) (fs : Fetchers)
    (hresync : resyncTurn env cfg (rebuildMaps env) server resync wtCluster version state0
      = .ok ⟨.watch urls deadline fs, version', state⟩)
    (turns : List WatchTurn) (hwaits : ∀ turn ∈ turns.getLast?, turn.timeout ≠ 0)
    (evs : ResourceKind → List WatchEvent) (hsends : ServerSends env (turns.flatMap WatchTurn.chunks) evs)
    : Except.Returns (fs.reads env cfg (turns.flatMap WatchTurn.chunks))
        ∧
      (∀ e, fetcherWatch env cfg (rebuildMaps env) deadline turns fs state = .error e →
        ∃ before turn after fs1 state1 fs2,
          turns = before ++ turn :: after
            ∧
          fetcherWatch env cfg (rebuildMaps env) deadline before fs state = .ok (none, fs1, state1)
            ∧
          fs1.reads env cfg turn.chunks = .ok fs2
            ∧
          rebuildMaps env fs2.wtCluster state1 = .error e)
        ∧
      ∀ fs' state', fetcherWatch env cfg (rebuildMaps env) deadline turns fs state = .ok (none, fs', state') →
        (∀ kind ns name, clusterQuery fs'.wtCluster kind ns name
          = (((evs kind).foldl WatchEvent.apply snapshot).lookup ⟨kind, ns, name⟩).bind (kind.made env))
          ∧
        ∃ db, state'.db = some db
          ∧ (remapDbFromCluster env state'.config.toK8sConfig fs'.wtCluster).map Prod.fst = .ok db := by
  rcases resyncTurn_cases hresync with ⟨cs, hcs⟩ | ⟨msgs', res, cs, data1, urls1, hmsgs', hres, hcallback, -, heq⟩
  . cases hcs
  . cases heq
    rw [hmsgs, Option.some.injEq] at hmsgs'
    subst hmsgs'
    have hbuf : ∀ r : Resource, 10 ∉ (fun _ => [] : Resource → Str) r := fun _ => List.not_mem_nil
    have hstart : Represents env cs snapshot.lookup :=
      (fetcherGetAll_represents hres hok hlists hsnapshot).of_grown (rebuildMaps_grown hcallback)
    have hgrown : ∀ cs state cs' state', rebuildMaps env cs state = .ok (cs', state') → Grown cs cs' := by
      intro _ _ _ _ h
      exact rebuildMaps_grown h
    refine ⟨?_, ?_, ?_⟩
    . rcases reads_represents cfg ⟨cs, fun _ => [], fun _ => false⟩ hbuf hsends.goodLine hstart with ⟨fs', hfs', -⟩
      exact ⟨fs', hfs'⟩
    . intro e herror
      exact fetcherWatch_error hgrown hbuf hsends.goodLine hstart herror
    . intro fs' state' hrun
      constructor
      . intro kind ns name
        have hrep := fetcherWatch_represents hgrown hbuf hsends.goodLine hstart hrun
        rw [hrep.query, hsends.linesUpdate_eq]
      . rcases fetcherWatch_watched (watched_start hcallback) hrun hwaits (fun _ _ => rfl) with ⟨hwatched, hdown⟩
        rcases hwatched.fresh with ⟨db, hdb, ⟨r, hr⟩ | hfresh⟩
        . rw [hdown r] at hr
          cases hr
        . exact ⟨db, hdb, hfresh⟩

theorem jsonTokenerParse_webEnv_line (action : EventType)
    : webEnv.jsonTokenerParse (webEndpointsLine action)
        =
      webEndpointsEnv.jsonTokenerParse (webEndpointsLine action) := by
  have hnone : (resources.find? fun r => webEndpointsLine action = listText (fun _ => []) r) = none := by
    rw [List.find?_eq_none]
    intro r _
    rw [decide_eq_true_eq]
    intro heq
    -- the third letter tells a list from an event
    have hthird := congrArg (fun s : Str => s[2]?) heq
    revert hthird
    cases action <;> cases r <;> decide
  dsimp only [webEnv, listsEnv]
  rw [hnone]
  rfl

theorem isLineOf_webEnv (action : EventType)
    : IsLineOf webEnv (webEndpointsLine action) (webEndpointsEvent action) := by
  rcases isLineOf_webEndpoints action with ⟨obj, hparse, hrest⟩
  rw [← jsonTokenerParse_webEnv_line] at hparse
  exact ⟨obj, hparse, hrest⟩

def webTurn : WatchTurn where
  chunks := [(.endpoints, webEndpointsLine .added), (.services, str "\x7b"), (.endpoints, [10])]
  performed := true
  running := 5
  timeout := 100
  waited := true
  time := 1

theorem serverSends_web
    : ServerSends webEnv webTurn.chunks
        (fun kind => if kind = .endpoints then [webEndpointsEvent .added] else []) := by
  have hline : 10 ∉ webEndpointsLine .added ∧ cstr (webEndpointsLine .added) = webEndpointsLine .added := by
    decide +kernel
  have hendpoints : complete 10 (bytesOf .endpoints webTurn.chunks) = [webEndpointsLine .added] := by
    have hbytes : bytesOf .endpoints webTurn.chunks = webEndpointsLine .added ++ 10 :: [] := by
      unfold bytesOf ownActions webTurn
      simp
    rw [hbytes, complete_cons hline.1, complete_of_notMem List.not_mem_nil]
  have hother : ∀ r : Resource, r ≠ .endpoints → complete 10 (bytesOf r webTurn.chunks) = [] := by
    intro r hr
    apply complete_of_notMem
    cases r with
    | endpoints => exact absurd rfl hr
    | services => decide
    | secrets => decide
    | configmaps => decide
    | ingresses => decide
  constructor
  . intro kind
    by_cases hkind : kind = .endpoints
    . subst hkind
      rw [if_pos rfl]
      dsimp only [ResourceKind.resource]
      rw [hendpoints]
      refine .cons ?_ .nil
      rw [hline.2]
      exact isLineOf_webEnv .added
    . rw [if_neg hkind, hother kind.resource (by cases kind <;> first | decide | exact absurd rfl hkind)]
      exact .nil
  . intro kind ev hev
    by_cases hkind : kind = .endpoints
    . subst hkind
      rw [if_pos rfl, List.mem_singleton] at hev
      subst hev
      exact ⟨⟨_, rfl, rfl, rfl⟩, rfl⟩
    . rw [if_neg hkind] at hev
      cases hev
  . rw [hother .configmaps (by decide)]
    intro line hline
    cases hline

theorem listWatch_serves_web
    : ∃ (urls : List Str) (deadline : Int) (fs : Fetchers) (version : Resource → Option Str) (state : State),
        resyncTurn webEnv ⟨hashNew 11, none, none⟩ (rebuildMaps webEnv) (str "http://api") webResync clusterMake
            (fun _ => none) ⟨k8sConfigNew, none⟩
          = .ok ⟨.watch urls deadline fs, version, state⟩
          ∧
        Except.Returns (fs.reads webEnv ⟨hashNew 11, none, none⟩ webTurn.chunks)
          ∧
        ∀ fs' state', fetcherWatch webEnv ⟨hashNew 11, none, none⟩ (rebuildMaps webEnv) deadline [webTurn] fs state
            = .ok (none, fs', state') →
          clusterQuery fs'.wtCluster .endpoints (str "default") (str "web")
            = (some webEndpointsItem).bind (ResourceKind.endpoints.made webEnv) := by
  rcases rebuildMaps_clusterMake webEnv k8sConfigNew with ⟨cs, db, hcallback⟩
  rcases resyncTurn_web ⟨hashNew 11, none, none⟩ (str "http://api") hcallback with ⟨urls, version, hresync⟩
  have hlists : ItemsOf (processedItems webEnv (listTransfers fun _ => []).msgs) (∅ : ObjectSet).entries := by
    rw [processedItems_web]
    rfl
  have hserves := listWatch_serves webEnv ⟨hashNew 11, none, none⟩ (str "http://api") webResync _ rfl noFailure_web ∅
    hlists (fun e he => by cases he) clusterMake (fun _ => none) version _ _ urls _ _ hresync [webTurn]
    (fun turn hturn => by cases hturn; decide) _ serverSends_web
  refine ⟨urls, _, _, version, _, hresync, hserves.1, ?_⟩
  intro fs' state' hrun
  rw [((hserves.2.2 fs' state' hrun).1 .endpoints (str "default") (str "web"))]
  rfl
