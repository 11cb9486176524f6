import TsIngress.Api.Lemmas.Framing
import TsIngress.Api.Lemmas.WatchLine
import TsIngress.Lib.StreamMerge

/-!
This module contains the verification that the watches do not interfere: each of them writes its own part of the
cluster, and what it makes of it does not depend on when the others are read.
-/

open LineSplit StreamMerge Unwinding

-- The part of the cluster that belongs to a resource is the same.
structure SameView (r : Resource) (cs cs' : Cluster) : Prop where
  table_eq : ∀ kind : ResourceKind, kind.resource = r → ∀ ns,
    kind.table (clusterGetNamespace cs ns).1 = kind.table (clusterGetNamespace cs' ns).1
  config_eq : r = .configmaps → cs.csConfig = cs'.csConfig

theorem csConfig_clusterGetNamespace (cs : Cluster) (name : Str)
    : (clusterGetNamespace cs name).2.csConfig = cs.csConfig := by
  unfold clusterGetNamespace
  split <;> rfl

theorem clusterGetNamespace_setConfig (cs : Cluster) (cc : ClusterConfig) (name : Str)
    : (clusterGetNamespace { cs with csConfig := cc } name).1 = (clusterGetNamespace cs name).1 := by
  rw [clusterGetNamespace_fst, clusterGetNamespace_fst]

namespace SameView

variable {r : Resource} {cs cs' cs'' : Cluster}

theorem refl (r : Resource) (cs : Cluster) : SameView r cs cs where
  table_eq _ _ _ := rfl
  config_eq _ := rfl

theorem symm (h : SameView r cs cs') : SameView r cs' cs where
  table_eq kind hkind ns := (h.table_eq kind hkind ns).symm
  config_eq hr := (h.config_eq hr).symm

theorem trans (h : SameView r cs cs') (h' : SameView r cs' cs'') : SameView r cs cs'' where
  table_eq kind hkind ns := (h.table_eq kind hkind ns).trans (h'.table_eq kind hkind ns)
  config_eq hr := (h.config_eq hr).trans (h'.config_eq hr)

theorem getNamespace (r : Resource) (cs : Cluster) (name : Str)
    : SameView r (clusterGetNamespace cs name).2 cs where
  table_eq := by
    intro kind _ ns
    rw [clusterGetNamespace_twice]
  config_eq _ := csConfig_clusterGetNamespace cs name

theorem query_eq (h : SameView r cs cs') (kind : ResourceKind) (hkind : kind.resource = r) (ns name : Str)
    : clusterQuery cs kind ns name = clusterQuery cs' kind ns name := by
  rw [clusterQuery_eq, clusterQuery_eq, h.table_eq kind hkind ns]

theorem write (h : SameView r cs cs') (name : Str) (kind : ResourceKind) {f : Namespace → Namespace}
    (hself : ∀ ns ns', kind.table ns = kind.table ns' → kind.table (f ns) = kind.table (f ns'))
    (hother : ∀ kind' ns, kind' ≠ kind → kind'.table (f ns) = kind'.table ns)
    : SameView r ((clusterGetNamespace cs name).2.modifyNamespace name f)
        ((clusterGetNamespace cs' name).2.modifyNamespace name f) where
  table_eq := by
    intro kind' hkind' ns
    rw [clusterGetNamespace_modify, clusterGetNamespace_modify]
    split
    . by_cases hkind : kind' = kind
      . subst hkind
        exact hself _ _ (h.table_eq kind' hkind' name)
      . rw [hother kind' _ hkind, hother kind' _ hkind]
        exact h.table_eq kind' hkind' name
    . exact h.table_eq kind' hkind' ns
  config_eq := by
    intro hr
    dsimp only [Cluster.modifyNamespace]
    rw [csConfig_clusterGetNamespace, csConfig_clusterGetNamespace]
    exact h.config_eq hr

theorem write_other (cs : Cluster) (name : Str) (kind : ResourceKind) (hkind : kind.resource ≠ r)
    {f : Namespace → Namespace} (hother : ∀ kind' ns, kind' ≠ kind → kind'.table (f ns) = kind'.table ns)
    : SameView r ((clusterGetNamespace cs name).2.modifyNamespace name f) cs where
  table_eq := by
    intro kind' hkind' ns
    have hne : kind' ≠ kind := by
      rintro rfl
      exact hkind hkind'
    rw [clusterGetNamespace_modify]
    split
    . next hns => rw [hother kind' _ hne, hns]
    . rfl
  config_eq _ := csConfig_clusterGetNamespace cs name

end SameView

namespace LineEffect

def resource : LineEffect → Option Resource
  | .nothing => none
  | .touched => none
  | .put kind _ => some kind.resource
  | .del kind _ => some kind.resource
  | .config _ => some .configmaps

variable {r : Resource}

theorem apply_own {fe fe' : FetcherCtx} (h : SameView r fe.wtCluster fe'.wtCluster)
    (hchanged : fe.changed = fe'.changed) (ns : Str) (eff : LineEffect)
    : SameView r (eff.apply ns fe).wtCluster (eff.apply ns fe').wtCluster
        ∧
      (eff.apply ns fe).changed = (eff.apply ns fe').changed := by
  have hns : SameView r (clusterGetNamespace fe.wtCluster ns).2 (clusterGetNamespace fe'.wtCluster ns).2 :=
    ((SameView.getNamespace r _ ns).trans h).trans (SameView.getNamespace r _ ns).symm
  cases eff with
  | nothing => exact ⟨hns, hchanged⟩
  | touched => exact ⟨hns, rfl⟩
  | put kind obj =>
    refine ⟨h.write ns kind ?_ ?_, rfl⟩
    . intro ns ns' heq
      rw [ResourceKind.table_put, ResourceKind.table_put, heq]
    . intro kind' ns hne
      exact ResourceKind.table_put_of_ne hne ns obj
  | del kind name =>
    refine ⟨h.write ns kind ?_ ?_, rfl⟩
    . intro ns ns' heq
      rw [ResourceKind.table_del, ResourceKind.table_del, heq]
    . intro kind' ns hne
      exact ResourceKind.table_del_of_ne hne ns name
  | config cc =>
    refine ⟨⟨?_, fun _ => rfl⟩, rfl⟩
    intro kind hkind ns'
    dsimp only [apply]
    rw [clusterGetNamespace_setConfig (clusterGetNamespace fe.wtCluster ns).2 cc,
      clusterGetNamespace_setConfig (clusterGetNamespace fe'.wtCluster ns).2 cc]
    exact hns.table_eq kind hkind ns'

theorem apply_other {eff : LineEffect} (h : eff.resource ≠ some r) (ns : Str) (fe : FetcherCtx)
    : SameView r (eff.apply ns fe).wtCluster fe.wtCluster := by
  have hns := SameView.getNamespace r fe.wtCluster ns
  cases eff with
  | nothing => exact hns
  | touched => exact hns
  | put kind obj =>
    apply SameView.write_other _ _ kind
    . exact fun heq => h (congrArg some heq)
    . intro kind' ns hne
      exact ResourceKind.table_put_of_ne hne ns obj
  | del kind name =>
    apply SameView.write_other _ _ kind
    . exact fun heq => h (congrArg some heq)
    . intro kind' ns hne
      exact ResourceKind.table_del_of_ne hne ns name
  | config cc =>
    constructor
    . intro kind hkind ns'
      dsimp only [apply]
      rw [clusterGetNamespace_setConfig]
      exact hns.table_eq kind hkind ns'
    . intro hr
      subst hr
      exact absurd rfl h

end LineEffect

namespace LineEvent

variable {env : Env} {cfg : K8sConfig} {ev : LineEvent}

theorem objectEffect_resource {kind : ResourceKind} {eff : LineEffect} (h : ev.objectEffect env kind = .ok eff)
    {r : Resource} (hr : eff.resource = some r)
    : r = kind.resource := by
  unfold objectEffect at h
  split at h
  . cases h
    exact (Option.some.inj hr).symm
  . rw [Except.bind_eq_ok_iff] at h
    rcases h with ⟨made, -, h⟩
    cases made with
    | none =>
      cases h
      cases hr
    | some obj =>
      cases h
      exact (Option.some.inj hr).symm

theorem configmapEffect_resource {r : Resource} (hr : (ev.configmapEffect cfg).resource = some r)
    : r = .configmaps := by
  unfold configmapEffect at hr
  split at hr
  . split at hr
    . exact (Option.some.inj hr).symm
    . split at hr
      . cases hr
      . exact (Option.some.inj hr).symm
  . cases hr

theorem endpointsEffect_resource {old : Option Endpoints} {r : Resource}
    (hr : (ev.endpointsEffect old).resource = some r)
    : r = .endpoints := by
  unfold endpointsEffect at hr
  split at hr
  . exact (Option.some.inj hr).symm
  . split at hr
    . cases hr
    . split at hr
      . exact (Option.some.inj hr).symm
      . split at hr
        . cases hr
        . exact (Option.some.inj hr).symm

theorem effect_resource {cs : Cluster} {eff : LineEffect} (h : ev.effect env cfg cs = .ok eff) {r : Resource}
    (hr : eff.resource = some r)
    : ev.kind = str r.watchKind := by
  unfold effect at h
  split at h
  . next hkind =>
    rw [objectEffect_resource h hr]
    exact hkind
  . split at h
    . next hkind =>
      rw [objectEffect_resource h hr]
      exact hkind
    . split at h
      . next hkind =>
        rw [objectEffect_resource h hr]
        exact hkind
      . split at h
        . next hkind =>
          cases h
          rw [configmapEffect_resource hr]
          exact hkind
        . split at h
          . next hkind =>
            cases h
            rw [endpointsEffect_resource hr]
            exact hkind
          . cases h
            cases hr

-- Only for endpoints does the effect depend on what is there.
theorem effect_congr {cs cs' : Cluster}
    (h : ev.kind = str "Endpoints" →
      clusterQuery cs .endpoints ev.ns ev.name = clusterQuery cs' .endpoints ev.ns ev.name)
    : ev.effect env cfg cs = ev.effect env cfg cs' := by
  unfold effect
  by_cases hkind : ev.kind = str "Endpoints"
  . rw [h hkind]
  . simp only [if_neg hkind]

end LineEvent

-- The line is not about an object of another resource.
def OwnLine (env : Env) (r : Resource) (line : Str) : Prop :=
  ∀ ev, lineEvent env (cstr line) = some ev → ∀ r' : Resource, ev.kind = str r'.watchKind → r' = r

def Fetchers.line (env : Env) (cfg : K8sConfig) (fs : Fetchers) (e : Resource × Str) : Result Fetchers := do
  let fe ← feWatchLineAt env cfg ⟨fs.wtCluster, fs.changed e.1⟩ e.2
  return { fs with wtCluster := fe.wtCluster, changed := Function.update fs.changed e.1 fe.changed }

structure SameFetcher (r : Resource) (fs fs' : Fetchers) : Prop where
  view : SameView r fs.wtCluster fs'.wtCluster
  changed_eq : fs.changed r = fs'.changed r

theorem feWatchLineAt_own {env : Env} {cfg : K8sConfig} {r : Resource} {line : Str} (hown : OwnLine env r line)
    {fe fe' : FetcherCtx} (h : SameView r fe.wtCluster fe'.wtCluster) (hchanged : fe.changed = fe'.changed)
    : Except.Related
        (fun fe fe' => SameView r fe.wtCluster fe'.wtCluster ∧ fe.changed = fe'.changed)
        (feWatchLineAt env cfg fe line) (feWatchLineAt env cfg fe' line) := by
  unfold feWatchLineAt
  rw [feWatchLine_eq_effect, feWatchLine_eq_effect]
  cases hev : lineEvent env (cstr line) with
  | none => exact .ok ⟨h, hchanged⟩
  | some ev =>
    dsimp only
    have heffect : ev.effect env cfg fe.wtCluster = ev.effect env cfg fe'.wtCluster := by
      apply LineEvent.effect_congr
      intro hkind
      exact h.query_eq .endpoints (hown ev hev .endpoints hkind) ev.ns ev.name
    rw [heffect]
    rcases Except.eq_ok_or_eq_error (ev.effect env cfg fe'.wtCluster) with ⟨eff, heff⟩ | ⟨e, he⟩
    . rw [heff]
      exact .ok (LineEffect.apply_own h hchanged ev.ns eff)
    . rw [he]
      exact .inr ⟨e, rfl, rfl⟩

theorem feWatchLineAt_other {env : Env} {cfg : K8sConfig} {r r' : Resource} (hne : r' ≠ r) {line : Str}
    (hown : OwnLine env r' line) {fe fe' : FetcherCtx} (h : feWatchLineAt env cfg fe line = .ok fe')
    : SameView r fe'.wtCluster fe.wtCluster := by
  unfold feWatchLineAt at h
  rw [feWatchLine_eq_effect] at h
  cases hev : lineEvent env (cstr line) with
  | none =>
    rw [hev] at h
    cases h
    exact .refl r _
  | some ev =>
    rw [hev] at h
    dsimp only at h
    rcases Except.eq_ok_or_eq_error (ev.effect env cfg fe.wtCluster) with ⟨eff, heff⟩ | ⟨e, he⟩
    . rw [heff] at h
      cases h
      apply LineEffect.apply_other
      intro hr
      exact hne (hown ev hev r (LineEvent.effect_resource heff hr)).symm
    . rw [he] at h
      cases h

theorem separated_line (env : Env) (cfg : K8sConfig)
    : Separated (Fetchers.line env cfg) (fun e => OwnLine env e.1 e.2) SameFetcher where
  own := by
    intro r line fs fs' hown h
    unfold Fetchers.line
    apply Except.Related.bind (feWatchLineAt_own hown h.view h.changed_eq)
    rintro fe fe' ⟨hview, hchanged⟩
    apply Except.Related.ok
    refine ⟨hview, ?_⟩
    dsimp only
    rw [Function.update_self, Function.update_self, hchanged]
  other := by
    intro r r' line fs fs' fs'' hown hne h hline
    unfold Fetchers.line at hline
    rw [Except.bind_eq_ok_iff] at hline
    rcases hline with ⟨fe, hfe, hline⟩
    cases hline
    refine ⟨(feWatchLineAt_other hne hown hfe).trans h.view, ?_⟩
    dsimp only
    rw [Function.update_of_ne (Ne.symm hne)]
    exact h.changed_eq

theorem foldlM_line_eq (env : Env) (cfg : K8sConfig) (r : Resource) (lines : List Str) (fs : Fetchers)
    : (lines.map (r, ·)).foldlM (Fetchers.line env cfg) fs
        =
      (lines.foldlM (feWatchLineAt env cfg) ⟨fs.wtCluster, fs.changed r⟩ >>= fun fe =>
        .ok { fs with wtCluster := fe.wtCluster, changed := Function.update fs.changed r fe.changed }) := by
  induction lines generalizing fs with
  | nil =>
    rw [List.map_nil, List.foldlM_nil, List.foldlM_nil, Except.pure_eq_ok, Except.pure_eq_ok, Except.ok_bind,
      Function.update_eq_self]
  | cons line lines ih =>
    rw [List.map_cons, List.foldlM_cons, List.foldlM_cons, bind_assoc, Fetchers.line]
    dsimp only
    rw [bind_assoc]
    congr 1
    funext fe
    rw [Except.pure_eq_ok, Except.ok_bind, ih]
    dsimp only
    rw [Function.update_self]
    congr 1
    funext fe'
    rw [Function.update_idem]

theorem foldlM_line_setBuf (env : Env) (cfg : K8sConfig) (lines : List (Resource × Str)) (fs : Fetchers)
    (buf : Resource → Str)
    : lines.foldlM (Fetchers.line env cfg) { fs with buf := buf }
        =
      (lines.foldlM (Fetchers.line env cfg) fs >>= fun fs => .ok { fs with buf := buf }) := by
  induction lines generalizing fs with
  | nil => rfl
  | cons e lines ih =>
    rw [List.foldlM_cons, List.foldlM_cons, bind_assoc, Fetchers.line, Fetchers.line]
    dsimp only
    rw [bind_assoc, bind_assoc]
    congr 1
    funext fe
    rw [Except.pure_eq_ok, Except.ok_bind, Except.pure_eq_ok, Except.ok_bind]
    exact ih { fs with wtCluster := fe.wtCluster, changed := Function.update fs.changed e.1 fe.changed }

theorem Fetchers.read_eq (env : Env) (cfg : K8sConfig) (fs : Fetchers) (r : Resource) (data : Str)
    (hbuf : 10 ∉ fs.buf r)
    : fs.read env cfg (r, data)
        =
      (((complete 10 (fs.buf r ++ data)).map (r, ·)).foldlM (Fetchers.line env cfg) fs >>= fun fs' =>
        .ok { fs' with buf := Function.update fs.buf r (unfinished 10 (fs.buf r ++ data)) }) := by
  unfold Fetchers.read
  dsimp only
  rw [feWatchRead.eq_foldlM _ _ _ hbuf, foldlM_line_eq]
  simp only [bind_assoc, Except.ok_bind, Except.pure_eq_ok]

theorem Fetchers.reads_eq (env : Env) (cfg : K8sConfig) (chunks : List (Resource × Str)) (fs : Fetchers)
    (hbuf : ∀ r, 10 ∉ fs.buf r)
    : fs.reads env cfg chunks
        =
      ((segments 10 fs.buf chunks).foldlM (Fetchers.line env cfg) fs >>= fun fs' =>
        .ok { fs' with buf := fun r => unfinished 10 (fs.buf r ++ bytesOf r chunks) }) := by
  induction chunks generalizing fs with
  | nil =>
    have hkeep : (fun r => unfinished 10 (fs.buf r ++ bytesOf r [])) = fs.buf := by
      funext r
      rw [bytesOf_nil, List.append_nil, unfinished_of_notMem (hbuf r)]
    rw [hkeep]
    rfl
  | cons e chunks ih =>
    rcases e with ⟨r, data⟩
    unfold Fetchers.reads at ih ⊢
    rw [List.foldlM_cons, Fetchers.read_eq env cfg fs r data (hbuf r), segments, List.foldlM_append,
      bind_assoc, bind_assoc]
    congr 1
    funext fs'
    rw [Except.ok_bind, ih _ (notMem_update_unfinished hbuf r data), foldlM_line_setBuf, bind_assoc, unfinished_update]
    simp only [Except.ok_bind]

theorem Fetchers.returns_reads_iff (env : Env) (cfg : K8sConfig) (chunks : List (Resource × Str)) (fs : Fetchers)
    (hbuf : ∀ r, 10 ∉ fs.buf r)
    : Except.Returns (fs.reads env cfg chunks)
        ↔
      Except.Returns ((segments 10 fs.buf chunks).foldlM (Fetchers.line env cfg) fs) := by
  rw [Fetchers.reads_eq env cfg chunks fs hbuf, Except.returns_bind_iff]
  constructor
  . rintro ⟨fs', hfs', -⟩
    exact ⟨fs', hfs'⟩
  . rintro ⟨fs', hfs'⟩
    exact ⟨fs', hfs', .ok _⟩

def OwnLines (env : Env) (fs : Fetchers) (chunks : List (Resource × Str)) : Prop :=
  ∀ r, ∀ line ∈ complete 10 (fs.buf r ++ bytesOf r chunks), OwnLine env r line

def linesOf (fs : Fetchers) (chunks : List (Resource × Str)) (r : Resource) : List (Resource × Str) :=
  (complete 10 (fs.buf r ++ bytesOf r chunks)).map (r, ·)

section

variable {env : Env} {cfg : K8sConfig} {fs : Fetchers} (hbuf : ∀ r, 10 ∉ fs.buf r)
variable {chunks : List (Resource × Str)} (hown : OwnLines env fs chunks)

include hbuf hown

theorem ownLine_of_mem_segments : ∀ e ∈ segments 10 fs.buf chunks, OwnLine env e.1 e.2 := by
  rintro ⟨r, line⟩ he
  exact hown r line (mem_segments hbuf he)

theorem returns_reads_iff_alone
    : Except.Returns (fs.reads env cfg chunks)
        ↔
      ∀ r, Except.Returns ((linesOf fs chunks r).foldlM (Fetchers.line env cfg) fs) := by
  rw [Fetchers.returns_reads_iff env cfg chunks fs hbuf,
    (separated_line env cfg).returns_iff (ownLine_of_mem_segments hbuf hown) (t := fun _ => fs)
      (fun r => ⟨.refl r _, rfl⟩)]
  simp only [ownActions_segments _ chunks hbuf]
  rfl

theorem reads_alone {fs' : Fetchers} (h : fs.reads env cfg chunks = .ok fs') (r : Resource)
    : ∃ alone,
        (linesOf fs chunks r).foldlM (Fetchers.line env cfg) fs = .ok alone
          ∧
        SameFetcher r fs' alone := by
  rw [Fetchers.reads_eq env cfg chunks fs hbuf, Except.bind_eq_ok_iff] at h
  rcases h with ⟨fs1, hfs1, h⟩
  cases h
  have hstart : SameFetcher r fs fs := ⟨.refl r _, rfl⟩
  rcases (separated_line env cfg).alone (ownLine_of_mem_segments hbuf hown) hstart hfs1
    with ⟨alone, halone, hsame⟩
  rw [ownActions_segments r chunks hbuf] at halone
  exact ⟨alone, halone, hsame.view, hsame.changed_eq⟩

end

theorem Fetchers.reads_buf {env : Env} {cfg : K8sConfig} {chunks : List (Resource × Str)} {fs fs' : Fetchers}
    (hbuf : ∀ r, 10 ∉ fs.buf r) (h : fs.reads env cfg chunks = .ok fs') (r : Resource)
    : fs'.buf r = unfinished 10 (fs.buf r ++ bytesOf r chunks) := by
  rw [Fetchers.reads_eq env cfg chunks fs hbuf, Except.bind_eq_ok_iff] at h
  rcases h with ⟨fs1, -, h⟩
  cases h
  rfl

/--
Whatever the order in which the watches are read and wherever the pieces are cut: if two runs get the same bytes
for each watch, they both come to an end or neither does, and they end with the same flags, the same buffers and
the same objects and configuration.
-/
theorem fetchersReads_schedule (env : Env) (cfg : K8sConfig) (fs : Fetchers) (hbuf : ∀ r, 10 ∉ fs.buf r)
    (chunks chunks' : List (Resource × Str)) (hbytes : ∀ r, bytesOf r chunks = bytesOf r chunks')
    (hown : OwnLines env fs chunks)
    : (Except.Returns (fs.reads env cfg chunks) ↔ Except.Returns (fs.reads env cfg chunks'))
        ∧
      ∀ fs1 fs2, fs.reads env cfg chunks = .ok fs1 → fs.reads env cfg chunks' = .ok fs2 →
        ∀ r, fs1.buf r = fs2.buf r ∧ fs1.changed r = fs2.changed r ∧ SameView r fs1.wtCluster fs2.wtCluster := by
  have hown' : OwnLines env fs chunks' := by
    intro r
    rw [← hbytes r]
    exact hown r
  have hlines : linesOf fs chunks = linesOf fs chunks' := by
    funext r
    unfold linesOf
    rw [hbytes r]
  constructor
  . rw [returns_reads_iff_alone hbuf hown, returns_reads_iff_alone hbuf hown', hlines]
  . intro fs1 fs2 h1 h2 r
    rcases reads_alone hbuf hown h1 r with ⟨alone, halone, hsame⟩
    rcases reads_alone hbuf hown' h2 r with ⟨alone', halone', hsame'⟩
    rw [hlines, halone', Except.ok.injEq] at halone
    subst halone
    refine ⟨?_, hsame.changed_eq.trans hsame'.changed_eq.symm, hsame.view.trans hsame'.view.symm⟩
    rw [Fetchers.reads_buf hbuf h1, Fetchers.reads_buf hbuf h2, hbytes r]

theorem ownLine_webEndpoints (line : Str) : OwnLine webEndpointsEnv .endpoints line := by
  intro ev hev r' hr'
  unfold lineEvent at hev
  dsimp only [webEndpointsEnv, Option.bind_eq_bind] at hev
  cases hfind : ([.added, .modified, .deleted].find? fun action => cstr line = webEndpointsLine action) with
  | none =>
    rw [hfind] at hev
    cases hev
  | some action =>
    rw [hfind] at hev
    cases hev
    exact (Resource.watchKind_inj (r := .endpoints) hr').symm

def webPieces : List (Resource × Str) :=
  [(.endpoints, webEndpointsLine .added), (.services, str "\x7b"), (.endpoints, [10])]

def webPieces' : List (Resource × Str) :=
  [(.services, str "\x7b"), (.endpoints, webEndpointsLine .added ++ [10])]

def webFetchers : Fetchers :=
  ⟨clusterMake, fun _ => [], fun _ => false⟩

theorem fetchersReads_schedule_web
    : (Except.Returns (webFetchers.reads webEndpointsEnv ⟨hashNew 11, none, none⟩ webPieces)
        ↔ Except.Returns (webFetchers.reads webEndpointsEnv ⟨hashNew 11, none, none⟩ webPieces'))
        ∧
      ∀ fs1 fs2,
        webFetchers.reads webEndpointsEnv ⟨hashNew 11, none, none⟩ webPieces = .ok fs1 →
        webFetchers.reads webEndpointsEnv ⟨hashNew 11, none, none⟩ webPieces' = .ok fs2 →
        SameView .endpoints fs1.wtCluster fs2.wtCluster := by
  have hbytes : ∀ r, bytesOf r webPieces = bytesOf r webPieces' := by
    intro r
    unfold bytesOf ownActions webPieces webPieces'
    cases r <;> simp
  have hown : OwnLines webEndpointsEnv webFetchers webPieces := by
    intro r line hline
    by_cases hr : r = .endpoints
    . subst hr
      exact ownLine_webEndpoints line
    . rw [complete_of_notMem] at hline
      . cases hline
      . cases r with
        | endpoints => exact absurd rfl hr
        | services => decide
        | secrets => decide
        | configmaps => decide
        | ingresses => decide
  have hschedule := fetchersReads_schedule webEndpointsEnv ⟨hashNew 11, none, none⟩ webFetchers
    (fun _ => List.not_mem_nil) webPieces webPieces' hbytes hown
  refine ⟨hschedule.1, ?_⟩
  intro fs1 fs2 h1 h2
  exact (hschedule.2 fs1 fs2 h1 h2 .endpoints).2.2
