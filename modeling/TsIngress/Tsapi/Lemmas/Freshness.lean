import TsIngress.Api.Lemmas.WatchStreams
import TsIngress.Api.Lemmas.WatcherThread
import TsIngress.Remap.Lemmas.EndpointsReplace
import TsIngress.Tsapi.Impl.Plugin

/-!
This module contains the verification that no update is lost between the watches and the database: while the
thread watches, a flag is raised or the database is the one that the cluster would give.
-/

namespace Grown

variable {cs cs' : Cluster}

theorem size_eq (h : Grown cs cs') : cs'.csNamespaces.size = cs.csNamespaces.size := by
  induction h with
  | refl => rfl
  | add h name hname ih => exact ih

theorem clusterGetNamespace_eq (h : Grown cs cs') (name : Str)
    : (clusterGetNamespace cs' name).1 = (clusterGetNamespace cs name).1 := by
  rw [clusterGetNamespace_fst, clusterGetNamespace_fst]
  rcases h.get_cases name with hget | ⟨hnone, hget⟩
  . rw [hget]
  . rw [hnone, hget, Option.getD_none, Option.getD_some]

theorem sameDefaults (h : Grown cs cs') : SameDefaults cs cs' where
  config_eq := h.csConfig_eq.symm
  defaultSecret_eq := by
    intro host
    rw [defaultSecret_eq_clusterQuery, defaultSecret_eq_clusterQuery]
    unfold clusterGetCertForHostname clusterQuery
    rw [h.csConfig_eq]
    simp only [h.clusterGetNamespace_eq]

theorem map_clusterSteps_eq (h : Grown cs cs') (env : Env) (cfg : K8sConfig)
    : (clusterSteps cfg cs).map (BuildStep.action env cs)
        =
      (clusterSteps cfg cs').map (BuildStep.action env cs') := by
  have hsame : ∀ ns, (namespaceSteps cfg cs ns).map (BuildStep.action env cs)
      = (namespaceSteps cfg cs' ns).map (BuildStep.action env cs') := by
    intro ns
    exact h.sameDefaults.map_namespaceSteps_eq env cfg (.refl ns) rfl
  have hempty : ∀ name, namespaceSteps cfg cs' (namespaceMake name) = [] := by
    intro name
    unfold namespaceSteps namespaceMake hashValues
    rw [ChainTable.entries_new]
    rfl
  unfold clusterSteps hashValues
  rw [ChainTable.entries_eq_flatMap_bucketAt, ChainTable.entries_eq_flatMap_bucketAt, h.size_eq]
  simp only [List.map_flatMap, List.flatMap_assoc, List.flatMap_map, hsame]
  congr 1
  funext i
  rcases h.bucketAt_eq i with ⟨extra, heq, hextra⟩
  have hnil : extra.flatMap (fun e => (namespaceSteps cfg cs' e.2).map (BuildStep.action env cs')) = [] := by
    rw [List.flatMap_eq_nil_iff]
    intro e he
    rw [hextra e he, hempty, List.map_nil]
  rw [heq, List.flatMap_append, hnil, List.nil_append]

theorem remapDbFromCluster_eq (h : Grown cs cs') (env : Env) (cfg : K8sConfig)
    : (remapDbFromCluster env cfg cs').map Prod.fst = (remapDbFromCluster env cfg cs).map Prod.fst := by
  rw [remapDbFromCluster_map_fst, remapDbFromCluster_map_fst, h.csConfig_eq,
    foldlM_run_eq_of_map_action_eq (h.map_clusterSteps_eq env cfg)]

end Grown

theorem remapDbFromCluster.grown {env : Env} {cfg : K8sConfig} {cs cs' : Cluster} {db : RemapDb}
    (h : remapDbFromCluster env cfg cs = .ok (db, cs'))
    : Grown cs cs' := by
  rcases remapDbFromCluster_related env cfg cs with ⟨st, hosts, hst, -, -, hgrown⟩ | ⟨f, hf, -⟩
  . rw [h] at hst
    cases hst
    exact hgrown
  . rw [h] at hf
    cases hf

theorem LineEffect.apply_changed (eff : LineEffect) (ns : Str) (fe : FetcherCtx)
    : (eff.apply ns fe).changed = true
        ∨
      ((eff.apply ns fe).changed = fe.changed ∧ Grown fe.wtCluster (eff.apply ns fe).wtCluster) := by
  cases eff with
  | nothing => exact .inr ⟨rfl, Grown.refl.of_clusterGetNamespace ns⟩
  | touched => exact .inl rfl
  | put kind obj => exact .inl rfl
  | del kind name => exact .inl rfl
  | config cc => exact .inl rfl

theorem feWatchLineAt_changed {env : Env} {cfg : K8sConfig} {fe fe' : FetcherCtx} {line : Str}
    (h : feWatchLineAt env cfg fe line = .ok fe')
    : fe'.changed = true ∨ (fe'.changed = fe.changed ∧ Grown fe.wtCluster fe'.wtCluster) := by
  unfold feWatchLineAt at h
  rw [feWatchLine_eq_effect] at h
  cases hev : lineEvent env (cstr line) with
  | none =>
    rw [hev] at h
    cases h
    exact .inr ⟨rfl, .refl⟩
  | some ev =>
    rw [hev] at h
    dsimp only at h
    rcases Except.eq_ok_or_eq_error (ev.effect env cfg fe.wtCluster) with ⟨eff, heff⟩ | ⟨e, he⟩
    . rw [heff] at h
      cases h
      exact eff.apply_changed ev.ns fe
    . rw [he] at h
      cases h

-- A flag is raised, or the database is the one that the cluster gives.
def Fresh (env : Env) (config : K8sConfig) (db : RemapDb) (fs : Fetchers) : Prop :=
  (∃ r, fs.changed r = true) ∨ (remapDbFromCluster env config fs.wtCluster).map Prod.fst = .ok db

namespace Fresh

variable {env : Env} {cfg config : K8sConfig} {db : RemapDb} {fs fs' : Fetchers}

theorem line {e : Resource × Str} (h : Fresh env config db fs) (hline : fs.line env cfg e = .ok fs')
    : Fresh env config db fs' := by
  unfold Fetchers.line at hline
  rw [Except.bind_eq_ok_iff] at hline
  rcases hline with ⟨fe, hfe, hline⟩
  cases hline
  unfold Fresh
  dsimp only
  rcases feWatchLineAt_changed hfe with hraised | ⟨hkept, hgrown⟩
  . left
    refine ⟨e.1, ?_⟩
    rw [Function.update_self, hraised]
  . rw [hkept, Function.update_eq_self, hgrown.remapDbFromCluster_eq]
    exact h

theorem reads {chunks : List (Resource × Str)} (h : Fresh env config db fs) (hbuf : ∀ r, 10 ∉ fs.buf r)
    (hreads : fs.reads env cfg chunks = .ok fs')
    : Fresh env config db fs' := by
  rw [Fetchers.reads_eq env cfg chunks fs hbuf, Except.bind_eq_ok_iff] at hreads
  rcases hreads with ⟨fs1, hfs1, hreads⟩
  cases hreads
  have hfs1' : Fresh env config db fs1 := by
    apply ExceptFold.foldlM_invariant _ h hfs1
    intro s e s' _ hs hstep
    exact hs.line hstep
  exact hfs1'

end Fresh

theorem notMem_buf_reads {env : Env} {cfg : K8sConfig} {fs fs' : Fetchers} {chunks : List (Resource × Str)}
    (hbuf : ∀ r, 10 ∉ fs.buf r) (h : fs.reads env cfg chunks = .ok fs') (r : Resource)
    : 10 ∉ fs'.buf r := by
  rw [Fetchers.reads_buf hbuf h]
  exact LineSplit.notMem_unfinished _

theorem rebuildMaps_fresh {env : Env} {cs cs' : Cluster} {state state' : State}
    (h : rebuildMaps env cs state = .ok (cs', state'))
    : ∃ db, state'.db = some db
        ∧
      (remapDbFromCluster env state'.config.toK8sConfig cs').map Prod.fst = .ok db := by
  unfold rebuildMaps at h
  rw [Except.bind_eq_ok_iff] at h
  rcases h with ⟨⟨db, cs1⟩, hbuild, h⟩
  cases h
  refine ⟨db, rfl, ?_⟩
  rw [(remapDbFromCluster.grown hbuild).remapDbFromCluster_eq, hbuild]
  rfl

structure Watched (env : Env) (fs : Fetchers) (state : State) : Prop where
  buf : ∀ r, 10 ∉ fs.buf r
  fresh : ∃ db, state.db = some db ∧ Fresh env state.config.toK8sConfig db fs

theorem watched_start {env : Env} {cs cs' : Cluster} {state state' : State}
    (h : rebuildMaps env cs state = .ok (cs', state'))
    : Watched env ⟨cs', fun _ => [], fun _ => false⟩ state' where
  buf _ := List.not_mem_nil
  fresh := by
    rcases rebuildMaps_fresh h with ⟨db, hdb, hfresh⟩
    exact ⟨db, hdb, .inr hfresh⟩

theorem Watched.turn {env : Env} {cfg : K8sConfig} {deadline : Int} {turn : WatchTurn} {fs fs' : Fetchers}
    {state state' : State} {ret : Option Int} (h : Watched env fs state)
    (hturn : watchTurn env cfg (rebuildMaps env) deadline turn fs state = .ok (ret, fs', state'))
    : Watched env fs' state' := by
  rcases watchTurn_cases hturn with ⟨fs1, hfs1, hcases⟩
  have hbuf := notMem_buf_reads h.buf hfs1
  rcases hcases with ⟨rfl, rfl, -⟩ | ⟨-, cs, hcallback, rfl⟩
  . rcases h.fresh with ⟨db, hdb, hfresh⟩
    exact ⟨hbuf, db, hdb, hfresh.reads h.buf hfs1⟩
  . rcases rebuildMaps_fresh hcallback with ⟨db, hdb, hfresh⟩
    exact ⟨hbuf, db, hdb, .inr hfresh⟩

/--
Whenever the thread watches there is a database, and it is the one that the cluster gives or a flag is raised.
A turn that waits lets no flag stand: it ends with a database of the cluster it has read.
-/
theorem watcherThread_fresh (env : Env) (cfg : K8sConfig) (server : Str) (first thread : WatcherThread State)
    (start : Cluster) (hfirst : first.phase = .resync start)
    (hrun : Relation.ReflTransGen (WatcherThread.Step env cfg (rebuildMaps env) server) first thread)
    (urls : List Str) (deadline : Int) (fs : Fetchers) (hphase : thread.phase = .watch urls deadline fs)
    : (∃ db, thread.data.db = some db
        ∧ ((∃ r, fs.changed r = true)
          ∨ (remapDbFromCluster env thread.data.config.toK8sConfig fs.wtCluster).map Prod.fst = .ok db))
        ∧
      ∀ turn fs' state',
        watchTurn env cfg (rebuildMaps env) deadline turn fs thread.data = .ok (none, fs', state') →
        turn.timeout ≠ 0 →
        ∃ db, state'.db = some db
          ∧ (remapDbFromCluster env state'.config.toK8sConfig fs'.wtCluster).map Prod.fst = .ok db := by
  have hwatched : Watched env fs thread.data := by
    apply WatcherThread.Step.watching (P := fun _ fs _ state => Watched env fs state) _ _ hfirst hrun hphase
    . intro turn wtCluster version data urls deadline fs version' data' h
      rcases resyncTurn_cases h with ⟨cs, hcs⟩ | ⟨msgs, res, cs, data1, urls1, -, -, hcallback, -, heq⟩
      . cases hcs
      . cases heq
        exact watched_start hcallback
    . intro turn urls deadline fs fs' version data data' h hturn
      exact h.turn hturn
  refine ⟨hwatched.fresh, ?_⟩
  intro turn fs' state' hturn htimeout
  have hafter := hwatched.turn hturn
  rcases watchTurn_cases hturn with ⟨fs1, hfs1, ⟨rfl, rfl, hquiet⟩ | ⟨-, cs, hcallback, rfl⟩⟩
  . rcases hafter.fresh with ⟨db, hdb, ⟨r, hr⟩ | hfresh⟩
    . rcases hquiet rfl with hzero | hdown
      . exact absurd hzero htimeout
      . rw [hdown r (mem_resources r)] at hr
        cases hr
    . exact ⟨db, hdb, hfresh⟩
  . exact rebuildMaps_fresh hcallback

theorem rebuildMaps_clusterMake (env : Env) (config : LoadedConfig)
    : ∃ cs db, rebuildMaps env clusterMake ⟨config, none⟩ = .ok (cs, ⟨config, some db⟩) := by
  have hnone : hashValues clusterMake.csNamespaces = [] := by
    unfold clusterMake hashValues
    rw [ChainTable.entries_new]
    rfl
  have hreturns : Except.Returns (remapDbFromCluster env config.toK8sConfig clusterMake) := by
    apply remapDbFromCluster_returns
    . rw [hnone]
      simp
    . rw [hnone]
      simp
  rcases hreturns with ⟨⟨db, cs⟩, hbuild⟩
  refine ⟨cs, db, ?_⟩
  unfold rebuildMaps
  rw [hbuild]
  rfl

def quietTurn : WatchTurn where
  chunks := []
  performed := true
  running := 5
  timeout := 100
  waited := true
  time := 1

theorem watcherThread_fresh_web
    : ∃ (thread : WatcherThread State) (urls : List Str) (deadline : Int) (fs fs' : Fetchers) (state' : State)
        (db : RemapDb),
        Relation.ReflTransGen (WatcherThread.Step webEnv ⟨hashNew 11, none, none⟩ (rebuildMaps webEnv)
            (str "http://api"))
            ⟨.resync clusterMake, fun _ => none, ⟨k8sConfigNew, none⟩⟩ thread
          ∧
        thread.phase = .watch urls deadline fs
          ∧
        watchTurn webEnv ⟨hashNew 11, none, none⟩ (rebuildMaps webEnv) deadline quietTurn fs thread.data
          = .ok (none, fs', state')
          ∧
        state'.db = some db
          ∧
        (remapDbFromCluster webEnv state'.config.toK8sConfig fs'.wtCluster).map Prod.fst = .ok db := by
  rcases rebuildMaps_clusterMake webEnv k8sConfigNew with ⟨cs, db, hcallback⟩
  rcases resyncTurn_web ⟨hashNew 11, none, none⟩ (str "http://api") hcallback with ⟨urls, version, hresync⟩
  have hrun : Relation.ReflTransGen
      (WatcherThread.Step webEnv ⟨hashNew 11, none, none⟩ (rebuildMaps webEnv) (str "http://api"))
      ⟨.resync clusterMake, fun _ => none, ⟨k8sConfigNew, none⟩⟩ _ := .single (.resync webResync hresync)
  have hfresh := (watcherThread_fresh webEnv ⟨hashNew 11, none, none⟩ (str "http://api") _ _ clusterMake rfl hrun urls
    _ _
    rfl).2
  rcases hfresh quietTurn _ _ rfl (by decide) with ⟨db', hdb', hdb''⟩
  exact ⟨_, urls, _, _, _, _, db', hrun, rfl, rfl, hdb', hdb''⟩
