import TsIngress.Api.Impl.WatcherThread
import TsIngress.Api.Lemmas.Forget
import Mathlib.Logic.Relation

/-!
This module contains what the turns of the watcher's thread can do, and the versions from which it watches.
-/

section

variable {ρ : Type} {env : Env} {cfg : K8sConfig} {callback : Cluster → ρ → Result (Cluster × ρ)}

theorem watchTurn_cases {deadline : Int} {turn : WatchTurn} {fs fs' : Fetchers} {data data' : ρ} {ret : Option Int}
    (h : watchTurn env cfg callback deadline turn fs data = .ok (ret, fs', data'))
    : ∃ fs1, fs.reads env cfg turn.chunks = .ok fs1
        ∧
      ((fs' = fs1 ∧ data' = data ∧ (ret = none → turn.timeout = 0 ∨ ∀ r ∈ resources, fs1.changed r = false))
        ∨
      (ret = none ∧ ∃ cs, callback fs1.wtCluster data = .ok (cs, data')
        ∧ fs' = { fs1 with wtCluster := cs, changed := fun _ => false })) := by
  unfold watchTurn at h
  rw [Except.bind_eq_ok_iff] at h
  rcases h with ⟨fs1, hfs1, h⟩
  refine ⟨fs1, hfs1, ?_⟩
  split at h
  . cases h
    exact .inl ⟨rfl, rfl, nofun⟩
  . split at h
    . cases h
      exact .inl ⟨rfl, rfl, nofun⟩
    . split at h
      . next htimeout =>
        cases h
        exact .inl ⟨rfl, rfl, fun _ => .inl htimeout⟩
      . split at h
        . cases h
          exact .inl ⟨rfl, rfl, nofun⟩
        . split at h
          . cases h
            exact .inl ⟨rfl, rfl, nofun⟩
          . split at h
            . rw [Except.bind_eq_ok_iff] at h
              rcases h with ⟨⟨cs, data1⟩, hcallback, h⟩
              cases h
              exact .inr ⟨rfl, cs, hcallback, rfl⟩
            . next hnone =>
              cases h
              refine .inl ⟨rfl, rfl, fun _ => .inr ?_⟩
              simpa using hnone

theorem watchTurn_error {deadline : Int} {turn : WatchTurn} {fs fs1 : Fetchers} {data : ρ} {e : Fault}
    (hfs1 : fs.reads env cfg turn.chunks = .ok fs1)
    (h : watchTurn env cfg callback deadline turn fs data = .error e)
    : callback fs1.wtCluster data = .error e := by
  unfold watchTurn at h
  rw [hfs1, Except.ok_bind] at h
  split at h
  . cases h
  . split at h
    . cases h
    . split at h
      . cases h
      . split at h
        . cases h
        . split at h
          . cases h
          . split at h
            . cases hcallback : callback fs1.wtCluster data with
              | error e' =>
                rw [hcallback] at h
                cases h
                rfl
              | ok r =>
                rw [hcallback] at h
                cases h
            . cases h

theorem resyncTurn_cases {server : Str} {turn : ResyncTurn} {wtCluster : Cluster} {version : Resource → Option Str}
    {data : ρ} {thread : WatcherThread ρ}
    (h : resyncTurn env cfg callback server turn wtCluster version data = .ok thread)
    : (∃ cs, thread.phase = .resync cs)
        ∨
      ∃ msgs res cs data' urls,
        turn.msgs = some msgs
          ∧
        fetcherGetAll env cfg wtCluster version msgs = .ok res
          ∧
        callback res.wtCluster data = .ok (cs, data')
          ∧
        fetcherWatchUrls server res.version turn.easy resources = .ok (some urls)
          ∧
        thread = ⟨.watch urls (turn.time + resyncInterval) ⟨cs, fun _ => [], fun _ => false⟩, res.version, data'⟩ := by
  unfold resyncTurn at h
  split at h
  . cases h
    exact .inl ⟨_, rfl⟩
  . next msgs hmsgs =>
    rw [Except.bind_eq_ok_iff] at h
    rcases h with ⟨res, hres, h⟩
    split at h
    . cases h
      exact .inl ⟨_, rfl⟩
    . rw [Except.bind_eq_ok_iff] at h
      rcases h with ⟨⟨cs, data'⟩, hcallback, h⟩
      dsimp only at h
      split at h
      . cases h
        exact .inl ⟨_, rfl⟩
      . rw [Except.bind_eq_ok_iff] at h
        rcases h with ⟨urls, hurls, h⟩
        cases urls with
        | none =>
          cases h
          exact .inl ⟨_, rfl⟩
        | some urls =>
          cases h
          exact .inr ⟨msgs, res, cs, data', urls, hmsgs, hres, hcallback, hurls, rfl⟩

theorem WatcherThread.Step.watching {server : Str}
    {P : List Str → Fetchers → (Resource → Option Str) → ρ → Prop}
    (start : ∀ turn wtCluster version data urls deadline fs version' data',
      resyncTurn env cfg callback server turn wtCluster version data
        = .ok ⟨.watch urls deadline fs, version', data'⟩ →
      P urls fs version' data')
    (goes : ∀ turn urls deadline fs fs' version data data',
      P urls fs version data →
      watchTurn env cfg callback deadline turn fs data = .ok (none, fs', data') →
      P urls fs' version data')
    {first thread : WatcherThread ρ} {cs : Cluster} (hfirst : first.phase = .resync cs)
    (hrun : Relation.ReflTransGen (WatcherThread.Step env cfg callback server) first thread)
    {urls : List Str} {deadline : Int} {fs : Fetchers} (hphase : thread.phase = .watch urls deadline fs)
    : P urls fs thread.version thread.data := by
  induction hrun generalizing urls deadline fs with
  | refl =>
    rw [hfirst] at hphase
    cases hphase
  | tail hrun hstep ih =>
    cases hstep with
    | resync turn h =>
      next thread _ _ _ =>
      rcases thread with ⟨phase, version', data'⟩
      dsimp only at hphase
      subst hphase
      exact start _ _ _ _ _ _ _ _ _ h
    | goes turn h =>
      cases hphase
      exact goes _ _ _ _ _ _ _ _ (ih rfl) h
    | ends turn h => cases hphase

end

theorem mem_resources (r : Resource) : r ∈ resources := by
  cases r <;> decide

def watchUrl (server : Str) (r : Resource) (version : Str) : Str :=
  server ++ r.url ++ str "?watch=true&resourceVersion=" ++ version

theorem fetcherWatchUrl_eq (server : Str) (r : Resource) (version : Str)
    : fetcherWatchUrl server r version = watchUrl server r version := by
  unfold fetcherWatchUrl watchUrl snprintf
  apply List.take_of_length_le
  simp only [List.length_append]
  omega

def listVersion (env : Env) (body : Str) : Option Str :=
  if body.isEmpty then
    none
  else do
    let obj ← env.jsonTokenerParse (body.takeWhile (· ≠ 0))
    let _ ← jsonArrayMember obj "items"
    (jsonObjectMember obj "metadata").bind (jsonStringMember · "resourceVersion")

theorem fetcherProcess_version {env : Env} {cfg : K8sConfig} {resource : Resource} {body : Str} {st st' : Resync}
    (h : fetcherProcess env cfg resource body st = .ok st')
    : st'.version = match listVersion env body with
        | none => st.version
        | some v => Function.update st.version resource (some v) := by
  unfold fetcherProcess at h
  unfold listVersion
  by_cases hempty : body.isEmpty = true
  . rw [if_pos hempty] at h ⊢
    cases h
    rfl
  . rw [if_neg hempty] at h ⊢
    cases hparse : env.jsonTokenerParse (body.takeWhile (· ≠ 0)) with
    | none =>
      rw [hparse] at h
      cases h
      rfl
    | some obj =>
      rw [hparse] at h
      dsimp only [Option.bind_eq_bind, Option.bind_some] at h ⊢
      cases hitems : jsonArrayMember obj "items" with
      | none =>
        rw [hitems] at h
        cases h
        rfl
      | some items =>
        rw [hitems] at h
        rw [Option.bind_some]
        cases hversion : (jsonObjectMember obj "metadata").bind (jsonStringMember · "resourceVersion") with
        | none =>
          rw [hversion] at h
          cases h
          rfl
        | some v =>
          rw [hversion] at h
          dsimp only at h ⊢
          cases hkind : jsonStringMember obj "kind" with
          | none =>
            rw [hkind] at h
            cases h
            rfl
          | some kind =>
            rw [hkind] at h
            dsimp only at h
            rw [Except.bind_eq_ok_iff] at h
            rcases h with ⟨fetch, -, h⟩
            cases h
            rfl

def listedVersions (env : Env) (msgs : List Completion) (r : Resource) : List Str :=
  (msgs.takeWhile (·.body.isSome)).filterMap fun msg =>
    if msg.resource = r then listVersion env (msg.body.getD []) else none

-- The version of the last list that any of the calls of `fetcher_get_all` has taken for the resource.
def lastListed (env : Env) (gets : List (List Completion)) (r : Resource) : Option Str :=
  (gets.flatMap (listedVersions env · r)).getLast?

theorem lastListed_append (env : Env) (gets gets' : List (List Completion)) (r : Resource)
    : lastListed env (gets ++ gets') r = (lastListed env gets' r).or (lastListed env gets r) := by
  unfold lastListed
  rw [List.flatMap_append, List.getLast?_append]

theorem go_version {env : Env} {cfg : K8sConfig} {msgs : List Completion} {st : Resync} {res : GetAllResult}
    (h : fetcherGetAll.go env cfg msgs st = .ok res) (r : Resource)
    : res.version r = (listedVersions env msgs r).getLast?.or (st.version r) := by
  induction msgs generalizing st with
  | nil =>
    cases h
    rfl
  | cons msg msgs ih =>
    unfold fetcherGetAll.go at h
    unfold listedVersions at ih ⊢
    cases hbody : msg.body with
    | none =>
      rw [hbody] at h
      cases h
      rw [List.takeWhile_cons_of_neg (by simp [hbody])]
      rfl
    | some body =>
      rw [hbody] at h
      dsimp only at h
      rw [Except.bind_eq_ok_iff] at h
      rcases h with ⟨st1, hst1, h⟩
      rw [ih h, fetcherProcess_version hst1, List.takeWhile_cons_of_pos (by simp [hbody]), List.filterMap_cons,
        hbody, Option.getD_some]
      by_cases hr : msg.resource = r
      . subst hr
        rw [if_pos rfl]
        cases listVersion env body with
        | none => rfl
        | some v =>
          dsimp only
          rw [Function.update_self, List.getLast?_cons]
          cases List.getLast? _ with
          | none => rfl
          | some w => rfl
      . rw [if_neg hr]
        cases listVersion env body with
        | none => rfl
        | some v =>
          dsimp only
          rw [Function.update_of_ne (Ne.symm hr)]

theorem fetcherGetAll_version {env : Env} {cfg : K8sConfig} {cs : Cluster} {version : Resource → Option Str}
    {msgs : List Completion} {res : GetAllResult} (h : fetcherGetAll env cfg cs version msgs = .ok res) (r : Resource)
    : res.version r = (lastListed env [msgs] r).or (version r) := by
  rw [go_version h r, lastListed, List.flatMap_singleton]

theorem fetcherWatchUrls_of_some (server : Str) {version : Resource → Option Str} {easy : Resource → Bool}
    {rs : List Resource} (heasy : ∀ r ∈ rs, easy r = true) (hversion : ∀ r ∈ rs, (version r).isSome)
    : fetcherWatchUrls server version easy rs
        = .ok (some (rs.map fun r => watchUrl server r ((version r).getD []))) := by
  induction rs with
  | nil => rfl
  | cons r rs ih =>
    rw [List.forall_mem_cons] at heasy hversion
    rcases Option.isSome_iff_exists.mp hversion.1 with ⟨v, hv⟩
    unfold fetcherWatchUrls
    rw [heasy.1, hv, deref_some, Except.ok_bind, ih heasy.2 hversion.2, Except.ok_bind, fetcherWatchUrl_eq,
      List.map_cons, hv]
    rfl

theorem fetcherWatchUrls_of_none (server : Str) {version : Resource → Option Str} {easy : Resource → Bool}
    {rs : List Resource} (heasy : ∀ r ∈ rs, easy r = true) {r : Resource} (hr : r ∈ rs) (hnone : version r = none)
    : fetcherWatchUrls server version easy rs = .error .nullPointer := by
  induction rs with
  | nil => cases hr
  | cons r' rs ih =>
    rw [List.forall_mem_cons] at heasy
    unfold fetcherWatchUrls
    rw [heasy.1]
    cases hv : version r' with
    | none => rfl
    | some v =>
      rw [deref_some, Except.ok_bind]
      have hmem : r ∈ rs := by
        rcases List.mem_cons.mp hr with rfl | hmem
        . rw [hnone] at hv
          cases hv
        . exact hmem
      rw [ih heasy.2 hmem]
      rfl

theorem fetcherWatchUrls_some_iff (server : Str) (version : Resource → Option Str) (easy : Resource → Bool)
    (rs : List Resource) (urls : List Str)
    : fetcherWatchUrls server version easy rs = .ok (some urls)
        ↔
      (∀ r ∈ rs, easy r = true ∧ (version r).isSome)
        ∧
      urls = rs.map fun r => watchUrl server r ((version r).getD []) := by
  constructor
  . intro h
    have hall : ∀ r ∈ rs, easy r = true ∧ (version r).isSome := by
      induction rs generalizing urls with
      | nil => simp
      | cons r rs ih =>
        unfold fetcherWatchUrls at h
        split at h
        . cases h
        . next heasy =>
          rw [Except.bind_eq_ok_iff] at h
          rcases h with ⟨v, hv, h⟩
          rw [Except.bind_eq_ok_iff] at h
          rcases h with ⟨rest, hrest, h⟩
          cases rest with
          | none => cases h
          | some rest =>
            rw [List.forall_mem_cons]
            refine ⟨⟨by simpa using heasy, ?_⟩, ih rest hrest⟩
            cases hr : version r with
            | none =>
              rw [hr] at hv
              cases hv
            | some w => rfl
    refine ⟨hall, ?_⟩
    rw [fetcherWatchUrls_of_some server (fun r hr => (hall r hr).1) (fun r hr => (hall r hr).2)] at h
    cases h
    rfl
  . rintro ⟨hall, rfl⟩
    exact fetcherWatchUrls_of_some server (fun r hr => (hall r hr).1) (fun r hr => (hall r hr).2)

section

variable {ρ : Type} {env : Env} {cfg : K8sConfig} {callback : Cluster → ρ → Result (Cluster × ρ)}

theorem resyncTurn_version {server : Str} {turn : ResyncTurn} {wtCluster : Cluster}
    {version : Resource → Option Str} {data : ρ} {thread : WatcherThread ρ}
    (h : resyncTurn env cfg callback server turn wtCluster version data = .ok thread) (r : Resource)
    : thread.version r = (lastListed env turn.msgs.toList r).or (version r) := by
  unfold resyncTurn at h
  split at h
  . next hmsgs =>
    cases h
    rw [hmsgs]
    rfl
  . next msgs hmsgs =>
    rw [hmsgs, Option.toList_some]
    rw [Except.bind_eq_ok_iff] at h
    rcases h with ⟨res, hres, h⟩
    rw [← fetcherGetAll_version hres]
    split at h
    . cases h
      rfl
    . rw [Except.bind_eq_ok_iff] at h
      rcases h with ⟨⟨cs, data'⟩, -, h⟩
      dsimp only at h
      split at h
      . cases h
        rfl
      . rw [Except.bind_eq_ok_iff] at h
        rcases h with ⟨urls, -, h⟩
        cases urls with
        | none =>
          cases h
          rfl
        | some urls =>
          cases h
          rfl

theorem WatcherThread.Step.version_isSome {server : Str} {thread thread' : WatcherThread ρ}
    (h : WatcherThread.Step env cfg callback server thread thread') {r : Resource} (hr : (thread.version r).isSome)
    : (thread'.version r).isSome := by
  cases h with
  | resync turn h =>
    rw [resyncTurn_version h, Option.isSome_or]
    simpa using .inr hr
  | goes turn h => exact hr
  | ends turn h => exact hr

theorem WatcherThread.version_isSome {server : Str} {thread thread' : WatcherThread ρ}
    (h : Relation.ReflTransGen (WatcherThread.Step env cfg callback server) thread thread') {r : Resource}
    (hr : (thread.version r).isSome)
    : (thread'.version r).isSome := by
  induction h with
  | refl => exact hr
  | tail _ hstep ih => exact hstep.version_isSome ih

-- The runs of the thread, with the completions of each call of `fetcher_get_all`.
inductive WatcherThread.Runs (env : Env) (cfg : K8sConfig) (callback : Cluster → ρ → Result (Cluster × ρ))
    (server : Str) (first : WatcherThread ρ) : List (List Completion) → WatcherThread ρ → Prop where
  | refl : Runs env cfg callback server first [] first
  | resync {gets : List (List Completion)} {wtCluster : Cluster} {version : Resource → Option Str} {data : ρ}
    {thread : WatcherThread ρ} (turn : ResyncTurn)
    (hrun : Runs env cfg callback server first gets ⟨.resync wtCluster, version, data⟩)
    (h : resyncTurn env cfg callback server turn wtCluster version data = .ok thread)
    : Runs env cfg callback server first (gets ++ turn.msgs.toList) thread
  | watch {gets : List (List Completion)} {urls : List Str} {deadline : Int} {fs : Fetchers}
    {version : Resource → Option Str} {data : ρ} {thread : WatcherThread ρ}
    (hrun : Runs env cfg callback server first gets ⟨.watch urls deadline fs, version, data⟩)
    (hstep : WatcherThread.Step env cfg callback server ⟨.watch urls deadline fs, version, data⟩ thread)
    : Runs env cfg callback server first gets thread

theorem WatcherThread.Runs.steps {server : Str} {first thread : WatcherThread ρ} {gets : List (List Completion)}
    (h : WatcherThread.Runs env cfg callback server first gets thread)
    : Relation.ReflTransGen (WatcherThread.Step env cfg callback server) first thread := by
  induction h with
  | refl => exact .refl
  | resync turn _ h ih => exact ih.tail (.resync turn h)
  | watch _ hstep ih => exact ih.tail hstep

theorem WatcherThread.Runs.version_eq {server : Str} {first thread : WatcherThread ρ}
    {gets : List (List Completion)} (h : WatcherThread.Runs env cfg callback server first gets thread) (r : Resource)
    : thread.version r = (lastListed env gets r).or (first.version r) := by
  induction h with
  | refl => rfl
  | resync turn _ h ih =>
    dsimp only at ih
    rw [resyncTurn_version h, ih, lastListed_append, Option.or_assoc]
  | watch _ hstep ih =>
    cases hstep with
    | goes turn h => exact ih
    | ends turn h => exact ih

theorem fetcherGetAll_ret {cs : Cluster} {version : Resource → Option Str} {msgs : List Completion}
    {res : GetAllResult} (h : fetcherGetAll env cfg cs version msgs = .ok res) (hmsgs : NoFailure msgs)
    : res.ret = 0 := by
  rcases go_related env cfg msgs ⟨⟨cs, clusterMake⟩, version⟩ with ⟨res', fetch, hres', -, hends⟩ | ⟨f, hf, -⟩
  . have heq : res = res' := Except.ok.inj (h.symm.trans hres')
    subst heq
    rcases hends with ⟨-, hret, -⟩ | ⟨hfailure, -⟩
    . exact hret
    . exact absurd hmsgs hfailure
  . cases h.symm.trans hf

section

variable {server : Str} {turn : ResyncTurn} {wtCluster cs : Cluster} {version : Resource → Option Str}
variable {data data' : ρ} {msgs : List Completion} {res : GetAllResult}
variable (hmsgs : turn.msgs = some msgs) (hok : NoFailure msgs)
variable (hres : fetcherGetAll env cfg wtCluster version msgs = .ok res)
variable (hcallback : callback res.wtCluster data = .ok (cs, data'))
variable (hmulti : turn.multi = true) (heasy : ∀ r, turn.easy r = true)

include hmsgs hok hres hcallback hmulti heasy

theorem resyncTurn_of_some (hversion : ∀ r, (res.version r).isSome)
    : resyncTurn env cfg callback server turn wtCluster version data
        =
      .ok ⟨.watch (resources.map fun r => watchUrl server r ((res.version r).getD []))
        (turn.time + resyncInterval) ⟨cs, fun _ => [], fun _ => false⟩, res.version, data'⟩ := by
  have hret := fetcherGetAll_ret hres hok
  unfold resyncTurn
  rw [hmsgs]
  dsimp only
  rw [hres, Except.ok_bind, if_neg (by simp [hret]), hcallback, Except.ok_bind]
  dsimp only
  rw [hmulti, fetcherWatchUrls_of_some server (fun r _ => heasy r) (fun r _ => hversion r)]
  rfl

theorem resyncTurn_of_none {r : Resource} (hnone : res.version r = none)
    : resyncTurn env cfg callback server turn wtCluster version data = .error .nullPointer := by
  have hret := fetcherGetAll_ret hres hok
  unfold resyncTurn
  rw [hmsgs]
  dsimp only
  rw [hres, Except.ok_bind, if_neg (by simp [hret]), hcallback, Except.ok_bind]
  dsimp only
  rw [hmulti, fetcherWatchUrls_of_none server (fun r _ => heasy r) (mem_resources r) hnone]
  rfl

end

theorem WatcherThread.urls_eq {server : Str} {first thread : WatcherThread ρ} {cs : Cluster}
    (hfirst : first.phase = .resync cs)
    (hrun : Relation.ReflTransGen (WatcherThread.Step env cfg callback server) first thread)
    {urls : List Str} {deadline : Int} {fs : Fetchers} (hphase : thread.phase = .watch urls deadline fs)
    : (∀ r, (thread.version r).isSome)
        ∧
      urls = resources.map fun r => watchUrl server r ((thread.version r).getD []) := by
  apply WatcherThread.Step.watching (P := fun urls _ version _ => (∀ r, (version r).isSome)
    ∧ urls = resources.map fun r => watchUrl server r ((version r).getD [])) _ _ hfirst hrun hphase
  . intro turn wtCluster version data urls deadline fs version' data' h
    rcases resyncTurn_cases h with ⟨cs, hcs⟩ | ⟨msgs, res, cs, data1, urls1, -, -, -, hurls, heq⟩
    . cases hcs
    . cases heq
      rw [fetcherWatchUrls_some_iff] at hurls
      exact ⟨fun r => (hurls.1 r (mem_resources r)).2, hurls.2⟩
  . intro turn urls deadline fs fs' version data data' h _
    exact h

/--
Whenever the thread watches, it has taken a list of each resource, and the watch of the resource asks for the changes
since the last one.
-/
theorem watcherThread_urls (server : Str) (cs : Cluster) (data : ρ) (gets : List (List Completion))
    (thread : WatcherThread ρ)
    (hrun : WatcherThread.Runs env cfg callback server ⟨.resync cs, fun _ => none, data⟩ gets thread)
    (urls : List Str) (deadline : Int) (fs : Fetchers) (hphase : thread.phase = .watch urls deadline fs)
    : (∀ r, (lastListed env gets r).isSome)
        ∧
      urls = resources.map fun r =>
        server ++ r.url ++ str "?watch=true&resourceVersion=" ++ (lastListed env gets r).getD [] := by
  have hversion : thread.version = lastListed env gets := by
    funext r
    rw [hrun.version_eq r, Option.or_none]
  rw [← hversion]
  exact WatcherThread.urls_eq rfl hrun.steps hphase

def webEnv : Env :=
  { plainEnv with
    jsonTokenerParse := fun s =>
      ((listsEnv (fun _ => []) (fun _ => [])).jsonTokenerParse s).or (webEndpointsEnv.jsonTokenerParse s) }

def webResync : ResyncTurn where
  msgs := some (listTransfers fun _ => []).msgs
  multi := true
  easy := fun _ => true
  time := 0

theorem jsonTokenerParse_webEnv_list (r : Resource)
    : webEnv.jsonTokenerParse ((listText (fun _ => []) r).takeWhile (· ≠ 0)) = some (listJson (fun _ => []) r) := by
  have htext : (listText (fun _ => []) r).takeWhile (· ≠ 0) = listText (fun _ => []) r :=
    cstr_of_notMem (notMem_listText (fun _ => List.not_mem_nil) r)
  rw [htext]
  dsimp only [webEnv, listsEnv]
  rw [find?_listText]
  rfl

theorem parsedList_webEnv (r : Resource)
    : parsedList webEnv (listText (fun _ => []) r) = some (str r.listKind, []) := by
  unfold parsedList
  rw [jsonTokenerParse_webEnv_list]
  rfl

theorem listVersion_webEnv (r : Resource) : listVersion webEnv (listText (fun _ => []) r) = some (str "7") := by
  unfold listVersion
  rw [jsonTokenerParse_webEnv_list]
  rfl

theorem noFailure_web : NoFailure (listTransfers fun _ => []).msgs := by
  unfold NoFailure listTransfers
  simp

theorem processedItems_web : processedItems webEnv (listTransfers fun _ => []).msgs = [] := by
  rw [processedItems_of_noFailure noFailure_web]
  unfold listTransfers listItems
  simp only [List.flatMap_map, Option.getD_some, parsedList_webEnv]
  rfl

theorem lastListed_web (r : Resource)
    : lastListed webEnv [(listTransfers fun _ => []).msgs] r = some (str "7") := by
  unfold lastListed listedVersions listTransfers
  simp only [resources, List.map_cons, List.map_nil, List.takeWhile_cons, List.takeWhile_nil, Option.isSome_some,
    if_true, List.filterMap_cons, List.filterMap_nil, Option.getD_some, listVersion_webEnv, List.flatMap_singleton]
  cases r <;> rfl

theorem resyncTurn_web {cs : Cluster} {data data' : ρ} (cfg : K8sConfig) (server : Str)
    (hcallback : callback clusterMake data = .ok (cs, data'))
    : ∃ urls version, resyncTurn webEnv cfg callback server webResync clusterMake (fun _ => none) data
        = .ok ⟨.watch urls (0 + resyncInterval) ⟨cs, fun _ => [], fun _ => false⟩, version, data'⟩ := by
  have hreturns : Except.Returns (fetcherGetAll webEnv cfg clusterMake (fun _ => none)
      (listTransfers fun _ => []).msgs) := by
    rw [fetcherGetAll_returns_iff, processedItems_web]
    simp
  rcases hreturns with ⟨res, hres⟩
  have hversion : ∀ r, (res.version r).isSome := by
    intro r
    rw [fetcherGetAll_version hres, lastListed_web]
    rfl
  have hcluster : res.wtCluster = clusterMake := by
    rcases go_related webEnv cfg (listTransfers fun _ => []).msgs ⟨⟨clusterMake, clusterMake⟩, fun _ => none⟩
      with ⟨res', fetch, hres', hfetch, hends⟩ | ⟨f, hf, -⟩
    . have heq : res = res' := Except.ok.inj (hres.symm.trans hres')
      subst heq
      rw [processedItems_web] at hfetch
      cases hfetch
      rcases hends with ⟨-, -, hcluster⟩ | ⟨hfailure, -⟩
      . exact hcluster
      . exact absurd noFailure_web hfailure
    . cases hres.symm.trans hf
  rw [← hcluster] at hcallback
  exact ⟨_, _, resyncTurn_of_some rfl noFailure_web hres hcallback rfl (fun _ => rfl) hversion⟩

theorem watcherThread_urls_web
    : ∃ (gets : List (List Completion)) (thread : WatcherThread Unit) (deadline : Int) (fs : Fetchers),
        WatcherThread.Runs webEnv ⟨hashNew 11, none, none⟩ noCallback (str "http://api")
            ⟨.resync clusterMake, fun _ => none, ()⟩ gets thread
          ∧
        thread.phase = .watch (resources.map fun r =>
          str "http://api" ++ r.url ++ str "?watch=true&resourceVersion=" ++ str "7") deadline fs := by
  have hcallback : noCallback clusterMake () = .ok (clusterMake, ()) := rfl
  rcases resyncTurn_web ⟨hashNew 11, none, none⟩ (str "http://api") hcallback with ⟨urls, version, hresync⟩
  have hrun := WatcherThread.Runs.resync webResync .refl hresync
  have hurls := (watcherThread_urls (str "http://api") clusterMake () _ _ hrun urls _ _ rfl).2
  have hlisted : lastListed webEnv ([] ++ webResync.msgs.toList) = fun _ => some (str "7") := by
    funext r
    exact lastListed_web r
  rw [hlisted] at hurls
  exact ⟨_, _, _, _, hrun, congrArg (Phase.watch · _ _) hurls⟩

/--
Where all transfers are done and the rebuild returns, the thread follows a null pointer exactly if there is a resource
that it has never taken a list of. That cannot happen any more once the thread has watched.
-/
theorem resyncTurn_nullPointer_iff (server : Str) (start : Cluster) (data : ρ) (gets : List (List Completion))
    (thread : WatcherThread ρ)
    (hrun : WatcherThread.Runs env cfg callback server ⟨.resync start, fun _ => none, data⟩ gets thread)
    (turn : ResyncTurn) (msgs : List Completion) (hmsgs : turn.msgs = some msgs) (hok : NoFailure msgs)
    (res : GetAllResult) (hres : fetcherGetAll env cfg thread.phase.wtCluster thread.version msgs = .ok res)
    (cs : Cluster) (data' : ρ) (hcallback : callback res.wtCluster thread.data = .ok (cs, data'))
    (hmulti : turn.multi = true) (heasy : ∀ r, turn.easy r = true)
    : (resyncTurn env cfg callback server turn thread.phase.wtCluster thread.version thread.data
          = .error .nullPointer
        ↔
      ∃ r, lastListed env (gets ++ [msgs]) r = none)
        ∧
      ∀ gets' before urls deadline fs,
        WatcherThread.Runs env cfg callback server ⟨.resync start, fun _ => none, data⟩ gets' before →
        before.phase = .watch urls deadline fs →
        Relation.ReflTransGen (WatcherThread.Step env cfg callback server) before thread →
        Except.Returns
          (resyncTurn env cfg callback server turn thread.phase.wtCluster thread.version thread.data) := by
  have hversion : ∀ r, res.version r = lastListed env (gets ++ [msgs]) r := by
    intro r
    rw [fetcherGetAll_version hres, hrun.version_eq r, lastListed_append, Option.or_none]
  constructor
  . constructor
    . intro herror
      by_contra hsome
      rw [not_exists] at hsome
      have hversion' : ∀ r, (res.version r).isSome := by
        intro r
        rw [hversion]
        exact Option.isSome_iff_ne_none.mpr (hsome r)
      rw [resyncTurn_of_some hmsgs hok hres hcallback hmulti heasy hversion'] at herror
      cases herror
    . rintro ⟨r, hr⟩
      rw [← hversion] at hr
      exact resyncTurn_of_none hmsgs hok hres hcallback hmulti heasy hr
  . intro gets' before urls deadline fs hbefore hphase hafter
    refine ⟨_, resyncTurn_of_some hmsgs hok hres hcallback hmulti heasy ?_⟩
    intro r
    have hr := WatcherThread.version_isSome hafter ((WatcherThread.urls_eq rfl hbefore.steps hphase).1 r)
    rw [fetcherGetAll_version hres, Option.isSome_or]
    simpa using .inr hr

-- A server that forbids the lists, for a thread that has seen none before.
theorem resyncTurn_nullPointer_forbidden
    : resyncTurn plainEnv ⟨hashNew 11, none, none⟩ noCallback (str "http://api")
          ⟨some (resources.map fun r => ⟨r, some (str "Forbidden")⟩), true, fun _ => true, 0⟩ clusterMake
          (fun _ => none) ()
        = .error .nullPointer := by
  apply (resyncTurn_nullPointer_iff (str "http://api") clusterMake () [] _ .refl
    ⟨some (resources.map fun r => ⟨r, some (str "Forbidden")⟩), true, fun _ => true, 0⟩ _ rfl (by simp [NoFailure])
    _ rfl clusterMake () rfl rfl (fun _ => rfl)).1.mpr
  exact ⟨.services, by decide⟩

end
