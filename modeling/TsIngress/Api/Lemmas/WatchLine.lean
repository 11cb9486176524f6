import TsIngress.Api.Impl.WatcherThread
import TsIngress.Api.Lemmas.Converge
import TsIngress.Api.Lemmas.History

/-!
This module contains what a line of a watch does to the cluster, as one effect that is known before it is carried
out.
-/

def Resource.watchKind : Resource → String
  | .services => "Service"
  | .endpoints => "Endpoints"
  | .secrets => "Secret"
  | .configmaps => "ConfigMap"
  | .ingresses => "Ingress"

def ResourceKind.resource : ResourceKind → Resource
  | .ingress => .ingresses
  | .service => .services
  | .secret => .secrets
  | .endpoints => .endpoints

theorem Resource.watchKind_inj {r r' : Resource} (h : str r.watchKind = str r'.watchKind) : r = r' := by
  revert h
  cases r <;> cases r' <;> decide

theorem ResourceKind.resource_inj {kind kind' : ResourceKind} (h : kind.resource = kind'.resource)
    : kind = kind' := by
  revert h
  cases kind <;> cases kind' <;> decide

structure LineEvent where
  kind : Str
  ns : Str
  name : Str
  deleted : Bool
  object : Json

def lineEvent (env : Env) (line : Str) : Option LineEvent := do
  let obj ← env.jsonTokenerParse line
  let stype ← jsonStringMember obj "type"
  let o ← jsonObjectMember obj "object"
  let skind ← jsonStringMember o "kind"
  let metadata ← jsonObjectMember o "metadata"
  let ns ← jsonStringMember metadata "namespace"
  let name ← jsonStringMember metadata "name"
  return ⟨skind, ns, name, stype == str "DELETED", o⟩

inductive LineEffect where
  | nothing
  -- the object could not be made, but the flag is set
  | touched
  | put (kind : ResourceKind) (obj : kind.Obj)
  | del (kind : ResourceKind) (name : Str)
  | config (cc : ClusterConfig)

def LineEffect.apply (ns : Str) (fe : FetcherCtx) : LineEffect → FetcherCtx
  | .nothing => { fe with wtCluster := (clusterGetNamespace fe.wtCluster ns).2 }
  | .touched => ⟨(clusterGetNamespace fe.wtCluster ns).2, true⟩
  | .put kind obj => ⟨(StoreOp.put kind ns obj).apply fe.wtCluster, true⟩
  | .del kind name => ⟨(StoreOp.del kind ns name).apply fe.wtCluster, true⟩
  | .config cc => ⟨{ (clusterGetNamespace fe.wtCluster ns).2 with csConfig := cc }, true⟩

namespace LineEvent

def objectEffect (env : Env) (kind : ResourceKind) (ev : LineEvent) : Result LineEffect :=
  if ev.deleted then
    .ok (.del kind ev.name)
  else do
    match ← kind.make env ev.object with
    | none => return .touched
    | some obj => return .put kind obj

def configmapEffect (cfg : K8sConfig) (ev : LineEvent) : LineEffect :=
  if isControllerMap cfg ev.ns ev.name then
    if ev.deleted then
      .config clusterConfigNew
    else
      match configmapMake ev.object with
      | none => .touched
      | some cm => .config (clusterConfigOf cm)
  else
    .nothing

def endpointsEffect (old : Option Endpoints) (ev : LineEvent) : LineEffect :=
  if ev.deleted then
    .del .endpoints ev.name
  else
    match endpointsMake ev.object with
    | none => .nothing
    | some eps =>
      match old with
      | none => .put .endpoints eps
      | some old => if endpointsEqual eps old then .nothing else .put .endpoints eps

def effect (env : Env) (cfg : K8sConfig) (cs : Cluster) (ev : LineEvent) : Result LineEffect :=
  if ev.kind = str "Ingress" then
    ev.objectEffect env .ingress
  else if ev.kind = str "Service" then
    ev.objectEffect env .service
  else if ev.kind = str "Secret" then
    ev.objectEffect env .secret
  else if ev.kind = str "ConfigMap" then
    .ok (ev.configmapEffect cfg)
  else if ev.kind = str "Endpoints" then
    .ok (ev.endpointsEffect (clusterQuery cs .endpoints ev.ns ev.name))
  else
    .ok .nothing

theorem feWatchObject_eq (env : Env) (kind : ResourceKind) (ev : LineEvent) (fe : FetcherCtx)
    : feWatchObject (kind.make env ev.object) kind.put kind.del ev.ns ev.name ev.deleted
          { fe with wtCluster := (clusterGetNamespace fe.wtCluster ev.ns).2 }
        =
      (ev.objectEffect env kind).map (LineEffect.apply ev.ns fe) := by
  unfold feWatchObject objectEffect
  split
  . rfl
  . rcases Except.eq_ok_or_eq_error (kind.make env ev.object) with ⟨made, hmade⟩ | ⟨e, he⟩
    . rw [hmade]
      cases made with
      | none => rfl
      | some obj => rfl
    . rw [he]
      rfl

theorem feWatchConfigmap_eq (cfg : K8sConfig) (ev : LineEvent) (fe : FetcherCtx)
    : feWatchConfigmap cfg ev.ns ev.name ev.deleted ev.object
          { fe with wtCluster := (clusterGetNamespace fe.wtCluster ev.ns).2 }
        =
      (ev.configmapEffect cfg).apply ev.ns fe := by
  unfold feWatchConfigmap configmapEffect
  split
  . split
    . rfl
    . cases configmapMake ev.object with
      | none => rfl
      | some cm => rfl
  . rfl

theorem feWatchEndpoints_eq (ev : LineEvent) (fe : FetcherCtx)
    : feWatchEndpoints ev.ns ev.name ev.deleted ev.object
          { fe with wtCluster := (clusterGetNamespace fe.wtCluster ev.ns).2 }
        =
      (ev.endpointsEffect (clusterQuery fe.wtCluster .endpoints ev.ns ev.name)).apply ev.ns fe := by
  unfold feWatchEndpoints endpointsEffect clusterQuery
  split
  . rfl
  . cases endpointsMake ev.object with
    | none => rfl
    | some eps =>
      dsimp only
      rw [clusterGetNamespace_twice]
      cases namespaceGetEndpoints (clusterGetNamespace fe.wtCluster ev.ns).1 ev.name with
      | none => rfl
      | some old =>
        dsimp only
        split
        . rfl
        . rfl

end LineEvent

theorem feWatchLine_eq_effect (env : Env) (cfg : K8sConfig) (fe : FetcherCtx) (line : Str)
    : feWatchLine env cfg fe line
        =
      match lineEvent env line with
      | none => .ok fe
      | some ev => (ev.effect env cfg fe.wtCluster).map (LineEffect.apply ev.ns fe) := by
  unfold feWatchLine lineEvent
  cases env.jsonTokenerParse line with
  | none => rfl
  | some obj =>
    dsimp only [Option.bind_eq_bind, Option.bind_some]
    cases jsonStringMember obj "type" with
    | none => rfl
    | some stype =>
      cases jsonObjectMember obj "object" with
      | none => rfl
      | some o =>
        dsimp only [Option.bind_some]
        cases jsonStringMember o "kind" with
        | none => rfl
        | some skind =>
          cases jsonObjectMember o "metadata" with
          | none => rfl
          | some metadata =>
            dsimp only [Option.bind_some]
            cases jsonStringMember metadata "namespace" with
            | none => rfl
            | some ns =>
              cases jsonStringMember metadata "name" with
              | none => rfl
              | some name =>
                let ev : LineEvent := ⟨skind, ns, name, stype == str "DELETED", o⟩
                have hobject := fun kind => LineEvent.feWatchObject_eq env kind ev fe
                have hconfigmap := LineEvent.feWatchConfigmap_eq cfg ev fe
                have hendpoints := LineEvent.feWatchEndpoints_eq ev fe
                dsimp only [Option.bind_some, Option.pure_def]
                unfold LineEvent.effect
                dsimp only
                split
                . exact hobject .ingress
                . split
                  . exact hobject .service
                  . split
                    . exact hobject .secret
                    . split
                      . exact congrArg Except.ok hconfigmap
                      . split
                        . exact congrArg Except.ok hendpoints
                        . rfl
