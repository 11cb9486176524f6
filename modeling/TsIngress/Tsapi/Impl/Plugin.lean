import TsIngress.Api.Impl.WatcherThread
import TsIngress.Remap.Impl.Build
import TsIngress.Tsapi.Impl.Config

/-!
This module contains the state of the plugin in `tsapi/plugin.h` and `rebuild_maps` of `tsapi/remap.c`, which the
watcher calls back.
-/

structure State where
  config : LoadedConfig
  db : Option RemapDb

def rebuildMaps (env : Env) (cluster : Cluster) (state : State) : Result (Cluster × State) := do
  let (newdb, cluster) ← remapDbFromCluster env state.config.toK8sConfig cluster
  return (cluster, { state with db := some newdb })
