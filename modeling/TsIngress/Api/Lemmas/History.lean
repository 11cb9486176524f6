import TsIngress.Api.Lemmas.ObjectStore

/-!
This module contains the histories of a cluster: the calls that put objects into its namespaces and
delete them. Whatever the history is, no key is bound twice and everything stands under its own name.
-/

inductive StoreOp where
  | put (kind : ResourceKind) (ns : Str) (obj : kind.Obj)
  | del (kind : ResourceKind) (ns name : Str)

def StoreOp.apply (cs : Cluster) (op : StoreOp) : Cluster :=
  match op with
  | .put kind ns obj => (clusterGetNamespace cs ns).2.modifyNamespace ns (kind.put · obj)
  | .del kind ns name => (clusterGetNamespace cs ns).2.modifyNamespace ns (kind.del · name)

def clusterAfter (config : ClusterConfig) (history : List StoreOp) : Cluster :=
  history.foldl StoreOp.apply { clusterMake with csConfig := config }

theorem clusterAfter_concat (config : ClusterConfig) (history : List StoreOp) (op : StoreOp)
    : clusterAfter config (history ++ [op]) = op.apply (clusterAfter config history) := by
  unfold clusterAfter
  rw [List.foldl_append]
  rfl

theorem clusterQuery_put_again {cs : Cluster} {kind : ResourceKind} {ns : Str} {obj : kind.Obj}
    (h : clusterQuery cs kind ns (kind.nameOf obj) = some obj) (kind' : ResourceKind) (ns' name : Str)
    : clusterQuery ((StoreOp.put kind ns obj).apply cs) kind' ns' name = clusterQuery cs kind' ns' name := by
  unfold StoreOp.apply
  dsimp only
  by_cases hkind : kind' = kind
  . subst hkind
    rw [clusterQuery_put]
    split
    . next hkey => rw [← hkey.1, ← hkey.2, h]
    . rfl
  . rw [clusterQuery_put_of_ne _ _ _ _ hkind]

structure TidyNamespace (name : Str) (ns : Namespace) : Prop where
  nsName_eq : ns.nsName = name
  size_eq : ns.nsIngresses.size = 127
  unique : ns.nsIngresses.UniqueKeys
  inName_eq : ∀ key ing, hashGet ns.nsIngresses key = some ing → ing.inName = key

structure TidyCluster (cs : Cluster) : Prop where
  size_eq : cs.csNamespaces.size = 127
  unique : cs.csNamespaces.UniqueKeys
  namespaces : ∀ name, TidyNamespace name (clusterGetNamespace cs name).1

namespace TidyNamespace

variable {name : Str} {ns : Namespace}

theorem make (name : Str) : TidyNamespace name (namespaceMake name) where
  nsName_eq := rfl
  size_eq := rfl
  unique := by
    apply ChainTable.uniqueKeys_new
  inName_eq := by
    intro key ing h
    cases h

theorem put (h : TidyNamespace name ns) (kind : ResourceKind) (obj : kind.Obj)
    : TidyNamespace name (kind.put ns obj) := by
  cases kind with
  | ingress =>
    refine ⟨h.nsName_eq, h.size_eq, uniqueKeys_hashPut h.unique _ _, ?_⟩
    intro key ing hget
    by_cases hkey : key = Ingress.inName obj
    . subst hkey
      have hself := hashGet_hashPut_self ns.nsIngresses (Ingress.inName obj) obj
      cases hself.symm.trans hget
      rfl
    . apply h.inName_eq
      rw [← hget]
      exact (hashGet_hashPut_ne ns.nsIngresses obj hkey).symm
  | service => exact ⟨h.nsName_eq, h.size_eq, h.unique, h.inName_eq⟩
  | secret => exact ⟨h.nsName_eq, h.size_eq, h.unique, h.inName_eq⟩
  | endpoints => exact ⟨h.nsName_eq, h.size_eq, h.unique, h.inName_eq⟩

theorem del (h : TidyNamespace name ns) (kind : ResourceKind) (deleted : Str)
    : TidyNamespace name (kind.del ns deleted) := by
  cases kind with
  | ingress =>
    refine ⟨h.nsName_eq, h.size_eq, h.unique.del deleted, ?_⟩
    intro key ing hget
    apply h.inName_eq
    rw [← hget]
    have hne : key ≠ deleted := by
      intro heq
      subst heq
      cases (ChainTable.get_del_self h.unique key).symm.trans hget
    exact (ChainTable.get_del_ne _ _ _ hne).symm
  | service => exact ⟨h.nsName_eq, h.size_eq, h.unique, h.inName_eq⟩
  | secret => exact ⟨h.nsName_eq, h.size_eq, h.unique, h.inName_eq⟩
  | endpoints => exact ⟨h.nsName_eq, h.size_eq, h.unique, h.inName_eq⟩

end TidyNamespace

namespace TidyCluster

variable {cs : Cluster}

theorem getNamespace (h : TidyCluster cs) (name : Str) : TidyCluster (clusterGetNamespace cs name).2 where
  size_eq := by
    rw [← h.size_eq]
    unfold clusterGetNamespace
    split <;> rfl
  unique := by
    unfold clusterGetNamespace
    split
    . exact h.unique
    . next hnone => exact h.unique.set hnone _
  namespaces := by
    intro name'
    rw [clusterGetNamespace_twice]
    exact h.namespaces name'

theorem write (h : TidyCluster cs) (name : Str) {f : Namespace → Namespace}
    (hf : ∀ ns, TidyNamespace name ns → TidyNamespace name (f ns))
    : TidyCluster ((clusterGetNamespace cs name).2.modifyNamespace name f) where
  size_eq := (h.getNamespace name).size_eq
  unique := by
    apply (h.getNamespace name).unique.modify
  namespaces := by
    intro name'
    rw [clusterGetNamespace_modify]
    split
    . next heq =>
      subst heq
      exact hf _ (h.namespaces name')
    . exact h.namespaces name'

theorem apply (h : TidyCluster cs) (op : StoreOp) : TidyCluster (op.apply cs) := by
  cases op with
  | put kind ns obj => exact h.write ns (fun ns' h' => h'.put kind obj)
  | del kind ns name => exact h.write ns (fun ns' h' => h'.del kind name)

theorem after (config : ClusterConfig) (history : List StoreOp)
    : TidyCluster (clusterAfter config history) := by
  have hall : ∀ cs, TidyCluster cs → TidyCluster (history.foldl StoreOp.apply cs) := by
    induction history with
    | nil =>
      intro cs h
      exact h
    | cons op history ih =>
      intro cs h
      exact ih _ (h.apply op)
  apply hall
  refine ⟨rfl, ChainTable.uniqueKeys_new _ _, ?_⟩
  intro name
  exact TidyNamespace.make name

theorem getNamespace_of_mem (h : TidyCluster cs) {ns : Namespace} (hns : ns ∈ hashValues cs.csNamespaces)
    : (clusterGetNamespace cs ns.nsName).1 = ns := by
  unfold hashValues at hns
  rw [List.mem_map] at hns
  rcases hns with ⟨⟨key, ns'⟩, hmem, rfl⟩
  have hkey : hashGet cs.csNamespaces key = some ns' := (h.unique.mem_entries_iff key ns').mp hmem
  have hget : (clusterGetNamespace cs key).1 = ns' := by
    rw [clusterGetNamespace_fst, hkey, Option.getD_some]
  have hname := (h.namespaces key).nsName_eq
  rw [hget] at hname
  rw [hname, hget]

end TidyCluster

theorem csConfig_clusterAfter (config : ClusterConfig) (history : List StoreOp)
    : (clusterAfter config history).csConfig = config := by
  have hget : ∀ cs name, (clusterGetNamespace cs name).2.csConfig = cs.csConfig := by
    intro cs name
    unfold clusterGetNamespace
    split <;> rfl
  have hop : ∀ (op : StoreOp) (cs : Cluster), (op.apply cs).csConfig = cs.csConfig := by
    intro op cs
    cases op with
    | put kind ns obj => exact hget cs ns
    | del kind ns name => exact hget cs ns
  have hall : ∀ cs, (history.foldl StoreOp.apply cs).csConfig = cs.csConfig := by
    induction history with
    | nil =>
      intro cs
      rfl
    | cons op history ih =>
      intro cs
      rw [List.foldl_cons, ih, hop]
  exact hall _
