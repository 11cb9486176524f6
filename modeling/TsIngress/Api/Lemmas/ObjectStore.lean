import TsIngress.Api.Impl.Watcher
import Mathlib.Data.List.AList

/-!
This module contains the cluster as a map from the kinds, namespaces and names of objects to the objects
themselves. The tables of a namespace behave like that map as long as no key is bound twice.
-/

inductive ResourceKind where
  | ingress
  | service
  | secret
  | endpoints
  deriving DecidableEq, Repr

structure ObjectKey where
  kind : ResourceKind
  ns : Str
  name : Str
  deriving DecidableEq

namespace ResourceKind

abbrev Obj : ResourceKind → Type
  | .ingress => Ingress
  | .service => Service
  | .secret => Secret
  | .endpoints => Endpoints

def make (env : Env) : (kind : ResourceKind) → Json → Result (Option kind.Obj)
  | .ingress, item => ingressMake env item
  | .service, item => serviceMake env item
  | .secret, item => .ok (secretMake item)
  | .endpoints, item => .ok (endpointsMake item)

def nameOf : (kind : ResourceKind) → kind.Obj → Str
  | .ingress, ing => Ingress.inName ing
  | .service, svc => Service.svName svc
  | .secret, sec => Secret.seName sec
  | .endpoints, eps => Endpoints.epName eps

def namespaceOf : (kind : ResourceKind) → kind.Obj → Str
  | .ingress, ing => Ingress.inNamespace ing
  | .service, svc => Service.svNamespace svc
  | .secret, sec => Secret.seNamespace sec
  | .endpoints, eps => Endpoints.epNamespace eps

def table : (kind : ResourceKind) → Namespace → Hash kind.Obj
  | .ingress, ns => ns.nsIngresses
  | .service, ns => ns.nsServices
  | .secret, ns => ns.nsSecrets
  | .endpoints, ns => ns.nsEndpointses

def put : (kind : ResourceKind) → Namespace → kind.Obj → Namespace
  | .ingress => namespacePutIngress
  | .service => namespacePutService
  | .secret => namespacePutSecret
  | .endpoints => namespacePutEndpoints

def del : (kind : ResourceKind) → Namespace → Str → Namespace
  | .ingress => namespaceDelIngress
  | .service => namespaceDelService
  | .secret => namespaceDelSecret
  | .endpoints => namespaceDelEndpoints

theorem table_namespaceMake (kind : ResourceKind) (name : Str)
    : kind.table (namespaceMake name) = hashNew 127 := by
  cases kind <;> rfl

theorem table_put (kind : ResourceKind) (ns : Namespace) (obj : kind.Obj)
    : kind.table (kind.put ns obj) = hashPut (kind.table ns) (kind.nameOf obj) obj := by
  cases kind <;> rfl

theorem table_put_of_ne {kind kind' : ResourceKind} (hne : kind' ≠ kind) (ns : Namespace) (obj : kind.Obj)
    : kind'.table (kind.put ns obj) = kind'.table ns := by
  cases kind <;> cases kind' <;> first | rfl | exact absurd rfl hne

theorem table_del (kind : ResourceKind) (ns : Namespace) (name : Str)
    : kind.table (kind.del ns name) = hashDel (kind.table ns) name := by
  cases kind <;> rfl

theorem table_del_of_ne {kind kind' : ResourceKind} (hne : kind' ≠ kind) (ns : Namespace) (name : Str)
    : kind'.table (kind.del ns name) = kind'.table ns := by
  cases kind <;> cases kind' <;> first | rfl | exact absurd rfl hne

def made (env : Env) (kind : ResourceKind) (item : Json) : Option kind.Obj :=
  match kind.make env item with
  | .ok obj => obj
  | .error _ => none

end ResourceKind

def clusterQuery (cs : Cluster) : (kind : ResourceKind) → (ns name : Str) → Option kind.Obj
  | .ingress, ns, name => namespaceGetIngress (clusterGetNamespace cs ns).1 name
  | .service, ns, name => namespaceGetService (clusterGetNamespace cs ns).1 name
  | .secret, ns, name => namespaceGetSecret (clusterGetNamespace cs ns).1 name
  | .endpoints, ns, name => namespaceGetEndpoints (clusterGetNamespace cs ns).1 name

theorem clusterQuery_eq (cs : Cluster) (kind : ResourceKind) (ns name : Str)
    : clusterQuery cs kind ns name = hashGet (kind.table (clusterGetNamespace cs ns).1) name := by
  cases kind <;> rfl

theorem hashGet_hashPut_self (hs : Hash α) (name : Str) (v : α)
    : hashGet (hashPut hs name v) name = some v := by
  exact ChainTable.get_set_self _ _ _

theorem hashGet_hashPut_ne (hs : Hash α) {name name' : Str} (v : α) (hne : name' ≠ name)
    : hashGet (hashPut hs name v) name' = hashGet hs name' := by
  dsimp only [hashPut, hashGet, hashSet, hashDel]
  rw [ChainTable.get_set_ne _ _ _ _ hne, ChainTable.get_del_ne _ _ _ hne]

theorem uniqueKeys_hashPut {hs : Hash α} (h : hs.UniqueKeys) (name : Str) (v : α)
    : (hashPut hs name v).UniqueKeys := by
  exact (h.del name).set (ChainTable.get_del_self h name) v

theorem clusterGetNamespace_fst (cs : Cluster) (name : Str)
    : (clusterGetNamespace cs name).1 = (hashGet cs.csNamespaces name).getD (namespaceMake name) := by
  unfold clusterGetNamespace
  cases hashGet cs.csNamespaces name <;> rfl

theorem hashGet_clusterGetNamespace (cs : Cluster) (name name' : Str)
    : hashGet (clusterGetNamespace cs name).2.csNamespaces name'
        =
      if name' = name then some (clusterGetNamespace cs name).1 else hashGet cs.csNamespaces name' := by
  unfold clusterGetNamespace
  split
  . next ns hns =>
    split
    . next heq => rw [heq, hns]
    . rfl
  . exact ChainTable.get_set _ _ _ _

theorem clusterGetNamespace_twice (cs : Cluster) (name name' : Str)
    : (clusterGetNamespace (clusterGetNamespace cs name).2 name').1 = (clusterGetNamespace cs name').1 := by
  rw [clusterGetNamespace_fst, hashGet_clusterGetNamespace]
  split
  . next heq => rw [heq, Option.getD_some]
  . rw [clusterGetNamespace_fst]

theorem clusterQuery_clusterGetNamespace (cs : Cluster) (name : Str) (kind : ResourceKind) (ns name' : Str)
    : clusterQuery (clusterGetNamespace cs name).2 kind ns name' = clusterQuery cs kind ns name' := by
  rw [clusterQuery_eq, clusterQuery_eq, clusterGetNamespace_twice]

theorem clusterGetNamespace_modify (cs : Cluster) (name name' : Str) (f : Namespace → Namespace)
    : (clusterGetNamespace ((clusterGetNamespace cs name).2.modifyNamespace name f) name').1
        =
      if name' = name then f (clusterGetNamespace cs name).1 else (clusterGetNamespace cs name').1 := by
  have hget := hashGet_clusterGetNamespace cs name name'
  rw [clusterGetNamespace_fst]
  dsimp only [Cluster.modifyNamespace, hashGet] at hget ⊢
  split at hget
  . next heq =>
    subst heq
    rw [ChainTable.get_modify_self, hget, if_pos rfl]
    rfl
  . next hne =>
    rw [ChainTable.get_modify_ne _ _ _ _ hne, hget, if_neg hne, clusterGetNamespace_fst]

section

variable (cs : Cluster) (kind : ResourceKind) (obj : kind.Obj) (ns : Str)

theorem clusterQuery_put (ns' name : Str)
    : clusterQuery ((clusterGetNamespace cs ns).2.modifyNamespace ns (kind.put · obj)) kind ns' name
        =
      if ns = ns' ∧ kind.nameOf obj = name then some obj else clusterQuery cs kind ns' name := by
  rw [clusterQuery_eq, clusterQuery_eq, clusterGetNamespace_modify]
  by_cases hns : ns = ns'
  . subst hns
    rw [if_pos rfl, ResourceKind.table_put]
    by_cases hname : kind.nameOf obj = name
    . rw [hname, hashGet_hashPut_self, if_pos ⟨rfl, rfl⟩]
    . rw [hashGet_hashPut_ne _ _ (Ne.symm hname), if_neg (fun h => hname h.2)]
  . rw [if_neg (Ne.symm hns), if_neg (fun h => hns h.1)]

theorem clusterQuery_put_of_ne {kind' : ResourceKind} (hne : kind' ≠ kind) (ns' name : Str)
    : clusterQuery ((clusterGetNamespace cs ns).2.modifyNamespace ns (kind.put · obj)) kind' ns' name
        =
      clusterQuery cs kind' ns' name := by
  rw [clusterQuery_eq, clusterQuery_eq, clusterGetNamespace_modify]
  split
  . next hns => rw [ResourceKind.table_put_of_ne hne, hns]
  . rfl

end

-- The cluster holds exactly the objects of the map.
structure Represents (env : Env) (cs : Cluster) (m : ObjectKey → Option Json) : Prop where
  unique : ∀ (kind : ResourceKind) (ns : Str), (kind.table (clusterGetNamespace cs ns).1).UniqueKeys
  query : ∀ (kind : ResourceKind) (ns name : Str),
    clusterQuery cs kind ns name = (m ⟨kind, ns, name⟩).bind (kind.made env)

theorem clusterGetNamespace_clusterMake (name : Str)
    : (clusterGetNamespace clusterMake name).1 = namespaceMake name := by
  rfl

namespace Represents

variable {env : Env} {cs : Cluster} {m : ObjectKey → Option Json}

theorem clusterMake (env : Env) : Represents env clusterMake (fun _ => none) where
  unique := by
    intro kind ns
    rw [clusterGetNamespace_clusterMake, ResourceKind.table_namespaceMake]
    apply ChainTable.uniqueKeys_new
  query := by
    intro kind ns name
    rw [clusterQuery_eq, clusterGetNamespace_clusterMake, ResourceKind.table_namespaceMake]
    rfl

theorem query_eq {cs' : Cluster} (h : Represents env cs m) (h' : Represents env cs' m)
    (kind : ResourceKind) (ns name : Str)
    : clusterQuery cs kind ns name = clusterQuery cs' kind ns name := by
  rw [h.query, h'.query]

theorem getNamespace (h : Represents env cs m) (name : Str)
    : Represents env (clusterGetNamespace cs name).2 m where
  unique := by
    intro kind ns
    rw [clusterGetNamespace_twice]
    exact h.unique kind ns
  query := by
    intro kind ns name'
    rw [clusterQuery_clusterGetNamespace]
    exact h.query kind ns name'

theorem update_self (h : Represents env cs m) (key : ObjectKey) {item : Option Json}
    (hitem : clusterQuery cs key.kind key.ns key.name = item.bind (key.kind.made env))
    : Represents env cs (Function.update m key item) where
  unique := h.unique
  query := by
    intro kind ns name
    by_cases hkey : (⟨kind, ns, name⟩ : ObjectKey) = key
    . subst hkey
      rw [Function.update_self]
      exact hitem
    . rw [Function.update_of_ne hkey]
      exact h.query kind ns name

theorem write (h : Represents env cs m) (key : ObjectKey) {item : Option Json}
    {f : Namespace → Namespace}
    (hunique : (key.kind.table (f (clusterGetNamespace cs key.ns).1)).UniqueKeys)
    (hself : hashGet (key.kind.table (f (clusterGetNamespace cs key.ns).1)) key.name
      = item.bind (key.kind.made env))
    (hname : ∀ name, name ≠ key.name →
      hashGet (key.kind.table (f (clusterGetNamespace cs key.ns).1)) name
        = hashGet (key.kind.table (clusterGetNamespace cs key.ns).1) name)
    (hkind : ∀ kind ns, kind ≠ key.kind → kind.table (f ns) = kind.table ns)
    : Represents env ((clusterGetNamespace cs key.ns).2.modifyNamespace key.ns f)
        (Function.update m key item) where
  unique := by
    intro kind ns
    rw [clusterGetNamespace_modify]
    split
    . next hns =>
      subst hns
      by_cases hk : kind = key.kind
      . subst hk
        exact hunique
      . rw [hkind kind _ hk]
        exact h.unique kind _
    . exact h.unique kind ns
  query := by
    intro kind ns name
    rw [clusterQuery_eq, clusterGetNamespace_modify]
    by_cases hkey : (⟨kind, ns, name⟩ : ObjectKey) = key
    . subst hkey
      rw [Function.update_self, if_pos rfl]
      exact hself
    . rw [Function.update_of_ne hkey, ← h.query kind ns name, clusterQuery_eq]
      split
      . next hns =>
        subst hns
        by_cases hk : kind = key.kind
        . subst hk
          apply hname
          intro hn
          subst hn
          exact hkey rfl
        . rw [hkind kind _ hk]
      . rfl

theorem put (h : Represents env cs m) (key : ObjectKey) {item : Json} {obj : key.kind.Obj}
    (hmade : key.kind.make env item = .ok (some obj)) (hname : key.kind.nameOf obj = key.name)
    : Represents env ((clusterGetNamespace cs key.ns).2.modifyNamespace key.ns (key.kind.put · obj))
        (Function.update m key (some item)) := by
  apply h.write key
  . rw [ResourceKind.table_put]
    exact uniqueKeys_hashPut (h.unique _ _) _ _
  . rw [ResourceKind.table_put, hname, hashGet_hashPut_self]
    simp [ResourceKind.made, hmade]
  . intro name hne
    rw [ResourceKind.table_put, hname, hashGet_hashPut_ne _ _ hne]
  . intro kind ns hne
    exact ResourceKind.table_put_of_ne hne ns obj

theorem del (h : Represents env cs m) (key : ObjectKey)
    : Represents env ((clusterGetNamespace cs key.ns).2.modifyNamespace key.ns (key.kind.del · key.name))
        (Function.update m key none) := by
  apply h.write key
  . rw [ResourceKind.table_del]
    exact (h.unique _ _).del _
  . rw [ResourceKind.table_del]
    exact ChainTable.get_del_self (h.unique _ _) _
  . intro name hne
    rw [ResourceKind.table_del]
    exact ChainTable.get_del_ne _ _ _ hne
  . intro kind ns hne
    exact ResourceKind.table_del_of_ne hne ns _

end Represents
