import TsIngress.Api.Impl.Types

/-!
This module contains `api/namespace.c` and the access to namespaces in `api/cluster.c`. Code that
holds a pointer to a namespace writes through `Cluster.modifyNamespace`.
-/

def namespaceMake (name : Str) : Namespace where
  nsName := name
  nsIngresses := hashNew 127
  nsSecrets := hashNew 127
  nsServices := hashNew 127
  nsEndpointses := hashNew 127

-- All `namespace_put_*` functions delete one binding of the name before they add theirs.
def hashPut (hs : Hash α) (name : Str) (v : α) : Hash α :=
  hashSet (hashDel hs name) name v

def namespacePutIngress (ns : Namespace) (ing : Ingress) : Namespace :=
  { ns with nsIngresses := hashPut ns.nsIngresses ing.inName ing }

def namespaceGetIngress (ns : Namespace) (name : Str) : Option Ingress :=
  hashGet ns.nsIngresses name

def namespaceDelIngress (ns : Namespace) (name : Str) : Namespace :=
  { ns with nsIngresses := hashDel ns.nsIngresses name }

def namespacePutSecret (ns : Namespace) (sec : Secret) : Namespace :=
  { ns with nsSecrets := hashPut ns.nsSecrets sec.seName sec }

def namespaceGetSecret (ns : Namespace) (name : Str) : Option Secret :=
  hashGet ns.nsSecrets name

def namespaceDelSecret (ns : Namespace) (name : Str) : Namespace :=
  { ns with nsSecrets := hashDel ns.nsSecrets name }

def namespacePutService (ns : Namespace) (svc : Service) : Namespace :=
  { ns with nsServices := hashPut ns.nsServices svc.svName svc }

def namespaceGetService (ns : Namespace) (name : Str) : Option Service :=
  hashGet ns.nsServices name

def namespaceDelService (ns : Namespace) (name : Str) : Namespace :=
  { ns with nsServices := hashDel ns.nsServices name }

def namespacePutEndpoints (ns : Namespace) (eps : Endpoints) : Namespace :=
  { ns with nsEndpointses := hashPut ns.nsEndpointses eps.epName eps }

def namespaceGetEndpoints (ns : Namespace) (name : Str) : Option Endpoints :=
  hashGet ns.nsEndpointses name

def namespaceDelEndpoints (ns : Namespace) (name : Str) : Namespace :=
  { ns with nsEndpointses := hashDel ns.nsEndpointses name }

-- A namespace that is asked for comes into being.
def clusterGetNamespace (cs : Cluster) (name : Str) : Namespace × Cluster :=
  match hashGet cs.csNamespaces name with
  | some ns => (ns, cs)
  | none =>
    let ns := namespaceMake name
    (ns, { cs with csNamespaces := hashSet cs.csNamespaces name ns })

def Cluster.modifyNamespace (cs : Cluster) (name : Str) (f : Namespace → Namespace) : Cluster :=
  { cs with csNamespaces := cs.csNamespaces.modify name f }
