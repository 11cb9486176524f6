import TsIngress.Remap.Impl.Build
import TsIngress.Lib.KeyedRun

/-!
This module contains the build of a database as a list of operations on single hosts. What the
operations are is read off the cluster before any of them is carried out.
-/

def RemapHost.attachDefault (env : Env) (dflt : Option Secret) (rh : RemapHost) : RemapHost :=
  match dflt with
  | none => rh
  | some srt => { rh with rhCtx := secretMakeSslCtx env srt }

inductive HostOp where
  | rule (dflt : Option Secret) (ns : Namespace) (ing : Ingress) (paths : List IngressPath)
  | tls (secret : Secret)

def HostOp.apply (env : Env) (cs : Cluster) (op : HostOp) (rh : RemapHost) : Result RemapHost :=
  match op with
  | .rule dflt ns ing paths =>
    paths.foldlM (buildIngressPath env cs ns ing) (rh.attachDefault env dflt)
  | .tls secret => .ok { rh with rhCtx := secretMakeSslCtx env secret }

inductive BuildStep where
  -- a TLS entry without the name of a secret
  | noSecretName
  | host (hostname : Str) (op : HostOp)

def BuildStep.run (env : Env) (cs : Cluster) (hosts : Hash RemapHost) (step : BuildStep)
    : Result (Hash RemapHost) :=
  match step with
  | .noSecretName => .error .nullPointer
  | .host hostname op => KeyedRun.upsert hosts hostname remapHostNew (op.apply env cs)

def defaultSecret (cs : Cluster) (host : Str) : Option Secret :=
  match clusterGetCertForHostname cs host with
  | none => none
  | some crt =>
    match hashGet cs.csNamespaces crt.crNamespace with
    | none => none
    | some ns => namespaceGetSecret ns crt.crName

def Namespace.objects (ns : Namespace) : Namespace :=
  { ns with nsIngresses := hashNew 127 }

def ruleSteps (cs : Cluster) (ns : Namespace) (ing : Ingress) (rule : IngressRule) : List BuildStep :=
  match rule.irHost with
  | none => []
  | some host =>
    if clusterDomainForNs cs host ns.nsName then
      [.host host (.rule (defaultSecret cs host) ns.objects ing rule.irPaths)]
    else
      []

def tlsSteps (cs : Cluster) (ns : Namespace) (itls : IngressTls) : List BuildStep :=
  match itls.itSecretName with
  | none => [.noSecretName]
  | some name =>
    match namespaceGetSecret ns name with
    | none => []
    | some secret =>
      (itls.itHosts.takeWhile (clusterDomainForNs cs · ns.nsName)).map fun hostname =>
        .host hostname (.tls secret)

def ingressSteps (cfg : K8sConfig) (cs : Cluster) (ns : Namespace) (ing : Ingress) : List BuildStep :=
  if classHandled cfg ing then
    ing.inRules.flatMap (ruleSteps cs ns ing) ++ ing.inTls.flatMap (tlsSteps cs ns)
  else
    []

def namespaceSteps (cfg : K8sConfig) (cs : Cluster) (ns : Namespace) : List BuildStep :=
  (hashValues ns.nsIngresses).flatMap (ingressSteps cfg cs ns)

def clusterSteps (cfg : K8sConfig) (cs : Cluster) : List BuildStep :=
  (hashValues cs.csNamespaces).flatMap (namespaceSteps cfg cs)

def visitOrder (cs : Cluster) : List (Namespace × Ingress) :=
  (hashValues cs.csNamespaces).flatMap fun ns => (hashValues ns.nsIngresses).map fun ing => (ns, ing)

theorem clusterSteps_eq_flatMap (cfg : K8sConfig) (cs : Cluster)
    : clusterSteps cfg cs = (visitOrder cs).flatMap fun p => ingressSteps cfg cs p.1 p.2 := by
  unfold clusterSteps namespaceSteps visitOrder
  simp [List.flatMap_assoc, List.flatMap_map]

def BuildStep.hostOp : BuildStep → Option (Str × HostOp)
  | .noSecretName => none
  | .host hostname op => some (hostname, op)

def opsFor (cfg : K8sConfig) (cs : Cluster) (hostname : Str) : List HostOp :=
  KeyedRun.opsAt hostname ((clusterSteps cfg cs).filterMap BuildStep.hostOp)

def runOps (env : Env) (cs : Cluster) (ops : List HostOp) (rh : RemapHost) : Result RemapHost :=
  ops.foldlM (fun rh op => op.apply env cs rh) rh

theorem mem_opsAt_filterMap_iff (host : Str) (steps : List BuildStep) (op : HostOp)
    : op ∈ KeyedRun.opsAt host (steps.filterMap BuildStep.hostOp) ↔ .host host op ∈ steps := by
  rw [KeyedRun.mem_opsAt_iff, List.mem_filterMap]
  constructor
  . rintro ⟨step, hstep, hop⟩
    cases step with
    | noSecretName => cases hop
    | host h o =>
      cases hop
      exact hstep
  . intro h
    exact ⟨_, h, rfl⟩

theorem mem_opsFor_iff (cfg : K8sConfig) (cs : Cluster) (hostname : Str) (op : HostOp)
    : op ∈ opsFor cfg cs hostname ↔ .host hostname op ∈ clusterSteps cfg cs := by
  exact mem_opsAt_filterMap_iff hostname (clusterSteps cfg cs) op

def Visits (cfg : K8sConfig) (cs : Cluster) (ns : Namespace) (ing : Ingress) : Prop :=
  ns ∈ hashValues cs.csNamespaces ∧ ing ∈ hashValues ns.nsIngresses ∧ classHandled cfg ing

theorem mem_clusterSteps_iff (cfg : K8sConfig) (cs : Cluster) (step : BuildStep)
    : step ∈ clusterSteps cfg cs
        ↔
      ∃ ns ing, Visits cfg cs ns ing
        ∧
      ((∃ rule ∈ ing.inRules, step ∈ ruleSteps cs ns ing rule)
        ∨ (∃ itls ∈ ing.inTls, step ∈ tlsSteps cs ns itls)) := by
  unfold clusterSteps namespaceSteps Visits
  simp only [List.mem_flatMap]
  constructor
  . rintro ⟨ns, hns, ing, hing, hstep⟩
    unfold ingressSteps at hstep
    split at hstep
    . next hclass =>
      rw [List.mem_append, List.mem_flatMap, List.mem_flatMap] at hstep
      exact ⟨ns, ing, ⟨hns, hing, hclass⟩, hstep⟩
    . cases hstep
  . rintro ⟨ns, ing, ⟨hns, hing, hclass⟩, hstep⟩
    refine ⟨ns, hns, ing, hing, ?_⟩
    unfold ingressSteps
    rw [if_pos hclass, List.mem_append, List.mem_flatMap, List.mem_flatMap]
    exact hstep

theorem mem_ruleSteps_iff (cs : Cluster) (ns : Namespace) (ing : Ingress) (rule : IngressRule)
    (step : BuildStep)
    : step ∈ ruleSteps cs ns ing rule
        ↔
      ∃ host, rule.irHost = some host ∧ clusterDomainForNs cs host ns.nsName
        ∧ step = .host host (.rule (defaultSecret cs host) ns.objects ing rule.irPaths) := by
  unfold ruleSteps
  cases rule.irHost with
  | none => simp
  | some host =>
    dsimp only
    split
    . next h => simp [h]
    . next h => simp [h]

theorem mem_tlsSteps_iff (cs : Cluster) (ns : Namespace) (itls : IngressTls) (step : BuildStep)
    : step ∈ tlsSteps cs ns itls
        ↔
      (itls.itSecretName = none ∧ step = .noSecretName)
        ∨
      (∃ name secret hostname, itls.itSecretName = some name
        ∧ namespaceGetSecret ns name = some secret
        ∧ hostname ∈ itls.itHosts.takeWhile (clusterDomainForNs cs · ns.nsName)
        ∧ step = .host hostname (.tls secret)) := by
  unfold tlsSteps
  cases itls.itSecretName with
  | none => simp
  | some name =>
    dsimp only
    cases hsecret : namespaceGetSecret ns name with
    | none => simp [hsecret]
    | some secret =>
      rw [List.mem_map]
      constructor
      . rintro ⟨hostname, hmem, rfl⟩
        exact .inr ⟨name, secret, hostname, rfl, hsecret, hmem, rfl⟩
      . rintro (⟨h, -⟩ | ⟨name', secret', hostname, hname, hget, hmem, rfl⟩)
        . cases h
        . cases hname
          rw [hsecret] at hget
          cases hget
          exact ⟨hostname, hmem, rfl⟩

theorem rule_mem_opsFor_iff (cfg : K8sConfig) (cs : Cluster) (host : Str) (dflt : Option Secret)
    (ns : Namespace) (ing : Ingress) (paths : List IngressPath)
    : .rule dflt ns ing paths ∈ opsFor cfg cs host
        ↔
      ∃ ns', Visits cfg cs ns' ing ∧ clusterDomainForNs cs host ns'.nsName
        ∧ (∃ rule ∈ ing.inRules, rule.irHost = some host ∧ rule.irPaths = paths)
        ∧ dflt = defaultSecret cs host ∧ ns = ns'.objects := by
  rw [mem_opsFor_iff, mem_clusterSteps_iff]
  simp only [mem_ruleSteps_iff, mem_tlsSteps_iff]
  constructor
  . rintro ⟨ns', ing', hvisits, ⟨rule, hrule, host', hhost, hdom, heq⟩
      | ⟨itls, -, ⟨-, heq⟩ | ⟨_, _, _, -, -, -, heq⟩⟩⟩
    . cases heq
      exact ⟨ns', hvisits, hdom, ⟨rule, hrule, hhost, rfl⟩, rfl, rfl⟩
    . cases heq
    . cases heq
  . rintro ⟨ns', hvisits, hdom, ⟨rule, hrule, hhost, rfl⟩, rfl, rfl⟩
    exact ⟨ns', ing, hvisits, .inl ⟨rule, hrule, host, hhost, hdom, rfl⟩⟩

theorem tls_mem_opsFor_iff (cfg : K8sConfig) (cs : Cluster) (host : Str) (secret : Secret)
    : .tls secret ∈ opsFor cfg cs host
        ↔
      ∃ ns ing, Visits cfg cs ns ing
        ∧ ∃ itls ∈ ing.inTls, ∃ name, itls.itSecretName = some name
          ∧ namespaceGetSecret ns name = some secret
          ∧ host ∈ itls.itHosts.takeWhile (clusterDomainForNs cs · ns.nsName) := by
  rw [mem_opsFor_iff, mem_clusterSteps_iff]
  simp only [mem_ruleSteps_iff, mem_tlsSteps_iff]
  constructor
  . rintro ⟨ns, ing, hvisits, ⟨_, -, _, -, -, heq⟩
      | ⟨itls, hitls, ⟨-, heq⟩ | ⟨name, _, _, hname, hsecret, hhost, heq⟩⟩⟩
    . cases heq
    . cases heq
    . cases heq
      exact ⟨ns, ing, hvisits, itls, hitls, name, hname, hsecret, hhost⟩
  . rintro ⟨ns, ing, hvisits, itls, hitls, name, hname, hsecret, hhost⟩
    exact ⟨ns, ing, hvisits, .inr ⟨itls, hitls, .inr ⟨name, secret, host, hname, hsecret, hhost, rfl⟩⟩⟩

def anyClass : K8sConfig :=
  ⟨hashNew 11, none, none⟩
