import TsIngress.Remap.Lemmas.DefaultTls

/-!
This module contains the hosts of a TLS entry: which of them get the context of the secret, and when this
does not depend on their order.
-/

def RemapHost.withCtx (rh : RemapHost) (ctx : Option SslCtx) : RemapHost :=
  { rh with rhCtx := ctx }

theorem RemapHost.withCtx_eq_self {rh : RemapHost} {ctx : Option SslCtx} (h : rh.rhCtx = ctx)
    : rh.withCtx ctx = rh := by
  rw [← h]
  rfl

theorem remapDbGetHost_getOrCreate (db : RemapDb) (hostname : Str)
    : (remapDbGetOrCreateHost db hostname).1 = (remapDbGetHost db hostname).getD remapHostNew
        ∧
      remapDbGetHost (remapDbGetOrCreateHost db hostname).2 hostname
        = some ((remapDbGetHost db hostname).getD remapHostNew)
        ∧
      ∀ host, host ≠ hostname →
        remapDbGetHost (remapDbGetOrCreateHost db hostname).2 host = remapDbGetHost db host := by
  unfold remapDbGetOrCreateHost
  cases hget : remapDbGetHost db hostname with
  | some rh => exact ⟨rfl, hget, fun _ _ => rfl⟩
  | none =>
    refine ⟨rfl, ?_, ?_⟩
    . exact ChainTable.get_set_self _ _ _
    . intro host hne
      exact ChainTable.get_set_ne _ _ _ _ hne

theorem remapDbGetHost_setHost (db : RemapDb) (hostname host : Str) (rh : RemapHost)
    : remapDbGetHost (db.setHost hostname rh) host
        =
      if host = hostname then
        (remapDbGetHost db hostname).map fun _ => rh
      else
        remapDbGetHost db host := by
  split
  . next heq =>
    rw [heq]
    exact ChainTable.get_modify_self _ _ _
  . next hne => exact ChainTable.get_modify_ne _ _ _ _ hne

theorem remapDbGetHost_attach (db : RemapDb) (hostname host : Str) (ctx : Option SslCtx)
    : remapDbGetHost
        ((remapDbGetOrCreateHost db hostname).2.setHost hostname
          ((remapDbGetOrCreateHost db hostname).1.withCtx ctx)) host
        =
      if host = hostname then
        some (((remapDbGetHost db host).getD remapHostNew).withCtx ctx)
      else
        remapDbGetHost db host := by
  rcases remapDbGetHost_getOrCreate db hostname with ⟨hrh, hself, hne⟩
  rw [remapDbGetHost_setHost, hrh, hself]
  split
  . next heq =>
    rw [heq]
    rfl
  . next h => exact hne host h

theorem remapDbGetHost_buildTlsHosts (env : Env) (cs : Cluster) (ns : Namespace) (secret : Secret)
    (db : RemapDb) (hosts : List Str) (host : Str)
    : remapDbGetHost (buildTlsHosts env cs ns secret db hosts) host
        =
      if host ∈ hosts.takeWhile (clusterDomainForNs cs · ns.nsName) then
        some (((remapDbGetHost db host).getD remapHostNew).withCtx (secretMakeSslCtx env secret))
      else
        remapDbGetHost db host := by
  induction hosts generalizing db with
  | nil => simp [buildTlsHosts]
  | cons hostname rest ih =>
    unfold buildTlsHosts
    cases hdom : clusterDomainForNs cs hostname ns.nsName with
    | false => simp [hdom]
    | true =>
      have hattach := remapDbGetHost_attach db hostname host (secretMakeSslCtx env secret)
      unfold RemapHost.withCtx at hattach
      rw [if_neg (by simp)]
      dsimp only
      rw [ih, hattach, List.takeWhile_cons, if_pos hdom]
      by_cases heq : host = hostname
      . subst heq
        simp [RemapHost.withCtx]
      . simp [heq]

section

variable (env : Env) (ns : Namespace) (st : RemapDb × Cluster) (itls : IngressTls)

/--
The hosts of a TLS entry are handled independently of each other: whatever order they are listed in, those
that the namespace may use have the context of the secret afterwards, the others are as before, and the
hosts of the database come out the same.
-/
structure HandledApart (ctx : SslCtx) : Prop where
  returns : ∀ {order}, order.Perm itls.itHosts →
    (buildIngressTls env ns st { itls with itHosts := order }).Returns
  attached : ∀ {order st'}, order.Perm itls.itHosts →
    buildIngressTls env ns st { itls with itHosts := order } = .ok st' →
    ∀ host ∈ itls.itHosts, clusterDomainForNs st.2 host ns.nsName = true →
      ∃ rh, remapDbGetHost st'.1 host = some rh ∧ rh.rhCtx = some ctx
  untouched : ∀ {order st'}, order.Perm itls.itHosts →
    buildIngressTls env ns st { itls with itHosts := order } = .ok st' →
    ∀ host, clusterDomainForNs st.2 host ns.nsName = false →
      remapDbGetHost st'.1 host = remapDbGetHost st.1 host
  sameResult : ∀ {order order' st' st''}, order.Perm itls.itHosts → order'.Perm itls.itHosts →
    buildIngressTls env ns st { itls with itHosts := order } = .ok st' →
    buildIngressTls env ns st { itls with itHosts := order' } = .ok st'' →
    ∀ host, remapDbGetHost st'.1 host = remapDbGetHost st''.1 host

def HasCtx (db : RemapDb) (ctx : SslCtx) (host : Str) : Prop :=
  ∃ rh, remapDbGetHost db host = some rh ∧ rh.rhCtx = some ctx

variable {env ns st itls} {secret : Secret} {ctx : SslCtx}

theorem remapDbGetHost_order (hctx : secretMakeSslCtx env secret = some ctx)
    (h : (∀ host ∈ itls.itHosts, clusterDomainForNs st.2 host ns.nsName = true)
      ∨ (∀ host ∈ itls.itHosts, clusterDomainForNs st.2 host ns.nsName = true → HasCtx st.1 ctx host))
    {order : List Str} (horder : order.Perm itls.itHosts) (host : Str)
    : remapDbGetHost (buildTlsHosts env st.2 ns secret st.1 order) host
        =
      if host ∈ itls.itHosts ∧ clusterDomainForNs st.2 host ns.nsName = true then
        some (((remapDbGetHost st.1 host).getD remapHostNew).withCtx (some ctx))
      else
        remapDbGetHost st.1 host := by
  rw [remapDbGetHost_buildTlsHosts, hctx]
  by_cases hmem : host ∈ order.takeWhile (clusterDomainForNs st.2 · ns.nsName)
  . have hlisted : host ∈ itls.itHosts ∧ clusterDomainForNs st.2 host ns.nsName = true := by
      constructor
      . exact horder.mem_iff.mp (List.takeWhile_subset _ hmem)
      . exact List.mem_takeWhile_imp (p := fun x => clusterDomainForNs st.2 x ns.nsName) hmem
    rw [if_pos hmem, if_pos hlisted]
  . rw [if_neg hmem]
    split
    . next hlisted =>
      rcases h with hall | hhas
      . have htake : order.takeWhile (clusterDomainForNs st.2 · ns.nsName) = order := by
          rw [List.takeWhile_eq_self_iff]
          intro x hx
          exact hall x (horder.mem_iff.mp hx)
        rw [htake] at hmem
        exact absurd (horder.mem_iff.mpr hlisted.1) hmem
      . rcases hhas host hlisted.1 hlisted.2 with ⟨rh, hget, hrh⟩
        rw [hget, Option.getD_some, RemapHost.withCtx_eq_self hrh]
    . rfl

end

theorem buildIngressTls_eq (env : Env) {ns : Namespace} (st : RemapDb × Cluster) {itls : IngressTls}
    {secretName : Str} {secret : Secret} (hname : itls.itSecretName = some secretName)
    (hsecret : namespaceGetSecret ns secretName = some secret) (order : List Str)
    : buildIngressTls env ns st { itls with itHosts := order }
        =
      .ok (buildTlsHosts env st.2 ns secret st.1 order, st.2) := by
  unfold buildIngressTls
  dsimp only
  rw [hname, deref_some, Except.ok_bind, hsecret]
  rfl

/--
The order of the hosts matters exactly if the namespace may not use one of them, and may use another that
has not got the context from elsewhere.
-/
theorem buildIngressTls_handledApart_iff (env : Env) (ns : Namespace) (st : RemapDb × Cluster)
    (itls : IngressTls) (secretName : Str) (secret : Secret) (ctx : SslCtx)
    (hname : itls.itSecretName = some secretName) (hsecret : namespaceGetSecret ns secretName = some secret)
    (hctx : secretMakeSslCtx env secret = some ctx)
    : HandledApart env ns st itls ctx
        ↔
      (∀ host ∈ itls.itHosts, clusterDomainForNs st.2 host ns.nsName = true)
        ∨
      (∀ host ∈ itls.itHosts, clusterDomainForNs st.2 host ns.nsName = true → HasCtx st.1 ctx host) := by
  have heq := buildIngressTls_eq env st hname hsecret
  constructor
  . intro h
    by_contra hcond
    rw [not_or] at hcond
    rcases hcond with ⟨hrefused, hlacks⟩
    push Not at hrefused hlacks
    rcases hrefused with ⟨refused, hmem, hrefused⟩
    rcases hlacks with ⟨host, hhost, hallowed, hlacks⟩
    -- the refused host in front ends the loop before it has done anything
    have horder : (refused :: itls.itHosts.erase refused).Perm itls.itHosts :=
      (List.perm_cons_erase hmem).symm
    have hget := h.attached horder (heq _) host hhost hallowed
    have hnone : buildTlsHosts env st.2 ns secret st.1 (refused :: itls.itHosts.erase refused) = st.1 := by
      unfold buildTlsHosts
      simp [hrefused]
    rw [hnone] at hget
    exact hlacks hget
  . intro h
    have hget := fun order => @remapDbGetHost_order env ns st itls secret ctx hctx h order
    constructor
    . intro order _
      exact ⟨_, heq order⟩
    . intro order st' horder hst' host hhost hallowed
      rw [heq] at hst'
      cases hst'
      rw [hget _ horder, if_pos ⟨hhost, hallowed⟩]
      exact ⟨_, rfl, rfl⟩
    . intro order st' horder hst' host hrefused
      rw [heq] at hst'
      cases hst'
      rw [hget _ horder, if_neg]
      simp [hrefused]
    . intro order order' st' st'' horder horder' hst' hst'' host
      rw [heq] at hst' hst''
      cases hst'
      cases hst''
      rw [hget _ horder, hget _ horder']

def teamCluster : Cluster :=
  { clusterMake with
    csConfig := clusterConfigAddDomains clusterConfigNew (str "foo.com:team-a www.foo.com:team-a bar.com:team-b") }

def teamNamespace : Namespace :=
  { namespaceMake (str "team-a") with
    nsSecrets := hashSet (hashNew 127) (str "cert") (certSecret "cert") }

def teamTls (hosts : List Str) : IngressTls where
  itSecretName := some (str "cert")
  itHosts := hosts

theorem namespaceGetSecret_teamNamespace
    : namespaceGetSecret teamNamespace (str "cert") = some (certSecret "cert") := by
  exact ChainTable.get_set_self _ _ _

theorem buildIngressTls_handledApart_team
    : HandledApart plainEnv teamNamespace (remapDbNew ⟨hashNew 11, none, none⟩, teamCluster)
        (teamTls [str "foo.com", str "www.foo.com"]) ⟨certSecret "cert"⟩ := by
  apply (buildIngressTls_handledApart_iff _ _ _ _ (str "cert") (certSecret "cert") _ rfl
    namespaceGetSecret_teamNamespace rfl).mpr
  left
  simp only [teamTls, List.forall_mem_cons]
  decide

-- The entry lists bar.com, which is refused, before foo.com.
theorem not_buildIngressTls_handledApart
    : ¬ ∀ (env : Env) (ns : Namespace) (st : RemapDb × Cluster) (itls : IngressTls) (secretName : Str)
        (secret : Secret) (ctx : SslCtx),
        itls.itSecretName = some secretName →
        namespaceGetSecret ns secretName = some secret →
        secretMakeSslCtx env secret = some ctx →
        HandledApart env ns st itls ctx := by
  intro hapart
  have h := hapart plainEnv teamNamespace (remapDbNew ⟨hashNew 11, none, none⟩, teamCluster)
    (teamTls [str "bar.com", str "foo.com"]) (str "cert") (certSecret "cert") _ rfl
    namespaceGetSecret_teamNamespace rfl
  have hname : (teamTls [str "bar.com", str "foo.com"]).itSecretName = some (str "cert") := rfl
  have heq := buildIngressTls_eq plainEnv (remapDbNew ⟨hashNew 11, none, none⟩, teamCluster) hname
    namespaceGetSecret_teamNamespace [str "bar.com", str "foo.com"]
  rcases h.attached (.refl _) heq (str "foo.com") (by simp [teamTls]) (by decide) with ⟨rh, hget, -⟩
  have hrefused : clusterDomainForNs teamCluster (str "bar.com") teamNamespace.nsName = false := by
    decide
  rw [remapDbGetHost_buildTlsHosts, List.takeWhile_cons, hrefused] at hget
  simp [remapDbNew, remapDbGetHost] at hget
