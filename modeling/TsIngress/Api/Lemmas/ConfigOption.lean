import TsIngress.Api.Impl.Cluster

/-!
This module contains what the options of a ConfigMap leave alone. A part of the configuration is given by
a projection, and an option keeps it if writing the fields of the option does.
-/

variable {γ : Type} {g : ClusterConfig → γ}

theorem ConfigMap.option_keeps {f : ClusterConfig → Str → ClusterConfig} (hf : ∀ cc s, g (f cc s) = g cc)
    (cm : ConfigMap) (key : Str) (cc : ClusterConfig)
    : g (cm.option key f cc) = g cc := by
  unfold ConfigMap.option
  split
  . rfl
  . apply hf

theorem clusterConfigAddCerts_keeps (hg : ∀ cc certs, g { cc with ccCerts := certs } = g cc)
    (cc : ClusterConfig) (certs : Str)
    : g (clusterConfigAddCerts cc certs) = g cc := by
  unfold clusterConfigAddCerts
  induction strsep (str " \t,") certs generalizing cc with
  | nil => rfl
  | cons p rest ih =>
    rw [List.foldl_cons, ih]
    unfold clusterConfigAddCerts.addEntry
    split
    . rfl
    . split
      . rfl
      . apply hg

theorem clusterConfigAddDomains_keeps (hg : ∀ cc domains, g { cc with ccDomains := domains } = g cc)
    (cc : ClusterConfig) (list : Str)
    : g (clusterConfigAddDomains cc list) = g cc := by
  unfold clusterConfigAddDomains
  induction strsep (str " \t\n\r") list generalizing cc with
  | nil => rfl
  | cons q rest ih =>
    rw [List.foldl_cons, ih]
    unfold clusterConfigAddDomains.addEntry
    split
    . rfl
    . apply hg

theorem ClusterConfig.setTlsMinimumVersion_keeps
    (hg : ∀ cc v h, g { cc with ccTlsMinimumVersion := v, tlsVersion_legal := h } = g cc)
    (cc : ClusterConfig) (s : Str)
    : g (cc.setTlsMinimumVersion s) = g cc := by
  unfold ClusterConfig.setTlsMinimumVersion
  split
  . rfl
  . apply hg
