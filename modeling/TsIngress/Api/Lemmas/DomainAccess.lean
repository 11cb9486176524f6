import TsIngress.Api.Impl.Cluster

namespace clusterDomainForNs

theorem go_eq_true_iff (dom ns : Str) (l : List ClusterDomain)
    : go dom ns l = true ↔ ∃ cd ∈ l, cd.covers dom ∧ cd.admits ns := by
  induction l with
  | nil => simp [go]
  | cons cd rest ih =>
    unfold go
    split
    . next hcov =>
      split
      . next hadm => simp [hcov, hadm]
      . next hadm => simp [hcov, hadm, ih]
    . next hcov => simp [hcov, ih]

end clusterDomainForNs

theorem clusterDomainForNs_eq_true_iff (cs : Cluster) (dom ns : Str)
    (hlist : cs.csConfig.ccDomains ≠ [])
    : clusterDomainForNs cs dom ns = true
        ↔
      ∃ cd ∈ cs.csConfig.ccDomains, cd.covers dom ∧ cd.admits ns := by
  unfold clusterDomainForNs
  rw [if_neg]
  . apply clusterDomainForNs.go_eq_true_iff
  . simpa using hlist

theorem clusterDomainForNs_congr (cs cs' : Cluster) (dom ns : Str) (h : cs.csConfig = cs'.csConfig)
    : clusterDomainForNs cs dom ns = clusterDomainForNs cs' dom ns := by
  unfold clusterDomainForNs
  rw [h]

-- The documented decision: the first entry that covers the domain admits the namespace.
def FirstMatchAdmits (list : List ClusterDomain) (dom ns : Str) : Prop :=
  ∃ cd, list.find? (·.covers dom) = some cd ∧ cd.admits ns

-- An entry refuses the namespace and a later entry for the same domain admits it.
def Overruled (list : List ClusterDomain) (dom ns : Str) : Prop :=
  ∃ pre cd post,
    list = pre ++ cd :: post
      ∧
    (∀ d ∈ pre, ¬ d.covers dom)
      ∧
    cd.covers dom
      ∧
    ¬ cd.admits ns
      ∧
    ∃ d ∈ post, d.covers dom ∧ d.admits ns

theorem FirstMatchAdmits.exists_admits {list : List ClusterDomain} {dom ns : Str}
    (h : FirstMatchAdmits list dom ns)
    : ∃ cd ∈ list, cd.covers dom ∧ cd.admits ns := by
  rcases h with ⟨cd, hfind, hadm⟩
  have hcov := List.find?_some hfind
  exact ⟨cd, List.mem_of_find?_eq_some hfind, hcov, hadm⟩

theorem firstMatchAdmits_or_overruled {list : List ClusterDomain} {dom ns : Str}
    (h : ∃ cd ∈ list, cd.covers dom ∧ cd.admits ns)
    : FirstMatchAdmits list dom ns ∨ Overruled list dom ns := by
  induction list with
  | nil => simp at h
  | cons cd rest ih =>
    by_cases hcov : cd.covers dom
    . by_cases hadm : cd.admits ns
      . left
        exact ⟨cd, by simp [hcov], hadm⟩
      . right
        refine ⟨[], cd, rest, rfl, by simp, hcov, hadm, ?_⟩
        simpa [hcov, hadm] using h
    . have hrest : ∃ cd ∈ rest, cd.covers dom ∧ cd.admits ns := by
        simpa [hcov] using h
      cases ih hrest with
      | inl hfirst =>
        left
        rcases hfirst with ⟨d, hfind, hadm⟩
        exact ⟨d, by simp [hcov, hfind], hadm⟩
      | inr hover =>
        right
        rcases hover with ⟨pre, d, post, heq, hpre, hd⟩
        refine ⟨cd :: pre, d, post, by rw [heq, List.cons_append], ?_, hd⟩
        intro x hx
        cases hx with
        | head => exact hcov
        | tail _ hx => exact hpre x hx

theorem Overruled.not_firstMatchAdmits {list : List ClusterDomain} {dom ns : Str}
    (h : Overruled list dom ns)
    : ¬ FirstMatchAdmits list dom ns := by
  rcases h with ⟨pre, cd, post, rfl, hpre, hcov, hadm, -⟩
  rintro ⟨d, hfind, hd⟩
  have hfirst : (pre ++ cd :: post).find? (·.covers dom) = some cd := by
    rw [List.find?_append, List.find?_eq_none.mpr]
    . simp [hcov]
    . simpa using hpre
  rw [hfirst, Option.some.injEq] at hfind
  rw [hfind] at hadm
  exact hadm hd

theorem Overruled.exists_admits {list : List ClusterDomain} {dom ns : Str}
    (h : Overruled list dom ns)
    : ∃ cd ∈ list, cd.covers dom ∧ cd.admits ns := by
  rcases h with ⟨pre, cd, post, rfl, -, -, -, d, hd, hboth⟩
  exact ⟨d, by simp [hd], hboth⟩

/--
The list is searched for any entry that grants access, so the first match decides exactly when no
later match overrules it.
-/
theorem clusterDomainForNs_firstMatch_iff (cs : Cluster) (dom ns : Str)
    (hlist : cs.csConfig.ccDomains ≠ [])
    : (clusterDomainForNs cs dom ns = true ↔ FirstMatchAdmits cs.csConfig.ccDomains dom ns)
        ↔
      ¬ Overruled cs.csConfig.ccDomains dom ns := by
  rw [clusterDomainForNs_eq_true_iff cs dom ns hlist]
  constructor
  . intro h hover
    apply hover.not_firstMatchAdmits
    apply h.mp
    exact hover.exists_admits
  . intro hover
    constructor
    . intro hgrant
      cases firstMatchAdmits_or_overruled hgrant with
      | inl hfirst => exact hfirst
      | inr h => exact absurd h hover
    . exact FirstMatchAdmits.exists_admits

def tenantCluster : Cluster :=
  { clusterMake with
    csConfig := clusterConfigAddDomains clusterConfigNew (str "foo.com:team-a *:*") }

theorem clusterDomainForNs_firstMatch_tenantCluster
    : tenantCluster.csConfig.ccDomains ≠ []
        ∧
      (clusterDomainForNs tenantCluster (str "foo.com") (str "team-a") = true
        ↔ FirstMatchAdmits tenantCluster.csConfig.ccDomains (str "foo.com") (str "team-a")) := by
  have hne : tenantCluster.csConfig.ccDomains ≠ [] := by
    decide
  refine ⟨hne, (clusterDomainForNs_firstMatch_iff tenantCluster _ _ hne).mpr ?_⟩
  intro h
  apply h.not_firstMatchAdmits
  exact ⟨_, rfl, by decide⟩

theorem not_clusterDomainForNs_firstMatch
    : ¬ ∀ (cs : Cluster) (dom ns : Str), cs.csConfig.ccDomains ≠ [] →
        (clusterDomainForNs cs dom ns = true ↔ FirstMatchAdmits cs.csConfig.ccDomains dom ns) := by
  intro h
  have hgrant : clusterDomainForNs tenantCluster (str "foo.com") (str "team-b") = true := by
    decide
  rcases (h tenantCluster (str "foo.com") (str "team-b") (by decide)).mp hgrant with ⟨cd, hfind, hadm⟩
  cases hfind
  revert hadm
  decide
