import TsIngress.BasicLemmas
import TsIngress.Lib.Fields
import TsIngress.Api.Lemmas.ConfigOption
import TsIngress.Api.Lemmas.DomainAccess

/-!
This module contains the text of the `domain-access-list` option: what its entries grant, and what is left
of it after `cluster_set_configmap`.
-/

theorem hashPresent_hashOfWords_iff (sz : HashSize) (words : List Str) (key : Str)
    : hashPresent (hashOfWords sz words) key = true ↔ key ∈ words := by
  have hfold : ∀ (words : List Str) (hs : Hash Unit),
      hashPresent (words.foldl (fun hs w => hashSet hs w ()) hs) key = true
        ↔ key ∈ words ∨ hashPresent hs key = true := by
    intro words
    induction words with
    | nil => simp
    | cons w words ih =>
      intro hs
      rw [List.foldl_cons, ih, List.mem_cons]
      unfold hashPresent
      have hget := ChainTable.get_set hs w key ()
      by_cases hkey : key = w
      . simp [hkey]
      . rw [if_neg hkey] at hget
        simp [hkey, hget]
  unfold hashOfWords
  rw [hfold]
  simp [hashPresent]

-- An entry `<domain>:<ns>[,<ns>...]` grants a domain to a namespace.
def EntryGrants (entry dom ns : Str) : Prop :=
  ∃ pat nslist, entry = pat ++ 58 :: nslist ∧ 58 ∉ pat
    ∧
  domainMatch pat dom = true
    ∧
  (ns ∈ strsep (str ",") nslist ∨ str "*" ∈ strsep (str ",") nslist)

def ListGrants (value dom ns : Str) : Prop :=
  ∃ entry ∈ value.splitOnP isspace, EntryGrants entry dom ns

def domainOfEntry (entry : Str) : Option ClusterDomain :=
  (strcut 58 entry).map fun (dom, nslist) => ⟨dom, hashOfWords 13 (strsep (str ",") nslist)⟩

theorem ClusterDomain.covers_eq (cd : ClusterDomain) (dom : Str)
    : cd.covers dom = domainMatch cd.daDomain dom := by
  unfold ClusterDomain.covers
  by_cases h : cd.daDomain = str "*"
  . simp [h, domainMatch]
  . simp [h]

theorem entryGrants_iff (entry dom ns : Str)
    : EntryGrants entry dom ns
        ↔
      ∃ cd, domainOfEntry entry = some cd ∧ cd.covers dom = true ∧ cd.admits ns = true := by
  unfold EntryGrants domainOfEntry
  constructor
  . rintro ⟨pat, nslist, rfl, hpat, hmatch, hns⟩
    rw [strcut_append 58 pat nslist hpat]
    refine ⟨_, rfl, ?_, ?_⟩
    . rw [ClusterDomain.covers_eq]
      exact hmatch
    . unfold ClusterDomain.admits
      rw [Bool.or_eq_true, hashPresent_hashOfWords_iff, hashPresent_hashOfWords_iff]
      exact hns.symm
  . rintro ⟨cd, hcd, hcovers, hadmits⟩
    rw [Option.map_eq_some_iff] at hcd
    rcases hcd with ⟨⟨pat, nslist⟩, hcut, rfl⟩
    rw [strcut_eq_some_iff] at hcut
    rw [ClusterDomain.covers_eq] at hcovers
    unfold ClusterDomain.admits at hadmits
    rw [Bool.or_eq_true, hashPresent_hashOfWords_iff, hashPresent_hashOfWords_iff] at hadmits
    exact ⟨pat, nslist, hcut.1, hcut.2, hcovers, hadmits.symm⟩

theorem clusterConfigAddDomains_ccDomains (cc : ClusterConfig) (value : Str)
    : (clusterConfigAddDomains cc value).ccDomains
        =
      cc.ccDomains ++ (strsep (str " \t\n\r") value).filterMap domainOfEntry := by
  have hfold : ∀ (entries : List Str) (cc : ClusterConfig),
      (entries.foldl clusterConfigAddDomains.addEntry cc).ccDomains
        = cc.ccDomains ++ entries.filterMap domainOfEntry := by
    intro entries
    induction entries with
    | nil => simp
    | cons entry entries ih =>
      intro cc
      rw [List.foldl_cons, ih]
      unfold clusterConfigAddDomains.addEntry
      cases h : strcut 58 entry with
      | none => simp [domainOfEntry, h]
      | some p => simp [domainOfEntry, h]
  apply hfold

theorem clusterConfigOf_ccDomains {cm : ConfigMap} {value : Str}
    (h : hashGet cm.cmData (str "domain-access-list") = some value)
    : (clusterConfigOf cm).ccDomains = (strsep (str " \t\n\r") value).filterMap domainOfEntry := by
  unfold clusterConfigOf
  dsimp only
  rw [ConfigMap.option, h]
  dsimp only
  rw [clusterConfigAddDomains_ccDomains]
  have hkeeps := @ConfigMap.option_keeps _ ClusterConfig.ccDomains
  rw [hkeeps, hkeeps (clusterConfigAddCerts_keeps fun _ _ => rfl)]
  rw [hkeeps (ClusterConfig.setTlsMinimumVersion_keeps fun _ _ _ => rfl), hkeeps, hkeeps, hkeeps]
  . rfl
  . intro cc s
    rfl
  . intro cc s
    rfl
  . intro cc s
    rfl
  . intro cc s
    unfold clusterConfigOf.setHealthcheck
    split <;> rfl

theorem domainOfEntry_eq_none_iff (entry : Str) : domainOfEntry entry = none ↔ 58 ∉ entry := by
  unfold domainOfEntry
  rw [Option.map_eq_none_iff, strcut_eq_none_iff]

theorem filterMap_domainOfEntry_eq_nil_iff (value : Str)
    : (strsep (str " \t\n\r") value).filterMap domainOfEntry = [] ↔ 58 ∉ value := by
  rw [List.filterMap_eq_nil_iff]
  simp only [domainOfEntry_eq_none_iff]
  constructor
  . intro h hmem
    rcases Fields.exists_field hmem (p := fun c => (str " \t\n\r").contains c) (by decide) with
      ⟨entry, hentry, hcolon⟩
    exact h entry hentry hcolon
  . intro h entry hentry hcolon
    exact h (Fields.mem_of_mem_field hentry hcolon)

theorem clusterDomainForNs_clusterSetConfigmap (cs : Cluster) {cm : ConfigMap} {value : Str}
    (h : hashGet cm.cmData (str "domain-access-list") = some value) (dom ns : Str)
    : clusterDomainForNs (clusterSetConfigmap cs (some cm)) dom ns = true
        ↔
      58 ∉ value ∨ ∃ entry ∈ strsep (str " \t\n\r") value, EntryGrants entry dom ns := by
  have hdomains : (clusterSetConfigmap cs (some cm)).csConfig.ccDomains
      = (strsep (str " \t\n\r") value).filterMap domainOfEntry :=
    clusterConfigOf_ccDomains h
  by_cases hcolon : 58 ∈ value
  . have hne : (clusterSetConfigmap cs (some cm)).csConfig.ccDomains ≠ [] := by
      rw [hdomains, Ne, filterMap_domainOfEntry_eq_nil_iff]
      simpa using hcolon
    rw [clusterDomainForNs_eq_true_iff _ _ _ hne, hdomains]
    simp only [List.mem_filterMap, entryGrants_iff, hcolon, not_true_eq_false, false_or]
    constructor
    . rintro ⟨cd, ⟨entry, hentry, hcd⟩, hgrants⟩
      exact ⟨entry, hentry, cd, hcd, hgrants⟩
    . rintro ⟨entry, hentry, cd, hcd, hgrants⟩
      exact ⟨cd, ⟨entry, hentry, hcd⟩, hgrants⟩
  . have hnil := hdomains
    rw [(filterMap_domainOfEntry_eq_nil_iff value).mpr hcolon] at hnil
    unfold clusterDomainForNs
    simp [hnil, hcolon]

theorem isspace_eq_false {c : UInt8} (h : c ∉ str " \t\n\r") (hvt : c ≠ 11) (hff : c ≠ 12)
    : isspace c = false := by
  have hblanks : str " \t\n\r" = [32, 9, 10, 13] := by
    decide
  rw [hblanks] at h
  simp only [List.mem_cons, List.not_mem_nil, or_false, not_or, ← UInt8.toNat_inj, UInt8.reduceToNat] at h
  rw [Ne, ← UInt8.toNat_inj] at hvt hff
  unfold isspace
  simp only [Bool.or_eq_false_iff, beq_eq_false_iff_ne, Bool.and_eq_false_iff, decide_eq_false_iff_not,
    UInt8.le_iff_toNat_le, ne_eq, ← UInt8.toNat_inj, UInt8.reduceToNat] at *
  omega

/--
A domain that no entry of the value grants is denied, exactly if the value has an entry at all and no word
that is kept together at a vertical tab or a form feed grants it.
-/
theorem clusterSetConfigmap_denies_iff (cs : Cluster) (cm : ConfigMap) (value dom ns : Str)
    (hvalue : hashGet cm.cmData (str "domain-access-list") = some value)
    : (¬ ListGrants value dom ns →
        clusterDomainForNs (clusterSetConfigmap cs (some cm)) dom ns = false)
        ↔
      ListGrants value dom ns
        ∨
      (58 ∈ value
        ∧
      ∀ entry ∈ strsep (str " \t\n\r") value, 11 ∈ entry ∨ 12 ∈ entry → ¬ EntryGrants entry dom ns) := by
  have hcode := clusterDomainForNs_clusterSetConfigmap cs hvalue dom ns
  rw [← Bool.not_eq_true, hcode, not_or, not_not]
  constructor
  . intro h
    by_cases hgrants : ListGrants value dom ns
    . left
      exact hgrants
    . right
      rcases h hgrants with ⟨hcolon, hnone⟩
      refine ⟨hcolon, ?_⟩
      intro entry hentry _ hgrant
      exact hnone ⟨entry, hentry, hgrant⟩
  . rintro (hgrants | ⟨hcolon, hodd⟩) hnot
    . exact absurd hgrants hnot
    . refine ⟨hcolon, ?_⟩
      rintro ⟨entry, hentry, hgrant⟩
      by_cases hvt : 11 ∈ entry ∨ 12 ∈ entry
      . exact hodd entry hentry hvt hgrant
      . -- a word without these two is a word of the value whatever counts as white space
        apply hnot
        rw [not_or] at hvt
        refine ⟨entry, ?_, hgrant⟩
        apply Fields.mem_of_imp _ hentry
        . intro c hc
          apply isspace_eq_false
          . exact notMem_delim_of_mem_strsep hentry c hc
          . exact ne_of_mem_of_not_mem hc hvt.1
          . exact ne_of_mem_of_not_mem hc hvt.2
        . intro c hc
          have hblanks : (str " \t\n\r").all isspace = true := by
            decide
          apply List.all_eq_true.mp hblanks
          simpa using hc

def accessConfigMap (value : Str) : ConfigMap :=
  ⟨str "ingress", str "kube-system", hashSet (hashNew 127) (str "domain-access-list") value⟩

theorem hashGet_accessConfigMap (value : Str)
    : hashGet (accessConfigMap value).cmData (str "domain-access-list") = some value := by
  apply ChainTable.get_set_self

theorem clusterSetConfigmap_denies_foreignDomain
    : clusterDomainForNs (clusterSetConfigmap clusterMake (some (accessConfigMap (str "foo.com:team-a"))))
        (str "bar.com") (str "team-a") = false := by
  have hwords : (str "foo.com:team-a").splitOnP isspace = [str "foo.com:team-a"] := by
    decide
  have hnot : ¬ ListGrants (str "foo.com:team-a") (str "bar.com") (str "team-a") := by
    rintro ⟨entry, hentry, hgrants⟩
    rw [hwords, List.mem_singleton] at hentry
    rw [hentry, entryGrants_iff] at hgrants
    rcases hgrants with ⟨cd, hcd, hcovers, -⟩
    cases hcd
    revert hcovers
    decide
  have hodd : ∀ entry ∈ strsep (str " \t\n\r") (str "foo.com:team-a"), ¬ (11 ∈ entry ∨ 12 ∈ entry) := by
    decide
  refine (clusterSetConfigmap_denies_iff clusterMake _ _ _ _ (hashGet_accessConfigMap _)).mpr (.inr ⟨by decide, ?_⟩)
    hnot
  intro entry hentry hvt
  exact absurd hvt (hodd entry hentry)

-- An empty value leaves no list, and without a list everything is granted.
theorem not_clusterSetConfigmap_denies
    : ¬ ∀ (cs : Cluster) (cm : ConfigMap) (value dom ns : Str),
        hashGet cm.cmData (str "domain-access-list") = some value →
        ¬ ListGrants value dom ns →
        clusterDomainForNs (clusterSetConfigmap cs (some cm)) dom ns = false := by
  intro hdenies
  have hnot : ¬ ListGrants [] (str "foo.com") (str "team-a") := by
    rintro ⟨entry, hentry, pat, nslist, heq, -⟩
    rw [List.splitOnP_nil, List.mem_singleton] at hentry
    rw [hentry] at heq
    simp at heq
  have hdenied := hdenies clusterMake (accessConfigMap []) [] (str "foo.com") (str "team-a")
    (hashGet_accessConfigMap []) hnot
  have hgranted := (clusterDomainForNs_clusterSetConfigmap clusterMake (hashGet_accessConfigMap [])
    (str "foo.com") (str "team-a")).mpr (.inl (by simp))
  rw [hdenied] at hgranted
  cases hgranted
