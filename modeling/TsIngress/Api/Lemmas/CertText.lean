import TsIngress.BasicLemmas
import TsIngress.Lib.Fields
import TsIngress.Api.Impl.Cluster

/-!
This module contains the documented text of the `tls-certificates` option and what `cluster_config_add_certs`
reads from it.
-/

namespace clusterConfigAddCerts

def ofPiece (p : Str) : List ClusterCert :=
  match strcut 58 p with
  | none => []
  | some (doms, cert) =>
    match strcut 47 cert with
    | none => []
    | some (certns, certname) => (strsep (str ",") doms).map fun dom => ⟨dom, certns, certname⟩

def ofText (s : Str) : List ClusterCert :=
  (strsep (str " \t,") s).flatMap ofPiece

theorem ccCerts_eq (cc : ClusterConfig) (s : Str)
    : (clusterConfigAddCerts cc s).ccCerts = cc.ccCerts ++ ofText s := by
  unfold clusterConfigAddCerts ofText
  induction strsep (str " \t,") s generalizing cc with
  | nil => simp
  | cons p rest ih =>
    rw [List.foldl_cons, ih, List.flatMap_cons, ← List.append_assoc]
    congr 1
    unfold addEntry ofPiece
    cases strcut 58 p with
    | none => simp
    | some doms =>
      dsimp only
      cases strcut 47 doms.2 with
      | none => simp
      | some cert => rfl

def isDelim (c : UInt8) : Bool :=
  (str " \t,").contains c

theorem isDelim_iff (c : UInt8) : isDelim c = true ↔ c = 32 ∨ c = 9 ∨ c = 44 := by
  have hdelim : str " \t," = [32, 9, 44] := by
    decide
  unfold isDelim
  rw [hdelim]
  simp

theorem ofText_eq (s : Str) : ofText s = (s.splitOnP isDelim).flatMap ofPiece := by
  rfl

theorem ofText_append {d : UInt8} (hd : isDelim d = true) (a b : Str)
    : ofText (a ++ d :: b) = ofText a ++ ofText b := by
  rw [ofText_eq, List.splitOnP_append_cons a b hd, List.flatMap_append]
  rfl

theorem ofText_eq_ofPiece {s : Str} (h : ∀ c ∈ s, isDelim c = false) : ofText s = ofPiece s := by
  rw [ofText_eq, List.splitOnP_eq_singleton h]
  simp

theorem ofPiece_eq_nil {p : Str} (h : 58 ∉ p) : ofPiece p = [] := by
  unfold ofPiece
  rw [(strcut_eq_none_iff 58 p).mpr h]

theorem ofText_eq_nil {s : Str} (h : 58 ∉ s) : ofText s = [] := by
  unfold ofText
  rw [List.flatMap_eq_nil_iff]
  intro p hp
  apply ofPiece_eq_nil
  intro hmem
  exact h (Fields.mem_of_mem_field hp hmem)

theorem ofPiece_of_strcut {p doms cert certns certname : Str} (hp : ∀ c ∈ p, isDelim c = false)
    (hcut : strcut 58 p = some (doms, cert)) (hcert : strcut 47 cert = some (certns, certname))
    : ofPiece p = [⟨doms, certns, certname⟩] := by
  have hsep : strsep (str ",") doms = [doms] := by
    have hcomma : str "," = [44] := by
      decide
    unfold strsep
    rw [List.splitOnP_eq_singleton]
    intro c hc
    rw [strcut_eq_some_iff] at hcut
    have hc' := hp c (by simp [hcut.1, hc])
    rw [← Bool.not_eq_true, isDelim_iff, not_or, not_or] at hc'
    simp [hcomma, hc'.2.2]
  unfold ofPiece
  rw [hcut]
  dsimp only
  rw [hcert]
  dsimp only
  rw [hsep]
  rfl

theorem length_ofPiece_le {p : Str} (hp : ∀ c ∈ p, isDelim c = false)
    : (ofPiece p).length ≤ p.count 58 := by
  cases hcut : strcut 58 p with
  | none =>
    rw [strcut_eq_none_iff] at hcut
    rw [ofPiece_eq_nil hcut]
    simp
  | some doms =>
    have hpos : 0 < p.count 58 := by
      rw [List.count_pos_iff, (strcut_eq_some_iff _ _ _ _).mp hcut |>.1]
      simp
    cases hcert : strcut 47 doms.2 with
    | none =>
      unfold ofPiece
      rw [hcut]
      dsimp only
      rw [hcert]
      simp
    | some cert =>
      rw [ofPiece_of_strcut hp hcut hcert, List.length_singleton]
      omega

theorem length_ofText_le (s : Str) : (ofText s).length ≤ s.count 58 := by
  induction s using Fields.text_induction isDelim with
  | hfield xs hxs =>
    rw [ofText_eq_ofPiece hxs]
    exact length_ofPiece_le hxs
  | hsep xs sep as hxs hsep ih =>
    have hpiece := length_ofPiece_le hxs
    rw [ofText_append hsep, ofText_eq_ofPiece hxs, List.length_append, List.count_append]
    have hcount := List.count_le_count_cons (a := 58) (b := sep) (l := as)
    omega

theorem exists_mem_of_infix {s p dom rest : Str} {c : UInt8} (hp : p ∈ s.splitOnP isDelim)
    (hentry : dom ++ 58 :: rest <:+: p) (hslash : 47 ∈ rest) (hc : c ∈ p) (hcolon : c ≠ 58) (hslash' : c ≠ 47)
    : ∃ crt ∈ ofText s, c ∈ crt.crDomain ∨ c ∈ crt.crNamespace ∨ c ∈ crt.crName := by
  rcases hentry with ⟨before, after, hpiece⟩
  have hmem : 58 ∈ p := by
    rw [← hpiece]
    simp
  rcases List.eq_append_cons_of_mem hmem with ⟨doms, cert, hcut, hdoms⟩
  -- the first colon of the piece is not behind this one, so the slash is behind it
  have hcert : 47 ∈ cert := by
    have heq : (before ++ dom) ++ 58 :: (rest ++ after) = doms ++ 58 :: cert := by
      rw [← hcut, ← hpiece]
      simp
    rcases List.append_eq_append_iff.mp heq with ⟨gap, hgap, hrest⟩ | ⟨gap, hgap, hrest⟩
    . cases gap with
      | nil =>
        cases hrest
        simp [hslash]
      | cons g gap =>
        rw [List.cons_append, List.cons.injEq] at hrest
        rw [hgap, ← hrest.1] at hdoms
        simp at hdoms
    . cases gap with
      | nil =>
        cases hrest
        simp [hslash]
      | cons g gap =>
        cases hrest
        simp [hslash]
  rcases List.eq_append_cons_of_mem hcert with ⟨certns, certname, hcut', hcertns⟩
  have hof : ofPiece p = [⟨doms, certns, certname⟩] := by
    apply ofPiece_of_strcut (Fields.eq_false_of_mem hp)
    . rw [hcut]
      apply strcut_append 58 doms cert hdoms
    . rw [hcut']
      apply strcut_append 47 certns certname hcertns
  refine ⟨⟨doms, certns, certname⟩, ?_, ?_⟩
  . rw [ofText_eq, List.mem_flatMap]
    exact ⟨p, hp, by simp [hof]⟩
  . rw [hcut, hcut'] at hc
    simpa [hcolon, hslash'] using hc

end clusterConfigAddCerts

-- A word of the option: not empty, and without white space and the three separators.
def CertWord (s : Str) : Prop :=
  s ≠ [] ∧ ∀ c ∈ s, isspace c = false ∧ c ≠ 44 ∧ c ≠ 58 ∧ c ≠ 47

structure CertEntry where
  domains : List Str
  certns : Str
  certname : Str
  domains_ne_nil : domains ≠ []
  domains_word : ∀ dom ∈ domains, CertWord dom
  certns_word : CertWord certns
  certname_word : CertWord certname

namespace CertEntry

def text (e : CertEntry) : Str :=
  [44].intercalate e.domains ++ 58 :: (e.certns ++ 47 :: e.certname)

def certs (e : CertEntry) : List ClusterCert :=
  e.domains.map fun dom => ⟨dom, e.certns, e.certname⟩

theorem mem_intercalate {c : UInt8} {doms : List Str} (h : c ∈ [44].intercalate doms)
    : c = 44 ∨ ∃ dom ∈ doms, c ∈ dom := by
  induction doms with
  | nil => simp at h
  | cons dom doms ih =>
    cases doms with
    | nil =>
      right
      exact ⟨dom, by simp, by simpa using h⟩
    | cons next doms =>
      rw [List.intercalate_cons_cons, List.mem_append, List.mem_append, List.mem_singleton] at h
      rcases h with (h | h) | h
      . exact .inr ⟨dom, List.mem_cons_self, h⟩
      . exact .inl h
      . rcases ih h with h | ⟨dom', hdom', hc⟩
        . exact .inl h
        . exact .inr ⟨dom', List.mem_cons_of_mem _ hdom', hc⟩

theorem count_text (e : CertEntry) : e.text.count 58 = 1 := by
  have hdoms : 58 ∉ [44].intercalate e.domains := by
    intro h
    rcases mem_intercalate h with h | ⟨dom, hdom, h⟩
    . cases h
    . exact ((e.domains_word dom hdom).2 58 h).2.2.1 rfl
  have hns : 58 ∉ e.certns := by
    intro h
    exact (e.certns_word.2 58 h).2.2.1 rfl
  have hname : 58 ∉ e.certname := by
    intro h
    exact (e.certname_word.2 58 h).2.2.1 rfl
  unfold text
  rw [List.count_append, List.count_eq_zero_of_not_mem hdoms, List.count_cons_self,
    List.count_eq_zero_of_not_mem]
  simp [hns, hname]

theorem text_of_single {e : CertEntry} {dom : Str} (h : e.domains = [dom])
    : e.text = dom ++ 58 :: (e.certns ++ 47 :: e.certname) := by
  unfold text
  rw [h]
  simp

open clusterConfigAddCerts in
theorem isDelim_of_mem_text {e : CertEntry} (h : e.domains.length = 1)
    : ∀ c ∈ e.text, isDelim c = false := by
  have hword : ∀ {s : Str}, CertWord s → ∀ c ∈ s, isDelim c = false := by
    intro s hs c hc
    rcases hs.2 c hc with ⟨hspace, hcomma, -, -⟩
    rw [← Bool.not_eq_true, isDelim_iff]
    rintro (rfl | rfl | rfl)
    . cases hspace
    . cases hspace
    . exact hcomma rfl
  rcases List.length_eq_one_iff.mp h with ⟨dom, hdom⟩
  intro c hc
  rw [text_of_single hdom, List.mem_append, List.mem_cons, List.mem_append, List.mem_cons] at hc
  rcases hc with hc | rfl | hc | rfl | hc
  . exact hword (e.domains_word dom (by simp [hdom])) c hc
  . decide
  . exact hword e.certns_word c hc
  . decide
  . exact hword e.certname_word c hc

open clusterConfigAddCerts in
theorem ofText_text {e : CertEntry} (h : e.domains.length = 1) : ofText e.text = e.certs := by
  have hdelim := isDelim_of_mem_text h
  rcases List.length_eq_one_iff.mp h with ⟨dom, hdom⟩
  have hcolon : 58 ∉ dom := by
    intro hmem
    exact ((e.domains_word dom (by simp [hdom])).2 58 hmem).2.2.1 rfl
  have hslash : 47 ∉ e.certns := by
    intro hmem
    exact (e.certns_word.2 47 hmem).2.2.2 rfl
  rw [ofText_eq_ofPiece hdelim]
  have hcut := strcut_append 58 dom (e.certns ++ 47 :: e.certname) hcolon
  rw [← text_of_single hdom] at hcut
  rw [ofPiece_of_strcut hdelim hcut (strcut_append 47 _ _ hslash)]
  unfold certs
  rw [hdom]
  rfl

theorem length_certs (e : CertEntry) : e.certs.length = e.domains.length := by
  unfold certs
  rw [List.length_map]

theorem length_domains_pos (e : CertEntry) : 0 < e.domains.length := by
  rw [List.length_pos_iff]
  exact e.domains_ne_nil

end CertEntry

def WhiteSpace (s : Str) : Prop :=
  ∀ c ∈ s, isspace c = true

-- The text of a list of entries, each with the white space behind it.
def certsText (lead : Str) : List (CertEntry × Str) → Str
  | [] => lead
  | (e, sep) :: rest => lead ++ (e.text ++ certsText sep rest)

def Separated (lead : Str) : List (CertEntry × Str) → Prop
  | [] => WhiteSpace lead
  | (_, sep) :: rest => WhiteSpace lead ∧ (rest ≠ [] → sep ≠ []) ∧ Separated sep rest

def isBlank (c : UInt8) : Bool :=
  c == 32 || c == 9

-- Each entry stands between blanks, or at an end of the text.
def Isolated (lead : Str) : List (CertEntry × Str) → Prop
  | [] => True
  | (_, sep) :: rest =>
    (∀ c ∈ lead.getLast?, isBlank c = true) ∧ (∀ c ∈ sep.head?, isBlank c = true) ∧ Isolated sep rest

theorem WhiteSpace.notMem_colon {s : Str} (h : WhiteSpace s) : 58 ∉ s := by
  intro hmem
  have := h 58 hmem
  revert this
  decide

theorem Separated.whiteSpace {lead : Str} {l : List (CertEntry × Str)} (h : Separated lead l)
    : WhiteSpace lead := by
  cases l with
  | nil => exact h
  | cons p rest => exact h.1

theorem count_certsText {lead : Str} {l : List (CertEntry × Str)} (h : Separated lead l)
    : (certsText lead l).count 58 = l.length := by
  induction l generalizing lead with
  | nil =>
    unfold certsText
    rw [List.count_eq_zero_of_not_mem (WhiteSpace.notMem_colon h)]
    rfl
  | cons p rest ih =>
    rcases p with ⟨e, sep⟩
    have hlead := List.count_eq_zero_of_not_mem h.1.notMem_colon
    have hrest := ih h.2.2
    have htext := e.count_text
    unfold certsText
    rw [List.count_append, List.count_append, List.length_cons]
    omega

theorem isDelim_of_isBlank {c : UInt8} (h : isBlank c = true) : clusterConfigAddCerts.isDelim c = true := by
  rw [clusterConfigAddCerts.isDelim_iff]
  unfold isBlank at h
  rw [Bool.or_eq_true, beq_iff_eq, beq_iff_eq] at h
  rcases h with h | h
  . exact .inl h
  . exact .inr (.inl h)

open clusterConfigAddCerts in
theorem ofText_blankLead {lead s : Str} (hlead : WhiteSpace lead)
    (hblank : ∀ c ∈ lead.getLast?, isBlank c = true)
    : ofText (lead ++ s) = ofText s := by
  rcases List.eq_nil_or_concat lead with rfl | ⟨init, c, rfl⟩
  . rfl
  . have hc := hblank c (by simp)
    rw [List.concat_append, ofText_append (isDelim_of_isBlank hc), ofText_eq_nil]
    . rfl
    . intro hmem
      apply hlead.notMem_colon
      simp [hmem]

theorem certsText_cons (c : UInt8) (lead : Str) (l : List (CertEntry × Str))
    : certsText (c :: lead) l = c :: certsText lead l := by
  cases l <;> rfl

theorem Separated.of_cons {c : UInt8} {lead : Str} {l : List (CertEntry × Str)}
    (h : Separated (c :: lead) l)
    : Separated lead l := by
  have hlead : WhiteSpace lead := by
    intro d hd
    exact h.whiteSpace d (List.mem_cons_of_mem _ hd)
  cases l with
  | nil => exact hlead
  | cons p rest => exact ⟨hlead, h.2⟩

theorem Isolated.of_cons {c : UInt8} {lead : Str} {l : List (CertEntry × Str)}
    (h : Isolated (c :: lead) l)
    : Isolated lead l := by
  cases l with
  | nil => trivial
  | cons p rest =>
    refine ⟨?_, h.2⟩
    intro d hd
    apply h.1
    rw [List.getLast?_cons, Option.mem_def] at *
    simp [hd]

open clusterConfigAddCerts in
theorem ofText_certsText {lead : Str} {l : List (CertEntry × Str)} (hsep : Separated lead l)
    (hsingle : ∀ p ∈ l, p.1.domains.length = 1) (hiso : Isolated lead l)
    : ofText (certsText lead l) = l.flatMap fun p => p.1.certs := by
  induction l generalizing lead with
  | nil => exact ofText_eq_nil (WhiteSpace.notMem_colon hsep)
  | cons p rest ih =>
    rcases p with ⟨e, sep⟩
    rw [List.forall_mem_cons] at hsingle
    rcases hsep with ⟨hlead, hne, hsep⟩
    rcases hiso with ⟨hlast, hhead, hiso⟩
    unfold certsText
    rw [ofText_blankLead hlead hlast, List.flatMap_cons]
    cases sep with
    | nil =>
      have hrest : rest = [] := by
        by_contra hrest
        exact hne hrest rfl
      rw [hrest]
      unfold certsText
      rw [List.append_nil, List.flatMap_nil, List.append_nil]
      exact CertEntry.ofText_text hsingle.1
    | cons c sep =>
      have hc := isDelim_of_isBlank (hhead c rfl)
      rw [certsText_cons, ofText_append hc, CertEntry.ofText_text hsingle.1,
        ih hsep.of_cons hsingle.2 hiso.of_cons]

def ClusterCert.SpaceFree (crt : ClusterCert) : Prop :=
  ∀ c, isspace c = true → c ∉ crt.crDomain ∧ c ∉ crt.crNamespace ∧ c ∉ crt.crName

theorem CertEntry.spaceFree (e : CertEntry) : ∀ crt ∈ e.certs, crt.SpaceFree := by
  have hword : ∀ {s : Str} {c : UInt8}, CertWord s → isspace c = true → c ∉ s := by
    intro s c hs hc hmem
    rw [(hs.2 c hmem).1] at hc
    cases hc
  intro crt hcrt c hc
  unfold CertEntry.certs at hcrt
  rw [List.mem_map] at hcrt
  rcases hcrt with ⟨dom, hdom, rfl⟩
  exact ⟨hword (e.domains_word dom hdom) hc, hword e.certns_word hc, hword e.certname_word hc⟩

open clusterConfigAddCerts in
theorem isBlank_of_adjacent (before after : Str) {s w : Str} {e : CertEntry} {c : UInt8}
    (hsingle : e.domains.length = 1) (hs : s = before ++ w ++ after) (hw : w = c :: e.text ∨ w = e.text ++ [c])
    (hc : isspace c = true) (hclean : ∀ crt ∈ ofText s, crt.SpaceFree)
    : isBlank c = true := by
  by_contra hblank
  have hcolon : c ≠ 58 := by
    rintro rfl
    cases hc
  have hslash : c ≠ 47 := by
    rintro rfl
    cases hc
  have hdelim : isDelim c = false := by
    rw [← Bool.not_eq_true, isDelim_iff]
    rintro (rfl | rfl | rfl)
    . exact hblank rfl
    . exact hblank rfl
    . cases hc
  have hmem : ∀ d ∈ w, d = c ∨ d ∈ e.text := by
    intro d hd
    rcases hw with rfl | rfl
    . simpa using hd
    . simpa [or_comm] using hd
  have hcw : c ∈ w := by
    rcases hw with rfl | rfl <;> simp
  have htext : e.text <:+: w := by
    rcases hw with rfl | rfl
    . exact ⟨[c], [], by simp⟩
    . exact ⟨[], [c], by simp⟩
  have hfield : ∀ d ∈ w, isDelim d = false := by
    intro d hd
    rcases hmem d hd with rfl | hd
    . exact hdelim
    . exact CertEntry.isDelim_of_mem_text hsingle d hd
  rcases Fields.exists_infix hfield before after with ⟨p, hp, hpart⟩
  rw [← hs] at hp
  rcases List.length_eq_one_iff.mp hsingle with ⟨dom, hdom⟩
  have hentry := htext.trans hpart
  rw [CertEntry.text_of_single hdom] at hentry
  rcases exists_mem_of_infix hp hentry (by simp) (hpart.subset hcw) hcolon hslash with ⟨crt, hcrt, hin⟩
  have hfree := hclean crt hcrt c hc
  rcases hin with h | h | h
  . exact hfree.1 h
  . exact hfree.2.1 h
  . exact hfree.2.2 h

open clusterConfigAddCerts in
theorem isolated_of_spaceFree (before : Str) {lead : Str} {l : List (CertEntry × Str)} (hsep : Separated lead l)
    (hsingle : ∀ p ∈ l, p.1.domains.length = 1)
    (hclean : ∀ crt ∈ ofText (before ++ certsText lead l), crt.SpaceFree)
    : Isolated lead l := by
  induction l generalizing before lead with
  | nil => trivial
  | cons p rest ih =>
    rcases p with ⟨e, sep⟩
    rw [List.forall_mem_cons] at hsingle
    rcases hsep with ⟨hlead, -, hsep⟩
    unfold certsText at hclean
    refine ⟨?_, ?_, ?_⟩
    . intro c hc
      rcases List.eq_nil_or_concat lead with rfl | ⟨init, d, rfl⟩
      . cases hc
      . have hcd : d = c := by
          simpa using hc
        subst hcd
        apply isBlank_of_adjacent (before ++ init) (certsText sep rest) hsingle.1 _ (.inl rfl) (hlead d (by simp))
          hclean
        simp
    . intro c hc
      cases sep with
      | nil => cases hc
      | cons d sep =>
        cases hc
        apply isBlank_of_adjacent (before ++ lead) (certsText sep rest) hsingle.1 _ (.inr rfl)
          (hsep.whiteSpace c List.mem_cons_self) hclean
        simp [certsText_cons]
    . apply ih (before ++ lead ++ e.text) hsep hsingle.2
      simpa using hclean

theorem length_domains_of_length_le {l : List (CertEntry × Str)}
    (h : (l.flatMap fun p => p.1.certs).length ≤ l.length)
    : ∀ p ∈ l, p.1.domains.length = 1 := by
  have hlow : ∀ l : List (CertEntry × Str), l.length ≤ (l.flatMap fun p => p.1.certs).length := by
    intro l
    induction l with
    | nil => simp
    | cons p rest ih =>
      have hpos := p.1.length_domains_pos
      rw [List.flatMap_cons, List.length_append, CertEntry.length_certs, List.length_cons]
      omega
  induction l with
  | nil => simp
  | cons p rest ih =>
    have hpos := p.1.length_domains_pos
    have hrest := hlow rest
    rw [List.flatMap_cons, List.length_append, CertEntry.length_certs, List.length_cons] at h
    rw [List.forall_mem_cons]
    constructor
    . omega
    . apply ih
      omega

/--
The certificates of the documented text are read exactly if every entry has a single domain and stands
between spaces and tabs. The first of them that matches a host is then the one that the host gets.
-/
theorem clusterConfigAddCerts_parses_iff (cc : ClusterConfig) (lead : Str) (l : List (CertEntry × Str))
    (hsep : Separated lead l)
    : ((clusterConfigAddCerts cc (certsText lead l)).ccCerts = cc.ccCerts ++ l.flatMap (fun p => p.1.certs)
        ∧
      ∀ (cs : Cluster) (host : Str), cs.csConfig = clusterConfigAddCerts cc (certsText lead l) →
        clusterGetCertForHostname cs host
          =
        (cc.ccCerts ++ l.flatMap fun p => p.1.certs).find? fun crt => domainMatch crt.crDomain host)
        ↔
      (∀ p ∈ l, p.1.domains.length = 1) ∧ Isolated lead l := by
  constructor
  . rintro ⟨hcerts, -⟩
    rw [clusterConfigAddCerts.ccCerts_eq, List.append_cancel_left_eq] at hcerts
    have hsingle : ∀ p ∈ l, p.1.domains.length = 1 := by
      apply length_domains_of_length_le
      rw [← hcerts, ← count_certsText hsep]
      apply clusterConfigAddCerts.length_ofText_le
    refine ⟨hsingle, ?_⟩
    apply isolated_of_spaceFree [] hsep hsingle
    rw [List.nil_append, hcerts]
    intro crt hcrt
    rw [List.mem_flatMap] at hcrt
    rcases hcrt with ⟨p, -, hcrt⟩
    exact p.1.spaceFree crt hcrt
  . rintro ⟨hsingle, hiso⟩
    have hcerts : (clusterConfigAddCerts cc (certsText lead l)).ccCerts
        = cc.ccCerts ++ l.flatMap fun p => p.1.certs := by
      rw [clusterConfigAddCerts.ccCerts_eq, ofText_certsText hsep hsingle hiso]
    refine ⟨hcerts, ?_⟩
    intro cs host hconfig
    unfold clusterGetCertForHostname
    rw [hconfig, hcerts]

theorem certWord_of_all {s : Str} (hne : s ≠ [])
    (h : s.all (fun c => !isspace c && c != 44 && c != 58 && c != 47) = true)
    : CertWord s := by
  refine ⟨hne, ?_⟩
  intro c hc
  have := List.all_eq_true.mp h c hc
  simpa [and_assoc] using this

def stagingEntry : CertEntry where
  domains := [str "*myapp-staging.com"]
  certns := str "trafficserver"
  certname := str "staging-cert"
  domains_ne_nil := by simp
  domains_word := by
    intro dom hdom
    rw [List.mem_singleton.mp hdom]
    exact certWord_of_all (by decide) (by decide)
  certns_word := certWord_of_all (by decide) (by decide)
  certname_word := certWord_of_all (by decide) (by decide)

def prodEntry : CertEntry :=
  { stagingEntry with
    domains := [str "*myapp.com"]
    certname := str "prod-cert"
    domains_ne_nil := by simp
    domains_word := by
      intro dom hdom
      rw [List.mem_singleton.mp hdom]
      exact certWord_of_all (by decide) (by decide)
    certname_word := certWord_of_all (by decide) (by decide) }

theorem clusterConfigAddCerts_parses_stagingEntry
    : (clusterConfigAddCerts clusterConfigNew
          (str "*myapp-staging.com:trafficserver/staging-cert *myapp.com:trafficserver/prod-cert\t")).ccCerts
        = [⟨str "*myapp-staging.com", str "trafficserver", str "staging-cert"⟩,
          ⟨str "*myapp.com", str "trafficserver", str "prod-cert"⟩] := by
  have hsep : Separated [] [(stagingEntry, [32]), (prodEntry, [9])] := by
    refine ⟨?_, ?_, ?_, ?_, ?_⟩
    . intro c hc
      cases hc
    . intro _
      simp
    . intro c hc
      rw [List.mem_singleton.mp hc]
      decide
    . intro h
      exact absurd rfl h
    . intro c hc
      rw [List.mem_singleton.mp hc]
      decide
  have hiso : Isolated [] [(stagingEntry, [32]), (prodEntry, [9])] := by
    refine ⟨?_, ?_, ?_, ?_, trivial⟩
    . intro c hc
      cases hc
    . intro c hc
      cases hc
      rfl
    . intro c hc
      cases hc
      rfl
    . intro c hc
      cases hc
      rfl
  have hparses := (clusterConfigAddCerts_parses_iff clusterConfigNew [] [(stagingEntry, [32]), (prodEntry, [9])]
    hsep).mpr
    ⟨by simp [stagingEntry, prodEntry], hiso⟩
  exact hparses.1

def twoDomainsEntry : CertEntry :=
  { stagingEntry with
    domains := [str "foo.com", str "bar.com"]
    domains_ne_nil := by simp
    domains_word := by
      intro dom hdom
      simp only [List.mem_cons, List.not_mem_nil, or_false] at hdom
      rcases hdom with rfl | rfl
      . exact certWord_of_all (by decide) (by decide)
      . exact certWord_of_all (by decide) (by decide) }

-- The comma between two domains of an entry is taken for the end of the entry.
theorem not_clusterConfigAddCerts_parses
    : ¬ ∀ (cc : ClusterConfig) (lead : Str) (l : List (CertEntry × Str)), Separated lead l →
        (clusterConfigAddCerts cc (certsText lead l)).ccCerts = cc.ccCerts ++ l.flatMap (fun p => p.1.certs)
          ∧
        ∀ (cs : Cluster) (host : Str), cs.csConfig = clusterConfigAddCerts cc (certsText lead l) →
          clusterGetCertForHostname cs host
            =
          (cc.ccCerts ++ l.flatMap fun p => p.1.certs).find? fun crt => domainMatch crt.crDomain host := by
  intro hparses
  have hsep : Separated [] [(twoDomainsEntry, [])] := by
    refine ⟨?_, ?_, ?_⟩
    . intro c hc
      cases hc
    . intro h
      exact absurd rfl h
    . intro c hc
      cases hc
  have hcerts := (hparses clusterConfigNew [] [(twoDomainsEntry, [])] hsep).1
  have hlength := congrArg List.length hcerts
  revert hlength
  decide
