import Mathlib.Data.List.Pairwise
import TsIngress.BasicLemmas
import TsIngress.Api.Impl.Make
import TsIngress.Api.Impl.Service
import TsIngress.Env

/-!
This module contains the port of a service that a text leads to: the one with that name, and failing that
one with that number.
-/

def Service.portList (svc : Service) : List ServicePort :=
  (svc.svPorts.map hashValues).getD []

def IsNumber (s : Str) : Prop :=
  s ≠ [] ∧ ∀ c ∈ s, isdigit c

section

variable (ports : List ServicePort) (s : Str) (proto : ServiceProto)

def ServicePort.Named (port : ServicePort) : Prop :=
  port.spProtocol = proto ∧ port.spName = s

def ServicePort.Numbered (port : ServicePort) : Prop :=
  port.spProtocol = proto ∧ port.spPort = digitsValue s

-- What a lookup is to return: the port of that name, otherwise one of that number, otherwise none.
structure Resolves (found : Option ServicePort) : Prop where
  byName : ∀ port ∈ ports, port.Named s proto → found = some port
  byNumber : (∀ port ∈ ports, ¬ port.Named s proto) → IsNumber s → (∃ port ∈ ports, port.Numbered s proto) →
    ∃ port ∈ ports, port.Numbered s proto ∧ found = some port
  otherwise : (∀ port ∈ ports, ¬ port.Named s proto) →
    (IsNumber s → ∀ port ∈ ports, ¬ port.Numbered s proto) → found = none

def Meant (port : ServicePort) : Prop :=
  port.Named s proto
    ∨
  (∀ port ∈ ports, ¬ port.Named s proto) ∧ IsNumber s ∧ port.Numbered s proto

/--
A port with another name that has the number which `atoi` reads from the text, although the text is the
name of a port or not a number.
-/
def Strays (port : ServicePort) : Prop :=
  port.spProtocol = proto
    ∧
  port.spName ≠ s
    ∧
  atoi s ≠ 0 ∧ port.spPort = atoi s
    ∧
  ((∃ port ∈ ports, port.Named s proto) ∨ ¬ (IsNumber s ∧ atoi s = digitsValue s))

-- A port that is meant by its number, which `atoi` reads as zero or as another number.
def Missed (port : ServicePort) : Prop :=
  (∀ port ∈ ports, ¬ port.Named s proto)
    ∧
  IsNumber s ∧ port.Numbered s proto
    ∧
  (atoi s = 0 ∨ atoi s ≠ digitsValue s)

def NamedBefore (port : ServicePort) : Prop :=
  ∃ pre named post, ports = pre ++ named :: post ∧ named.Named s proto ∧ port ∈ post

def NamesDistinct : Prop :=
  ports.Pairwise fun a b => a.spName ≠ b.spName

def NumbersDistinct : Prop :=
  ports.Pairwise fun a b => a.spProtocol = b.spProtocol → a.spPort ≠ b.spPort

end

section

variable {ports : List ServicePort} {s : Str} {proto : ServiceProto} {port : ServicePort}

theorem NamesDistinct.ne (h : NamesDistinct ports) {a b : ServicePort} (ha : a ∈ ports) (hb : b ∈ ports)
    (hne : a ≠ b)
    : a.spName ≠ b.spName := by
  have : Std.Symm fun a b : ServicePort => a.spName ≠ b.spName := ⟨fun _ _ h => h.symm⟩
  exact List.Pairwise.forall h ha hb hne

theorem NumbersDistinct.ne (h : NumbersDistinct ports) {a b : ServicePort} (ha : a ∈ ports) (hb : b ∈ ports)
    (hne : a ≠ b)
    : a.spProtocol = b.spProtocol → a.spPort ≠ b.spPort := by
  have : Std.Symm fun a b : ServicePort => a.spProtocol = b.spProtocol → a.spPort ≠ b.spPort :=
    ⟨fun _ _ h heq => (h heq.symm).symm⟩
  exact List.Pairwise.forall h ha hb hne

theorem answers_iff
    : port.answers s proto = true
        ↔
      port.spProtocol = proto ∧ (port.spName = s ∨ (atoi s ≠ 0 ∧ atoi s = port.spPort)) := by
  simp [ServicePort.answers]

theorem answers_of_find (h : ports.find? (·.answers s proto) = some port) : port.answers s proto = true := by
  simpa using List.find?_some h

theorem ServicePort.Named.answers (h : port.Named s proto) : port.answers s proto = true := by
  rw [answers_iff]
  exact ⟨h.1, .inl h.2⟩

theorem strays_iff : Strays ports s proto port ↔ port.answers s proto = true ∧ ¬ Meant ports s proto port := by
  rw [answers_iff]
  unfold Strays Meant ServicePort.Named ServicePort.Numbered
  constructor
  . rintro ⟨hproto, hname, hzero, hport, hother⟩
    refine ⟨⟨hproto, .inr ⟨hzero, hport.symm⟩⟩, ?_⟩
    rintro (⟨-, h⟩ | ⟨hnone, hnumber, -, hvalue⟩)
    . exact hname h
    . rcases hother with ⟨other, hmem, hnamed⟩ | hnot
      . exact hnone other hmem hnamed
      . exact hnot ⟨hnumber, hport ▸ hvalue⟩
  . rintro ⟨⟨hproto, hanswer⟩, hnot⟩
    rw [not_or] at hnot
    have hname : port.spName ≠ s := fun h => hnot.1 ⟨hproto, h⟩
    rcases hanswer with h | ⟨hzero, hport⟩
    . exact absurd h hname
    . refine ⟨hproto, hname, hzero, hport.symm, ?_⟩
      by_contra hcon
      push Not at hcon
      exact hnot.2 ⟨fun q hq hnamed => hcon.1 q hq hnamed.1 hnamed.2, hcon.2.1, hproto,
        hport ▸ hcon.2.2⟩

theorem missed_iff (hport : port ∈ ports)
    : Missed ports s proto port ↔ Meant ports s proto port ∧ ¬ port.answers s proto = true := by
  rw [answers_iff]
  unfold Missed Meant
  constructor
  . rintro ⟨hnone, hnumber, hnumbered, hatoi⟩
    refine ⟨.inr ⟨hnone, hnumber, hnumbered⟩, ?_⟩
    rintro ⟨hproto, hname | ⟨hzero, heq⟩⟩
    . exact hnone port hport ⟨hproto, hname⟩
    . rcases hatoi with h | h
      . exact hzero h
      . exact h (heq.trans hnumbered.2)
  . rintro ⟨hnamed | ⟨hnone, hnumber, hnumbered⟩, hnot⟩
    . exact absurd ⟨hnamed.1, .inl hnamed.2⟩ hnot
    . refine ⟨hnone, hnumber, hnumbered, ?_⟩
      by_contra hcon
      push Not at hcon
      exact hnot ⟨hnumbered.1, .inr ⟨hcon.1, hcon.2.trans hnumbered.2.symm⟩⟩

theorem resolves_iff (hnames : NamesDistinct ports) {found : Option ServicePort}
    (hfound : ∀ port, found = some port → port ∈ ports)
    : Resolves ports s proto found
        ↔
      (∀ port, found = some port → Meant ports s proto port)
        ∧
      (found = none → ∀ port ∈ ports, ¬ Meant ports s proto port) := by
  constructor
  . intro h
    constructor
    . intro port hport
      by_cases hnamed : ∃ named ∈ ports, named.Named s proto
      . rcases hnamed with ⟨named, hmem, hnamed⟩
        have heq := h.byName named hmem hnamed
        rw [hport, Option.some.injEq] at heq
        rw [heq]
        exact .inl hnamed
      . push Not at hnamed
        by_cases hnumbered : IsNumber s ∧ ∃ port ∈ ports, port.Numbered s proto
        . rcases h.byNumber hnamed hnumbered.1 hnumbered.2 with ⟨q, -, hq, heq⟩
          rw [hport, Option.some.injEq] at heq
          rw [heq]
          exact .inr ⟨hnamed, hnumbered.1, hq⟩
        . push Not at hnumbered
          rw [h.otherwise hnamed hnumbered] at hport
          cases hport
    . rintro hnone port hport (hnamed | ⟨hnot, hnumber, hnumbered⟩)
      . rw [h.byName port hport hnamed] at hnone
        cases hnone
      . rcases h.byNumber hnot hnumber ⟨port, hport, hnumbered⟩ with ⟨q, -, -, heq⟩
        rw [heq] at hnone
        cases hnone
  . rintro ⟨hsome, hnone⟩
    constructor
    . intro port hport hnamed
      cases hcase : found with
      | none => exact absurd (.inl hnamed) (hnone hcase port hport)
      | some q =>
        rcases hsome q hcase with hq | ⟨hnot, -⟩
        . by_contra hne
          rw [Option.some.injEq] at hne
          exact hnames.ne (hfound q hcase) hport hne (hq.2.trans hnamed.2.symm)
        . exact absurd hnamed (hnot port hport)
    . rintro hnot hnumber ⟨port, hport, hnumbered⟩
      cases hcase : found with
      | none => exact absurd (.inr ⟨hnot, hnumber, hnumbered⟩) (hnone hcase port hport)
      | some q =>
        have hq := hfound q hcase
        rcases hsome q hcase with hnamed | ⟨-, -, hqn⟩
        . exact absurd hnamed (hnot q hq)
        . exact ⟨q, hq, hqn, rfl⟩
    . intro hnot hnumbered
      cases hcase : found with
      | none => rfl
      | some q =>
        have hq := hfound q hcase
        rcases hsome q hcase with hnamed | ⟨-, hnumber, hqn⟩
        . exact absurd hnamed (hnot q hq)
        . exact absurd hqn (hnumbered hnumber q hq)

theorem namedBefore_of_find {first : ServicePort} (hport : port ∈ ports) (hstrays : Strays ports s proto port)
    (hfind : ports.find? (·.answers s proto) = some first) (hmeant : Meant ports s proto first)
    : NamedBefore ports s proto port := by
  rcases List.find?_eq_some_iff_append.mp hfind with ⟨hanswers, pre, post, heq, hpre⟩
  have hstrays' := strays_iff.mp hstrays
  have hnamed : first.Named s proto := by
    rcases hmeant with hnamed | ⟨hnone, hnumber, hnumbered⟩
    . exact hnamed
    . have hfirst : first ∈ ports := List.mem_of_find?_eq_some hfind
      have hvalue : atoi s = first.spPort := by
        rcases answers_iff.mp hanswers with ⟨hproto, hname | ⟨-, hvalue⟩⟩
        . exact absurd ⟨hproto, hname⟩ (hnone first hfirst)
        . exact hvalue
      have hnot := hstrays.2.2.2.2
      rcases hnot with ⟨named, hmem, hnamed⟩ | hnot
      . exact absurd hnamed (hnone named hmem)
      . exact absurd ⟨hnumber, hvalue.trans hnumbered.2⟩ hnot
  refine ⟨pre, first, post, heq, hnamed, ?_⟩
  rw [heq, List.mem_append, List.mem_cons] at hport
  rcases hport with hmem | rfl | hmem
  . have hno := hpre port hmem
    rw [hstrays'.1] at hno
    cases hno
  . exact absurd hmeant hstrays'.2
  . exact hmem

theorem NamedBefore.meant_of_find (h : NamedBefore ports s proto port) (hnames : NamesDistinct ports)
    (hfind : ports.find? (·.answers s proto) = some port)
    : Meant ports s proto port := by
  rcases h with ⟨pre, named, post, heq, hnamed, hpost⟩
  rw [heq, List.find?_append, List.find?_cons, hnamed.answers] at hfind
  cases hpre : pre.find? (·.answers s proto) with
  | none =>
    rw [hpre, Option.none_or, Option.some.injEq] at hfind
    rw [← hfind]
    exact .inl hnamed
  | some first =>
    rw [hpre, Option.some_or, Option.some.injEq] at hfind
    rw [NamesDistinct, heq, List.pairwise_append] at hnames
    have hmem := List.mem_of_find?_eq_some hpre
    rw [hfind] at hmem
    exact absurd rfl (hnames.2.2 port hmem port (by simp [hpost]))

theorem Missed.not_meant (h : Missed ports s proto port) {other : ServicePort} (hother : other ∈ ports)
    (hanswers : other.answers s proto = true)
    : ¬ Meant ports s proto other := by
  rcases h with ⟨hnone, hnumber, -, hatoi⟩
  rcases answers_iff.mp hanswers with ⟨hproto, hname | ⟨hzero, hvalue⟩⟩
  . exact absurd ⟨hproto, hname⟩ (hnone other hother)
  . rintro (hnamed | ⟨-, -, hnumbered⟩)
    . exact hnone other hother hnamed
    . rcases hatoi with h | h
      . exact hzero h
      . exact h (hvalue.trans hnumbered.2)

theorem find?_eq_of_perm {α : Type} {p : α → Bool} {l l' : List α} (hperm : l'.Perm l)
    (honly : ∀ a ∈ l, ∀ b ∈ l, p a = true → p b = true → a = b)
    : l'.find? p = l.find? p := by
  cases h : l.find? p with
  | none =>
    rw [List.find?_eq_none] at h ⊢
    intro a ha
    exact h a (hperm.mem_iff.mp ha)
  | some a =>
    have ha := List.mem_of_find?_eq_some h
    have hpa := List.find?_some h
    cases h' : l'.find? p with
    | none =>
      rw [List.find?_eq_none] at h'
      exact absurd hpa (h' a (hperm.mem_iff.mpr ha))
    | some b =>
      have hb := hperm.mem_iff.mp (List.mem_of_find?_eq_some h')
      rw [honly a ha b hb hpa (List.find?_some h')]

theorem eq_of_meant (hnames : NamesDistinct ports) (hnumbers : NumbersDistinct ports) {other : ServicePort}
    (hport : port ∈ ports) (hother : other ∈ ports) (h : Meant ports s proto port)
    (h' : Meant ports s proto other)
    : port = other := by
  by_contra hne
  have hname := hnames.ne hport hother hne
  have hnumber := hnumbers.ne hport hother hne
  rcases h with h | ⟨hnone, -, h⟩
  . rcases h' with h' | ⟨hnone, -⟩
    . exact hname (h.2.trans h'.2.symm)
    . exact hnone port hport h
  . rcases h' with h' | ⟨-, -, h'⟩
    . exact hnone other hother h'
    . exact hnumber (h.1.trans h'.1.symm) (h.2.trans h'.2.symm)

end

theorem serviceFindPort_of_ports {svc : Service} {ports : Hash ServicePort} (h : svc.svPorts = some ports)
    (s : Str) (proto : ServiceProto)
    : serviceFindPort svc (some s) proto = .ok (svc.portList.find? (·.answers s proto)) := by
  unfold serviceFindPort Service.portList
  rw [h]
  rfl

def listPorts (ports : List ServicePort) : Hash ServicePort :=
  ChainTable.ofList (ports.map fun port => (port.spName, port))

theorem hashValues_listPorts (ports : List ServicePort) : hashValues (listPorts ports) = ports := by
  unfold hashValues listPorts
  rw [ChainTable.entries_ofList, List.map_map]
  exact List.map_id ports

theorem serviceFindPort_of_first (svc : Service) {port : ServicePort} (rest : List ServicePort) {s : Str}
    {proto : ServiceProto} (hanswers : port.answers s proto = true)
    : serviceFindPort { svc with svPorts := some (listPorts (port :: rest)) } (some s) proto
        =
      .ok (some port) := by
  rw [serviceFindPort_of_ports rfl, Service.portList, Option.map_some, Option.getD_some, hashValues_listPorts,
    List.find?_cons, hanswers]

theorem serviceFindPort_of_perm {svc : Service} {ports table : Hash ServicePort} (hports : svc.svPorts = some ports)
    (hperm : (hashValues table).Perm svc.portList) (hnames : NamesDistinct svc.portList)
    (hnumbers : NumbersDistinct svc.portList) {s : Str} {proto : ServiceProto}
    (hmeant : ∀ port ∈ svc.portList, port.answers s proto = true → Meant svc.portList s proto port)
    : serviceFindPort { svc with svPorts := some table } (some s) proto = serviceFindPort svc (some s) proto := by
  rw [serviceFindPort_of_ports rfl, serviceFindPort_of_ports hports, Except.ok.injEq]
  apply find?_eq_of_perm hperm
  intro a ha b hb hanswers hanswers'
  exact eq_of_meant hnames hnumbers ha hb (hmeant a ha hanswers) (hmeant b hb hanswers')

structure PortsResolve (svc : Service) (s : Str) (proto : ServiceProto) : Prop where
  found : ∃ found, serviceFindPort svc (some s) proto = .ok found ∧ Resolves svc.portList s proto found
  anyOrder : NumbersDistinct svc.portList → ∀ table : Hash ServicePort, (hashValues table).Perm svc.portList →
    serviceFindPort { svc with svPorts := some table } (some s) proto = serviceFindPort svc (some s) proto

/--
Ports are found as they should be exactly if the service has a table of ports, no port is missed because of
what `atoi` makes of the text, and none strays. A port may stray where the numbers are not distinct and the
port of the name is listed before it.
-/
theorem serviceFindPort_resolves_iff (svc : Service) (s : Str) (proto : ServiceProto)
    (hnames : NamesDistinct svc.portList)
    : PortsResolve svc s proto
        ↔
      svc.svPorts ≠ none
        ∧
      (∀ port ∈ svc.portList, ¬ Missed svc.portList s proto port)
        ∧
      ∀ port ∈ svc.portList, Strays svc.portList s proto port →
        ¬ NumbersDistinct svc.portList ∧ NamedBefore svc.portList s proto port := by
  cases hports : svc.svPorts with
  | none =>
    constructor
    . intro h
      rcases h.found with ⟨found, hfound, -⟩
      unfold serviceFindPort at hfound
      rw [hports] at hfound
      cases hfound
    . intro h
      exact absurd rfl h.1
  | some ports =>
    have hlookup := serviceFindPort_of_ports hports s proto
    have hmem : ∀ port, svc.portList.find? (·.answers s proto) = some port → port ∈ svc.portList := by
      intro port hport
      exact List.mem_of_find?_eq_some hport
    constructor
    . intro h
      rcases h.found with ⟨found, hfound, hresolves⟩
      rw [hlookup, Except.ok.injEq] at hfound
      rw [← hfound, resolves_iff hnames hmem] at hresolves
      rcases hresolves with ⟨hsome, hnone⟩
      refine ⟨by simp, ?_, ?_⟩
      . intro port hport hmissed
        cases hcase : svc.portList.find? (·.answers s proto) with
        | none => exact hnone hcase port hport ((missed_iff hport).mp hmissed).1
        | some first =>
          exact hmissed.not_meant (hmem first hcase) (answers_of_find hcase) (hsome first hcase)
      . intro port hport hstrays
        have hanswers := (strays_iff.mp hstrays).1
        constructor
        . intro hdistinct
          -- a table that lists the port first
          have hperm : (port :: svc.portList.erase port).Perm svc.portList :=
            (List.perm_cons_erase hport).symm
          have hany := h.anyOrder hdistinct (listPorts (port :: svc.portList.erase port))
            (by rw [hashValues_listPorts]; exact hperm)
          rw [serviceFindPort_of_first svc _ hanswers, hlookup, Except.ok.injEq] at hany
          exact (strays_iff.mp hstrays).2 (hsome port hany.symm)
        . cases hcase : svc.portList.find? (·.answers s proto) with
          | none =>
            rw [List.find?_eq_none] at hcase
            exact absurd hanswers (hcase port hport)
          | some first => exact namedBefore_of_find hport hstrays hcase (hsome first hcase)
    . rintro ⟨-, hmissed, hstrays⟩
      have hmeant : ∀ port ∈ svc.portList, port.answers s proto = true →
          Meant svc.portList s proto port ∨ NamedBefore svc.portList s proto port := by
        intro port hport hanswers
        by_cases h : Meant svc.portList s proto port
        . exact .inl h
        . exact .inr (hstrays port hport (strays_iff.mpr ⟨hanswers, h⟩)).2
      constructor
      . refine ⟨_, hlookup, (resolves_iff hnames hmem).mpr ⟨?_, ?_⟩⟩
        . intro port hport
          rcases hmeant port (hmem port hport) (answers_of_find hport) with h | h
          . exact h
          . exact h.meant_of_find hnames hport
        . intro hnone port hport h
          rw [List.find?_eq_none] at hnone
          exact hmissed port hport ((missed_iff hport).mpr ⟨h, hnone port hport⟩)
      . intro hdistinct table hperm
        apply serviceFindPort_of_perm hports hperm hnames hdistinct
        intro port hport hanswers
        by_contra h
        exact (hstrays port hport (strays_iff.mpr ⟨hanswers, h⟩)).1 hdistinct

def httpServiceJson : Json :=
  .object [
    (str "metadata", .object [
      (str "namespace", .string (str "default")),
      (str "name", .string (str "web"))]),
    (str "spec", .object [
      (str "ports", .array [
        .object [(str "name", .string (str "http")), (str "port", .int 8080)],
        .object [(str "name", .string (str "https")), (str "port", .int 8443)]])])]

def httpPort : ServicePort where
  spName := str "http"
  spPort := 8080
  spTargetPort := 8080
  spProtocol := .tcp

def httpsPort : ServicePort where
  spName := str "https"
  spPort := 8443
  spTargetPort := 8443
  spProtocol := .tcp

def httpService : Service where
  svName := str "web"
  svNamespace := str "default"
  svSelector := some (hashNew 127)
  svPorts := some (hashSet (hashSet (hashNew 127) (str "http") httpPort) (str "https") httpsPort)

theorem serviceMake_httpService : serviceMake plainEnv httpServiceJson = .ok (some httpService) := by
  rfl

theorem portList_httpService : httpService.portList = [httpsPort, httpPort] := by
  unfold Service.portList httpService hashValues hashSet hashNew
  rw [Option.map_some, ChainTable.entries_set_set_new _ _ _ _ _ _ (by decide)]
  rfl

theorem namesDistinct_httpService : NamesDistinct httpService.portList := by
  rw [portList_httpService]
  unfold NamesDistinct
  decide

theorem serviceFindPort_resolves_http
    : NamesDistinct httpService.portList ∧ PortsResolve httpService (str "http") .tcp := by
  refine ⟨namesDistinct_httpService,
    (serviceFindPort_resolves_iff httpService (str "http") .tcp namesDistinct_httpService).mpr ⟨?_, ?_, ?_⟩⟩
  . simp [httpService]
  . rw [portList_httpService]
    intro port hport hmissed
    exact hmissed.1 httpPort (by simp) ⟨rfl, rfl⟩
  . rw [portList_httpService]
    intro port hport hstrays
    simp only [List.mem_cons, List.not_mem_nil, or_false] at hport
    rcases hport with rfl | rfl
    . have hatoi := strays_iff.mp hstrays
      exact absurd hatoi.1 (by decide)
    . exact absurd rfl hstrays.2.1

-- `atoi` reads 8080 from the text, which is neither a name nor a number.
theorem not_serviceFindPort_resolves
    : ¬ ∀ (env : Env) (obj : Json) (svc : Service) (s : Str) (proto : ServiceProto),
        serviceMake env obj = .ok (some svc) →
        NamesDistinct svc.portList →
        PortsResolve svc s proto := by
  intro hports
  have h := hports plainEnv httpServiceJson httpService (str "8080-alt") .tcp serviceMake_httpService
    namesDistinct_httpService
  rcases h.found with ⟨found, hfound, hresolves⟩
  rw [serviceFindPort_of_ports rfl, portList_httpService, Except.ok.injEq] at hfound
  rw [portList_httpService] at hresolves
  have hname : ∀ port ∈ [httpsPort, httpPort], ¬ port.Named (str "8080-alt") .tcp := by
    simp only [List.forall_mem_cons, List.not_mem_nil, false_imp_iff, implies_true, and_true]
    constructor
    . rintro ⟨-, h⟩
      revert h
      decide
    . rintro ⟨-, h⟩
      revert h
      decide
  have hnumber : ¬ IsNumber (str "8080-alt") := by
    rintro ⟨-, h⟩
    have := h 45 (by decide)
    revert this
    decide
  rw [hresolves.otherwise hname (fun h => absurd h hnumber)] at hfound
  revert hfound
  decide
