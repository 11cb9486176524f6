import TsIngress.Api.Impl.Make

/-!
This module contains the verification of `endpoints_equal`: on endpoints that were made from JSON it
decides equality.
-/

theorem stringsEqual_iff (a b : Option Str) : stringsEqual a b = true ↔ a = b := by
  cases a <;> cases b <;> simp [stringsEqual]

theorem endpointsAddressesEqual_iff (as bs : List EndpointsAddress)
    : endpointsAddressesEqual as bs = true ↔ as = bs := by
  induction as generalizing bs with
  | nil => cases bs <;> simp [endpointsAddressesEqual]
  | cons a as ih =>
    cases bs with
    | nil => simp [endpointsAddressesEqual]
    | cons b bs =>
      rw [endpointsAddressesEqual, Bool.and_eq_true, Bool.and_eq_true, stringsEqual_iff, stringsEqual_iff,
        ih, List.cons.injEq, EndpointsAddress.mk.injEq]

theorem endpointsPortsEqual_iff (as bs : List (Str × EndpointsPort))
    : endpointsPortsEqual as bs = true ↔ as = bs := by
  induction as generalizing bs with
  | nil => cases bs <;> simp [endpointsPortsEqual]
  | cons a as ih =>
    cases bs with
    | nil => simp [endpointsPortsEqual]
    | cons b bs =>
      rcases a with ⟨ka, name, port, protocol⟩
      rcases b with ⟨kb, name', port', protocol'⟩
      simp only [endpointsPortsEqual, Bool.and_eq_true, beq_iff_eq, ih, List.cons.injEq, Prod.mk.injEq,
        EndpointsPort.mk.injEq]
      constructor
      . rintro ⟨⟨⟨⟨hk, hname⟩, hprotocol⟩, hport⟩, hrest⟩
        exact ⟨⟨hk, hname, hport, hprotocol⟩, hrest⟩
      . rintro ⟨⟨hk, hname, hport, hprotocol⟩, hrest⟩
        exact ⟨⟨⟨⟨hk, hname⟩, hprotocol⟩, hport⟩, hrest⟩

theorem size_endpointsPortsMake (ports : List Json) : (endpointsPortsMake ports).size = 7 := by
  unfold endpointsPortsMake
  have hfold : ∀ hs : Hash EndpointsPort,
      (ports.foldl (fun hs port =>
        let eport := endpointsPortMake port
        hashSet hs eport.etName eport) hs).size = hs.size := by
    induction ports with
    | nil =>
      intro hs
      rfl
    | cons port ports ih =>
      intro hs
      rw [List.foldl_cons, ih]
      rfl
  exact hfold _

theorem endpointsSubsetsEqual_iff (n : Nat) (as bs : List EndpointsSubset)
    (has : ∀ a ∈ as, a.esPorts.size = n) (hbs : ∀ b ∈ bs, b.esPorts.size = n)
    : endpointsSubsetsEqual as bs = true ↔ as = bs := by
  induction as generalizing bs with
  | nil => cases bs <;> simp [endpointsSubsetsEqual]
  | cons a as ih =>
    cases bs with
    | nil => simp [endpointsSubsetsEqual]
    | cons b bs =>
      have hports : a.esPorts.entries = b.esPorts.entries ↔ a.esPorts = b.esPorts := by
        constructor
        . intro hent
          apply ChainTable.eq_of_entries_eq _ hent
          rw [has a (by simp), hbs b (by simp)]
        . intro heq
          rw [heq]
      have hrest := ih bs (fun x hx => has x (by simp [hx])) (fun x hx => hbs x (by simp [hx]))
      rw [endpointsSubsetsEqual, Bool.and_eq_true, Bool.and_eq_true, endpointsAddressesEqual_iff,
        endpointsPortsEqual_iff, hports, hrest, List.cons.injEq, EndpointsSubset.mk.injEq]

theorem endpointsMake_ports {obj : Json} {eps : Endpoints} (h : endpointsMake obj = some eps)
    : ∀ es ∈ eps.epSubsets, es.esPorts.size = 7 := by
  unfold endpointsMake at h
  split at h
  . cases h
  . split at h
    . cases h
      intro es hes
      rw [List.mem_map] at hes
      rcases hes with ⟨subset, -, rfl⟩
      apply size_endpointsPortsMake
    . cases h

theorem endpointsEqual_iff {obj obj' : Json} {a b : Endpoints} (ha : endpointsMake obj = some a)
    (hb : endpointsMake obj' = some b)
    : endpointsEqual a b = true ↔ a = b := by
  unfold endpointsEqual
  rw [Bool.and_eq_true, Bool.and_eq_true, beq_iff_eq, beq_iff_eq,
    endpointsSubsetsEqual_iff 7 _ _ (endpointsMake_ports ha) (endpointsMake_ports hb)]
  cases a
  cases b
  rw [Endpoints.mk.injEq, and_assoc]
