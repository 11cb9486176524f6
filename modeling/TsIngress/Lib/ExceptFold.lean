import Mathlib.Data.List.Basic

/-!
This module contains the rules for loops that may stop with an error, written as `List.foldlM` in
`Except`: inversion of a bind, how a fold composes, the invariant rule and the simulation rule.
-/

namespace Except

variable {ε : Type u} {α β : Type v}

theorem bind_eq_ok_iff {x : Except ε α} {f : α → Except ε β} {b : β}
    : (x >>= f) = .ok b ↔ ∃ a, x = .ok a ∧ f a = .ok b := by
  cases x with
  | error e =>
    constructor
    . intro h
      cases h
    . rintro ⟨a, h, -⟩
      cases h
  | ok a =>
    constructor
    . intro h
      exact ⟨a, rfl, h⟩
    . rintro ⟨a', h, hf⟩
      cases h
      exact hf

@[simp]
theorem ok_bind (a : α) (f : α → Except ε β) : (Except.ok a >>= f) = f a := by
  rfl

@[simp]
theorem error_bind (e : ε) (f : α → Except ε β) : (Except.error e >>= f) = .error e := by
  rfl

@[simp]
theorem pure_eq_ok (a : α) : (pure a : Except ε α) = .ok a := by
  rfl

theorem eq_ok_or_eq_error (x : Except ε α) : (∃ a, x = .ok a) ∨ (∃ e, x = .error e) := by
  cases x with
  | error e => exact .inr ⟨e, rfl⟩
  | ok a => exact .inl ⟨a, rfl⟩

def Ensures (x : Except ε α) (Q : α → Prop) : Prop :=
  ∀ a, x = .ok a → Q a

theorem Ensures.ok {Q : α → Prop} {a : α} (h : Q a) : Ensures (.ok a : Except ε α) Q := by
  intro b hb
  cases hb
  exact h

theorem Ensures.ite {c : Prop} [Decidable c] {x y : Except ε α} {Q : α → Prop}
    (hx : c → Ensures x Q) (hy : ¬ c → Ensures y Q)
    : Ensures (if c then x else y) Q := by
  split
  . next h => exact hx h
  . next h => exact hy h

theorem Ensures.bind {x : Except ε α} {f : α → Except ε β} {Q : β → Prop}
    (h : ∀ a, x = .ok a → Ensures (f a) Q)
    : Ensures (x >>= f) Q := by
  intro b hb
  rw [bind_eq_ok_iff] at hb
  rcases hb with ⟨a, ha, hb⟩
  exact h a ha b hb

def Returns (x : Except ε α) : Prop :=
  ∃ a, x = .ok a

theorem Returns.ok (a : α) : Returns (.ok a : Except ε α) := by
  exact ⟨a, rfl⟩

theorem Returns.ite {c : Prop} [Decidable c] {x y : Except ε α} (hx : c → Returns x)
    (hy : ¬ c → Returns y)
    : Returns (if c then x else y) := by
  split
  . next h => exact hx h
  . next h => exact hy h

theorem Returns.bind {x : Except ε α} {f : α → Except ε β} (hx : Returns x)
    (hf : ∀ a, x = .ok a → Returns (f a))
    : Returns (x >>= f) := by
  rcases hx with ⟨a, rfl⟩
  exact hf a rfl

theorem returns_bind_iff {x : Except ε α} {f : α → Except ε β}
    : Returns (x >>= f) ↔ ∃ a, x = .ok a ∧ Returns (f a) := by
  unfold Returns
  simp only [bind_eq_ok_iff]
  constructor
  . rintro ⟨b, a, hx, hf⟩
    exact ⟨a, hx, b, hf⟩
  . rintro ⟨a, hx, b, hf⟩
    exact ⟨b, a, hx, hf⟩

def Related (R : α → β → Prop) (x : Except ε α) (y : Except ε β) : Prop :=
  (∃ a b, x = .ok a ∧ y = .ok b ∧ R a b) ∨ (∃ e, x = .error e ∧ y = .error e)

theorem Related.ok {R : α → β → Prop} {a : α} {b : β} (h : R a b)
    : Related R (.ok a : Except ε α) (.ok b) := by
  exact .inl ⟨a, b, rfl, rfl, h⟩

theorem Related.refl (x : Except ε α) : Related Eq x x := by
  rcases eq_ok_or_eq_error x with ⟨a, rfl⟩ | ⟨e, rfl⟩
  . exact .ok rfl
  . exact .inr ⟨e, rfl, rfl⟩

theorem Related.bind {R : α → β → Prop} {S : γ → δ → Prop} {x : Except ε α} {y : Except ε β}
    {f : α → Except ε γ} {g : β → Except ε δ} (h : Related R x y)
    (hfg : ∀ a b, R a b → Related S (f a) (g b))
    : Related S (x >>= f) (y >>= g) := by
  rcases h with ⟨a, b, rfl, rfl, hab⟩ | ⟨e, rfl, rfl⟩
  . exact hfg a b hab
  . exact .inr ⟨e, rfl, rfl⟩

theorem Related.returns_iff {R : α → β → Prop} {x : Except ε α} {y : Except ε β} (h : Related R x y)
    : Returns x ↔ Returns y := by
  rcases h with ⟨a, b, rfl, rfl, -⟩ | ⟨e, rfl, rfl⟩
  . simp [Returns.ok]
  . simp [Returns]

-- What the first computation returns the second one returns too. Where the first one fails, nothing is said.
def Extends (x y : Except ε α) : Prop :=
  ∀ a, x = .ok a → y = .ok a

theorem Extends.refl (x : Except ε α) : Extends x x := by
  intro a h
  exact h

theorem Extends.bind {x y : Except ε α} {f g : α → Except ε β} (h : Extends x y) (hfg : ∀ a, Extends (f a) (g a))
    : Extends (x >>= f) (y >>= g) := by
  intro b hb
  rw [bind_eq_ok_iff] at hb ⊢
  rcases hb with ⟨a, ha, hb⟩
  exact ⟨a, h a ha, hfg a b hb⟩

theorem Extends.ite {c : Prop} [Decidable c] {x x' y y' : Except ε α} (hx : Extends x x') (hy : Extends y y')
    : Extends (if c then x else y) (if c then x' else y') := by
  split
  . exact hx
  . exact hy

end Except

namespace ExceptFold

variable {ε σ τ : Type u} {α β : Type v}

theorem foldlM_invariant {P : σ → Prop} {f : σ → α → Except ε σ} {l : List α}
    (step : ∀ s a s', a ∈ l → P s → f s a = .ok s' → P s')
    : ∀ {s s' : σ}, P s → l.foldlM f s = .ok s' → P s' := by
  induction l with
  | nil =>
    intro s s' hs h
    cases h
    exact hs
  | cons a l ih =>
    intro s s' hs h
    rw [List.foldlM_cons, Except.bind_eq_ok_iff] at h
    rcases h with ⟨t, hst, h⟩
    apply ih
    . intro s a s' ha
      apply step
      simp [ha]
    . apply step s a t _ hs hst
      simp
    . exact h

theorem foldlM_establish {P : σ → Prop} {f : σ → α → Except ε σ} {l : List α} {a : α} (ha : a ∈ l)
    (establish : ∀ s s', f s a = .ok s' → P s')
    (keep : ∀ s b s', b ∈ l → P s → f s b = .ok s' → P s')
    {s s' : σ} (h : l.foldlM f s = .ok s')
    : P s' := by
  rcases List.append_of_mem ha with ⟨pre, post, rfl⟩
  rw [List.foldlM_append, Except.bind_eq_ok_iff] at h
  rcases h with ⟨t, -, h⟩
  rw [List.foldlM_cons, Except.bind_eq_ok_iff] at h
  rcases h with ⟨u, htu, h⟩
  apply foldlM_invariant _ (establish t u htu) h
  intro s b s' hb
  apply keep
  simp [hb]

theorem foldlM_collect {γ : Type w} {P : List γ → σ → Prop} {f : σ → α → Except ε σ} {g : α → List γ}
    {l : List α} (step : ∀ cs s a s', a ∈ l → P cs s → f s a = .ok s' → P (cs ++ g a) s')
    : ∀ {cs : List γ} {s s' : σ}, P cs s → l.foldlM f s = .ok s' → P (cs ++ l.flatMap g) s' := by
  induction l with
  | nil =>
    intro cs s s' hs h
    cases h
    rw [List.flatMap_nil, List.append_nil]
    exact hs
  | cons a l ih =>
    intro cs s s' hs h
    rw [List.foldlM_cons, Except.bind_eq_ok_iff] at h
    rcases h with ⟨t, hst, h⟩
    rw [List.flatMap_cons, ← List.append_assoc]
    apply ih
    . intro cs s b s' hb
      apply step
      simp [hb]
    . apply step cs s a t _ hs hst
      simp
    . exact h

theorem foldlM_flatMap {f : σ → β → Except ε σ} {g : α → List β} (l : List α) (s : σ)
    : (l.flatMap g).foldlM f s = l.foldlM (fun s a => (g a).foldlM f s) s := by
  induction l generalizing s with
  | nil => rfl
  | cons a l ih =>
    rw [List.flatMap_cons, List.foldlM_append, List.foldlM_cons]
    congr 1
    funext t
    exact ih t

theorem foldlM_returns_iff {R : α → Prop} {f : σ → α → Except ε σ} {l : List α}
    (step : ∀ s, ∀ a ∈ l, (Except.Returns (f s a) ↔ R a)) (s : σ)
    : Except.Returns (l.foldlM f s) ↔ ∀ a ∈ l, R a := by
  induction l generalizing s with
  | nil => simpa using Except.Returns.ok s
  | cons a l ih =>
    have hrest : ∀ s, ∀ b ∈ l, (Except.Returns (f s b) ↔ R b) := by
      intro s b hb
      apply step
      simp [hb]
    rw [List.foldlM_cons, List.forall_mem_cons, ← step s a (by simp)]
    rcases Except.eq_ok_or_eq_error (f s a) with ⟨s', hs'⟩ | ⟨e, he⟩
    . rw [hs', Except.ok_bind, ih hrest s']
      simp [Except.Returns.ok]
    . rw [he, Except.error_bind]
      simp [Except.Returns]

theorem foldlM_related {R : σ → τ → Prop} {f : σ → α → Except ε σ} {g : τ → α → Except ε τ}
    {l : List α} (step : ∀ s t a, a ∈ l → R s t → Except.Related R (f s a) (g t a))
    : ∀ {s : σ} {t : τ}, R s t → Except.Related R (l.foldlM f s) (l.foldlM g t) := by
  induction l with
  | nil =>
    intro s t hst
    exact .ok hst
  | cons a l ih =>
    intro s t hst
    rw [List.foldlM_cons, List.foldlM_cons]
    apply Except.Related.bind (step s t a (by simp) hst)
    intro s' t' hst'
    apply ih _ hst'
    intro s t b hb
    apply step
    simp [hb]

theorem foldlM_lastWrite {γ : Type w} {g : σ → γ} {w : α → Option γ} {f : σ → α → Except ε σ}
    {l : List α} (step : ∀ s a s', a ∈ l → f s a = .ok s' → g s' = (w a).getD (g s))
    : ∀ {s s' : σ}, l.foldlM f s = .ok s' → g s' = (l.filterMap w).getLast?.getD (g s) := by
  induction l with
  | nil =>
    intro s s' h
    cases h
    rfl
  | cons a l ih =>
    intro s s' h
    rw [List.foldlM_cons, Except.bind_eq_ok_iff] at h
    rcases h with ⟨t, hst, h⟩
    have hrest := ih (fun s b s' hb => step s b s' (by simp [hb])) h
    have hfirst := step s a t (by simp) hst
    rw [hrest, hfirst]
    cases hw : w a with
    | none => rw [List.filterMap_cons_none hw, Option.getD_none]
    | some c =>
      rw [List.filterMap_cons_some hw, Option.getD_some, List.getLast?_cons]
      cases (l.filterMap w).getLast? <;> rfl

theorem foldlM_proj_of_ne {κ α : Type v} [DecidableEq κ] {γ : Type w} {g : σ → γ}
    {f : σ → κ × α → Except ε σ} {k : κ} {l : List (κ × α)}
    (step : ∀ s e s', e ∈ l → e.1 ≠ k → f s e = .ok s' → g s' = g s) (hk : ∀ e ∈ l, e.1 ≠ k)
    {s s' : σ} (h : l.foldlM f s = .ok s')
    : g s' = g s := by
  apply foldlM_invariant (P := fun t => g t = g s) (f := f) (l := l) _ rfl h
  intro t e t' he ht hstep
  rw [step t e t' he (hk e he) hstep, ht]

theorem foldlM_proj {κ α : Type v} [DecidableEq κ] {γ : Type w} {g : σ → γ}
    {f : σ → κ × α → Except ε σ} {k : κ} {u : γ → α → γ} {l : List (κ × α)}
    (step : ∀ s e s', f s e = .ok s' → g s' = if e.1 = k then u (g s) e.2 else g s)
    (hnodup : (l.map Prod.fst).Nodup)
    : ∀ {s s' : σ}, l.foldlM f s = .ok s' →
        g s' = ((l.find? (·.1 = k)).map fun e => u (g s) e.2).getD (g s) := by
  induction l with
  | nil =>
    intro s s' h
    cases h
    rfl
  | cons e l ih =>
    intro s s' h
    rw [List.map_cons, List.nodup_cons] at hnodup
    rw [List.foldlM_cons, Except.bind_eq_ok_iff] at h
    rcases h with ⟨t, hst, h⟩
    have hg := step s e t hst
    by_cases hek : e.1 = k
    . rw [if_pos hek] at hg
      rw [List.find?_cons_of_pos (by simp [hek]), Option.map_some, Option.getD_some, ← hg]
      apply foldlM_proj_of_ne (k := k) (f := f) _ _ h
      . intro s e s' _ hne hstep
        rw [step s e s' hstep, if_neg hne]
      . rintro e' he' rfl
        apply hnodup.1
        rw [hek]
        exact List.mem_map_of_mem he'
    . rw [if_neg hek] at hg
      rw [List.find?_cons_of_neg (by simp [hek]), ← hg]
      exact ih hnodup.2 h

end ExceptFold
