import Mathlib.Order.Filter.AtTopBot.Basic

/-!
This module contains loops that are given fuel, and the values that a computation has once the fuel is enough.
-/

-- From some amount of fuel on, the computation returns the value.
def Settles (f : Nat → Except ε α) (a : α) : Prop :=
  ∀ᶠ fuel in Filter.atTop, f fuel = .ok a

namespace Settles

variable {ε : Type u} {α β : Type v} {f : Nat → Except ε α} {a a' : α}

theorem const (a : α) : Settles (fun _ => (.ok a : Except ε α)) a := by
  exact Filter.Eventually.of_forall fun _ => rfl

theorem bind {g : Nat → α → Except ε β} {b : β} (hf : Settles f a) (hg : Settles (fun fuel => g fuel a) b)
    : Settles (fun fuel => f fuel >>= g fuel) b := by
  apply (hf.and hg).mono
  rintro fuel ⟨hf, hg⟩
  dsimp only
  rw [hf]
  exact hg

theorem unique (h : Settles f a) (h' : Settles f a') : a = a' := by
  rcases (h.and h').exists with ⟨fuel, h, h'⟩
  rw [h] at h'
  cases h'
  rfl

theorem foldlM {γ : Type w} {P : List γ → α → Prop} {step : Nat → α → γ → Except ε α}
    (hstep : ∀ done s c, P done s → ∃ s', Settles (fun fuel => step fuel s c) s' ∧ P (done ++ [c]) s') (l : List γ)
    : ∀ {done : List γ} {s : α}, P done s →
        ∃ s', Settles (fun fuel => l.foldlM (step fuel) s) s' ∧ P (done ++ l) s' := by
  induction l with
  | nil =>
    intro done s hs
    refine ⟨s, const s, ?_⟩
    rw [List.append_nil]
    exact hs
  | cons c l ih =>
    intro done s hs
    rcases hstep done s c hs with ⟨t, hsettles, ht⟩
    rcases ih ht with ⟨s', hsettles', hs'⟩
    refine ⟨s', hsettles.bind hsettles', ?_⟩
    rw [List.append_assoc, List.singleton_append] at hs'
    exact hs'

end Settles

def doWhile (stuck : ε) (body : σ → Except ε (σ × Bool)) : Nat → σ → Except ε σ
  | 0, _ => .error stuck
  | fuel + 1, s =>
    match body s with
    | .error e => .error e
    | .ok (s', true) => doWhile stuck body fuel s'
    | .ok (s', false) => .ok s'

theorem doWhile_settles {ε : Type u} {σ : Type v} {stuck : ε} {body : σ → Except ε (σ × Bool)} {P Q : σ → Prop}
    (f : σ → Nat)
    (hbody : ∀ s, P s → ∃ s' again, body s = .ok (s', again)
      ∧ (again = true → P s' ∧ f s' < f s) ∧ (again = false → Q s'))
    {s : σ} (hs : P s)
    : ∃ s', Settles (fun fuel => doWhile stuck body fuel s) s' ∧ Q s' := by
  have hends : ∀ n s, f s < n → P s → ∃ s', (∀ fuel, n ≤ fuel → doWhile stuck body fuel s = .ok s') ∧ Q s' := by
    intro n
    induction n with
    | zero =>
      intro s hn
      omega
    | succ n ih =>
      intro s hn hs
      rcases hbody s hs with ⟨t, again, hstep, hagain, hlast⟩
      cases again with
      | true =>
        rcases hagain rfl with ⟨ht, hlt⟩
        rcases ih t (by omega) ht with ⟨s', hends, hs'⟩
        refine ⟨s', ?_, hs'⟩
        intro fuel hfuel
        obtain ⟨fuel, rfl⟩ : ∃ k, fuel = k + 1 := ⟨fuel - 1, by omega⟩
        simp only [doWhile, hstep]
        exact hends fuel (by omega)
      | false =>
        refine ⟨t, ?_, hlast rfl⟩
        intro fuel hfuel
        obtain ⟨fuel, rfl⟩ : ∃ k, fuel = k + 1 := ⟨fuel - 1, by omega⟩
        simp only [doWhile, hstep]
  rcases hends (f s + 1) s (by omega) hs with ⟨s', hends, hs'⟩
  exact ⟨s', Filter.eventually_atTop.mpr ⟨f s + 1, hends⟩, hs'⟩
