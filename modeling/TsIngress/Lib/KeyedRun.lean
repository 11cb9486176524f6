import TsIngress.Lib.ChainTable
import TsIngress.Lib.ExceptFold

/-!
This module contains runs of operations that each work on one entry of a table and create it when it is
not there. Such a run works on every entry as if the operations on it were all there is.
-/

namespace KeyedRun

variable {κ : Type} {α : Type} {hash : κ → Nat} {ε : Type} {ω : Type} [DecidableEq κ]

def upsert (t : ChainTable κ α hash) (k : κ) (new : α) (f : α → Except ε α)
    : Except ε (ChainTable κ α hash) :=
  match t.get k with
  | some a => do
    let a ← f a
    return t.modify k fun _ => a
  | none => do
    let a ← f new
    return (t.set k new).modify k fun _ => a

theorem upsert_eq_ok {t t' : ChainTable κ α hash} {k : κ} {new : α} {f : α → Except ε α}
    (h : upsert t k new f = .ok t')
    : ∃ a, f ((t.get k).getD new) = .ok a ∧ t'.get k = some a ∧ ∀ k' ≠ k, t'.get k' = t.get k' := by
  unfold upsert at h
  split at h
  . next a hget =>
    rw [Except.bind_eq_ok_iff] at h
    rcases h with ⟨b, hb, h⟩
    cases h
    refine ⟨b, ?_, ?_, ?_⟩
    . rw [hget]
      exact hb
    . rw [ChainTable.get_modify_self, hget, Option.map_some]
    . intro k' hne
      rw [ChainTable.get_modify_ne _ _ _ _ hne]
  . next hget =>
    rw [Except.bind_eq_ok_iff] at h
    rcases h with ⟨b, hb, h⟩
    cases h
    refine ⟨b, ?_, ?_, ?_⟩
    . rw [hget]
      exact hb
    . rw [ChainTable.get_modify_self, ChainTable.get_set_self, Option.map_some]
    . intro k' hne
      rw [ChainTable.get_modify_ne _ _ _ _ hne, ChainTable.get_set_ne _ _ _ _ hne]

theorem upsert_returns_iff (t : ChainTable κ α hash) (k : κ) (new : α) (f : α → Except ε α)
    : Except.Returns (upsert t k new f) ↔ Except.Returns (f ((t.get k).getD new)) := by
  unfold upsert
  cases t.get k with
  | some a =>
    rw [Option.getD_some]
    dsimp only
    rw [Except.returns_bind_iff]
    simp [Except.Returns]
  | none =>
    rw [Option.getD_none]
    dsimp only
    rw [Except.returns_bind_iff]
    simp [Except.Returns]

variable (new : α) (act : κ → ω → α → Except ε α)

def run (ops : List (κ × ω)) (t : ChainTable κ α hash) : Except ε (ChainTable κ α hash) :=
  ops.foldlM (fun t op => upsert t op.1 new (act op.1 op.2)) t

def opsAt (k : κ) (ops : List (κ × ω)) : List ω :=
  (ops.filter (·.1 = k)).map Prod.snd

theorem mem_opsAt_iff (k : κ) (ops : List (κ × ω)) (o : ω) : o ∈ opsAt k ops ↔ (k, o) ∈ ops := by
  unfold opsAt
  simp

theorem opsAt_append (k : κ) (ops ops' : List (κ × ω))
    : opsAt k (ops ++ ops') = opsAt k ops ++ opsAt k ops' := by
  unfold opsAt
  simp

theorem opsAt_map {ω' : Type} (k : κ) (f : ω → ω') (ops : List (κ × ω))
    : opsAt k (ops.map fun op => (op.1, f op.2)) = (opsAt k ops).map f := by
  unfold opsAt
  rw [List.filter_map, List.map_map, List.map_map]
  rfl

theorem opsAt_flatMap {β : Type} (k : κ) (g : β → List (κ × ω)) (l : List β)
    : opsAt k (l.flatMap g) = l.flatMap fun b => opsAt k (g b) := by
  unfold opsAt
  rw [List.filter_flatMap, List.map_flatMap]

def runAt (k : κ) (ops : List ω) (a : α) : Except ε α :=
  ops.foldlM (fun a o => act k o a) a

/--
An entry that is in the table after a run is the result of the operations on it, from what was there
before or from a new entry.
-/
theorem run_get {ops : List (κ × ω)} {t t' : ChainTable κ α hash} (h : run new act ops t = .ok t')
    (k : κ)
    : ∃ a,
        runAt act k (opsAt k ops) ((t.get k).getD new) = .ok a
          ∧
        t'.get k = if opsAt k ops = [] then t.get k else some a := by
  induction ops generalizing t with
  | nil =>
    cases h
    exact ⟨_, rfl, rfl⟩
  | cons op ops ih =>
    unfold run at h
    rw [List.foldlM_cons, Except.bind_eq_ok_iff] at h
    rcases h with ⟨u, hu, h⟩
    rcases upsert_eq_ok hu with ⟨b, hb, hself, hother⟩
    rcases ih h with ⟨a, hrun, hget⟩
    by_cases hk : op.1 = k
    . have hops : opsAt k (op :: ops) = op.2 :: opsAt k ops := by
        simp [opsAt, hk]
      subst hk
      rw [hself, Option.getD_some] at hrun
      refine ⟨a, ?_, ?_⟩
      . rw [hops, runAt, List.foldlM_cons, hb, Except.ok_bind]
        exact hrun
      . rw [hops, if_neg (by simp), hget]
        split
        . next hnil =>
          rw [hnil] at hrun
          cases hrun
          exact hself
        . rfl
    . have hops : opsAt k (op :: ops) = opsAt k ops := by
        simp [opsAt, hk]
      rw [hother k (Ne.symm hk)] at hrun hget
      rw [hops]
      exact ⟨a, hrun, hget⟩

theorem run_new_get {ops : List (κ × ω)} {size : Nat} {size_pos : 0 < size}
    {t' : ChainTable κ α hash} (h : run new act ops (.new size size_pos) = .ok t') {k : κ} {a : α}
    : t'.get k = some a ↔ opsAt k ops ≠ [] ∧ runAt act k (opsAt k ops) new = .ok a := by
  rcases run_get new act h k with ⟨b, hrun, hget⟩
  rw [ChainTable.get_new, Option.getD_none] at hrun
  rw [hget, ChainTable.get_new, hrun]
  split
  . next hnil => simp [hnil]
  . next hne => simp [hne]

end KeyedRun
