import Mathlib.Data.List.FinRange
import Mathlib.Logic.Function.Basic

/-!
This module contains a separate chaining table: a fixed number of buckets, each an association list
whose newest binding stands first. It is generic in the key, the value and the hash function. The
table does not replace on insertion and removes one binding at a time, so a key owns a stack of
bindings.
-/

-- A chained table with `size` buckets. A key may only be stored in the bucket its hash selects.
structure ChainTable (κ : Type u) (α : Type v) (hash : κ → Nat) where
  size : Nat
  bucket : Fin size → List (κ × α)
  size_pos : 0 < size
  placed : ∀ (i : Fin size), ∀ e ∈ bucket i, hash e.1 % size = i

namespace ChainTable

variable {κ : Type u} {α : Type v} {hash : κ → Nat}

def modifyFirst [DecidableEq κ] (k : κ) (f : α → α) : List (κ × α) → List (κ × α)
  | [] => []
  | e :: l => if e.1 = k then (e.1, f e.2) :: l else e :: modifyFirst k f l

theorem modifyFirst_keys [DecidableEq κ] (k : κ) (f : α → α) (l : List (κ × α))
    : (modifyFirst k f l).map Prod.fst = l.map Prod.fst := by
  induction l with
  | nil => rfl
  | cons e l ih =>
    unfold modifyFirst
    split
    . rfl
    . simp [ih]

theorem modifyFirst_append [DecidableEq κ] (k : κ) (f : α → α) (l m : List (κ × α))
    (h : ∀ e ∈ l, e.1 ≠ k)
    : modifyFirst k f (l ++ m) = l ++ modifyFirst k f m := by
  induction l with
  | nil => rfl
  | cons e l ih =>
    have hne : e.1 ≠ k := by
      apply h
      simp
    rw [List.cons_append, modifyFirst, if_neg hne, ih]
    . rfl
    . intro x hx
      apply h
      simp [hx]

theorem modifyFirst_eq_self [DecidableEq κ] (k : κ) (f : α → α) (l : List (κ × α))
    (h : ∀ e ∈ l, e.1 ≠ k)
    : modifyFirst k f l = l := by
  have := modifyFirst_append k f l [] h
  simpa [modifyFirst] using this

theorem find?_modifyFirst_self [DecidableEq κ] (k : κ) (f : α → α) (l : List (κ × α))
    : ((modifyFirst k f l).find? (·.1 = k)).map Prod.snd
        =
      ((l.find? (·.1 = k)).map Prod.snd).map f := by
  induction l with
  | nil => rfl
  | cons e l ih =>
    unfold modifyFirst
    split
    . next h => simp [h]
    . next h => simp [h, ih]

theorem find?_modifyFirst_ne [DecidableEq κ] (k k' : κ) (f : α → α) (l : List (κ × α))
    (hne : k' ≠ k)
    : (modifyFirst k f l).find? (·.1 = k') = l.find? (·.1 = k') := by
  induction l with
  | nil => rfl
  | cons e l ih =>
    unfold modifyFirst
    split
    . next h =>
      have : e.1 ≠ k' := by
        rw [h]
        exact hne.symm
      simp [this]
    . simp only [List.find?_cons, ih]

def idx (t : ChainTable κ α hash) (k : κ) : Fin t.size :=
  ⟨hash k % t.size, Nat.mod_lt _ t.size_pos⟩

def new (size : Nat) (size_pos : 0 < size) : ChainTable κ α hash where
  size := size
  bucket := fun _ => []
  size_pos := size_pos
  placed := by simp

def set (t : ChainTable κ α hash) (k : κ) (v : α) : ChainTable κ α hash where
  size := t.size
  bucket := Function.update t.bucket (t.idx k) ((k, v) :: t.bucket (t.idx k))
  size_pos := t.size_pos
  placed := by
    intro i e he
    by_cases hi : i = t.idx k
    . subst hi
      rw [Function.update_self] at he
      cases he with
      | head => rfl
      | tail _ he => exact t.placed _ e he
    . rw [Function.update_of_ne hi] at he
      exact t.placed i e he

variable [DecidableEq κ]

def get (t : ChainTable κ α hash) (k : κ) : Option α :=
  ((t.bucket (t.idx k)).find? (·.1 = k)).map Prod.snd

def del (t : ChainTable κ α hash) (k : κ) : ChainTable κ α hash where
  size := t.size
  bucket := Function.update t.bucket (t.idx k) ((t.bucket (t.idx k)).eraseP (·.1 = k))
  size_pos := t.size_pos
  placed := by
    intro i e he
    by_cases hi : i = t.idx k
    . subst hi
      rw [Function.update_self] at he
      exact t.placed _ e (List.mem_of_mem_eraseP he)
    . rw [Function.update_of_ne hi] at he
      exact t.placed i e he

def modify (t : ChainTable κ α hash) (k : κ) (f : α → α) : ChainTable κ α hash where
  size := t.size
  bucket := Function.update t.bucket (t.idx k) (modifyFirst k f (t.bucket (t.idx k)))
  size_pos := t.size_pos
  placed := by
    intro i e he
    by_cases hi : i = t.idx k
    . subst hi
      rw [Function.update_self] at he
      have hmem : e.1 ∈ (t.bucket (t.idx k)).map Prod.fst := by
        rw [← modifyFirst_keys k f]
        exact List.mem_map_of_mem he
      rcases List.mem_map.mp hmem with ⟨e', he', heq⟩
      rw [← heq]
      exact t.placed _ e' he'
    . rw [Function.update_of_ne hi] at he
      exact t.placed i e he

def bucketAt (t : ChainTable κ α hash) (i : Nat) : List (κ × α) :=
  if h : i < t.size then t.bucket ⟨i, h⟩ else []

def entries (t : ChainTable κ α hash) : List (κ × α) :=
  (List.finRange t.size).flatMap t.bucket

omit [DecidableEq κ] in
def ofList (l : List (κ × α)) : ChainTable κ α hash where
  size := 1
  bucket _ := l
  size_pos := by omega
  placed := by
    intro i e _
    omega

omit [DecidableEq κ] in
theorem entries_ofList (l : List (κ × α)) : (ofList l : ChainTable κ α hash).entries = l := by
  have hone : List.finRange 1 = [0] := rfl
  unfold entries ofList
  dsimp only
  rw [hone, List.flatMap_singleton]

omit [DecidableEq κ] in
theorem exists_flatMap_update (t : ChainTable κ α hash) (i : Fin t.size)
    : ∃ pre post : List (κ × α),
        (∀ e ∈ pre, hash e.1 % t.size ≠ i)
          ∧
        (∀ e ∈ post, hash e.1 % t.size ≠ i)
          ∧
        ∀ b, (List.finRange t.size).flatMap (Function.update t.bucket i b) = pre ++ b ++ post := by
  rcases List.append_of_mem (List.mem_finRange i) with ⟨l, r, hlr⟩
  have hnodup := List.nodup_finRange t.size
  rw [hlr, List.nodup_append] at hnodup
  rcases hnodup with ⟨-, hr, hdisj⟩
  have hil : ∀ j ∈ l, j ≠ i := by
    intro j hj
    apply hdisj j hj
    simp
  have hir : ∀ j ∈ r, j ≠ i := by
    intro j hj hji
    subst hji
    exact (List.nodup_cons.mp hr).1 hj
  -- a binding of another bucket hashes to that other bucket
  have hplaced : ∀ m : List (Fin t.size), (∀ j ∈ m, j ≠ i) →
      ∀ e ∈ m.flatMap t.bucket, hash e.1 % t.size ≠ i := by
    intro m hm e he
    rcases List.mem_flatMap.mp he with ⟨j, hj, hej⟩
    rw [t.placed j e hej]
    intro hji
    exact hm j hj (Fin.ext hji)
  have hsame : ∀ m : List (Fin t.size), (∀ j ∈ m, j ≠ i) →
      ∀ b, m.flatMap (Function.update t.bucket i b) = m.flatMap t.bucket := by
    intro m hm b
    apply List.flatMap_congr
    intro j hj
    rw [Function.update_of_ne (hm j hj)]
  refine ⟨l.flatMap t.bucket, r.flatMap t.bucket, hplaced l hil, hplaced r hir, ?_⟩
  intro b
  rw [hlr, List.flatMap_append, List.flatMap_cons, Function.update_self, hsame l hil, hsame r hir]
  simp

omit [DecidableEq κ] in
theorem exists_entries_eq (t : ChainTable κ α hash) (k : κ)
    : ∃ pre post : List (κ × α),
        (∀ e ∈ pre, e.1 ≠ k)
          ∧
        (∀ e ∈ post, e.1 ≠ k)
          ∧
        t.entries = pre ++ t.bucket (t.idx k) ++ post
          ∧
        ∀ b, (List.finRange t.size).flatMap (Function.update t.bucket (t.idx k) b)
          = pre ++ b ++ post := by
  rcases t.exists_flatMap_update (t.idx k) with ⟨pre, post, hpre, hpost, hupd⟩
  refine ⟨pre, post, ?_, ?_, ?_, hupd⟩
  . intro e he hk
    apply hpre e he
    rw [hk]
    rfl
  . intro e he hk
    apply hpost e he
    rw [hk]
    rfl
  . have := hupd (t.bucket (t.idx k))
    rwa [Function.update_eq_self] at this

omit [DecidableEq κ] in
@[simp]
theorem entries_new (size : Nat) (size_pos : 0 < size)
    : (new size size_pos : ChainTable κ α hash).entries = [] := by
  simp [entries, new]

private theorem find?_eq_none_of_ne (l : List (κ × α)) (k : κ) (h : ∀ e ∈ l, e.1 ≠ k)
    : l.find? (·.1 = k) = none := by
  rw [List.find?_eq_none]
  intro e he
  simpa using h e he

theorem get_eq_find? (t : ChainTable κ α hash) (k : κ)
    : t.get k = (t.entries.find? (·.1 = k)).map Prod.snd := by
  rcases t.exists_entries_eq k with ⟨pre, post, hpre, hpost, hent, -⟩
  rw [hent, List.find?_append, List.find?_append, find?_eq_none_of_ne pre k hpre,
    find?_eq_none_of_ne post k hpost]
  simp [get]

def UniqueKeys (t : ChainTable κ α hash) : Prop :=
  (t.entries.map Prod.fst).Nodup

theorem get_eq_none_iff (t : ChainTable κ α hash) (k : κ)
    : t.get k = none ↔ ∀ e ∈ t.entries, e.1 ≠ k := by
  rw [get_eq_find?]
  simp

theorem mem_entries_of_get (t : ChainTable κ α hash) (k : κ) (v : α) (h : t.get k = some v)
    : (k, v) ∈ t.entries := by
  rw [get_eq_find?, Option.map_eq_some_iff] at h
  rcases h with ⟨⟨k', v'⟩, hfind, hv⟩
  have hk := List.find?_some hfind
  have hmem := List.mem_of_find?_eq_some hfind
  simp only [decide_eq_true_eq] at hk hv
  subst hk hv
  exact hmem

@[simp]
theorem get_new (size : Nat) (size_pos : 0 < size) (k : κ)
    : (new size size_pos : ChainTable κ α hash).get k = none := by
  rfl

omit [DecidableEq κ] in
theorem entries_set (t : ChainTable κ α hash) (k : κ) (v : α)
    : ∃ pre post : List (κ × α),
        (∀ e ∈ pre, e.1 ≠ k)
          ∧
        t.entries = pre ++ post
          ∧
        (t.set k v).entries = pre ++ (k, v) :: post := by
  rcases t.exists_entries_eq k with ⟨pre, post, hpre, -, hent, hupd⟩
  refine ⟨pre, t.bucket (t.idx k) ++ post, hpre, ?_, ?_⟩
  . rw [hent, List.append_assoc]
  . have := hupd ((k, v) :: t.bucket (t.idx k))
    simp only [List.append_assoc, List.cons_append] at this
    exact this

omit [DecidableEq κ] in
theorem entries_eq_flatMap_bucketAt (t : ChainTable κ α hash)
    : t.entries = (List.range t.size).flatMap t.bucketAt := by
  unfold entries
  rw [← List.map_coe_finRange_eq_range, List.flatMap_map]
  congr 1
  funext i
  simp [bucketAt]

omit [DecidableEq κ] in
theorem bucketAt_set (t : ChainTable κ α hash) (k : κ) (v : α) (i : Nat)
    : (t.set k v).bucketAt i
        =
      if i = t.idx k then (k, v) :: t.bucketAt i else t.bucketAt i := by
  unfold bucketAt set
  split
  . next hi =>
    dsimp only at hi
    by_cases heq : i = t.idx k
    . have hfin : (⟨i, hi⟩ : Fin t.size) = t.idx k := Fin.ext heq
      rw [if_pos heq, hfin]
      exact Function.update_self _ _ _
    . have hfin : (⟨i, hi⟩ : Fin t.size) ≠ t.idx k := by
        intro h
        exact heq (congrArg Fin.val h)
      rw [if_neg heq]
      exact Function.update_of_ne hfin _ _
  . next hi =>
    dsimp only at hi
    have hne : i ≠ t.idx k := by
      have := (t.idx k).isLt
      omega
    rw [if_neg hne]

omit [DecidableEq κ] in
theorem mem_entries_set_iff (t : ChainTable κ α hash) (k : κ) (v : α) (e : κ × α)
    : e ∈ (t.set k v).entries ↔ e = (k, v) ∨ e ∈ t.entries := by
  rcases t.entries_set k v with ⟨pre, post, -, hent, hset⟩
  rw [hset, hent]
  simp only [List.mem_append, List.mem_cons]
  constructor
  . rintro (h | h | h)
    . exact .inr (.inl h)
    . exact .inl h
    . exact .inr (.inr h)
  . rintro (h | h | h)
    . exact .inr (.inl h)
    . exact .inl h
    . exact .inr (.inr h)

omit [DecidableEq κ] in
theorem entries_set_new (size : Nat) (size_pos : 0 < size) (k : κ) (v : α)
    : ((new size size_pos : ChainTable κ α hash).set k v).entries = [(k, v)] := by
  rcases entries_set (new size size_pos : ChainTable κ α hash) k v with ⟨pre, post, -, hnew, hset⟩
  rw [entries_new, eq_comm, List.append_eq_nil_iff] at hnew
  rw [hset, hnew.1, hnew.2]
  rfl

omit [DecidableEq κ] in
theorem entries_sorted (t : ChainTable κ α hash)
    : t.entries.Pairwise fun e e' => hash e.1 % t.size ≤ hash e'.1 % t.size := by
  unfold entries
  rw [List.pairwise_flatMap]
  constructor
  . intro i _
    apply List.pairwise_of_forall_mem_list
    intro e he e' he'
    rw [t.placed i e he, t.placed i e' he']
  . apply (List.pairwise_lt_finRange t.size).imp
    intro i j hij e he e' he'
    rw [t.placed i e he, t.placed j e' he']
    exact Nat.le_of_lt hij

omit [DecidableEq κ] in
theorem entries_set_set_new (size : Nat) (size_pos : 0 < size) (k k' : κ) (v v' : α)
    (hlt : hash k' % size < hash k % size)
    : (((new size size_pos : ChainTable κ α hash).set k v).set k' v').entries = [(k', v'), (k, v)] := by
  have hsorted := (((new size size_pos : ChainTable κ α hash).set k v).set k' v').entries_sorted
  rcases ((new size size_pos : ChainTable κ α hash).set k v).entries_set k' v'
    with ⟨pre, post, -, hent, hset⟩
  rw [entries_set_new] at hent
  cases pre with
  | nil =>
    rw [List.nil_append] at hent
    rw [hset, ← hent]
    rfl
  | cons e pre =>
    rw [List.cons_append, List.cons.injEq] at hent
    rcases hent with ⟨rfl, -⟩
    rw [hset, List.cons_append, List.pairwise_cons] at hsorted
    have hle := hsorted.1 (k', v') (by simp)
    exact absurd hlt (Nat.not_lt.mpr hle)

theorem entries_del (t : ChainTable κ α hash) (k : κ)
    : (t.del k).entries = t.entries.eraseP (·.1 = k) := by
  rcases t.exists_entries_eq k with ⟨pre, post, hpre, hpost, hent, hupd⟩
  have hdel : (t.del k).entries = pre ++ (t.bucket (t.idx k)).eraseP (·.1 = k) ++ post :=
    hupd _
  rw [hdel, hent, List.append_assoc, List.append_assoc, List.eraseP_append_right]
  . rw [List.eraseP_append]
    split
    . rfl
    . next hany =>
      have hb : ∀ e ∈ t.bucket (t.idx k), ¬ e.1 = k := by
        rintro ⟨a, b⟩ he rfl
        apply hany
        simpa using ⟨b, he⟩
      rw [List.eraseP_of_forall_not, List.eraseP_of_forall_not]
      . simpa using hpost
      . simpa using hb
  . simpa using hpre

theorem entries_modify (t : ChainTable κ α hash) (k : κ) (f : α → α)
    : (t.modify k f).entries = modifyFirst k f t.entries := by
  rcases t.exists_entries_eq k with ⟨pre, post, hpre, hpost, hent, hupd⟩
  have hmod : (t.modify k f).entries = pre ++ modifyFirst k f (t.bucket (t.idx k)) ++ post :=
    hupd _
  rw [hmod, hent, List.append_assoc, List.append_assoc, modifyFirst_append _ _ _ _ hpre]
  congr 1
  generalize t.bucket (t.idx k) = b
  induction b with
  | nil => simp [modifyFirst, modifyFirst_eq_self _ _ _ hpost]
  | cons e b ih =>
    simp only [modifyFirst, List.cons_append]
    split
    . rfl
    . rw [← ih, List.cons_append]

@[simp]
theorem get_set_self (t : ChainTable κ α hash) (k : κ) (v : α) : (t.set k v).get k = some v := by
  rcases t.entries_set k v with ⟨pre, post, hpre, -, hset⟩
  rw [get_eq_find?, hset, List.find?_append, find?_eq_none_of_ne pre k hpre]
  simp

theorem get_set_ne (t : ChainTable κ α hash) (k k' : κ) (v : α) (hne : k' ≠ k)
    : (t.set k v).get k' = t.get k' := by
  rcases t.entries_set k v with ⟨pre, post, -, hent, hset⟩
  rw [get_eq_find?, get_eq_find?, hent, hset, List.find?_append, List.find?_append,
    List.find?_cons_of_neg]
  simpa using hne.symm

theorem get_set (t : ChainTable κ α hash) (k k' : κ) (v : α)
    : (t.set k v).get k' = if k' = k then some v else t.get k' := by
  split
  . next h => rw [h, get_set_self]
  . next h => rw [get_set_ne _ _ _ _ h]

theorem get_del_ne (t : ChainTable κ α hash) (k k' : κ) (hne : k' ≠ k)
    : (t.del k).get k' = t.get k' := by
  rw [get_eq_find?, get_eq_find?, entries_del]
  generalize t.entries = l
  congr 1
  induction l with
  | nil => rfl
  | cons e l ih =>
    by_cases he : e.1 = k
    . have : e.1 ≠ k' := by
        rw [he]
        exact hne.symm
      rw [List.eraseP_cons_of_pos (by simpa using he), List.find?_cons_of_neg (by simpa using this)]
    . rw [List.eraseP_cons_of_neg (by simpa using he), List.find?_cons, List.find?_cons, ih]

theorem exists_entries_of_get {t : ChainTable κ α hash} {k : κ} {v : α} (h : t.get k = some v)
    : ∃ pre post,
        t.entries = pre ++ (k, v) :: post
          ∧
        (t.del k).entries = pre ++ post
          ∧
        ∀ f, (t.modify k f).entries = pre ++ (k, f v) :: post := by
  rw [get_eq_find?, Option.map_eq_some_iff] at h
  rcases h with ⟨⟨k', v'⟩, hfind, hv⟩
  dsimp only at hv
  subst hv
  rcases List.find?_eq_some_iff_append.mp hfind with ⟨hk, pre, post, heq, hpre⟩
  simp only [decide_eq_true_eq] at hk
  subst hk
  have hne : ∀ e ∈ pre, e.1 ≠ k' := by
    intro e he
    simpa using hpre e he
  refine ⟨pre, post, heq, ?_, ?_⟩
  . rw [entries_del, heq, List.eraseP_append_right _ (by simpa using hne), List.eraseP_cons_of_pos (by simp)]
  . intro f
    rw [entries_modify, heq, modifyFirst_append k' f pre _ hne, modifyFirst, if_pos rfl]

theorem get_modify_self (t : ChainTable κ α hash) (k : κ) (f : α → α)
    : (t.modify k f).get k = (t.get k).map f := by
  rw [get_eq_find?, get_eq_find?, entries_modify, find?_modifyFirst_self]

theorem get_modify_ne (t : ChainTable κ α hash) (k k' : κ) (f : α → α) (hne : k' ≠ k)
    : (t.modify k f).get k' = t.get k' := by
  rw [get_eq_find?, get_eq_find?, entries_modify, find?_modifyFirst_ne _ _ _ _ hne]

omit [DecidableEq κ] in
theorem uniqueKeys_new (size : Nat) (size_pos : 0 < size)
    : (new size size_pos : ChainTable κ α hash).UniqueKeys := by
  simp [UniqueKeys]

theorem get_del_self {t : ChainTable κ α hash} (h : t.UniqueKeys) (k : κ) : (t.del k).get k = none := by
  cases hget : t.get k with
  | none =>
    rw [get_eq_none_iff] at hget ⊢
    intro e he
    rw [entries_del] at he
    exact hget e (List.mem_of_mem_eraseP he)
  | some v =>
    rcases exists_entries_of_get hget with ⟨pre, post, hent, hdel, -⟩
    unfold UniqueKeys at h
    rw [hent] at h
    rw [get_eq_none_iff, hdel]
    intro e he hek
    -- the key of the deleted binding would stand in the table twice
    rw [List.map_append, List.map_cons, List.nodup_middle, List.nodup_cons] at h
    apply h.1
    rw [← List.map_append, List.mem_map]
    exact ⟨e, he, hek⟩

theorem UniqueKeys.mem_entries_iff {t : ChainTable κ α hash} (h : t.UniqueKeys) (k : κ) (v : α)
    : (k, v) ∈ t.entries ↔ t.get k = some v := by
  constructor
  . intro hmem
    cases hget : t.get k with
    | none =>
      rw [get_eq_none_iff] at hget
      exact absurd rfl (hget (k, v) hmem)
    | some v' =>
      have heq := List.inj_on_of_nodup_map h hmem (mem_entries_of_get t k v' hget) rfl
      cases heq
      rfl
  . apply mem_entries_of_get

namespace UniqueKeys

theorem del {t : ChainTable κ α hash} (h : t.UniqueKeys) (k : κ) : (t.del k).UniqueKeys := by
  unfold UniqueKeys
  rw [entries_del]
  exact h.sublist (List.Sublist.map _ List.eraseP_sublist)

theorem set {t : ChainTable κ α hash} (h : t.UniqueKeys) {k : κ} (hk : t.get k = none) (v : α)
    : (t.set k v).UniqueKeys := by
  rcases t.entries_set k v with ⟨pre, post, -, hent, hset⟩
  rw [get_eq_none_iff] at hk
  unfold UniqueKeys at h ⊢
  rw [hset, List.map_append, List.map_cons, List.nodup_middle, ← List.map_append, ← hent,
    List.nodup_cons]
  refine ⟨?_, h⟩
  intro hmem
  rw [List.mem_map] at hmem
  rcases hmem with ⟨e, he, hek⟩
  exact hk e he hek

theorem modify {t : ChainTable κ α hash} (h : t.UniqueKeys) (k : κ) (f : α → α)
    : (t.modify k f).UniqueKeys := by
  unfold UniqueKeys
  rw [entries_modify, modifyFirst_keys]
  exact h

end UniqueKeys

omit [DecidableEq κ] in
theorem filter_entries (t : ChainTable κ α hash) (i : Fin t.size)
    : t.entries.filter (fun e => hash e.1 % t.size = i) = t.bucket i := by
  rcases t.exists_flatMap_update i with ⟨pre, post, hpre, hpost, hupd⟩
  have hent := hupd (t.bucket i)
  rw [Function.update_eq_self] at hent
  have hnone : ∀ l : List (κ × α), (∀ e ∈ l, hash e.1 % t.size ≠ i) →
      l.filter (fun e => hash e.1 % t.size = i) = [] := by
    intro l hl
    rw [List.filter_eq_nil_iff]
    intro e he
    simpa using hl e he
  have hall : (t.bucket i).filter (fun e => hash e.1 % t.size = i) = t.bucket i := by
    rw [List.filter_eq_self]
    intro e he
    simpa using t.placed i e he
  unfold entries
  rw [hent, List.filter_append, List.filter_append, hnone pre hpre, hnone post hpost, hall]
  simp

omit [DecidableEq κ] in
-- Two tables of one size list the same bindings bucket by bucket, so that only bindings of one bucket can change
-- places.
theorem foldl_entries_perm {σ : Type w} {t t' : ChainTable κ α hash} (hsize : t.size = t'.size)
    (hperm : t.entries.Perm t'.entries) {f : σ → κ × α → σ}
    (hcomm : ∀ e ∈ t.entries, ∀ e' ∈ t.entries, hash e.1 % t.size = hash e'.1 % t.size →
      ∀ s, f (f s e) e' = f (f s e') e) (s : σ)
    : t.entries.foldl f s = t'.entries.foldl f s := by
  cases t with
  | mk size bucket size_pos placed =>
    cases t' with
    | mk size' bucket' size_pos' placed' =>
      dsimp only at hsize
      subst hsize
      have hbucket : ∀ i s, (bucket i).foldl f s = (bucket' i).foldl f s := by
        intro i s
        have hi := hperm.filter fun e => hash e.1 % size = i
        rw [filter_entries ⟨size, bucket, size_pos, placed⟩ i,
          filter_entries ⟨size, bucket', size_pos', placed'⟩ i] at hi
        apply hi.foldl_eq'
        intro e he e' he' s
        apply hcomm e (List.mem_flatMap.mpr ⟨i, List.mem_finRange i, he⟩) e'
          (List.mem_flatMap.mpr ⟨i, List.mem_finRange i, he'⟩)
        rw [placed i e he, placed i e' he']
      unfold entries
      dsimp only
      rw [List.foldl_flatMap, List.foldl_flatMap]
      simp only [hbucket]

omit [DecidableEq κ] in
theorem eq_of_entries_eq {t t' : ChainTable κ α hash} (hsize : t.size = t'.size)
    (hent : t.entries = t'.entries)
    : t = t' := by
  cases t with
  | mk size bucket size_pos placed =>
    cases t' with
    | mk size' bucket' size_pos' placed' =>
      dsimp only at hsize
      subst hsize
      have heq : bucket = bucket' := by
        funext i
        have hi := filter_entries ⟨size, bucket, size_pos, placed⟩ i
        rw [hent, filter_entries ⟨size, bucket', size_pos', placed'⟩ i] at hi
        exact hi.symm
      subst heq
      rfl

end ChainTable
