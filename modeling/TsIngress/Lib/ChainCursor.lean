import TsIngress.Lib.ChainTable

/-!
This module contains a cursor over a chained table, which is advanced call by call, and the view of the
table as one stack of values for each key.
-/

namespace ChainTable

variable {κ : Type u} {α : Type v} {hash : κ → Nat}

/--
The number of a bucket and what is left of its list from the binding where the cursor stands. The
list is empty when the bucket has not been entered yet.
-/
structure Cursor (κ : Type u) (α : Type v) where
  i : Nat
  p : List (κ × α)

namespace Cursor

def start : Cursor κ α :=
  ⟨0, []⟩

def enter (t : ChainTable κ α hash) (n i : Nat) : Option (κ × α) × Cursor κ α :=
  match n with
  | 0 => (none, ⟨i, []⟩)
  | n + 1 =>
    match t.bucketAt i with
    | [] => enter t n (i + 1)
    | e :: rest => (some e, ⟨i, e :: rest⟩)

def next (t : ChainTable κ α hash) (c : Cursor κ α) : Option (κ × α) × Cursor κ α :=
  if t.size ≤ c.i then
    (none, c)
  else
    match c.p with
    | [] => enter t (t.size - c.i) c.i
    | _ :: e :: rest => (some e, ⟨c.i, e :: rest⟩)
    | [_] => enter t (t.size - (c.i + 1)) (c.i + 1)

def nth (t : ChainTable κ α hash) (n : Nat) (c : Cursor κ α) : Option (κ × α) :=
  match n with
  | 0 => (next t c).1
  | n + 1 => nth t n (next t c).2

def bucketsFrom (t : ChainTable κ α hash) (i : Nat) : List (κ × α) :=
  (List.range' i (t.size - i)).flatMap t.bucketAt

def remaining (t : ChainTable κ α hash) (c : Cursor κ α) : List (κ × α) :=
  if t.size ≤ c.i then
    []
  else
    match c.p with
    | [] => bucketsFrom t c.i
    | _ :: rest => rest ++ bucketsFrom t (c.i + 1)

theorem bucketsFrom_of_le (t : ChainTable κ α hash) {i : Nat} (h : t.size ≤ i) : bucketsFrom t i = [] := by
  unfold bucketsFrom
  have : t.size - i = 0 := by omega
  rw [this]
  rfl

theorem bucketsFrom_of_lt (t : ChainTable κ α hash) {i : Nat} (h : i < t.size)
    : bucketsFrom t i = t.bucketAt i ++ bucketsFrom t (i + 1) := by
  unfold bucketsFrom
  have : t.size - i = (t.size - (i + 1)) + 1 := by omega
  rw [this]
  rw [List.range'_succ]
  rw [List.flatMap_cons]

theorem enter_spec (t : ChainTable κ α hash) (n i : Nat) (h : n = t.size - i)
    : (enter t n i).1 = (bucketsFrom t i).head?
        ∧
      remaining t (enter t n i).2 = (bucketsFrom t i).tail := by
  induction n generalizing i with
  | zero =>
    rw [bucketsFrom_of_le t (by omega)]
    unfold enter remaining
    simp
    omega
  | succ n ih =>
    have hlt : i < t.size := by omega
    rw [bucketsFrom_of_lt t hlt]
    unfold enter
    split
    . next hnil =>
      rw [hnil]
      apply ih
      omega
    . next e rest hcons =>
      rw [hcons]
      have : ¬ t.size ≤ i := by omega
      simp [remaining, this]

theorem next_spec (t : ChainTable κ α hash) (c : Cursor κ α)
    : (next t c).1 = (remaining t c).head? ∧ remaining t (next t c).2 = (remaining t c).tail := by
  rcases c with ⟨i, p⟩
  by_cases h : t.size ≤ i
  . simp [next, remaining, h]
  . cases p with
    | nil =>
      simp only [next, remaining, h, ↓reduceIte]
      apply enter_spec
      rfl
    | cons e p =>
      cases p with
      | nil =>
        simp only [next, remaining, h, ↓reduceIte, List.nil_append]
        apply enter_spec
        rfl
      | cons e' p => simp [next, remaining, h]

theorem nth_eq (t : ChainTable κ α hash) (n : Nat) (c : Cursor κ α)
    : nth t n c = (remaining t c)[n]? := by
  induction n generalizing c with
  | zero =>
    unfold nth
    rw [(next_spec t c).1]
    rw [List.head?_eq_getElem?]
  | succ n ih =>
    unfold nth
    rw [ih]
    rw [(next_spec t c).2]
    rw [List.getElem?_tail]

theorem nth_start (t : ChainTable κ α hash) (n : Nat) : nth t n start = t.entries[n]? := by
  rw [nth_eq]
  rw [entries_eq_flatMap_bucketAt]
  rw [List.range_eq_range']
  have : ¬ t.size ≤ 0 := Nat.not_le.mpr t.size_pos
  simp [remaining, start, bucketsFrom, this]

end Cursor

section Stacks

variable [DecidableEq κ]

inductive Op (κ : Type u) (α : Type v) where
  | set (k : κ) (v : α)
  | del (k : κ)

def Op.apply (t : ChainTable κ α hash) : Op κ α → ChainTable κ α hash
  | .set k v => t.set k v
  | .del k => t.del k

def Op.onStacks (s : κ → List α) : Op κ α → κ → List α
  | .set k v => Function.update s k (v :: s k)
  | .del k => Function.update s k (s k).tail

def stack (t : ChainTable κ α hash) (k : κ) : List α :=
  (t.entries.filter (·.1 = k)).map Prod.snd

theorem get_eq_head?_stack (t : ChainTable κ α hash) (k : κ) : t.get k = (t.stack k).head? := by
  rw [get_eq_find?]
  unfold stack
  rw [List.head?_map]
  rw [List.head?_filter]

theorem stack_new (size : Nat) (size_pos : 0 < size) (k : κ)
    : (new size size_pos : ChainTable κ α hash).stack k = [] := by
  unfold stack
  rw [entries_new]
  rfl

private theorem filter_eq_nil_of_ne (l : List (κ × α)) (k : κ) (h : ∀ e ∈ l, e.1 ≠ k)
    : l.filter (·.1 = k) = [] := by
  rw [List.filter_eq_nil_iff]
  intro e he
  simpa using h e he

theorem stack_set (t : ChainTable κ α hash) (k k' : κ) (v : α)
    : (t.set k v).stack k' = if k' = k then v :: t.stack k' else t.stack k' := by
  rcases t.entries_set k v with ⟨pre, post, hpre, hent, hset⟩
  unfold stack
  rw [hset]
  rw [hent]
  rw [List.filter_append]
  rw [List.filter_append]
  split
  . next h =>
    subst h
    rw [filter_eq_nil_of_ne pre k' hpre]
    simp
  . next h =>
    rw [List.filter_cons_of_neg]
    simpa using Ne.symm h

theorem stack_del (t : ChainTable κ α hash) (k k' : κ)
    : (t.del k).stack k' = if k' = k then (t.stack k').tail else t.stack k' := by
  unfold stack
  rw [entries_del]
  generalize t.entries = l
  induction l with
  | nil => simp
  | cons e l ih =>
    by_cases he : e.1 = k
    . rw [List.eraseP_cons_of_pos (by simpa using he)]
      split
      . next h => simp [h, he]
      . next h =>
        have : ¬ e.1 = k' := by
          rw [he]
          exact Ne.symm h
        simp [this]
    . rw [List.eraseP_cons_of_neg (by simpa using he)]
      by_cases hk' : e.1 = k'
      . have : k' ≠ k := by
          rw [← hk']
          exact he
        simp only [this, ↓reduceIte] at ih
        simp [hk', this, ih]
      . simp [hk', ih]

theorem stack_apply (t : ChainTable κ α hash) (op : Op κ α) : (op.apply t).stack = op.onStacks t.stack := by
  funext k'
  cases op with
  | set k v =>
    dsimp only [Op.apply, Op.onStacks]
    rw [stack_set, Function.update_apply]
    split
    . next h => rw [h]
    . rfl
  | del k =>
    dsimp only [Op.apply, Op.onStacks]
    rw [stack_del, Function.update_apply]
    split
    . next h => rw [h]
    . rfl

theorem stack_foldl (t : ChainTable κ α hash) (ops : List (Op κ α))
    : (ops.foldl Op.apply t).stack = ops.foldl Op.onStacks t.stack := by
  induction ops generalizing t with
  | nil => rfl
  | cons op ops ih =>
    rw [List.foldl_cons]
    rw [List.foldl_cons]
    rw [ih]
    rw [stack_apply]

end Stacks

end ChainTable
