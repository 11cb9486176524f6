import TsIngress.Util.Impl.Hash
import Mathlib.Data.List.Induction

/-!
This module contains the proof that the hash table is a table of stacks, one for each key, and that
iterating over it shows every binding once.
-/

inductive HashOp (α : Type) where
  | set (key : Str) (nulFree : 0 ∉ key) (value : α)
  | del (key : Str) (nulFree : 0 ∉ key)

namespace HashOp

def key : HashOp α → Str
  | .set key _ _ => key
  | .del key _ => key

def run (hs : Hash α) : HashOp α → Hash α
  | .set key _ value => hashSet hs key value
  | .del key _ => hashDel hs key

def push (st : Str → List α) : HashOp α → Str → List α
  | .set key _ value => Function.update st key (value :: st key)
  | .del key _ => Function.update st key (st key).tail

end HashOp

def hashRun (sz : Nat) (hsz : 0 < sz) (ops : List (HashOp α)) : Hash α :=
  ops.foldl HashOp.run (hashNew ⟨sz, hsz⟩)

/--
What the operations leave for each key, the most recent value first. A deletion takes back the most
recent value.
-/
def hashStacks (ops : List (HashOp α)) : Str → List α :=
  ops.foldl HashOp.push fun _ => []

def hashIterateNth (hs : Hash α) (n : Nat) : Option (Str × α) :=
  ChainTable.Cursor.nth hs n ChainTable.Cursor.start

def NoneSetTwice (ops : List (HashOp α)) : Prop :=
  ∀ pre key nulFree value post, ops = pre ++ .set key nulFree value :: post → hashStacks pre key = []

def HashOp.toOp : HashOp α → ChainTable.Op Str α
  | .set key _ value => .set key value
  | .del key _ => .del key

theorem HashOp.run_eq (hs : Hash α) (op : HashOp α) : op.run hs = op.toOp.apply hs := by
  cases op <;> rfl

theorem HashOp.push_eq (st : Str → List α) (op : HashOp α) : op.push st = op.toOp.onStacks st := by
  cases op <;> rfl

theorem stack_hashRun (sz : Nat) (hsz : 0 < sz) (ops : List (HashOp α))
    : (hashRun sz hsz ops).stack = hashStacks ops := by
  have hrun : hashRun sz hsz ops = (ops.map HashOp.toOp).foldl ChainTable.Op.apply (hashNew ⟨sz, hsz⟩) := by
    unfold hashRun
    rw [List.foldl_map]
    simp only [← HashOp.run_eq]
  have hpush : hashStacks ops = (ops.map HashOp.toOp).foldl ChainTable.Op.onStacks fun _ => [] := by
    unfold hashStacks
    rw [List.foldl_map]
    simp only [← HashOp.push_eq]
  have hnew : (hashNew ⟨sz, hsz⟩ : Hash α).stack = fun _ => [] := by
    funext key
    apply ChainTable.stack_new
  rw [hrun, hpush]
  rw [ChainTable.stack_foldl]
  rw [hnew]

theorem hashRun_append (sz : Nat) (hsz : 0 < sz) (ops : List (HashOp α)) (op : HashOp α)
    : hashRun sz hsz (ops ++ [op]) = op.run (hashRun sz hsz ops) := by
  unfold hashRun
  simp

theorem hashGet_hashRun (sz : Nat) (hsz : 0 < sz) (ops : List (HashOp α)) (key : Str)
    : hashGet (hashRun sz hsz ops) key = (hashStacks ops key).head? := by
  dsimp only [hashGet]
  rw [ChainTable.get_eq_head?_stack]
  rw [stack_hashRun]

theorem hashGet_run_ne (hs : Hash α) (op : HashOp α) {key : Str} (h : key ≠ op.key)
    : hashGet (op.run hs) key = hashGet hs key := by
  cases op with
  | set k nulFree value => exact ChainTable.get_set_ne hs k key value h
  | del k nulFree => exact ChainTable.get_del_ne hs k key h

theorem uniqueKeys_hashRun (sz : Nat) (hsz : 0 < sz) (ops : List (HashOp α)) (h : NoneSetTwice ops)
    : (hashRun sz hsz ops).UniqueKeys := by
  induction ops using List.reverseRecOn with
  | nil => apply ChainTable.uniqueKeys_new
  | append_singleton ops op ih =>
    have hops : NoneSetTwice ops := by
      intro pre key nulFree value post hpre
      apply h pre key nulFree value (post ++ [op])
      rw [hpre]
      simp
    rw [hashRun_append]
    cases op with
    | set key nulFree value =>
      apply (ih hops).set
      have hget := hashGet_hashRun sz hsz ops key
      rw [h ops key nulFree value [] rfl] at hget
      exact hget
    | del key nulFree =>
      apply (ih hops).del

/--
The table answers with the top of the stack of a key, operations on a key leave the other keys alone,
and iterating shows every binding of every stack once and nothing more. A table in which no key is set
while it is there is a finite map, and iterating enumerates it.
-/
theorem hash_refinesStacks (sz : Nat) (hsz : 0 < sz) (ops : List (HashOp α))
    : (∀ key, hashGet (hashRun sz hsz ops) key = (hashStacks ops key).head?)
        ∧
      (∀ op key, key ≠ HashOp.key op →
        hashGet (op.run (hashRun sz hsz ops)) key = hashGet (hashRun sz hsz ops) key)
        ∧
      ∃ bindings : List (Str × α),
        (∀ n, hashIterateNth (hashRun sz hsz ops) n = bindings[n]?)
          ∧
        (∀ key, (bindings.filter (·.1 = key)).map Prod.snd = hashStacks ops key)
          ∧
        (NoneSetTwice ops →
          (bindings.map Prod.fst).Nodup
            ∧
          ∀ key value, (key, value) ∈ bindings ↔ hashGet (hashRun sz hsz ops) key = some value) := by
  refine ⟨hashGet_hashRun sz hsz ops, ?_, (hashRun sz hsz ops).entries, ?_, ?_, ?_⟩
  . intro op key h
    exact hashGet_run_ne _ op h
  . intro n
    apply ChainTable.Cursor.nth_start
  . intro key
    have hstack := stack_hashRun sz hsz ops
    exact congrFun hstack key
  . intro h
    have hunique := uniqueKeys_hashRun sz hsz ops h
    refine ⟨hunique, ?_⟩
    intro key value
    apply hunique.mem_entries_iff

-- A value that was set on top of another one is taken back.
theorem hash_refinesStacks_shadowed
    : hashGet
        (hashRun 7 (by decide)
          [.set (str "a") (by decide) 1, .set (str "a") (by decide) 2, .del (str "a") (by decide)])
        (str "a")
        =
      some 1 := by
  exact (hash_refinesStacks 7 (by decide) _).1 (str "a")
