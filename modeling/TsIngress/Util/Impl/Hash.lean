import TsIngress.Basic
import TsIngress.Lib.ChainCursor

/-!
This module contains the hash table of `util/hash.c`: a chained table under the FNV hash of its key.
-/

def fnv32 (s : Str) : UInt32 :=
  s.foldl (fun hval c => (hval * 0x01000193) ^^^ c.toUInt32) 0x811c9dc5

abbrev Hash (α : Type) := ChainTable Str α fun key => (fnv32 key).toNat

-- A table has at least one bucket.
structure HashSize where
  val : Nat
  pos : 0 < val

instance (n : Nat) : OfNat HashSize (n + 1) where
  ofNat := ⟨n + 1, Nat.succ_pos n⟩

abbrev hashNew (sz : HashSize) : Hash α :=
  ChainTable.new sz.val sz.pos

abbrev hashSet (hs : Hash α) (key : Str) (value : α) : Hash α :=
  hs.set key value

abbrev hashGet (hs : Hash α) (key : Str) : Option α :=
  hs.get key

abbrev hashDel (hs : Hash α) (key : Str) : Hash α :=
  hs.del key

abbrev HashIterState (α : Type) := ChainTable.Cursor Str α

-- The result is none where `hash_iterate` returns 0.
abbrev hashIterate (hs : Hash α) (state : HashIterState α) : Option (Str × α) × HashIterState α :=
  ChainTable.Cursor.next hs state

def hashValues (hs : Hash α) : List α :=
  hs.entries.map Prod.snd

theorem mem_hashValues_of_hashGet {hs : Hash α} {key : Str} {v : α} (h : hashGet hs key = some v)
    : v ∈ hashValues hs := by
  unfold hashValues
  exact List.mem_map_of_mem (ChainTable.mem_entries_of_get hs key v h)

theorem hashValues_singleton (sz : HashSize) (key : Str) (v : α)
    : hashValues (hashSet (hashNew sz) key v) = [v] := by
  unfold hashValues
  rw [ChainTable.entries_set_new]
  rfl

def hashPresent (hs : Hash Unit) (key : Str) : Bool :=
  (hashGet hs key).isSome

def hashOfWords (sz : HashSize) (words : List Str) : Hash Unit :=
  words.foldl (fun hs w => hashSet hs w ()) (hashNew sz)
