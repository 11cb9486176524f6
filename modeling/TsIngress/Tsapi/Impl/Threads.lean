import TsIngress.Lib.RwLock

/-!
This module contains the threads of the plugin and what they do with its two locks and its database: `handle_remap`
and `handle_tls` in any number of threads, `rebuild_maps` and the writers of the cluster in the thread of the
watcher. A database is known by its number, in the order in which they are made.
-/

inductive LockName where
  -- `state->lock`
  | state
  -- `state->cluster->cs_lock`
  | cluster
  deriving DecidableEq, Repr

-- Where a thread is that handles a request.
inductive RequestPc where
  | idle
  -- in front of `pthread_rwlock_rdlock(&state->lock)`
  | waits
  -- in front of the test of `state->db`
  | tests
  | uses (db : Nat)
  -- in front of `pthread_rwlock_unlock(&state->lock)`
  | leaves
  deriving DecidableEq, Repr

inductive WatcherPc where
  | idle
  -- `fe_watch_line` or `fetcher_get_all`, in front of `pthread_rwlock_wrlock` of the cluster
  | waitsWrite
  | writes
  -- `rebuild_maps`, in front of its two calls of `pthread_rwlock_rdlock`
  | waitsState
  | waitsCluster
  -- in front of `remap_db_from_cluster`
  | builds
  -- in front of its two calls of `pthread_rwlock_unlock`
  | built (newdb : Nat)
  | leavesState (newdb : Nat)
  -- in front of `pthread_rwlock_wrlock(&state->lock)`
  | waitsReplace (newdb : Nat)
  -- in front of `remap_db_free`
  | frees (newdb : Nat)
  -- in front of the assignment to `state->db`
  | sets (newdb : Nat)
  | leaves
  deriving DecidableEq, Repr

structure Threads (τ : Type) where
  locks : LockName → RwLock (Option τ)
  db : Option Nat
  freed : List Nat
  made : Nat
  watcher : WatcherPc
  request : τ → RequestPc

namespace Threads

variable {τ : Type} [DecidableEq τ]

def start : Threads τ where
  locks := fun _ => .new
  db := none
  freed := []
  made := 0
  watcher := .idle
  request := fun _ => .idle

def setLock (s : Threads τ) (name : LockName) (l : RwLock (Option τ)) : Threads τ :=
  { s with locks := Function.update s.locks name l }

def goesTo (s : Threads τ) (t : τ) (pc : RequestPc) : Threads τ :=
  { s with request := Function.update s.request t pc }

def remapDbFree (db : Option Nat) (freed : List Nat) : List Nat :=
  match db with
  | none => freed
  | some db => db :: freed

inductive Step : Option τ → Threads τ → Threads τ → Prop where
  | handle {s : Threads τ} (t : τ) (h : s.request t = .idle) : Step (some t) s (s.goesTo t .waits)
  | rdlock {s : Threads τ} (t : τ) (h : s.request t = .waits) (hfree : (s.locks .state).Grants .read)
      : Step (some t) s ((s.setLock .state ((s.locks .state).lock .read (some t) hfree)).goesTo t .tests)
  | noDatabase {s : Threads τ} (t : τ) (h : s.request t = .tests) (hdb : s.db = none)
      : Step (some t) s (s.goesTo t .leaves)
  | database {s : Threads τ} (t : τ) (db : Nat) (h : s.request t = .tests) (hdb : s.db = some db)
      : Step (some t) s (s.goesTo t (.uses db))
  | used {s : Threads τ} (t : τ) (db : Nat) (h : s.request t = .uses db) : Step (some t) s (s.goesTo t .leaves)
  | unlock {s : Threads τ} (t : τ) (h : s.request t = .leaves)
      : Step (some t) s ((s.setLock .state ((s.locks .state).unlock (some t))).goesTo t .idle)
  | change {s : Threads τ} (h : s.watcher = .idle) : Step none s { s with watcher := .waitsWrite }
  | wrlockCluster {s : Threads τ} (h : s.watcher = .waitsWrite) (hfree : (s.locks .cluster).Grants .write)
      : Step none s
          { s.setLock .cluster ((s.locks .cluster).lock .write none hfree) with watcher := .writes }
  | written {s : Threads τ} (h : s.watcher = .writes)
      : Step none s { s.setLock .cluster ((s.locks .cluster).unlock none) with watcher := .idle }
  | rebuild {s : Threads τ} (h : s.watcher = .idle) : Step none s { s with watcher := .waitsState }
  | rdlockState {s : Threads τ} (h : s.watcher = .waitsState) (hfree : (s.locks .state).Grants .read)
      : Step none s
          { s.setLock .state ((s.locks .state).lock .read none hfree) with watcher := .waitsCluster }
  | rdlockCluster {s : Threads τ} (h : s.watcher = .waitsCluster) (hfree : (s.locks .cluster).Grants .read)
      : Step none s
          { s.setLock .cluster ((s.locks .cluster).lock .read none hfree) with watcher := .builds }
  | build {s : Threads τ} (h : s.watcher = .builds)
      : Step none s { s with watcher := .built s.made, made := s.made + 1 }
  | unlockCluster {s : Threads τ} {newdb : Nat} (h : s.watcher = .built newdb)
      : Step none s { s.setLock .cluster ((s.locks .cluster).unlock none) with watcher := .leavesState newdb }
  | unlockState {s : Threads τ} {newdb : Nat} (h : s.watcher = .leavesState newdb)
      : Step none s { s.setLock .state ((s.locks .state).unlock none) with watcher := .waitsReplace newdb }
  | wrlockState {s : Threads τ} {newdb : Nat} (h : s.watcher = .waitsReplace newdb)
      (hfree : (s.locks .state).Grants .write)
      : Step none s
          { s.setLock .state ((s.locks .state).lock .write none hfree) with watcher := .frees newdb }
  | free {s : Threads τ} {newdb : Nat} (h : s.watcher = .frees newdb)
      : Step none s { s with watcher := .sets newdb, freed := remapDbFree s.db s.freed }
  | set {s : Threads τ} {newdb : Nat} (h : s.watcher = .sets newdb)
      : Step none s { s with watcher := .leaves, db := some newdb }
  | replaced {s : Threads τ} (h : s.watcher = .leaves)
      : Step none s { s.setLock .state ((s.locks .state).unlock none) with watcher := .idle }

end Threads
