import TsIngress.Tsapi.Impl.Threads
import Mathlib.Data.List.Nodup
import Mathlib.Logic.Relation

/-!
This module contains the verification of the locks: whatever the order in which the threads go on, no request sees
a database that was freed, none is freed twice or lost, and the threads do not block each other for good.
-/

namespace LockName

def other : LockName → LockName
  | .state => .cluster
  | .cluster => .state

theorem eq_or_eq_other (name k : LockName) : k = name ∨ k = name.other := by
  cases name <;> cases k <;> simp [other]

theorem other_ne (name : LockName) : name.other ≠ name := by
  cases name <;> simp [other]

-- The lock of the state comes before that of the cluster.
def rank : LockName → Nat
  | .state => 0
  | .cluster => 1

end LockName

namespace RequestPc

def mode : RequestPc → LockName → Option LockMode
  | .tests, .state => some .read
  | .uses _, .state => some .read
  | .leaves, .state => some .read
  | _, _ => none

def wants : RequestPc → Option (LockName × LockMode)
  | .waits => some (.state, .read)
  | _ => none

theorem mode_of_wants {pc : RequestPc} {k : LockName} {m : LockMode} (h : pc.wants = some (k, m)) (k' : LockName)
    : pc.mode k' = none := by
  cases pc with
  | waits => rfl
  | _ => cases h

end RequestPc

namespace WatcherPc

def mode : WatcherPc → LockName → Option LockMode
  | .writes, .cluster => some .write
  | .waitsCluster, .state => some .read
  | .builds, _ => some .read
  | .built _, _ => some .read
  | .leavesState _, .state => some .read
  | .frees _, .state => some .write
  | .sets _, .state => some .write
  | .leaves, .state => some .write
  | _, _ => none

def wants : WatcherPc → Option (LockName × LockMode)
  | .waitsWrite => some (.cluster, .write)
  | .waitsState => some (.state, .read)
  | .waitsCluster => some (.cluster, .read)
  | .waitsReplace _ => some (.state, .write)
  | _ => none

theorem rank_lt {pc : WatcherPc} {k k' : LockName} {m : LockMode} (hwants : pc.wants = some (k, m))
    (hmode : pc.mode k' ≠ none)
    : k'.rank < k.rank := by
  cases pc with
  | waitsWrite => exact absurd (by cases k' <;> rfl) hmode
  | waitsState => exact absurd (by cases k' <;> rfl) hmode
  | waitsCluster =>
    cases hwants
    cases k' with
    | state => decide
    | cluster => exact absurd rfl hmode
  | waitsReplace newdb => exact absurd (by cases k' <;> rfl) hmode
  | _ => cases hwants

def newdb : WatcherPc → Option Nat
  | .built newdb => some newdb
  | .leavesState newdb => some newdb
  | .waitsReplace newdb => some newdb
  | .frees newdb => some newdb
  | .sets newdb => some newdb
  | _ => none

def Dangles (pc : WatcherPc) : Prop :=
  ∃ newdb, pc = .sets newdb

end WatcherPc

namespace Threads

variable {τ : Type} {s s' : Threads τ}

-- The locks are held as the places of the threads say.
structure Locked (s : Threads τ) : Prop where
  request : ∀ t k, (s.locks k).mode (some t) = (s.request t).mode k
  watcher : ∀ k, (s.locks k).mode none = s.watcher.mode k

-- Every database that was made is in one place: freed once, in use, or about to be put in its place.
structure Accounted (s : Threads τ) : Prop where
  uses : ∀ t db, s.request t = .uses db → s.db = some db
  made_iff : ∀ db, db < s.made ↔ db ∈ s.freed ∨ s.db = some db ∨ s.watcher.newdb = some db
  nodup : s.freed.Nodup
  current : ¬ s.watcher.Dangles → ∀ db, s.db = some db → db ∉ s.freed
  dangling : s.watcher.Dangles → ∀ db, s.db = some db → db ∈ s.freed
  newdb : ∀ db, s.watcher.newdb = some db → db ∉ s.freed ∧ s.db ≠ some db

theorem Locked.start : Locked (Threads.start : Threads τ) where
  request := by
    intro t k
    cases k <;> rfl
  watcher := by
    intro k
    cases k <;> rfl

-- While the watcher replaces the database no request is at it.
theorem Locked.not_reading (h : Locked s) (hwrite : s.watcher.mode .state = some .write) (t : τ)
    : (s.request t).mode .state = none := by
  by_contra hne
  rw [← h.request] at hne
  rw [← h.watcher] at hwrite
  cases (s.locks .state).exclusive none (some t) hwrite hne

theorem Accounted.start : Accounted (Threads.start : Threads τ) where
  uses _ _ h := by cases h
  made_iff db := by
    dsimp only [Threads.start, WatcherPc.newdb]
    simp
  nodup := List.nodup_nil
  current _ _ h := by cases h
  dangling _ _ h := by cases h
  newdb _ h := by cases h

theorem Accounted.watches (h : Accounted s) {pc pc' : WatcherPc} {locks : LockName → RwLock (Option τ)}
    (hpc : s.watcher = pc) (hnewdb : pc.newdb = pc'.newdb) (hdangles : ¬ pc.Dangles) (hdangles' : ¬ pc'.Dangles)
    : Accounted { s with locks := locks, watcher := pc' } where
  uses := h.uses
  made_iff := by
    intro db
    rw [h.made_iff, hpc, hnewdb]
  nodup := h.nodup
  current _ := h.current (by rw [hpc]; exact hdangles)
  dangling hd := absurd hd hdangles'
  newdb := by
    intro db hdb
    apply h.newdb db
    rw [hpc, hnewdb, hdb]

variable [DecidableEq τ]

theorem setLock_mode {t : Option τ} {name : LockName} {l : RwLock (Option τ)} {mode : LockName → Option LockMode}
    (hl : l.mode = Function.update (s.locks name).mode t (mode name))
    (hother : (s.locks name.other).mode t = mode name.other) (k : LockName)
    : ((s.setLock name l).locks k).mode = Function.update (s.locks k).mode t (mode k) := by
  dsimp only [setLock]
  rcases name.eq_or_eq_other k with rfl | rfl
  . rw [Function.update_self, hl]
  . rw [Function.update_of_ne name.other_ne, eq_comm, Function.update_eq_self_iff, hother]

namespace Locked

section

variable (h : Locked s)

include h

theorem goesTo {t : τ} {pc : RequestPc} {locks : LockName → RwLock (Option τ)}
    (hlocks : ∀ k, (locks k).mode = Function.update (s.locks k).mode (some t) (pc.mode k))
    : Locked ({ s with locks := locks }.goesTo t pc) where
  request := by
    intro u k
    dsimp only [Threads.goesTo]
    rw [hlocks]
    by_cases hut : u = t
    . subst hut
      rw [Function.update_self, Function.update_self]
    . rw [Function.update_of_ne hut, Function.update_of_ne (by simpa using hut)]
      exact h.request u k
  watcher := by
    intro k
    dsimp only [Threads.goesTo]
    rw [hlocks, Function.update_of_ne (by simp)]
    exact h.watcher k

theorem goesTo_same {t : τ} {pc : RequestPc} (hmode : ∀ k, (s.request t).mode k = pc.mode k)
    : Locked (s.goesTo t pc) := by
  apply h.goesTo
  intro k
  rw [eq_comm, Function.update_eq_self_iff, h.request, hmode]

theorem watches {pc : WatcherPc} {locks : LockName → RwLock (Option τ)} {db : Option Nat} {freed : List Nat}
    {made : Nat} (hlocks : ∀ k, (locks k).mode = Function.update (s.locks k).mode none (pc.mode k))
    : Locked ⟨locks, db, freed, made, pc, s.request⟩ where
  request := by
    intro u k
    dsimp only
    rw [hlocks, Function.update_of_ne (by simp)]
    exact h.request u k
  watcher := by
    intro k
    dsimp only
    rw [hlocks, Function.update_self]

theorem watches_same {pc : WatcherPc} {db : Option Nat} {freed : List Nat} {made : Nat}
    (hmode : ∀ k, s.watcher.mode k = pc.mode k)
    : Locked ⟨s.locks, db, freed, made, pc, s.request⟩ := by
  apply h.watches
  intro k
  rw [eq_comm, Function.update_eq_self_iff, h.watcher, hmode]

theorem request_relocks {t : τ} {l : RwLock (Option τ)} {pc pc' : RequestPc} (hpc : s.request t = pc)
    (hl : l.mode = Function.update (s.locks .state).mode (some t) (pc'.mode .state))
    (hother : pc.mode .cluster = pc'.mode .cluster)
    : Locked ((s.setLock .state l).goesTo t pc') := by
  apply h.goesTo
  apply setLock_mode hl
  rw [h.request, hpc]
  exact hother

theorem watcher_relocks {name : LockName} {l : RwLock (Option τ)} {pc pc' : WatcherPc} (hpc : s.watcher = pc)
    (hl : l.mode = Function.update (s.locks name).mode none (pc'.mode name))
    (hother : pc.mode name.other = pc'.mode name.other)
    : Locked { s.setLock name l with watcher := pc' } := by
  apply h.watches
  apply setLock_mode hl
  rw [h.watcher, hpc]
  exact hother

end

theorem step {t : Option τ} (h : Locked s) (hstep : Step t s s') : Locked s' := by
  cases hstep with
  | handle t hpc => exact h.goesTo_same (by intro k; rw [hpc]; cases k <;> rfl)
  | rdlock t hpc hfree => exact h.request_relocks hpc (RwLock.lock_mode _ _ _ _) rfl
  | noDatabase t hpc hdb => exact h.goesTo_same (by intro k; rw [hpc]; cases k <;> rfl)
  | database t db hpc hdb => exact h.goesTo_same (by intro k; rw [hpc]; cases k <;> rfl)
  | used t db hpc => exact h.goesTo_same (by intro k; rw [hpc]; cases k <;> rfl)
  | unlock t hpc => exact h.request_relocks hpc (RwLock.unlock_mode _ _) rfl
  | change hpc => exact h.watches_same (by intro k; rw [hpc]; cases k <;> rfl)
  | wrlockCluster hpc hfree => exact h.watcher_relocks hpc (RwLock.lock_mode _ _ _ _) rfl
  | written hpc => exact h.watcher_relocks hpc (RwLock.unlock_mode _ _) rfl
  | rebuild hpc => exact h.watches_same (by intro k; rw [hpc]; cases k <;> rfl)
  | rdlockState hpc hfree => exact h.watcher_relocks hpc (RwLock.lock_mode _ _ _ _) rfl
  | rdlockCluster hpc hfree => exact h.watcher_relocks hpc (RwLock.lock_mode _ _ _ _) rfl
  | build hpc => exact h.watches_same (by intro k; rw [hpc]; cases k <;> rfl)
  | unlockCluster hpc => exact h.watcher_relocks hpc (RwLock.unlock_mode _ _) rfl
  | unlockState hpc => exact h.watcher_relocks hpc (RwLock.unlock_mode _ _) rfl
  | wrlockState hpc hfree => exact h.watcher_relocks hpc (RwLock.lock_mode _ _ _ _) rfl
  | free hpc => exact h.watches_same (by intro k; rw [hpc]; cases k <;> rfl)
  | set hpc => exact h.watches_same (by intro k; rw [hpc]; cases k <;> rfl)
  | replaced hpc => exact h.watcher_relocks hpc (RwLock.unlock_mode _ _) rfl

end Locked

namespace Accounted

section

variable (h : Accounted s)

include h

theorem goesTo {t : τ} {pc : RequestPc} {locks : LockName → RwLock (Option τ)}
    (hpc : ∀ db, pc = .uses db → s.db = some db)
    : Accounted ({ s with locks := locks }.goesTo t pc) where
  uses := by
    intro u db hu
    dsimp only [Threads.goesTo] at hu
    by_cases hut : u = t
    . subst hut
      rw [Function.update_self] at hu
      exact hpc db hu
    . rw [Function.update_of_ne hut] at hu
      exact h.uses u db hu
  made_iff := h.made_iff
  nodup := h.nodup
  current := h.current
  dangling := h.dangling
  newdb := h.newdb

omit [DecidableEq τ]

theorem build (hpc : s.watcher = .builds)
    : Accounted { s with watcher := .built s.made, made := s.made + 1 } where
  uses := h.uses
  made_iff := by
    intro db
    have hnone : s.watcher.newdb = none := by
      rw [hpc]
      rfl
    dsimp only [WatcherPc.newdb]
    rw [Nat.lt_succ_iff_lt_or_eq, h.made_iff, hnone]
    simp only [reduceCtorEq, or_false, Option.some.injEq, or_assoc, eq_comm]
  nodup := h.nodup
  current _ := h.current (by rw [hpc]; nofun)
  dangling := nofun
  newdb := by
    intro db hdb
    cases hdb
    have hmade := h.made_iff s.made
    simp only [Nat.lt_irrefl, false_iff, not_or] at hmade
    exact ⟨hmade.1, hmade.2.1⟩

omit h in
theorem mem_remapDbFree (current : Option Nat) (freed : List Nat) (db : Nat)
    : db ∈ remapDbFree current freed ↔ current = some db ∨ db ∈ freed := by
  unfold remapDbFree
  cases current with
  | none => simp
  | some old => simp [eq_comm]

theorem free {newdb : Nat} (hpc : s.watcher = .frees newdb)
    : Accounted { s with watcher := .sets newdb, freed := remapDbFree s.db s.freed } := by
  have hnewdb : s.watcher.newdb = some newdb := by
    rw [hpc]
    rfl
  refine ⟨h.uses, ?_, ?_, ?_, ?_, ?_⟩
  . intro db
    dsimp only [WatcherPc.newdb]
    rw [mem_remapDbFree, h.made_iff, hnewdb]
    tauto
  . unfold remapDbFree
    dsimp only
    cases hdb : s.db with
    | none => exact h.nodup
    | some old => exact List.nodup_cons.mpr ⟨h.current (by rw [hpc]; nofun) old hdb, h.nodup⟩
  . intro hdangles
    exact absurd ⟨newdb, rfl⟩ hdangles
  . intro _ db hdb
    dsimp only
    rw [mem_remapDbFree]
    exact .inl hdb
  . intro db hdb
    cases hdb
    have hnew := h.newdb newdb hnewdb
    refine ⟨?_, hnew.2⟩
    dsimp only
    rw [mem_remapDbFree, not_or]
    exact ⟨hnew.2, hnew.1⟩

theorem set (hlocked : Locked s) {newdb : Nat} (hpc : s.watcher = .sets newdb)
    : Accounted { s with watcher := .leaves, db := some newdb } := by
  have hnewdb : s.watcher.newdb = some newdb := by
    rw [hpc]
    rfl
  have hwrite : s.watcher.mode .state = some .write := by
    rw [hpc]
    rfl
  refine ⟨?_, ?_, h.nodup, ?_, nofun, nofun⟩
  . intro t db hpc'
    have hnone := hlocked.not_reading hwrite t
    rw [hpc'] at hnone
    cases hnone
  . intro db
    dsimp only [WatcherPc.newdb]
    rw [h.made_iff, hnewdb]
    have hold := h.dangling ⟨newdb, hpc⟩ db
    simp only [reduceCtorEq, or_false]
    tauto
  . intro _ db hdb
    cases hdb
    exact (h.newdb newdb hnewdb).1

end

theorem step {t : Option τ} (h : Accounted s) (hlocked : Locked s) (hstep : Step t s s') : Accounted s' := by
  cases hstep with
  | handle t hpc => exact h.goesTo nofun
  | rdlock t hpc hfree => exact h.goesTo nofun
  | noDatabase t hpc hdb => exact h.goesTo nofun
  | database t db hpc hdb =>
    apply h.goesTo
    intro db' heq
    cases heq
    exact hdb
  | used t db hpc => exact h.goesTo nofun
  | unlock t hpc => exact h.goesTo nofun
  | change hpc => exact h.watches hpc rfl nofun nofun
  | wrlockCluster hpc hfree => exact h.watches hpc rfl nofun nofun
  | written hpc => exact h.watches hpc rfl nofun nofun
  | rebuild hpc => exact h.watches hpc rfl nofun nofun
  | rdlockState hpc hfree => exact h.watches hpc rfl nofun nofun
  | rdlockCluster hpc hfree => exact h.watches hpc rfl nofun nofun
  | build hpc => exact h.build hpc
  | unlockCluster hpc => exact h.watches hpc rfl nofun nofun
  | unlockState hpc => exact h.watches hpc rfl nofun nofun
  | wrlockState hpc hfree => exact h.watches hpc rfl nofun nofun
  | free hpc => exact h.free hpc
  | set hpc => exact h.set hlocked hpc
  | replaced hpc => exact h.watches hpc rfl nofun nofun

end Accounted

def Reachable (s : Threads τ) : Prop :=
  Relation.ReflTransGen (fun s s' => ∃ t, Step t s s') start s

theorem Reachable.locked_and_accounted (h : Reachable s) : Locked s ∧ Accounted s := by
  induction h with
  | refl => exact ⟨.start, .start⟩
  | tail _ hstep ih =>
    rcases hstep with ⟨t, hstep⟩
    exact ⟨ih.1.step hstep, ih.2.step ih.1 hstep⟩

theorem Reachable.next {t : Option τ} (h : Reachable s) (hstep : Step t s s') : Reachable s' := by
  exact .tail h ⟨t, hstep⟩

def Busy (s : Threads τ) : Option τ → Prop
  | none => s.watcher ≠ .idle
  | some t => s.request t ≠ .idle

def wants (s : Threads τ) : Option τ → Option (LockName × LockMode)
  | none => s.watcher.wants
  | some t => (s.request t).wants

theorem exists_step_of_grants {t : Option τ} (hbusy : s.Busy t)
    (hgrants : ∀ k m, s.wants t = some (k, m) → (s.locks k).Grants m)
    : ∃ s', Step t s s' := by
  cases t with
  | none =>
    cases hpc : s.watcher with
    | idle => exact absurd hpc hbusy
    | waitsWrite => exact ⟨_, .wrlockCluster hpc (hgrants .cluster .write (by rw [wants, hpc]; rfl))⟩
    | writes => exact ⟨_, .written hpc⟩
    | waitsState => exact ⟨_, .rdlockState hpc (hgrants .state .read (by rw [wants, hpc]; rfl))⟩
    | waitsCluster => exact ⟨_, .rdlockCluster hpc (hgrants .cluster .read (by rw [wants, hpc]; rfl))⟩
    | builds => exact ⟨_, .build hpc⟩
    | built newdb => exact ⟨_, .unlockCluster hpc⟩
    | leavesState newdb => exact ⟨_, .unlockState hpc⟩
    | waitsReplace newdb => exact ⟨_, .wrlockState hpc (hgrants .state .write (by rw [wants, hpc]; rfl))⟩
    | frees newdb => exact ⟨_, .free hpc⟩
    | sets newdb => exact ⟨_, .set hpc⟩
    | leaves => exact ⟨_, .replaced hpc⟩
  | some t =>
    cases hpc : s.request t with
    | idle => exact absurd hpc hbusy
    | waits => exact ⟨_, .rdlock t hpc (hgrants .state .read (by rw [wants, hpc]; rfl))⟩
    | tests =>
      cases hdb : s.db with
      | none => exact ⟨_, .noDatabase t hpc hdb⟩
      | some db => exact ⟨_, .database t db hpc hdb⟩
    | uses db => exact ⟨_, .used t db hpc⟩
    | leaves => exact ⟨_, .unlock t hpc⟩

omit [DecidableEq τ] in
theorem Locked.rank_lt (h : Locked s) {t : Option τ} {k : LockName} {m : LockMode} (hwants : s.wants t = some (k, m))
    {k' : LockName} (hholds : (s.locks k').mode t ≠ none)
    : k'.rank < k.rank := by
  cases t with
  | none =>
    rw [h.watcher] at hholds
    exact WatcherPc.rank_lt hwants hholds
  | some t =>
    rw [h.request] at hholds
    exact absurd (RequestPc.mode_of_wants hwants k') hholds

omit [DecidableEq τ] in
theorem Locked.busy (h : Locked s) {t : Option τ} {k : LockName} (hholds : (s.locks k).mode t ≠ none) : s.Busy t := by
  cases t with
  | none =>
    rw [h.watcher] at hholds
    intro hpc
    rw [hpc] at hholds
    cases k <;> exact hholds rfl
  | some t =>
    rw [h.request] at hholds
    intro hpc
    rw [hpc] at hholds
    cases k <;> exact hholds rfl

end Threads

/--
However the threads are scheduled: the database that a request uses is the current one and is not freed, no database
is freed twice, and each that was made is freed, the current one, or the one that will be.
-/
theorem threads_noUseAfterFree {τ : Type} [DecidableEq τ] (s : Threads τ) (h : s.Reachable)
    : (∀ t db, s.request t = .uses db → s.db = some db ∧ db ∉ s.freed)
        ∧
      s.freed.Nodup
        ∧
      ∀ db, db < s.made ↔ db ∈ s.freed ∨ s.db = some db ∨ s.watcher.newdb = some db := by
  rcases h.locked_and_accounted with ⟨hlocked, haccounted⟩
  refine ⟨?_, haccounted.nodup, haccounted.made_iff⟩
  intro t db hpc
  have hdb := haccounted.uses t db hpc
  refine ⟨hdb, haccounted.current ?_ db hdb⟩
  rintro ⟨newdb, hsets⟩
  have hwrite : s.watcher.mode .state = some .write := by
    rw [hsets]
    rfl
  have hnone := hlocked.not_reading hwrite t
  rw [hpc] at hnone
  cases hnone

-- A request comes after the first rebuild and finds the database that it made.
theorem threads_noUseAfterFree_first
    : ∃ s : Threads Unit, s.Reachable ∧ s.request () = .uses 0 ∧ s.db = some 0 ∧ 0 ∉ s.freed := by
  have hstart : (Threads.start : Threads Unit).Reachable := .refl
  have hread := (hstart.next (.rebuild rfl)).next (.rdlockState rfl (by rintro (_ | _) <;> nofun))
  have hbuild := (hread.next (.rdlockCluster rfl (by rintro (_ | _) <;> nofun))).next (.build rfl)
  have hunlocked := (hbuild.next (.unlockCluster rfl)).next (.unlockState rfl)
  have hwrite := hunlocked.next (.wrlockState rfl (by rintro (_ | _) <;> rfl))
  have hreplaced := ((hwrite.next (.free rfl)).next (.set rfl)).next (.replaced rfl)
  have hwaits := hreplaced.next (.handle () rfl)
  have hinside := hwaits.next (.rdlock () rfl (by rintro (_ | _) <;> nofun))
  have huses := hinside.next (.database () 0 rfl rfl)
  exact ⟨_, huses, rfl, (threads_noUseAfterFree _ huses).1 () 0 rfl⟩

/--
As long as a thread is in the middle of something, one that is can go on.
-/
theorem threads_noDeadlock {τ : Type} [DecidableEq τ] (s : Threads τ) (h : s.Reachable) (t : Option τ)
    (hbusy : s.Busy t)
    : ∃ u s', s.Busy u ∧ Threads.Step u s s' := by
  have hlocked := h.locked_and_accounted.1
  have hbound : ∀ k, LockName.rank k ≤ 1 := by
    intro k
    cases k <;> decide
  rcases exists_granted hbound (fun t k m hwants k' => hlocked.rank_lt hwants) (fun t k => hlocked.busy) hbusy
    with ⟨u, hu, hgrants⟩
  rcases Threads.exists_step_of_grants hu hgrants with ⟨s', hstep⟩
  exact ⟨u, s', hu, hstep⟩

-- A request waits for the lock that the watcher holds to replace the database.
theorem threads_noDeadlock_waits
    : ∃ s : Threads Unit, s.request () = .waits ∧ ¬ (s.locks .state).Grants .read
        ∧ ∃ u s', s.Busy u ∧ Threads.Step u s s' := by
  have hstart : (Threads.start : Threads Unit).Reachable := .refl
  have hread := (hstart.next (.rebuild rfl)).next (.rdlockState rfl (by rintro (_ | _) <;> nofun))
  have hbuild := (hread.next (.rdlockCluster rfl (by rintro (_ | _) <;> nofun))).next (.build rfl)
  have hunlocked := (hbuild.next (.unlockCluster rfl)).next (.unlockState rfl)
  have hwrite := hunlocked.next (.wrlockState rfl (by rintro (_ | _) <;> rfl))
  have hwaits := hwrite.next (.handle () rfl)
  refine ⟨_, rfl, ?_, threads_noDeadlock _ hwaits (some ()) nofun⟩
  intro hgrants
  exact hgrants none rfl
