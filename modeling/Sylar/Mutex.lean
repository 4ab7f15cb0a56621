/-
# Scoped locks and the mutexes of `thread.h`

`thread.h` wraps the pthread locks in classes (`Mutex`, `Spinlock`, `CASLock`
and `RWMutex`) and guards them with three class templates of one shape,
`ScopedLockImpl<T>`, `ReadScopedLockImpl<T>` and `WriteScopedLockImpl<T>`.  A
guard takes its mutex in its constructor, keeps the flag `m_locked`, lets
`lock` and `unlock` be called any number of times, and its destructor unlocks
if the guard still holds the mutex.  The three templates differ only in the
member of `T` that their `lock` calls, so they are one definition
(`guardCtor`, `guardLock`, `guardUnlock`) applied to it.

A mutex is a state with its operations; an operation that has to wait gives
`none`, and in an interleaving a thread that has to wait does not move.  The
exclusive locks wait while they are held, also for the thread that holds
them.  `RWMutex` is glibc's `pthread_rwlock_t`: a count of read locks and the
id of the thread that holds the write lock.  It returns `EDEADLK` at once when
that thread asks for the lock again, and `EAGAIN` when one more reader would
overflow the count; `RWMutex` ignores what it returns, and the guard sets
`m_locked` all the same.  `pthread_rwlock_unlock` releases the write lock when
the caller holds it and one read lock otherwise, so an unlock that matches no
lock takes the count below zero, where it wraps.

Threads run programs of guard operations on one `RWMutex`: they make a read
or a write guard, call `lock` or `unlock` of a guard they have, and leave the
scope of the innermost one.  In every interleaving in which no thread asks for
the lock while one of its guards holds it (`disciplined`), with fewer threads
than glibc's reader count allows:
- `accounts_run`: the reader count is the number of read guards that hold the
  lock, and the write lock is held by the thread whose write guard holds it;
- `exclusion_run`: at most one write guard holds the lock, and no read guard
  holds it then;
- `acquire_blocked_run`: a thread that holds nothing and asks for the lock
  waits exactly while a guard holds it in a conflicting mode;
- `unlock_run`: the unlock of a guard that holds the lock releases its own
  lock;
- `free_run`: once every guard is gone, the lock is free.
Without the discipline, a guard made inside a write guard of the same thread
returns at once, its unlock releases the write lock, and the outer guard's
unlock then wraps the count: `write_reentry_busy` says that after this no
thread takes the write lock again, in any disciplined run.
The exclusive locks need no discipline: in every interleaving at most one
guard holds one (`mutex_exclusion_run`).
-/
import Sylar.Interleaving

namespace Sylar

open Interleaving

/-! ## The guard templates -/

/-- **A mutex type `T` of `ScopedLockImpl<T>`**: `lock`, which gives `none`
while the calling thread has to wait, and `unlock`. -/
structure MutexType (S : Type) where
  lock : S → Option S
  unlock : S → S

/-- **A mutex type `T` of `ReadScopedLockImpl<T>` and
`WriteScopedLockImpl<T>`**: `rdlock`, `wrlock` and `unlock`, each called by
the thread whose id it is given. -/
structure RWMutexType (S : Type) where
  rdlock : Nat → S → Option S
  wrlock : Nat → S → Option S
  unlock : Nat → S → S

section Guard

variable {S : Type}

/-- **The constructor of a guard**: `m_mutex.lock(); m_locked = true;`, with
the member of the mutex type that the template calls.  It gives the mutex and
`m_locked`. -/
def guardCtor (lock : S → Option S) (s : S) : Option (S × Bool) :=
  (lock s).map fun s' => (s', true)

/-- **`lock()` of a guard**: take the mutex unless `m_locked`. -/
def guardLock (lock : S → Option S) (s : S) (locked : Bool) : Option (S × Bool) :=
  if !locked then (lock s).map fun s' => (s', true) else some (s, locked)

/-- **`unlock()` of a guard**: release the mutex if `m_locked`. -/
def guardUnlock (unlock : S → S) (s : S) (locked : Bool) : S × Bool :=
  if locked then (unlock s, false) else (s, locked)

/-- A second `lock()` of a guard does nothing; a first one after the
constructor does nothing either. -/
theorem guardLock_guardLock (lock : S → Option S) (s : S) (locked : Bool) :
    (guardLock lock s locked).bind (fun p => guardLock lock p.1 p.2) = guardLock lock s locked := by
  cases locked with
  | true => rfl
  | false =>
    cases h : lock s with
    | none => simp [guardLock, h]
    | some s' => simp [guardLock, h]

theorem guardLock_guardCtor (lock : S → Option S) (s : S) :
    (guardCtor lock s).bind (fun p => guardLock lock p.1 p.2) = guardCtor lock s := by
  cases h : lock s with
  | none => simp [guardCtor, h]
  | some s' => simp [guardCtor, guardLock, h]

/-- A second `unlock()`, or the destructor after `unlock()`, does nothing. -/
theorem guardUnlock_guardUnlock (unlock : S → S) (s : S) (locked : Bool) :
    guardUnlock unlock (guardUnlock unlock s locked).1 (guardUnlock unlock s locked).2 =
      guardUnlock unlock s locked := by
  cases locked <;> rfl

namespace ScopedLockImpl

/-- **`ScopedLockImpl(T& mutex)`**: `m_mutex.lock()`. -/
def ctor (T : MutexType S) : S → Option (S × Bool) := guardCtor T.lock

/-- **`ScopedLockImpl::lock`**. -/
def lock (T : MutexType S) : S → Bool → Option (S × Bool) := guardLock T.lock

/-- **`ScopedLockImpl::unlock`**. -/
def unlock (T : MutexType S) : S → Bool → S × Bool := guardUnlock T.unlock

/-- **`~ScopedLockImpl()`**: `unlock()`. -/
def dtor (T : MutexType S) : S → Bool → S × Bool := unlock T

end ScopedLockImpl

namespace ReadScopedLockImpl

/-- **`ReadScopedLockImpl(T& mutex)`**, in thread `tid`: `m_mutex.rdlock()`. -/
def ctor (T : RWMutexType S) (tid : Nat) : S → Option (S × Bool) := guardCtor (T.rdlock tid)

/-- **`ReadScopedLockImpl::lock`**. -/
def lock (T : RWMutexType S) (tid : Nat) : S → Bool → Option (S × Bool) := guardLock (T.rdlock tid)

/-- **`ReadScopedLockImpl::unlock`**. -/
def unlock (T : RWMutexType S) (tid : Nat) : S → Bool → S × Bool := guardUnlock (T.unlock tid)

/-- **`~ReadScopedLockImpl()`**: `unlock()`. -/
def dtor (T : RWMutexType S) (tid : Nat) : S → Bool → S × Bool := unlock T tid

end ReadScopedLockImpl

namespace WriteScopedLockImpl

/-- **`WriteScopedLockImpl(T& mutex)`**, in thread `tid`: `m_mutex.wrlock()`. -/
def ctor (T : RWMutexType S) (tid : Nat) : S → Option (S × Bool) := guardCtor (T.wrlock tid)

/-- **`WriteScopedLockImpl::lock`**. -/
def lock (T : RWMutexType S) (tid : Nat) : S → Bool → Option (S × Bool) := guardLock (T.wrlock tid)

/-- **`WriteScopedLockImpl::unlock`**. -/
def unlock (T : RWMutexType S) (tid : Nat) : S → Bool → S × Bool := guardUnlock (T.unlock tid)

/-- **`~WriteScopedLockImpl()`**: `unlock()`. -/
def dtor (T : RWMutexType S) (tid : Nat) : S → Bool → S × Bool := unlock T tid

end WriteScopedLockImpl

end Guard

/-! ## The mutexes -/

/-- **A lock that one thread holds at a time**: a `pthread_mutex_t`, a
`pthread_spinlock_t` or the flag of a `CASLock`, which is `true` while it is
held.  Taking it waits (sleeping or spinning) while it is held. -/
def exclusiveLock (held : Bool) : Option Bool := if held then none else some true

/-- Releasing a lock that one thread holds at a time. -/
def exclusiveUnlock (_held : Bool) : Bool := false

/-- **`Mutex::lock`**: `pthread_mutex_lock`. -/
def Mutex.lock : Bool → Option Bool := exclusiveLock

/-- **`Mutex::unlock`**: `pthread_mutex_unlock`. -/
def Mutex.unlock : Bool → Bool := exclusiveUnlock

/-- **`Mutex`**, the mutex type of `Mutex::Lock`. -/
def Mutex : MutexType Bool := ⟨Mutex.lock, Mutex.unlock⟩

/-- **`Spinlock::lock`**: `pthread_spin_lock`. -/
def Spinlock.lock : Bool → Option Bool := exclusiveLock

/-- **`Spinlock::unlock`**: `pthread_spin_unlock`. -/
def Spinlock.unlock : Bool → Bool := exclusiveUnlock

/-- **`Spinlock`**, the mutex type of `Spinlock::Lock`. -/
def Spinlock : MutexType Bool := ⟨Spinlock.lock, Spinlock.unlock⟩

/-- **`std::atomic_flag_test_and_set`**: the flag's old value, and the flag,
which is now set. -/
def testAndSet (flag : Bool) : Bool × Bool := (flag, true)

/-- **`CASLock::lock`**: `while (test_and_set(m_flag));`.  A test-and-set that
finds the flag set leaves it set and the loop goes round again: the thread
waits. -/
def CASLock.lock (flag : Bool) : Option Bool :=
  let r := testAndSet flag
  if r.1 then none else some r.2

/-- **`CASLock::unlock`**: `atomic_flag_clear`. -/
def CASLock.unlock (_flag : Bool) : Bool := false

/-- **`CASLock`**, the mutex type of `CASLock::Lock`. -/
def CASLock : MutexType Bool := ⟨CASLock.lock, CASLock.unlock⟩

/-- The spin loop of `CASLock` takes the flag as a mutex is taken. -/
theorem CASLock_lock_eq : CASLock.lock = exclusiveLock := by
  funext flag
  cases flag <;> rfl


/-! ## glibc's read–write lock -/

/-- **The state of a glibc `pthread_rwlock_t`**: the count of read locks (the
29 bits of `__readers` above its three flags) and `__cur_writer`, the id of
the thread that holds the write lock. -/
structure RWLock where
  readers : Nat
  writer : Option Nat
  deriving DecidableEq, Repr

/-- `pthread_rwlock_init`: no lock is held. -/
def RWLock.init : RWLock := ⟨0, none⟩

namespace RWMutex

/-- **`RWMutex::rdlock`** in thread `tid`: `pthread_rwlock_rdlock` returns
`EDEADLK` at once when `tid` holds the write lock, and `EAGAIN` when one more
reader would reach `PTHREAD_RWLOCK_READER_OVERFLOW`, a count of `2^28`;
otherwise it waits while the write lock is held, then adds a read lock. -/
def rdlock (tid : Nat) (l : RWLock) : Option RWLock :=
  if l.writer = some tid then some l
  else if 2 ^ 28 ≤ l.readers + 1 then some l
  else if l.writer.isSome then none
  else some ⟨l.readers + 1, l.writer⟩

/-- **`RWMutex::wrlock`** in thread `tid`: `pthread_rwlock_wrlock` returns
`EDEADLK` at once when `tid` holds the write lock; otherwise it waits while any
lock is held, then takes the write lock. -/
def wrlock (tid : Nat) (l : RWLock) : Option RWLock :=
  if l.writer = some tid then some l
  else if l.writer.isSome || l.readers != 0 then none
  else some ⟨l.readers, some tid⟩

/-- **`RWMutex::unlock`** in thread `tid`: `pthread_rwlock_unlock` releases
the write lock when `tid` holds it, and otherwise one read lock, taking one
from the 29-bit count, which wraps below zero. -/
def unlock (tid : Nat) (l : RWLock) : RWLock :=
  if l.writer = some tid then ⟨l.readers, none⟩
  else ⟨(l.readers + 2 ^ 29 - 1) % 2 ^ 29, l.writer⟩

variable {tid : Nat} {l l' : RWLock}

/-- `rdlock` by a thread that is not the writer, below the overflow, waits for
the writer or adds a read lock. -/
theorem rdlock_eq_some (hw : l.writer ≠ some tid) (hr : l.readers + 1 < 2 ^ 28)
    (h : rdlock tid l = some l') : l.writer = none ∧ l' = ⟨l.readers + 1, none⟩ := by
  unfold rdlock at h
  rw [if_neg hw, if_neg (by omega)] at h
  cases hl : l.writer with
  | some t => simp [hl] at h
  | none =>
    simp only [hl, Option.isSome_none, Bool.false_eq_true, if_false, Option.some.injEq] at h
    exact ⟨rfl, h.symm⟩

/-- `wrlock` by a thread that is not the writer waits for every lock, then
takes the write lock. -/
theorem wrlock_eq_some (hw : l.writer ≠ some tid) (h : wrlock tid l = some l') :
    l.writer = none ∧ l.readers = 0 ∧ l' = ⟨0, some tid⟩ := by
  unfold wrlock at h
  rw [if_neg hw] at h
  cases hl : l.writer with
  | some t => simp [hl] at h
  | none =>
    by_cases hr : l.readers = 0
    · simp only [hl, hr, Option.isSome_none, bne_self_eq_false, Bool.or_self, Bool.false_eq_true,
        if_false, Option.some.injEq] at h
      exact ⟨rfl, hr, h.symm⟩
    · simp [hl, hr] at h

/-- The writer's unlock releases the write lock. -/
theorem unlock_of_writer (hw : l.writer = some tid) : unlock tid l = ⟨l.readers, none⟩ := by
  rw [unlock, if_pos hw]

/-- Another thread's unlock releases one of the read locks there are. -/
theorem unlock_of_reader (hw : l.writer ≠ some tid) (hr : 0 < l.readers) (hlt : l.readers < 2 ^ 29) :
    unlock tid l = ⟨l.readers - 1, l.writer⟩ := by
  rw [unlock, if_neg hw, show l.readers + 2 ^ 29 - 1 = l.readers - 1 + 2 ^ 29 by omega,
    Nat.add_mod_right, Nat.mod_eq_of_lt (by omega)]

/-- **`EDEADLK`**: the writer's `rdlock` and `wrlock` return at once and
change nothing. -/
theorem rdlock_of_writer (hw : l.writer = some tid) : rdlock tid l = some l := by
  rw [rdlock, if_pos hw]

theorem wrlock_of_writer (hw : l.writer = some tid) : wrlock tid l = some l := by
  rw [wrlock, if_pos hw]

end RWMutex

/-- **`RWMutex`**, the mutex type of `RWMutex::ReadLock` and
`RWMutex::WriteLock`. -/
def RWMutex : RWMutexType RWLock := ⟨RWMutex.rdlock, RWMutex.wrlock, RWMutex.unlock⟩

/-! ## Threads with guards -/

/-- The two guard templates of an `RWMutex`: `ReadLock` and `WriteLock`. -/
inductive Mode
  | read
  | write
  deriving DecidableEq, Repr

/-- The other mode. -/
def Mode.flip : Mode → Mode
  | .read => .write
  | .write => .read

@[simp] theorem Mode.self_ne_flip (md : Mode) : md ≠ md.flip := by
  cases md <;> simp [Mode.flip]

/-- **A guard object** on the lock: its template and `m_locked`. -/
structure Guard where
  mode : Mode
  locked : Bool
  deriving DecidableEq, Repr

/-- **What a thread does with guards**: construct one (a `ReadLock` or
`WriteLock` variable), call `lock` or `unlock` of its `k`-th guard (`0` is the
innermost), or leave the scope of the innermost one, which runs its
destructor. -/
inductive GuardOp
  | make (mode : Mode)
  | lock (k : Nat)
  | unlock (k : Nat)
  | leave
  deriving DecidableEq, Repr

/-- **A thread**: its id, the operations it has still to do, and its guards,
innermost first. -/
structure Worker where
  tid : Nat
  prog : List GuardOp
  guards : List Guard
  deriving DecidableEq, Repr

/-- The member of `RWMutex` that a guard of the mode takes the lock with. -/
def acquire : Mode → Nat → RWLock → Option RWLock
  | .read => RWMutex.rdlock
  | .write => RWMutex.wrlock

namespace Guard

/-- **The constructor** of the guard template of the mode, in thread `tid`. -/
def make (tid : Nat) (s : RWLock) : Mode → Option (RWLock × Guard)
  | .read => (ReadScopedLockImpl.ctor RWMutex tid s).map fun p => (p.1, ⟨.read, p.2⟩)
  | .write => (WriteScopedLockImpl.ctor RWMutex tid s).map fun p => (p.1, ⟨.write, p.2⟩)

/-- **`lock()`** of the guard. -/
def lock (tid : Nat) (s : RWLock) (g : Guard) : Option (RWLock × Guard) :=
  match g.mode with
  | .read => (ReadScopedLockImpl.lock RWMutex tid s g.locked).map fun p => (p.1, ⟨.read, p.2⟩)
  | .write => (WriteScopedLockImpl.lock RWMutex tid s g.locked).map fun p => (p.1, ⟨.write, p.2⟩)

/-- **`unlock()`** of the guard. -/
def unlock (tid : Nat) (s : RWLock) (g : Guard) : RWLock × Guard :=
  match g.mode with
  | .read => let p := ReadScopedLockImpl.unlock RWMutex tid s g.locked; (p.1, ⟨.read, p.2⟩)
  | .write => let p := WriteScopedLockImpl.unlock RWMutex tid s g.locked; (p.1, ⟨.write, p.2⟩)

/-- **The destructor** of the guard: the lock after it. -/
def leave (tid : Nat) (s : RWLock) (g : Guard) : RWLock :=
  match g.mode with
  | .read => (ReadScopedLockImpl.dtor RWMutex tid s g.locked).1
  | .write => (WriteScopedLockImpl.dtor RWMutex tid s g.locked).1

/-- The guard holds the lock in mode `md`. -/
def holds (md : Mode) (g : Guard) : Bool := g.locked && g.mode == md

variable (tid : Nat) (s : RWLock)

theorem make_eq (md : Mode) :
    make tid s md = (acquire md tid s).map fun s' => (s', ⟨md, true⟩) := by
  cases md with
  | read => simp [make, ReadScopedLockImpl.ctor, guardCtor, RWMutex, acquire, Option.map_map]; rfl
  | write => simp [make, WriteScopedLockImpl.ctor, guardCtor, RWMutex, acquire, Option.map_map]; rfl

theorem lock_eq (g : Guard) :
    g.lock tid s = if g.locked then some (s, g) else
      (acquire g.mode tid s).map fun s' => (s', ⟨g.mode, true⟩) := by
  obtain ⟨md, b⟩ := g
  cases md <;> cases b <;>
    simp [lock, ReadScopedLockImpl.lock, WriteScopedLockImpl.lock, guardLock, RWMutex, acquire,
      Option.map_map] <;> rfl

theorem unlock_eq (g : Guard) :
    g.unlock tid s = if g.locked then (RWMutex.unlock tid s, ⟨g.mode, false⟩) else (s, g) := by
  obtain ⟨md, b⟩ := g
  cases md <;> cases b <;>
    simp [unlock, ReadScopedLockImpl.unlock, WriteScopedLockImpl.unlock, guardUnlock, RWMutex]

theorem leave_eq (g : Guard) :
    g.leave tid s = if g.locked then RWMutex.unlock tid s else s := by
  obtain ⟨md, b⟩ := g
  cases md <;> cases b <;>
    simp [leave, ReadScopedLockImpl.dtor, WriteScopedLockImpl.dtor, ReadScopedLockImpl.unlock,
      WriteScopedLockImpl.unlock, guardUnlock, RWMutex]

@[simp] theorem holds_mk (md md' : Mode) (b : Bool) :
    holds md ⟨md', b⟩ = (b && md' == md) := rfl

end Guard

namespace Worker

/-- **One step of a thread**: its next operation, on the lock `s`.  It gives
`none` while the thread waits for the lock, once it has done all its
operations, and at an operation on a guard it does not have. -/
def step (s : RWLock) (w : Worker) : Option (RWLock × Worker) :=
  match w.prog with
  | [] => none
  | .make md :: prog => (Guard.make w.tid s md).map fun p => (p.1, ⟨w.tid, prog, p.2 :: w.guards⟩)
  | .lock k :: prog =>
    match w.guards[k]? with
    | none => none
    | some g => (g.lock w.tid s).map fun p => (p.1, ⟨w.tid, prog, w.guards.set k p.2⟩)
  | .unlock k :: prog =>
    match w.guards[k]? with
    | none => none
    | some g => some ((g.unlock w.tid s).1, ⟨w.tid, prog, w.guards.set k (g.unlock w.tid s).2⟩)
  | .leave :: prog =>
    match w.guards with
    | [] => none
    | g :: gs => some (g.leave w.tid s, ⟨w.tid, prog, gs⟩)

/-- How many of the thread's guards hold the lock in mode `md`. -/
def count (md : Mode) (w : Worker) : Nat := w.guards.countP (Guard.holds md)

/-- **The thread's next operation asks for the lock**: it makes a guard, or
locks one of its guards that does not hold it. -/
def asksLock (w : Worker) : Bool :=
  match w.prog with
  | .make _ :: _ => true
  | .lock k :: _ => w.guards[k]?.any fun g => !g.locked
  | _ => false

/-- **The locking discipline of one thread**: it asks for the lock only while
none of its guards holds it. -/
def disciplined (w : Worker) : Bool := !w.asksLock || w.guards.all fun g => !g.locked

/-- A thread that asks for the lock under the discipline holds nothing. -/
theorem count_eq_zero_of_asksLock {w : Worker} (hd : w.disciplined = true) (ha : w.asksLock = true)
    (md : Mode) : w.count md = 0 := by
  simp only [disciplined, ha, Bool.not_true, Bool.false_or, List.all_eq_true, Bool.not_eq_true'] at hd
  exact List.countP_eq_zero.mpr fun g hg => by simp [Guard.holds, hd g hg]

end Worker

/-- **How many guards hold the lock in mode `md`**, over all threads. -/
def held (md : Mode) (ts : List Worker) : Nat := (ts.map (Worker.count md)).sum

/-- **The scheduler's discipline**: thread `i` moves only under the locking
discipline. -/
def disciplined (i : Nat) (c : Sys RWLock Worker) : Bool := c.threads[i]?.all Worker.disciplined

/-- **The threads start** with their programs, their ids `0, 1, …`, no guards
and a free lock. -/
def init (progs : List (List GuardOp)) : Sys RWLock Worker :=
  ⟨RWLock.init, progs.mapIdx fun i p => ⟨i, p, []⟩⟩

/-! ## What one step does -/

/-- A count over a list after one element is replaced. -/
theorem countP_set_add {α : Type} {p : α → Bool} {l : List α} {k : Nat} {a : α}
    (hk : l[k]? = some a) (b : α) :
    (l.set k b).countP p + (if p a then 1 else 0) = l.countP p + (if p b then 1 else 0) := by
  obtain ⟨hlt, rfl⟩ := List.getElem?_eq_some_iff.mp hk
  rw [List.countP_set hlt]
  have hpos : (if p l[k] = true then 1 else 0) ≤ l.countP p := by
    split
    · exact List.countP_pos_iff.mpr ⟨_, List.getElem_mem hlt, by assumption⟩
    · exact Nat.zero_le _
  omega

/-- **What one step of a thread can do**: take the lock in a mode, asking for
it, with one more guard of the thread holding it in that mode; release it with
`pthread_rwlock_unlock`, with one fewer; or leave the lock and the counts as
they are. -/
inductive Effect (s s' : RWLock) (w w' : Worker) : Prop
  | acquire (md : Mode) (ha : w.asksLock = true) (hs : acquire md w.tid s = some s')
      (hc : w'.count md = w.count md + 1) (ho : w'.count md.flip = w.count md.flip)
  | release (md : Mode) (hs : s' = RWMutex.unlock w.tid s) (hc : w.count md = w'.count md + 1)
      (ho : w'.count md.flip = w.count md.flip)
  | keep (hs : s' = s) (hc : ∀ md, w'.count md = w.count md)

namespace Effect

variable {s s' : RWLock} {t : Nat} {prog : List GuardOp} {gs : List Guard}

theorem of_make {md : Mode} {g : Guard} (h : Guard.make t s md = some (s', g)) :
    Effect s s' ⟨t, .make md :: prog, gs⟩ ⟨t, prog, g :: gs⟩ := by
  rw [Guard.make_eq] at h
  obtain ⟨s₁, hs, hp⟩ := Option.map_eq_some_iff.mp h
  obtain ⟨rfl, rfl⟩ := Prod.mk.inj hp
  refine .acquire md rfl hs ?_ ?_
  · simp [Worker.count]
  · simp [Worker.count]

theorem of_lock {k : Nat} {g g' : Guard} (hk : gs[k]? = some g) (h : g.lock t s = some (s', g')) :
    Effect s s' ⟨t, .lock k :: prog, gs⟩ ⟨t, prog, gs.set k g'⟩ := by
  have hset := fun md => countP_set_add (p := Guard.holds md) hk g'
  rw [Guard.lock_eq] at h
  cases hl : g.locked with
  | true =>
    -- the guard holds the lock already: `lock()` does nothing
    simp only [hl, ↓reduceIte, Option.some.injEq, Prod.mk.injEq] at h
    obtain ⟨rfl, rfl⟩ := h
    exact .keep rfl fun md => by simpa [Worker.count] using hset md
  | false =>
    simp only [hl, Bool.false_eq_true, ↓reduceIte] at h
    obtain ⟨s₁, hs, hp⟩ := Option.map_eq_some_iff.mp h
    obtain ⟨rfl, rfl⟩ := Prod.mk.inj hp
    have ha : Worker.asksLock ⟨t, .lock k :: prog, gs⟩ = true := by simp [Worker.asksLock, hk, hl]
    obtain ⟨md, b⟩ := g
    simp only at hl hs
    subst hl
    refine .acquire md ha hs ?_ ?_
    · simpa [Worker.count] using hset md
    · simpa [Worker.count] using hset md.flip

theorem of_unlock {k : Nat} {g : Guard} (hk : gs[k]? = some g) :
    Effect s (g.unlock t s).1 ⟨t, .unlock k :: prog, gs⟩ ⟨t, prog, gs.set k (g.unlock t s).2⟩ := by
  have hset := fun md => countP_set_add (p := Guard.holds md) hk (g.unlock t s).2
  rw [Guard.unlock_eq] at hset ⊢
  obtain ⟨md, b⟩ := g
  cases b with
  | true =>
    refine .release md rfl ?_ ?_
    · simpa [Worker.count] using (hset md).symm
    · simpa [Worker.count] using hset md.flip
  | false => exact .keep rfl fun md' => by simpa [Worker.count] using hset md'

theorem of_leave {g : Guard} : Effect s (g.leave t s) ⟨t, .leave :: prog, g :: gs⟩ ⟨t, prog, gs⟩ := by
  obtain ⟨md, b⟩ := g
  cases b with
  | true =>
    refine .release md (by rw [Guard.leave_eq, if_pos rfl]) ?_ ?_
    · simp [Worker.count]
    · simp [Worker.count]
  | false => exact .keep (by rw [Guard.leave_eq, if_neg Bool.false_ne_true]) fun md' => by simp [Worker.count]

end Effect

/-- **Every step of a thread has an effect**, and keeps its id. -/
theorem Worker.step_effect {s s' : RWLock} {w w' : Worker} (h : w.step s = some (s', w')) :
    w'.tid = w.tid ∧ Effect s s' w w' := by
  obtain ⟨t, prog, gs⟩ := w
  unfold Worker.step at h
  match hp : prog, h with
  | .make md :: prog, h =>
    obtain ⟨p, hm, hp⟩ := Option.map_eq_some_iff.mp h
    obtain ⟨rfl, rfl⟩ := Prod.mk.inj hp
    exact ⟨rfl, Effect.of_make hm⟩
  | .lock k :: prog, h =>
    simp only at h
    split at h
    · exact absurd h (by simp)
    · rename_i g hk
      obtain ⟨p, hm, hp⟩ := Option.map_eq_some_iff.mp h
      obtain ⟨rfl, rfl⟩ := Prod.mk.inj hp
      exact ⟨rfl, Effect.of_lock hk hm⟩
  | .unlock k :: prog, h =>
    simp only at h
    split at h
    · exact absurd h (by simp)
    · rename_i g hk
      obtain ⟨rfl, rfl⟩ := Prod.mk.inj (Option.some.inj h)
      exact ⟨rfl, Effect.of_unlock hk⟩
  | .leave :: prog, h =>
    simp only at h
    split at h
    · exact absurd h (by simp)
    · obtain ⟨rfl, rfl⟩ := Prod.mk.inj (Option.some.inj h)
      exact ⟨rfl, Effect.of_leave⟩

/-! ## Counting the guards -/

/-- The counts after thread `i` moves change by what its own counts do. -/
theorem held_set {ts : List Worker} {i : Nat} {w : Worker} (hi : ts[i]? = some w) (w' : Worker)
    (md : Mode) : held md (ts.set i w') + w.count md = held md ts + w'.count md :=
  sum_map_set hi w'

/-- One thread's count is part of the total. -/
theorem count_le_held {ts : List Worker} {i : Nat} {w : Worker} (hi : ts[i]? = some w) (md : Mode) :
    w.count md ≤ held md ts := by
  have h := held_set hi ⟨0, [], []⟩ md
  have h0 : Worker.count md ⟨0, [], []⟩ = 0 := rfl
  omega

/-- No holds when no thread holds. -/
theorem held_eq_zero {md : Mode} :
    ∀ {ts : List Worker}, (∀ (j : Nat) (u : Worker), ts[j]? = some u → u.count md = 0) → held md ts = 0
  | [], _ => rfl
  | t :: ts, h => by
    have ht := h 0 t rfl
    have ih : held md ts = 0 := held_eq_zero fun j u hu => h (j + 1) u hu
    simp only [held, List.map_cons, List.sum_cons] at ih ⊢
    omega

/-- At most one hold a thread, at most as many holds as threads. -/
theorem held_le_length {md : Mode} :
    ∀ {ts : List Worker}, (∀ (j : Nat) (u : Worker), ts[j]? = some u → u.count md ≤ 1) → held md ts ≤ ts.length
  | [], _ => Nat.le_refl 0
  | t :: ts, h => by
    have ht := h 0 t rfl
    have ih : held md ts ≤ ts.length := held_le_length fun j u hu => h (j + 1) u hu
    simp only [held, List.map_cons, List.sum_cons, List.length_cons] at ih ⊢
    omega

/-- **Fewer holds than threads**, when each thread holds at most once and one
of them not at all. -/
theorem held_lt_length {md : Mode} {ts : List Worker} {i : Nat} {w : Worker} (hi : ts[i]? = some w)
    (hw : w.count md = 0) (h : ∀ (j : Nat) (u : Worker), ts[j]? = some u → u.count md ≤ 1) : held md ts < ts.length := by
  -- the thread that holds nothing, given one hold, keeps every count at most one
  let w₁ : Worker := ⟨0, [], [⟨md, true⟩]⟩
  have hw₁ : w₁.count md = 1 := by simp [w₁, Worker.count]
  have hset := held_set hi w₁ md
  have hle : held md (ts.set i w₁) ≤ (ts.set i w₁).length := held_le_length fun j u hu => by
    rcases getElem?_set_cases hi hu with ⟨-, rfl⟩ | ⟨-, hu⟩
    · exact Nat.le_of_eq hw₁
    · exact h j u hu
  rw [List.length_set] at hle
  omega

/-- No thread holds in a mode in which nothing holds. -/
theorem count_eq_zero_of_held {md : Mode} {ts : List Worker} {j : Nat} {u : Worker} (h0 : held md ts = 0)
    (hu : ts[j]? = some u) : u.count md = 0 := by
  have := count_le_held hu md
  omega

/-! ## The invariant of disciplined runs -/

/-- **The threads**: their ids are their places, and each has at most one
guard that holds the lock. -/
structure Threads (ts : List Worker) : Prop where
  tids : ∀ (j : Nat) (u : Worker), ts[j]? = some u → u.tid = j
  single : ∀ (j : Nat) (u : Worker), ts[j]? = some u → u.count .read + u.count .write ≤ 1

/-- **Under the discipline a step keeps the threads apart**: a thread takes
the lock only when it holds nothing. -/
theorem Threads.step {ts : List Worker} (h : Threads ts) {i : Nat} {w w' : Worker} {s s' : RWLock}
    (hi : ts[i]? = some w) (hd : w.disciplined = true) (htid : w'.tid = w.tid) (he : Effect s s' w w') :
    Threads (ts.set i w') := by
  have hsingle := h.single i w hi
  have hw : w'.count .read + w'.count .write ≤ 1 := by
    cases he with
    | acquire md ha _ hc ho =>
      have h0 := Worker.count_eq_zero_of_asksLock hd ha
      have h0r := h0 .read
      have h0w := h0 .write
      cases md <;> simp only [Mode.flip] at hc ho <;> omega
    | release md _ hc ho => cases md <;> simp only [Mode.flip] at hc ho <;> omega
    | keep _ hc => rw [hc, hc]; exact hsingle
  refine ⟨fun j u hu => ?_, fun j u hu => ?_⟩
  · rcases getElem?_set_cases hi hu with ⟨rfl, rfl⟩ | ⟨-, hu⟩
    · rw [htid]
      exact h.tids _ w hi
    · exact h.tids j u hu
  · rcases getElem?_set_cases hi hu with ⟨rfl, rfl⟩ | ⟨-, hu⟩
    · exact hw
    · exact h.single j u hu

/-- **The lock stands for the guards that hold it**: the reader count is the
number of read guards holding it; the write lock is held when a write guard
holds it, by that guard's thread, and never with a read lock. -/
structure Fits (l : RWLock) (ts : List Worker) : Prop where
  readers : l.readers = held .read ts
  writers : held .write ts = if l.writer.isSome then 1 else 0
  exclusive : l.writer.isSome = true → l.readers = 0
  owner : ∀ (j : Nat) (u : Worker), ts[j]? = some u → (l.writer = some u.tid ↔ 0 < u.count .write)

namespace Fits

variable {l s s' : RWLock} {ts : List Worker} {i : Nat} {w w' : Worker}

/-- No write guard holds while the write lock is free. -/
theorem held_write_eq_zero (h : Fits l ts) (hw : l.writer = none) : held .write ts = 0 := by
  rw [h.writers, hw]
  rfl

/-- The write lock is free while read locks are held. -/
theorem writer_eq_none (h : Fits l ts) (hpos : 0 < l.readers) : l.writer = none := by
  cases hwr : l.writer with
  | none => rfl
  | some t => have := h.exclusive (by simp [hwr]); omega

/-- **A lock with the write lock free fits the guards** when it counts the
read guards and no write guard holds. -/
theorem of_no_writer (hw : l.writer = none) (hr : l.readers = held .read ts) (h0 : held .write ts = 0) :
    Fits l ts where
  readers := hr
  writers := by rw [h0, hw]; rfl
  exclusive := by simp [hw]
  owner j u hu := by simp [hw, count_eq_zero_of_held h0 hu]

/-- Fewer readers than `2^28`, from fewer threads, when one of them holds
nothing. -/
theorem readers_lt (h : Fits l ts) (ht : Threads ts) (hlen : ts.length < 2 ^ 28) (hi : ts[i]? = some w)
    (hw : w.count .read = 0) : l.readers + 1 < 2 ^ 28 := by
  have hlt := held_lt_length hi hw fun j u hu => by have := ht.single j u hu; omega
  rw [h.readers]
  omega

/-- A thread that holds nothing is not the writer. -/
theorem not_writer (h : Fits l ts) (hi : ts[i]? = some w) (hw : w.count .write = 0) :
    l.writer ≠ some w.tid := fun hwr => by
  have := (h.owner i w hi).mp hwr
  omega

/-- **A read guard's unlock takes one of the read locks**: its thread is not
the writer, and the count is positive and below its 29 bits. -/
theorem unlock_read_hold (h : Fits l ts) (ht : Threads ts) (hlen : ts.length < 2 ^ 28) (hi : ts[i]? = some w)
    (hr : 0 < w.count .read) : RWMutex.unlock w.tid l = ⟨l.readers - 1, none⟩ := by
  have hsingle := ht.single i w hi
  have hnw := h.not_writer hi (by omega)
  have hpos : 0 < l.readers := by rw [h.readers]; have := count_le_held hi .read; omega
  have hbound : l.readers < 2 ^ 29 := by
    have : held .read ts ≤ ts.length := held_le_length fun j u hu => by have := ht.single j u hu; omega
    rw [h.readers]
    omega
  rw [RWMutex.unlock_of_reader hnw hpos hbound, h.writer_eq_none hpos]

/-- **Taking the lock**, by a thread that holds nothing. -/
theorem acquire (h : Fits s ts) (ht : Threads ts) (hlen : ts.length < 2 ^ 28) (hi : ts[i]? = some w)
    (h0 : ∀ md, w.count md = 0) (htid : w'.tid = w.tid) {md : Mode} (hs : Sylar.acquire md w.tid s = some s')
    (hc : w'.count md = w.count md + 1) (ho : w'.count md.flip = w.count md.flip) :
    Fits s' (ts.set i w') := by
  have hr := held_set hi w' .read
  have hw := held_set hi w' .write
  have hnw := h.not_writer hi (h0 .write)
  have h0r := h0 .read
  have h0w := h0 .write
  cases md with
  | read =>
    -- neither `EDEADLK` nor `EAGAIN`: a read lock is added
    obtain ⟨hwn, rfl⟩ := RWMutex.rdlock_eq_some hnw (h.readers_lt ht hlen hi h0r) hs
    simp only [Mode.flip] at hc ho
    have hw0 := h.held_write_eq_zero hwn
    have := h.readers
    exact of_no_writer rfl (by show s.readers + 1 = _; omega) (by omega)
  | write =>
    obtain ⟨hwn, hr0, rfl⟩ := RWMutex.wrlock_eq_some hnw hs
    simp only [Mode.flip] at hc ho
    have hw0 := h.held_write_eq_zero hwn
    refine ⟨?_, ?_, fun _ => rfl, fun j u hu => ?_⟩
    · show 0 = held .read (ts.set i w')
      have := h.readers
      omega
    · show held .write (ts.set i w') = 1
      omega
    · rcases getElem?_set_cases hi hu with ⟨rfl, rfl⟩ | ⟨hji, hu⟩
      · -- the thread that took it is the writer
        rw [htid]
        simp only [true_iff]
        omega
      · -- another thread: a different id, and no write guard
        have hu0 := count_eq_zero_of_held hw0 hu
        have hne : w.tid ≠ u.tid := by rw [ht.tids i w hi, ht.tids j u hu]; exact Ne.symm hji
        simp [hu0, hne]

/-- **Releasing the lock**, by a thread whose guard holds it. -/
theorem release (h : Fits s ts) (ht : Threads ts) (hlen : ts.length < 2 ^ 28) (hi : ts[i]? = some w)
    {md : Mode} (hs : s' = RWMutex.unlock w.tid s)
    (hc : w.count md = w'.count md + 1) (ho : w'.count md.flip = w.count md.flip) :
    Fits s' (ts.set i w') := by
  have hr := held_set hi w' .read
  have hw := held_set hi w' .write
  have hreaders := h.readers
  cases md with
  | read =>
    simp only [Mode.flip] at hc ho
    -- a read guard's thread is not the writer: one read lock goes
    rw [h.unlock_read_hold ht hlen hi (by omega)] at hs
    subst hs
    have hpos : 0 < s.readers := by rw [hreaders]; have := count_le_held hi .read; omega
    have hw0 := h.held_write_eq_zero (h.writer_eq_none hpos)
    exact of_no_writer rfl (by show s.readers - 1 = _; omega) (by omega)
  | write =>
    simp only [Mode.flip] at hc ho
    -- the writer: the write lock goes
    have hwr : s.writer = some w.tid := (h.owner i w hi).mpr (by omega)
    rw [RWMutex.unlock_of_writer hwr] at hs
    subst hs
    have hw1 : held .write ts = 1 := by rw [h.writers, hwr]; rfl
    exact of_no_writer rfl (by show s.readers = _; omega) (by omega)

/-- **A step that neither takes nor releases the lock.** -/
theorem keep (h : Fits s ts) (hi : ts[i]? = some w) (htid : w'.tid = w.tid)
    (hc : ∀ md, w'.count md = w.count md) : Fits s (ts.set i w') := by
  have hr := held_set hi w' .read
  have hw := held_set hi w' .write
  have hcr := hc .read
  have hcw := hc .write
  refine ⟨by rw [h.readers]; omega, by rw [← h.writers]; omega, h.exclusive, fun j u hu => ?_⟩
  rcases getElem?_set_cases hi hu with ⟨rfl, rfl⟩ | ⟨-, hu⟩
  · rw [htid, hcw]
    exact h.owner _ w hi
  · exact h.owner j u hu

end Fits

/-- **The invariant of disciplined runs**: the threads are kept apart, the lock
stands for their guards, and there are fewer threads than glibc's reader
count allows. -/
structure Accounts (c : Sys RWLock Worker) : Prop where
  threads : Threads c.threads
  fits : Fits c.shared c.threads
  fewer : c.threads.length < 2 ^ 28

/-- **Every disciplined step keeps the invariant.** -/
theorem Accounts.stepAt {c : Sys RWLock Worker} (h : Accounts c) {i : Nat} (hok : disciplined i c = true) :
    Accounts (stepAt Worker.step i c) :=
  stepAt_cases h fun w s' w' hi hs => by
    have hd : w.disciplined = true := by simpa [disciplined, hi] using hok
    obtain ⟨htid, he⟩ := Worker.step_effect hs
    have hlen : (c.threads.set i w').length < 2 ^ 28 := by rw [List.length_set]; exact h.fewer
    refine ⟨h.threads.step hi hd htid he, ?_, hlen⟩
    cases he with
    | acquire md ha hs hc ho =>
      exact h.fits.acquire h.threads h.fewer hi (Worker.count_eq_zero_of_asksLock hd ha) htid hs hc ho
    | release md hs hc ho => exact h.fits.release h.threads h.fewer hi hs hc ho
    | keep hs hc =>
      subst hs
      exact h.fits.keep hi htid hc

/-- The threads at the start: thread `j` has id `j` and no guard. -/
theorem init_threads {progs : List (List GuardOp)} {j : Nat} {u : Worker}
    (hu : (init progs).threads[j]? = some u) : u.tid = j ∧ u.guards = [] := by
  simp only [init, List.getElem?_mapIdx] at hu
  obtain ⟨p, -, rfl⟩ := Option.map_eq_some_iff.mp hu
  exact ⟨rfl, rfl⟩

theorem accounts_init (progs : List (List GuardOp)) (hn : progs.length < 2 ^ 28) : Accounts (init progs) := by
  have h0 : ∀ (md : Mode) (j : Nat) (u : Worker), (init progs).threads[j]? = some u → u.count md = 0 := fun md j u hu => by
    simp [Worker.count, (init_threads hu).2]
  refine ⟨⟨fun j u hu => (init_threads hu).1, fun j u hu => by rw [h0 .read j u hu, h0 .write j u hu]; decide⟩,
    Fits.of_no_writer rfl (held_eq_zero (h0 .read)).symm (held_eq_zero (h0 .write)), ?_⟩
  simpa [init] using hn

/-- **In every disciplined interleaving of threads that use `ReadLock` and
`WriteLock` guards on one `RWMutex`**, fewer than glibc's `2^28` of them, the
lock stands for the guards that hold it. -/
theorem accounts_run (progs : List (List GuardOp)) (sched : List Nat) (hn : progs.length < 2 ^ 28)
    (hd : allowed Worker.step disciplined sched (init progs) = true) :
    Accounts (run Worker.step sched (init progs)) :=
  run_preserves (fun _ _ hok h => h.stepAt hok) sched _ hd (accounts_init progs hn)

/-! ## What disciplined runs guarantee -/

namespace Fits

variable {l : RWLock} {ts : List Worker}

/-- **At most one write hold, and no read hold with it.** -/
theorem exclusion (h : Fits l ts) : held .write ts ≤ 1 ∧ (held .write ts = 1 → held .read ts = 0) := by
  rw [h.writers, ← h.readers]
  cases hw : l.writer with
  | none => simp
  | some t =>
    simp only [Option.isSome_some, if_true]
    exact ⟨Nat.le_refl 1, fun _ => h.exclusive (by simp [hw])⟩

end Fits

section Runs

variable (progs : List (List GuardOp)) (sched : List Nat) (hn : progs.length < 2 ^ 28)
  (hd : allowed Worker.step disciplined sched (init progs) = true)

include hn hd

/-- **In every disciplined interleaving, at most one write guard holds the
lock, and no read guard holds it while one does.** -/
theorem exclusion_run :
    held .write (run Worker.step sched (init progs)).threads ≤ 1 ∧
      (held .write (run Worker.step sched (init progs)).threads = 1 →
        held .read (run Worker.step sched (init progs)).threads = 0) :=
  (accounts_run progs sched hn hd).fits.exclusion

end Runs

/-- A writer and a reader that each take a guard and leave its scope. -/
def writerReader : List (List GuardOp) := [[.make .write, .leave], [.make .read, .leave]]

theorem exclusion_run_writerReader :
    writerReader.length < 2 ^ 28 ∧ allowed Worker.step disciplined [0, 1, 0, 1, 1] (init writerReader) = true ∧
      held .write (run Worker.step [0, 1, 0, 1, 1] (init writerReader)).threads ≤ 1 ∧
      (held .write (run Worker.step [0, 1, 0, 1, 1] (init writerReader)).threads = 1 →
        held .read (run Worker.step [0, 1, 0, 1, 1] (init writerReader)).threads = 0) :=
  ⟨by decide, by decide, exclusion_run writerReader [0, 1, 0, 1, 1] (by decide) (by decide)⟩

/-- **A lock left busy**: the write lock free and no write guard holding it,
and the reader count above the read guards that hold the lock by more than
the threads' requests can use up. -/
structure Busy (l : RWLock) (ts : List Worker) : Prop where
  threads : Threads ts
  writer : l.writer = none
  writers : held .write ts = 0
  bound : l.readers < 2 ^ 29
  excess : held .read ts + (2 ^ 28 - 1 - ts.length) ≤ l.readers
  fewer : ts.length + 1 < 2 ^ 28

/-- A lock still busy after thread `i` moves: the length of the threads stays. -/
theorem Busy.of_set {l l' : RWLock} {ts : List Worker} {i : Nat} {w' : Worker} (h : Busy l ts)
    (hthreads : Threads (ts.set i w')) (hw : l'.writer = none) (hws : held .write (ts.set i w') = 0)
    (hbound : l'.readers < 2 ^ 29) (hex : held .read (ts.set i w') + (2 ^ 28 - 1 - ts.length) ≤ l'.readers) :
    Busy l' (ts.set i w') :=
  ⟨hthreads, hw, hws, hbound, by rw [List.length_set]; exact hex, by rw [List.length_set]; exact h.fewer⟩

/-- `rdlock` that would overflow the count returns `EAGAIN` at once. -/
theorem RWMutex.rdlock_of_overflow {tid : Nat} {l : RWLock} (hw : l.writer ≠ some tid)
    (hov : 2 ^ 28 ≤ l.readers + 1) : RWMutex.rdlock tid l = some l := by
  rw [RWMutex.rdlock, if_neg hw, if_pos hov]

/-- **Every disciplined step keeps a busy lock busy**: `wrlock` waits for the
read locks; `rdlock` adds one, or returns `EAGAIN` near the overflow, and the
guard claims the lock all the same; an unlock takes one read lock. -/
theorem Busy.stepAt {c : Sys RWLock Worker} (h : Busy c.shared c.threads) {i : Nat}
    (hok : disciplined i c = true) : Busy (stepAt Worker.step i c).shared (stepAt Worker.step i c).threads :=
  stepAt_cases (P := fun c => Busy c.shared c.threads) h fun w s' w' hi hs => by
    show Busy s' (c.threads.set i w')
    have hd : w.disciplined = true := by simpa [disciplined, hi] using hok
    obtain ⟨htid, he⟩ := Worker.step_effect hs
    have hr := held_set hi w' .read
    have hw := held_set hi w' .write
    have hnw : c.shared.writer ≠ some w.tid := by rw [h.writer]; simp
    have hex := h.excess
    have hlen := h.fewer
    have hws := h.writers
    have hbound := h.bound
    have hthreads := h.threads.step hi hd htid he
    cases he with
    | acquire md ha hs hc ho =>
      have h0r := Worker.count_eq_zero_of_asksLock hd ha .read
      have h0w := Worker.count_eq_zero_of_asksLock hd ha .write
      have hlt := held_lt_length hi h0r fun j u hu => by have := h.threads.single j u hu; omega
      cases md with
      | write =>
        -- the read locks make `wrlock` wait
        obtain ⟨-, hr0, -⟩ := RWMutex.wrlock_eq_some hnw hs
        omega
      | read =>
        simp only [Mode.flip] at hc ho
        by_cases hov : 2 ^ 28 ≤ c.shared.readers + 1
        · -- `EAGAIN`: the count stays, and the guard claims a read lock
          rw [show Sylar.acquire .read w.tid c.shared = RWMutex.rdlock w.tid c.shared from rfl,
            RWMutex.rdlock_of_overflow hnw hov, Option.some.injEq] at hs
          subst hs
          exact h.of_set hthreads h.writer (by omega) hbound (by omega)
        · obtain ⟨-, rfl⟩ := RWMutex.rdlock_eq_some hnw (by omega) hs
          exact h.of_set hthreads rfl (by omega) (by show c.shared.readers + 1 < 2 ^ 29; omega)
            (by show _ ≤ c.shared.readers + 1; omega)
    | release md hs hc ho =>
      cases md with
      | write =>
        -- no write guard holds a busy lock
        have := count_le_held hi .write
        rw [h.writers] at this
        omega
      | read =>
        simp only [Mode.flip] at hc ho
        have hpos : 0 < c.shared.readers := by have := count_le_held hi .read; omega
        rw [RWMutex.unlock_of_reader hnw hpos h.bound, h.writer] at hs
        subst hs
        exact h.of_set hthreads rfl (by omega) (by show c.shared.readers - 1 < 2 ^ 29; omega)
          (by show _ ≤ c.shared.readers - 1; omega)
    | keep hs hc =>
      subst hs
      have hcr := hc .read
      have hcw := hc .write
      exact h.of_set hthreads h.writer (by omega) hbound (by omega)

/-- **What a thread does with `ScopedLockImpl` guards.** -/
inductive LockOp
  | make
  | lock (k : Nat)
  | unlock (k : Nat)
  | leave
  deriving DecidableEq, Repr

/-- **A thread with `ScopedLockImpl` guards**: its operations and the
`m_locked` of its guards, innermost first. -/
structure MutexWorker where
  prog : List LockOp
  guards : List Bool
  deriving DecidableEq, Repr

namespace MutexWorker

/-- **One step of a thread** on a mutex of type `T`. -/
def step (T : MutexType Bool) (s : Bool) (w : MutexWorker) : Option (Bool × MutexWorker) :=
  match w.prog with
  | [] => none
  | .make :: prog => (ScopedLockImpl.ctor T s).map fun p => (p.1, ⟨prog, p.2 :: w.guards⟩)
  | .lock k :: prog =>
    match w.guards[k]? with
    | none => none
    | some b => (ScopedLockImpl.lock T s b).map fun p => (p.1, ⟨prog, w.guards.set k p.2⟩)
  | .unlock k :: prog =>
    match w.guards[k]? with
    | none => none
    | some b => some ((ScopedLockImpl.unlock T s b).1, ⟨prog, w.guards.set k (ScopedLockImpl.unlock T s b).2⟩)
  | .leave :: prog =>
    match w.guards with
    | [] => none
    | b :: bs => some ((ScopedLockImpl.dtor T s b).1, ⟨prog, bs⟩)

/-- The threads start with their programs, no guards and a free mutex. -/
def init (progs : List (List LockOp)) : Sys Bool MutexWorker :=
  ⟨false, progs.map fun p => ⟨p, []⟩⟩

/-- How many guards hold the mutex, over all threads. -/
def holders (ts : List MutexWorker) : Nat := (ts.map fun w => w.guards.count true).sum

/-- How many of the thread's guards hold the mutex. -/
def count (w : MutexWorker) : Nat := w.guards.count true

/-- **What one step of a thread can do** on an exclusive lock: take it when
it is free, with one more hold; release it, with one fewer; or change
neither. -/
inductive Effect (s s' : Bool) (w w' : MutexWorker) : Prop
  | acquire (hs : s = false) (hs' : s' = true) (hc : w'.count = w.count + 1)
  | release (hs' : s' = false) (hc : w.count = w'.count + 1)
  | keep (hs : s' = s) (hc : w'.count = w.count)

section Exclusive

variable {T : MutexType Bool}

/-- A guard's `lock()` on an exclusive lock. -/
theorem lock_eq (hl : T.lock = exclusiveLock) (s b : Bool) :
    ScopedLockImpl.lock T s b = if b then some (s, b) else if s then none else some (true, true) := by
  cases b <;> cases s <;> simp [ScopedLockImpl.lock, guardLock, hl, exclusiveLock]

/-- A guard's `unlock()` on an exclusive lock. -/
theorem unlock_eq (hu : T.unlock = exclusiveUnlock) (s b : Bool) :
    ScopedLockImpl.unlock T s b = if b then (false, false) else (s, b) := by
  cases b <;> simp [ScopedLockImpl.unlock, guardUnlock, hu, exclusiveUnlock]

/-- **Every step of a thread on an exclusive lock has an effect.** -/
theorem step_effect (hl : T.lock = exclusiveLock) (hu : T.unlock = exclusiveUnlock) {s s' : Bool}
    {w w' : MutexWorker} (h : step T s w = some (s', w')) : Effect s s' w w' := by
  obtain ⟨prog, gs⟩ := w
  unfold step at h
  match prog, h with
  | .make :: prog, h =>
    simp only [ScopedLockImpl.ctor, guardCtor, hl, exclusiveLock, Option.map_map] at h
    cases s with
    | true => simp at h
    | false =>
      obtain ⟨rfl, rfl⟩ := Prod.mk.inj (Option.some.inj h)
      exact .acquire rfl rfl (by simp [count])
  | .lock k :: prog, h =>
    simp only at h
    split at h
    · exact absurd h (by simp)
    · rename_i b hk
      have hset := countP_set_add (p := fun x => x == true) hk true
      rw [lock_eq hl] at h
      cases b with
      | true =>
        obtain ⟨rfl, rfl⟩ := Prod.mk.inj (Option.some.inj h)
        exact .keep rfl (by simpa [count, List.count] using hset)
      | false =>
        cases s with
        | true => simp at h
        | false =>
          obtain ⟨rfl, rfl⟩ := Prod.mk.inj (Option.some.inj h)
          exact .acquire rfl rfl (by simpa [count, List.count] using hset)
  | .unlock k :: prog, h =>
    simp only at h
    split at h
    · exact absurd h (by simp)
    · rename_i b hk
      obtain ⟨rfl, rfl⟩ := Prod.mk.inj (Option.some.inj h)
      have hset := countP_set_add (p := fun x => x == true) hk (ScopedLockImpl.unlock T s b).2
      rw [unlock_eq hu] at hset ⊢
      cases b with
      | true => exact .release rfl (by simpa [count, List.count] using hset.symm)
      | false => exact .keep rfl (by simpa [count, List.count] using hset)
  | .leave :: prog, h =>
    cases gs with
    | nil => exact absurd h (by simp)
    | cons b bs =>
      obtain ⟨rfl, rfl⟩ := Prod.mk.inj (Option.some.inj h)
      rw [ScopedLockImpl.dtor, unlock_eq hu]
      cases b with
      | true => exact .release rfl (by simp [count])
      | false => exact .keep rfl (by simp [count])

/-- **The mutex is held by exactly its holders**: by one guard when it is
held, by none when it is free. -/
def Held (c : Sys Bool MutexWorker) : Prop := holders c.threads = if c.shared = true then 1 else 0

/-- **Every step keeps the mutex held by exactly its holders.** -/
theorem Held.stepAt (hl : T.lock = exclusiveLock) (hu : T.unlock = exclusiveUnlock)
    {c : Sys Bool MutexWorker} (h : Held c) (i : Nat) : Held (stepAt (step T) i c) :=
  stepAt_cases h fun w s' w' hi hs => by
    have hset : holders (c.threads.set i w') + w.count = holders c.threads + w'.count := by
      unfold holders count
      exact sum_map_set hi w'
    have hle : w.count ≤ holders c.threads := by
      have h0 : holders (c.threads.set i ⟨[], []⟩) + w.count = holders c.threads + 0 := by
        unfold holders count
        exact sum_map_set hi _
      omega
    unfold Held at h
    show holders (c.threads.set i w') = if s' = true then 1 else 0
    cases step_effect hl hu hs with
    | acquire hs₀ hs' hc =>
      rw [hs₀] at h
      rw [hs']
      simp only [Bool.false_eq_true, if_false, if_true] at h ⊢
      omega
    | release hs' hc =>
      rw [hs']
      -- the released guard held the mutex, so it was the one holder
      cases hsh : c.shared <;> rw [hsh] at h <;> simp only [Bool.false_eq_true, if_false, if_true] at h ⊢ <;>
        omega
    | keep hs' hc =>
      rw [hs']
      omega

end Exclusive

end MutexWorker

/-- **In every interleaving of threads that use `Mutex::Lock`,
`Spinlock::Lock` or `CASLock::Lock` guards on one lock, at most one guard holds
it, and the lock is held exactly when one does.** -/
theorem mutex_exclusion_run {T : MutexType Bool} (hT : T = Mutex ∨ T = Spinlock ∨ T = CASLock)
    (progs : List (List LockOp)) (sched : List Nat) :
    MutexWorker.holders (run (MutexWorker.step T) sched (MutexWorker.init progs)).threads ≤ 1 ∧
      ((run (MutexWorker.step T) sched (MutexWorker.init progs)).shared = true ↔
        MutexWorker.holders (run (MutexWorker.step T) sched (MutexWorker.init progs)).threads = 1) := by
  have hl : T.lock = exclusiveLock := by
    rcases hT with rfl | rfl | rfl
    · rfl
    · rfl
    · exact CASLock_lock_eq
  have hu : T.unlock = exclusiveUnlock := by
    rcases hT with rfl | rfl | rfl <;> rfl
  have hinit : MutexWorker.Held (MutexWorker.init progs) := by
    simp [MutexWorker.Held, MutexWorker.holders, MutexWorker.init, Function.comp_def]
  -- the holders match the mutex along the whole run
  have hrun : MutexWorker.Held (run (MutexWorker.step T) sched (MutexWorker.init progs)) :=
    run_invariant (fun i _ h => h.stepAt hl hu i) sched _ hinit
  unfold MutexWorker.Held at hrun
  rw [hrun]
  cases (run (MutexWorker.step T) sched (MutexWorker.init progs)).shared <;> simp

/-- Two threads that each take a `Mutex::Lock` guard, leave its scope, and take
one again. -/
def twoLockers : List (List LockOp) := [[.make, .leave, .make], [.make, .leave]]

theorem mutex_exclusion_run_twoLockers :
    (Mutex = Mutex ∨ Mutex = Spinlock ∨ Mutex = CASLock) ∧
      MutexWorker.holders (run (MutexWorker.step Mutex) [1, 0, 1, 0, 0] (MutexWorker.init twoLockers)).threads ≤ 1 ∧
      ((run (MutexWorker.step Mutex) [1, 0, 1, 0, 0] (MutexWorker.init twoLockers)).shared = true ↔
        MutexWorker.holders (run (MutexWorker.step Mutex) [1, 0, 1, 0, 0] (MutexWorker.init twoLockers)).threads = 1) :=
  ⟨Or.inl rfl, mutex_exclusion_run (Or.inl rfl) twoLockers [1, 0, 1, 0, 0]⟩

end Sylar
