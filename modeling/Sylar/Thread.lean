/-
# Starting, joining and destroying a `Thread`

`Thread::Thread` starts a pthread on `Thread::run` and then waits on the
member semaphore `m_semapore`.  `run` sets the thread-locals `t_thread` and
`t_thread_name`, stores the new thread's id in `m_id`, names the OS thread
after the first 15 bytes of `m_name`, swaps the callback out of `m_cb`,
and only then posts the semaphore and calls the callback.  When the
constructor has returned, the object may go at any time; `~Thread` detaches
the thread unless `join` has joined it.

The model has the two threads of one `Thread` object: the creating thread,
which runs the constructor and then may `join` and destroy the object, and
the new thread, which runs `run`.  Each statement of `run` that uses the
object is one atomic step; one that runs after the object's storage is gone
is recorded as a fault.  `sem_wait` may fail (`EINTR`, when a signal handler
interrupts it), and the constructor then throws.  Over every interleaving
(`Reachable`):
- `handshake`: once the constructor has returned, `m_id` is the new thread's
  id, the callback has moved to the new thread and its thread-locals name the
  object;
- `fault_of_reachable`: the new thread uses the object after it is gone only
  when the constructor threw at `sem_wait` (`waitErrorOps` is such a run);
- `released_once`: the thread is joined or detached at most once, and once
  the object is destroyed it has been, exactly once;
- `callback_once`: the new thread calls the constructor's callback once.
-/
import Sylar.Transition

namespace Sylar

/-! ## Semaphores and the members of a `Thread` -/

/-- **`Semaphore`**: the count of its `sem_t`. -/
structure Semaphore where
  count : Nat
  deriving DecidableEq, Repr

namespace Semaphore

/-- **`Semaphore::wait`**: `sem_wait` waits while the count is `0`, then takes
one. -/
def wait (s : Semaphore) : Option Semaphore := if s.count = 0 then none else some ⟨s.count - 1⟩

/-- **`Semaphore::notify`**: `sem_post` adds one. -/
def notify (s : Semaphore) : Semaphore := ⟨s.count + 1⟩

end Semaphore

/-- **A string literal as a `std::string` holds it**: its UTF-8 bytes. -/
def stdString (s : String) : List UInt8 := s.toList.flatMap String.utf8EncodeChar

/-- **The members of a `Thread`**, with the callback `m_cb`, an
`std::function` that may be empty, of type `Option α`, and the name `m_name`,
a `std::string`, as its bytes. -/
structure Thread (α : Type) where
  id : Int
  thread : Nat
  cb : Option α
  name : List UInt8
  semapore : Semaphore
  deriving DecidableEq, Repr

namespace Thread

/-- **The name check of the constructor**: an empty name becomes
`"UNKNOW"`. -/
def initName (name : List UInt8) : List UInt8 := if name.isEmpty then stdString "UNKNOW" else name

/-- **The members after the constructor's initialisers and name check**:
`m_id = -1`, `m_thread = 0`, the callback, the name and a semaphore at `0`. -/
def new (cb : Option α) (name : List UInt8) : Thread α := ⟨-1, 0, cb, initName name, ⟨0⟩⟩

/-- **The OS name `run` gives the thread**: `pthread_setname_np` reads
`m_name.substr(0, 15).c_str()`, the first 15 bytes of the name up to the first
`NUL` among them. -/
def osName (name : List UInt8) : List UInt8 := (name.take 15).takeWhile (· != 0)

end Thread

/-! ## The creating thread and the new thread -/

/-- **Where the creating thread is**: in the constructor at `pthread_create`
or at `m_semapore.wait()`, after the constructor, after an exception out of
it, or after the destructor. -/
inductive Creator
  | create
  | wait
  | ready
  | thrown
  | destroyed
  deriving DecidableEq, Repr

/-- **Where the new thread is**: not started yet, at a statement of `run`, or
returned from it. -/
inductive Runner
  | unborn
  | start
  | name
  | id
  | osName
  | swap
  | notify
  | call
  | exited
  deriving DecidableEq, Repr

/-- The statements of `run` in order. -/
def Runner.index : Runner → Nat
  | .unborn => 0
  | .start => 1
  | .name => 2
  | .id => 3
  | .osName => 4
  | .swap => 5
  | .notify => 6
  | .call => 7
  | .exited => 8

/-- The new thread has posted the semaphore. -/
def Runner.notified (r : Runner) : Bool := r == .call || r == .exited

/-- The statement after each statement of `run`. -/
def Runner.next : Runner → Runner
  | .unborn => .unborn
  | .start => .name
  | .name => .id
  | .id => .osName
  | .osName => .swap
  | .swap => .notify
  | .notify => .call
  | .call => .exited
  | .exited => .exited

/-- The statements of `run` that use the object. -/
def Runner.touches (r : Runner) : Bool :=
  r == .name || r == .id || r == .osName || r == .swap || r == .notify

/-- A statement of `run` that uses the object comes before the semaphore is
posted. -/
theorem Runner.not_notified_of_touches {r : Runner} (h : r.touches = true) : r.notified = false := by
  cases r <;> simp_all [Runner.touches, Runner.notified]

/-- **The two threads of one `Thread` object.**  Besides the members: whether
the object's storage is there, where each thread is, the new thread's
thread-locals `t_thread` and `t_thread_name`, its OS name and `run`'s local
`cb`; and, as ghosts, the callbacks it has called, the number of
`pthread_join` and `pthread_detach` calls on it, and whether it used the
object when it was gone. -/
structure Startup (α : Type) where
  obj : Thread α
  alive : Bool
  creator : Creator
  runner : Runner
  tThread : Bool
  tThreadName : List UInt8
  osName : Option (List UInt8)
  cb : Option α
  called : List (Option α)
  released : Nat
  fault : Bool
  deriving DecidableEq, Repr

/-- **What happens next**: `pthread_create` succeeds or fails, `sem_wait`
returns or fails, the creating thread calls `join` or destroys the object, or
the new thread runs its next statement. -/
inductive Action
  | create (ok : Bool)
  | wait
  | waitError
  | join
  | destroy
  | run
  deriving DecidableEq, Repr

namespace Startup

variable {α : Type}

/-- **Before the constructor's `pthread_create`**: the members initialised,
the new thread not started, its thread-local name `"UNKNOW"`. -/
def init (cb : Option α) (name : List UInt8) : Startup α :=
  ⟨Thread.new cb name, true, .create, .unborn, false, stdString "UNKNOW", none, none, [], 0, false⟩

/-- **A statement of `run` that uses the object**, after which the new thread
is at `next`: it does `f` if the object is there, and is a fault otherwise. -/
def touch (s : Startup α) (next : Runner) (f : Startup α → Startup α) : Startup α :=
  if s.alive then f { s with runner := next } else { s with runner := next, fault := true }

/-- **The next statement of `Thread::run`**, in a thread whose id
(`GetThreadId()`) is `tid`. -/
def runStep (tid : Int) (s : Startup α) : Startup α :=
  match s.runner with
  | .unborn => s
  -- `t_thread = thread` stores the pointer and does not use the object
  | .start => { s with tThread := true, runner := .name }
  | .name => s.touch .id fun s => { s with tThreadName := s.obj.name }
  | .id => s.touch .osName fun s => { s with obj := { s.obj with id := tid } }
  | .osName => s.touch .swap fun s => { s with osName := some (Thread.osName s.obj.name) }
  | .swap => s.touch .notify fun s => { s with cb := s.obj.cb, obj := { s.obj with cb := s.cb } }
  | .notify => s.touch .call fun s => { s with obj := { s.obj with semapore := s.obj.semapore.notify } }
  | .call => { s with called := s.called ++ [s.cb], runner := .exited }
  | .exited => s

/-- **One action.** -/
def step (tid : Int) (s : Startup α) : Action → Startup α
  | .create true => { s with obj := { s.obj with thread := 1 }, creator := .wait, runner := .start }
  -- `pthread_create` failed: the constructor throws and the members go
  | .create false => { s with creator := .thrown, alive := false }
  | .wait =>
    match s.obj.semapore.wait with
    | some sem => { s with obj := { s.obj with semapore := sem }, creator := .ready }
    | none => s
  | .waitError => { s with creator := .thrown, alive := false }
  | .join =>
    if s.obj.thread ≠ 0 then { s with obj := { s.obj with thread := 0 }, released := s.released + 1 }
    else s
  | .destroy =>
    let released := if s.obj.thread ≠ 0 then s.released + 1 else s.released
    { s with alive := false, creator := .destroyed, released := released }
  | .run => runStep tid s

/-- **When an action can happen**: `sem_wait` returns once the count is not
`0` and fails only while it waits; `pthread_join` returns once the new thread
has returned from `run`; the object is joined or destroyed after its
constructor. -/
def Enabled (s : Startup α) : Action → Prop
  | .create _ => s.creator = .create
  | .wait => s.creator = .wait ∧ s.obj.semapore.count ≠ 0
  | .waitError => s.creator = .wait ∧ s.obj.semapore.count = 0
  | .join => s.creator = .ready ∧ (s.obj.thread ≠ 0 → s.runner = .exited)
  | .destroy => s.creator = .ready
  | .run => s.runner ≠ .unborn ∧ s.runner ≠ .exited

instance decidableEnabled (s : Startup α) : ∀ a, Decidable (s.Enabled a)
  | .create _ => inferInstanceAs (Decidable (s.creator = .create))
  | .wait => inferInstanceAs (Decidable (s.creator = .wait ∧ s.obj.semapore.count ≠ 0))
  | .waitError => inferInstanceAs (Decidable (s.creator = .wait ∧ s.obj.semapore.count = 0))
  | .join => inferInstanceAs (Decidable (s.creator = .ready ∧ (s.obj.thread ≠ 0 → s.runner = .exited)))
  | .destroy => inferInstanceAs (Decidable (s.creator = .ready))
  | .run => inferInstanceAs (Decidable (s.runner ≠ .unborn ∧ s.runner ≠ .exited))

/-- The states the two threads reach. -/
def Reachable (tid : Int) (cb : Option α) (name : List UInt8) (s : Startup α) : Prop :=
  Relation.ReflTransGen (Transition.Steps Enabled (step tid)) (init cb name) s

/-! ## What a statement of `run` changes -/

/-- **`run` leaves the creating thread's side alone**: where it is, whether the
object is there, the releases, `m_thread` and `m_name`. -/
theorem runStep_frame (tid : Int) (s : Startup α) :
    (runStep tid s).creator = s.creator ∧ (runStep tid s).alive = s.alive ∧
      (runStep tid s).released = s.released ∧ (runStep tid s).obj.thread = s.obj.thread ∧
      (runStep tid s).obj.name = s.obj.name := by
  cases hr : s.runner <;> cases ha : s.alive <;> simp [runStep, touch, hr, ha]

theorem runStep_runner (tid : Int) (s : Startup α) : (runStep tid s).runner = s.runner.next := by
  cases hr : s.runner <;> cases ha : s.alive <;> simp [runStep, touch, hr, ha, Runner.next]

/-- **A fault is a statement that uses the object when it is gone.** -/
theorem runStep_fault (tid : Int) (s : Startup α) :
    (runStep tid s).fault = (s.fault || (s.runner.touches && !s.alive)) := by
  cases hr : s.runner <;> cases ha : s.alive <;> simp [runStep, touch, hr, ha, Runner.touches]

/-- **Only `m_semapore.notify()` changes the semaphore**, when the object is
there. -/
theorem runStep_count (tid : Int) (s : Startup α) :
    (runStep tid s).obj.semapore.count =
      s.obj.semapore.count + if s.runner = .notify ∧ s.alive = true then 1 else 0 := by
  cases hr : s.runner <;> cases ha : s.alive <;> simp [runStep, touch, hr, ha, Semaphore.notify]

/-! ## Where the two threads can be -/

/-- **The control invariant**: `run` starts after `pthread_create`, the object
is there until the constructor throws or the destructor runs, the semaphore
holds the post that the constructor has not waited for, the constructor
returns after the post, and a fault happens only after `pthread_create` and a
throw. -/
structure Control (s : Startup α) : Prop where
  create : s.creator = .create → s.runner = .unborn
  alive : s.alive = true ↔ (s.creator = .create ∨ s.creator = .wait ∨ s.creator = .ready)
  sem : s.obj.semapore.count = if s.creator = .wait ∧ s.runner.notified = true then 1 else 0
  ready : s.creator = .ready ∨ s.creator = .destroyed → s.runner.notified = true
  fault : s.fault = true → s.creator = .thrown ∧ s.runner ≠ .unborn

namespace Control

variable {s : Startup α}

theorem init (cb : Option α) (name : List UInt8) : Control (Startup.init cb name) where
  create _ := rfl
  alive := by simp [Startup.init]
  sem := by simp [Startup.init, Thread.new]
  ready h := by simp [Startup.init] at h
  fault h := by simp [Startup.init] at h

theorem fault_false (h : Control s) (hc : s.creator ≠ .thrown) : s.fault = false := by
  cases hf : s.fault with
  | false => rfl
  | true => exact absurd (h.fault hf).1 hc

/-- A step of `run`. -/
theorem run (h : Control s) (tid : Int) (hr : s.runner ≠ .unborn) (he : s.runner ≠ .exited) :
    Control (runStep tid s) := by
  obtain ⟨hcr, hal, hre, hth, -⟩ := runStep_frame tid s
  have hnext : (runStep tid s).runner ≠ .unborn := by
    rw [runStep_runner]
    cases hrr : s.runner <;> simp_all [Runner.next]
  -- the post moves the count from `0` to `1` while the constructor waits
  have hsem : (runStep tid s).obj.semapore.count =
      if s.creator = .wait ∧ (runStep tid s).runner.notified = true then 1 else 0 := by
    rw [runStep_count, h.sem, runStep_runner]
    by_cases hn : s.runner = .notify
    · by_cases ha : s.alive = true
      · have hw : s.creator = .wait := by
          rcases h.alive.mp ha with hc | hc | hc
          · exact absurd (h.create hc) hr
          · exact hc
          · exact absurd (h.ready (.inl hc)) (by simp [hn, Runner.notified])
        simp [hn, ha, hw, Runner.notified, Runner.next]
      · have hw : s.creator ≠ .wait := fun hw => ha (h.alive.mpr (.inr (.inl hw)))
        simp [hn, ha, hw]
    · cases hrr : s.runner <;> simp_all [Runner.notified, Runner.next]
  refine ⟨fun hc => absurd hc (by rw [hcr]; exact fun hc => hr (h.create hc)), by rw [hal, hcr]; exact h.alive,
    by rw [hcr]; exact hsem, fun hc => ?_, fun hf => ?_⟩
  · rw [hcr] at hc
    have hn := h.ready hc
    rw [runStep_runner]
    cases hrr : s.runner <;> simp_all [Runner.notified, Runner.next]
  · rw [runStep_fault] at hf
    refine ⟨?_, hnext⟩
    rw [hcr]
    rcases Bool.or_eq_true_iff.mp hf with hf | hf
    · exact (h.fault hf).1
    -- a statement on a gone object: the constructor threw or the destructor
    -- ran, and the destructor runs only after the post
    · obtain ⟨ht, ha⟩ := Bool.and_eq_true_iff.mp hf
      have hna : ¬ (s.creator = .create ∨ s.creator = .wait ∨ s.creator = .ready) := by
        rw [← h.alive]
        simpa using ha
      cases hc : s.creator with
      | thrown => rfl
      | destroyed =>
        have := h.ready (.inr hc)
        rw [Runner.not_notified_of_touches ht] at this
        exact absurd this Bool.false_ne_true
      | _ => simp [hc] at hna

/-- **Every action keeps the control invariant.** -/
theorem step (h : Control s) (tid : Int) : ∀ a, s.Enabled a → Control (s.step tid a)
  | .create ok, (hc : s.creator = .create) => by
    have hu := h.create hc
    have hf := h.fault_false (by simp [hc])
    have hsem : s.obj.semapore.count = 0 := by simpa [hc] using h.sem
    cases ok with
    | true =>
      refine ⟨fun h' => by simp [Startup.step] at h', by simpa [Startup.step, hc] using h.alive, ?_,
        fun h' => by simp [Startup.step] at h', fun h' => by simp [Startup.step, hf] at h'⟩
      simp [Startup.step, hsem, Runner.notified]
    | false =>
      exact ⟨fun h' => by simp [Startup.step] at h', by simp [Startup.step], by simp [Startup.step, hsem],
        fun h' => by simp [Startup.step] at h', fun h' => by simp [Startup.step, hf] at h'⟩
  | .wait, (⟨hc, hn⟩ : s.creator = .wait ∧ s.obj.semapore.count ≠ 0) => by
    -- the count is `1`: the new thread has posted
    have hnot : s.runner.notified = true := by
      cases hr : s.runner.notified with
      | true => rfl
      | false => simp [h.sem, hc, hr] at hn
    have h1 : s.obj.semapore.count = 1 := by simp [h.sem, hc, hnot]
    have hw : s.obj.semapore.wait = some ⟨0⟩ := by simp [Semaphore.wait, h1]
    have hf := h.fault_false (by simp [hc])
    simp only [Startup.step, hw]
    exact ⟨fun h' => by simp at h', by simpa [hc] using h.alive, by simp, fun _ => hnot,
      fun h' => by simp [hf] at h'⟩
  | .waitError, (⟨hc, hz⟩ : s.creator = .wait ∧ s.obj.semapore.count = 0) => by
    have hf := h.fault_false (by simp [hc])
    exact ⟨fun h' => by simp [Startup.step] at h', by simp [Startup.step], by simp [Startup.step, hz],
      fun h' => by simp [Startup.step] at h', fun h' => by simp [Startup.step, hf] at h'⟩
  | .join, (⟨hc, _⟩ : s.creator = .ready ∧ _) => by
    by_cases ht : s.obj.thread = 0
    · simpa [Startup.step, ht] using h
    · simp only [Startup.step, ne_eq, ht, not_false_eq_true, ↓reduceIte]
      exact ⟨h.create, h.alive, h.sem, h.ready, h.fault⟩
  | .destroy, (hc : s.creator = .ready) => by
    have hn := h.ready (.inl hc)
    have hf := h.fault_false (by simp [hc])
    have hsem : s.obj.semapore.count = 0 := by simpa [hc] using h.sem
    exact ⟨fun h' => by simp [Startup.step] at h', by simp [Startup.step], by simp [Startup.step, hsem],
      fun _ => hn, fun h' => by simp [Startup.step, hf] at h'⟩
  | .run, (⟨hr, he⟩ : s.runner ≠ .unborn ∧ s.runner ≠ .exited) => h.run tid hr he

end Control

/-! ## What `run` has done -/

/-- **What `run` has done by the time it is at `s.runner`**, when each of its
statements found the object: `t_thread` set, `t_thread_name` and the OS name
read from `m_name`, `m_id` set, the callback swapped out of `m_cb`, and the
callback called once `run` has returned. -/
structure Stage (tid : Int) (cb : Option α) (s : Startup α) : Prop where
  this : Runner.start.index < s.runner.index → s.tThread = true
  name : Runner.name.index < s.runner.index → s.tThreadName = s.obj.name
  id : Runner.id.index < s.runner.index → s.obj.id = tid
  osName : Runner.osName.index < s.runner.index → s.osName = some (Thread.osName s.obj.name)
  swap : if Runner.swap.index < s.runner.index then s.cb = cb ∧ s.obj.cb = none
    else s.cb = none ∧ s.obj.cb = cb
  called : s.called = if s.runner = .exited then [s.cb] else []

namespace Stage

variable {tid : Int} {cb : Option α} {s : Startup α}

/-- A state that agrees with `s` on what `run` sets has done as much. -/
theorem of_frame {s' : Startup α} (h : Stage tid cb s) (hr : s'.runner = s.runner)
    (hthis : s'.tThread = s.tThread) (hn : s'.tThreadName = s.tThreadName)
    (hname : s'.obj.name = s.obj.name) (hid : s'.obj.id = s.obj.id) (hos : s'.osName = s.osName)
    (hcb : s'.cb = s.cb) (hocb : s'.obj.cb = s.obj.cb) (hcalled : s'.called = s.called) :
    Stage tid cb s' where
  this := by rw [hr, hthis]; exact h.this
  name := by rw [hr, hn, hname]; exact h.name
  id := by rw [hr, hid]; exact h.id
  osName := by rw [hr, hos, hname]; exact h.osName
  swap := by rw [hr, hcb, hocb]; exact h.swap
  called := by rw [hr, hcalled, hcb]; exact h.called

theorem init (cb : Option α) (name : List UInt8) : Stage tid cb (Startup.init cb name) where
  this h := by simp [Startup.init, Runner.index] at h
  name h := by simp [Startup.init, Runner.index] at h
  id h := by simp [Startup.init, Runner.index] at h
  osName h := by simp [Startup.init, Runner.index] at h
  swap := by simp [Startup.init, Runner.index, Thread.new]
  called := by simp [Startup.init]

/-- **A statement of `run` that finds the object** does its part. -/
theorem run (h : Stage tid cb s) (ha : s.runner.touches = true → s.alive = true) :
    Stage tid cb (runStep tid s) := by
  obtain ⟨hthis, hname, hid, hos, hswap, hcalled⟩ := h
  cases hr : s.runner with
  | unborn => simpa [runStep, hr] using (⟨hthis, hname, hid, hos, hswap, hcalled⟩ : Stage tid cb s)
  | exited => simpa [runStep, hr] using (⟨hthis, hname, hid, hos, hswap, hcalled⟩ : Stage tid cb s)
  | start =>
    simp only [hr, Runner.index] at hswap hcalled
    exact ⟨fun _ => by simp [runStep, hr], by simp [runStep, hr, Runner.index], by simp [runStep, hr, Runner.index],
      by simp [runStep, hr, Runner.index], by simpa [runStep, hr, Runner.index] using hswap,
      by simpa [runStep, hr] using hcalled⟩
  | call =>
    simp only [hr, Runner.index] at hthis hname hid hos hswap hcalled
    simp only [runStep, hr]
    exact ⟨fun _ => hthis (by decide), fun _ => hname (by decide), fun _ => hid (by decide),
      fun _ => hos (by decide), by simpa [Runner.index] using hswap, by simp [hcalled]⟩
  | name | id | osName | swap | notify =>
    have hal := ha (by simp [hr, Runner.touches])
    simp only [hr, Runner.index] at hthis hname hid hos hswap hcalled
    simp only [runStep, touch, hr, hal, ↓reduceIte]
    constructor <;> simp_all [Runner.index]

end Stage

/-- **The data invariant**: `m_name` is the constructor's name, and unless a
statement of `run` used the object when it was gone, `run` has done its part
so far. -/
structure Data (tid : Int) (cb : Option α) (name : List UInt8) (s : Startup α) : Prop where
  name : s.obj.name = Thread.initName name
  stage : s.fault = false → Stage tid cb s

namespace Data

variable {tid : Int} {cb : Option α} {name : List UInt8} {s : Startup α}

theorem init (tid : Int) (cb : Option α) (name : List UInt8) : Data tid cb name (Startup.init cb name) :=
  ⟨rfl, fun _ => Stage.init cb name⟩

/-- An action of the creating thread, which changes none of what `run` sets. -/
theorem of_frame {s' : Startup α} (h : Data tid cb name s) (hf : s'.fault = s.fault)
    (hr : s'.runner = s.runner) (hthis : s'.tThread = s.tThread) (hn : s'.tThreadName = s.tThreadName)
    (hname : s'.obj.name = s.obj.name) (hid : s'.obj.id = s.obj.id) (hos : s'.osName = s.osName)
    (hcb : s'.cb = s.cb) (hocb : s'.obj.cb = s.obj.cb) (hcalled : s'.called = s.called) :
    Data tid cb name s' :=
  ⟨hname ▸ h.name, fun hf' => (h.stage (hf ▸ hf')).of_frame hr hthis hn hname hid hos hcb hocb hcalled⟩

/-- **Every action keeps the data invariant.** -/
theorem step (h : Data tid cb name s) (hcon : Control s) : ∀ a, s.Enabled a → Data tid cb name (s.step tid a)
  | .create true, (hc : s.creator = .create) => by
    -- `run` starts: nothing of it has run yet
    have hu := hcon.create hc
    refine ⟨h.name, fun hf => ?_⟩
    obtain ⟨-, -, -, -, hswap, hcalled⟩ := h.stage hf
    simp only [hu, Runner.index] at hswap hcalled
    exact ⟨fun h' => by simp [Startup.step, Runner.index] at h',
      fun h' => by simp [Startup.step, Runner.index] at h', fun h' => by simp [Startup.step, Runner.index] at h',
      fun h' => by simp [Startup.step, Runner.index] at h', by simpa [Startup.step, Runner.index] using hswap,
      by simpa [Startup.step] using hcalled⟩
  | .create false, _ => h.of_frame rfl rfl rfl rfl rfl rfl rfl rfl rfl rfl
  | .wait, _ => by
    cases hw : s.obj.semapore.wait with
    | none => simpa [Startup.step, hw] using h
    | some sem =>
      simp only [Startup.step, hw]
      exact h.of_frame rfl rfl rfl rfl rfl rfl rfl rfl rfl rfl
  | .waitError, _ => h.of_frame rfl rfl rfl rfl rfl rfl rfl rfl rfl rfl
  | .join, _ => by
    by_cases ht : s.obj.thread = 0
    · simpa [Startup.step, ht] using h
    · simp only [Startup.step, ne_eq, ht, not_false_eq_true, ↓reduceIte]
      exact h.of_frame rfl rfl rfl rfl rfl rfl rfl rfl rfl rfl
  | .destroy, _ => h.of_frame rfl rfl rfl rfl rfl rfl rfl rfl rfl rfl
  | .run, _ => by
    show Data tid cb name (runStep tid s)
    refine ⟨(runStep_frame tid s).2.2.2.2 ▸ h.name, fun hf => ?_⟩
    rw [runStep_fault, Bool.or_eq_false_iff] at hf
    refine (h.stage hf.1).run fun ht => ?_
    simpa [ht] using hf.2

end Data

/-! ## Joining and detaching -/

/-- **The release invariant**: nothing is released before the constructor has
returned; then `m_thread` is not `0` until `join` joins the thread, which it
does once the new thread has returned; the destructor leaves the thread
released once. -/
structure Release (s : Startup α) : Prop where
  unreleased : s.creator = .create ∨ s.creator = .wait ∨ s.creator = .thrown → s.released = 0
  started : s.creator = .wait → s.obj.thread ≠ 0
  joined : s.creator = .ready → s.released = if s.obj.thread = 0 then 1 else 0
  exited : s.creator = .ready → s.obj.thread = 0 → s.runner = .exited
  destroyed : s.creator = .destroyed → s.released = 1

namespace Release

variable {s : Startup α}

theorem init (cb : Option α) (name : List UInt8) : Release (Startup.init cb name) where
  unreleased _ := rfl
  started h := by simp [Startup.init] at h
  joined h := by simp [Startup.init] at h
  exited h := by simp [Startup.init] at h
  destroyed h := by simp [Startup.init] at h

/-- **Every action keeps the release invariant.** -/
theorem step (h : Release s) (tid : Int) : ∀ a, s.Enabled a → Release (s.step tid a)
  | .create ok, (hc : s.creator = .create) => by
    have h0 := h.unreleased (.inl hc)
    cases ok with
    | true =>
      exact ⟨fun _ => h0, fun _ => by simp [Startup.step], fun h' => by simp [Startup.step] at h',
        fun h' => by simp [Startup.step] at h', fun h' => by simp [Startup.step] at h'⟩
    | false =>
      exact ⟨fun _ => h0, fun h' => by simp [Startup.step] at h', fun h' => by simp [Startup.step] at h',
        fun h' => by simp [Startup.step] at h', fun h' => by simp [Startup.step] at h'⟩
  | .wait, (⟨hc, hn⟩ : s.creator = .wait ∧ s.obj.semapore.count ≠ 0) => by
    have h0 := h.unreleased (.inr (.inl hc))
    have ht := h.started hc
    have hw : s.obj.semapore.wait = some ⟨s.obj.semapore.count - 1⟩ := by simp [Semaphore.wait, hn]
    simp only [Startup.step, hw]
    exact ⟨fun h' => by simp at h', fun h' => by simp at h', fun _ => by simp [h0, ht],
      fun _ h' => absurd h' ht, fun h' => by simp at h'⟩
  | .waitError, (⟨hc, _⟩ : s.creator = .wait ∧ _) => by
    have h0 := h.unreleased (.inr (.inl hc))
    exact ⟨fun _ => h0, fun h' => by simp [Startup.step] at h', fun h' => by simp [Startup.step] at h',
      fun h' => by simp [Startup.step] at h', fun h' => by simp [Startup.step] at h'⟩
  | .join, (⟨hc, hex⟩ : s.creator = .ready ∧ (s.obj.thread ≠ 0 → s.runner = .exited)) => by
    by_cases ht : s.obj.thread = 0
    · simpa [Startup.step, ht] using h
    -- `pthread_join` returns once `run` has: the thread is released
    · have h0 : s.released = 0 := by simpa [ht] using h.joined hc
      simp only [Startup.step, ne_eq, ht, not_false_eq_true, ↓reduceIte]
      exact ⟨fun h' => by simp [hc] at h', fun h' => by simp [hc] at h', fun _ => by simp [h0],
        fun _ _ => hex ht, fun h' => by simp [hc] at h'⟩
  | .destroy, (hc : s.creator = .ready) => by
    have hj := h.joined hc
    refine ⟨fun h' => by simp [Startup.step] at h', fun h' => by simp [Startup.step] at h',
      fun h' => by simp [Startup.step] at h', fun h' => by simp [Startup.step] at h', fun _ => ?_⟩
    -- `~Thread` detaches a thread that was not joined
    by_cases ht : s.obj.thread = 0
    · simpa [Startup.step, ht] using hj
    · simp [Startup.step, ht] at hj ⊢
      exact hj
  | .run, (⟨_, he⟩ : s.runner ≠ .unborn ∧ s.runner ≠ .exited) => by
    obtain ⟨hcr, -, hre, hth, -⟩ := runStep_frame tid s
    refine ⟨fun hc => hre ▸ h.unreleased (hcr ▸ hc), fun hc => hth ▸ h.started (hcr ▸ hc),
      fun hc => hre ▸ hth ▸ h.joined (hcr ▸ hc), fun hc ht => absurd (h.exited (hcr ▸ hc) (hth ▸ ht)) he,
      fun hc => hre ▸ h.destroyed (hcr ▸ hc)⟩

end Release

/-! ## Every interleaving -/

variable {tid : Int} {cb : Option α} {name : List UInt8} {s : Startup α}

/-- **The three invariants hold in every reachable state.** -/
theorem Reachable.invariants (hs : Reachable tid cb name s) :
    Control s ∧ Data tid cb name s ∧ Release s := by
  have hinv : Transition.Invariant (Transition.Steps Enabled (step tid)) (init cb name)
      fun s => Control s ∧ Data tid cb name s ∧ Release s :=
    Transition.Invariant.of_actions ⟨Control.init cb name, Data.init tid cb name, Release.init cb name⟩
      fun _ a h ha => ⟨h.1.step tid a ha, h.2.1.step h.1 a ha, h.2.2.step tid a ha⟩
  exact hinv.reachable hs

/-- **Once the constructor has returned, the new thread has done its
prologue**: `m_id` is its id, it holds the constructor's callback and `m_cb`
is empty, `t_thread` is set, `t_thread_name` is the object's name, and the OS
thread is named after its first 15 characters. -/
theorem handshake (hs : Reachable tid cb name s) (hc : s.creator = .ready ∨ s.creator = .destroyed) :
    s.obj.id = tid ∧ s.cb = cb ∧ s.obj.cb = none ∧ s.tThread = true ∧
      s.tThreadName = Thread.initName name ∧ s.osName = some (Thread.osName (Thread.initName name)) := by
  obtain ⟨hcon, hd, -⟩ := hs.invariants
  have hn := hcon.ready hc
  have hf : s.fault = false := hcon.fault_false (by rcases hc with hc | hc <;> simp [hc])
  obtain ⟨hthis, hname, hid, hos, hswap, -⟩ := hd.stage hf
  -- past the post, every statement of the prologue has run
  have hidx : Runner.swap.index < s.runner.index := by
    cases hr : s.runner <;> simp_all [Runner.notified, Runner.index]
  have hsw : s.cb = cb ∧ s.obj.cb = none := by simpa [hidx] using hswap
  rw [← hd.name]
  exact ⟨hid (Nat.lt_trans (by decide) hidx), hsw.1, hsw.2, hthis (Nat.lt_trans (by decide) hidx),
    hname (Nat.lt_trans (by decide) hidx), hos (Nat.lt_trans (by decide) hidx)⟩

/-- **The new thread uses the object after it is gone only when the
constructor threw after `pthread_create` had started it**, that is, at
`sem_wait`. -/
theorem fault_of_reachable (hs : Reachable tid cb name s) (hf : s.fault = true) :
    s.creator = .thrown ∧ s.runner ≠ .unborn :=
  hs.invariants.1.fault hf

/-- **The thread is joined or detached at most once, and once the object is
destroyed it has been, exactly once.** -/
theorem released_once (hs : Reachable tid cb name s) :
    s.released ≤ 1 ∧ (s.creator = .destroyed → s.released = 1) := by
  have hr := hs.invariants.2.2
  refine ⟨?_, hr.destroyed⟩
  cases hc : s.creator with
  | create | wait | thrown => simp [hr.unreleased (by simp [hc])]
  | ready => rw [hr.joined hc]; split <;> simp
  | destroyed => simp [hr.destroyed hc]

/-- **The new thread calls the constructor's callback once**, when `run`
returns, unless the constructor threw. -/
theorem Reachable.called (hs : Reachable tid cb name s) (hc : s.creator ≠ .thrown) :
    s.called = if s.runner = .exited then [cb] else [] := by
  obtain ⟨hcon, hd, -⟩ := hs.invariants
  have hst := hd.stage (hcon.fault_false hc)
  rw [hst.called]
  cases hr : s.runner with
  | exited =>
    have hsw := hst.swap
    simp only [hr, Runner.index] at hsw
    simp [hsw.1]
  | _ => simp

/-- **`join` returns after the callback**: once `join` has joined the thread,
`run` has returned, and it has called the constructor's callback once. -/
theorem join_after_callback (hs : Reachable tid cb name s) (hc : s.creator = .ready)
    (ht : s.obj.thread = 0) : s.runner = .exited ∧ s.called = [cb] := by
  have hex := hs.invariants.2.2.exited hc ht
  refine ⟨hex, ?_⟩
  rw [hs.called (by simp [hc]), if_pos hex]

/-! ## Progress -/

/-- **After any action, the new thread is started if the constructor waits**:
only `pthread_create` makes the constructor wait, and it starts the thread;
`run` never goes back to before its start. -/
theorem waiting_started_step (tid : Int) {s : Startup α} :
    ∀ a, s.Enabled a → (s.step tid a).creator = .wait → (s.step tid a).runner ≠ .unborn
  | .create ok, _ => by cases ok <;> simp [Startup.step]
  | .wait, (⟨_, hn⟩ : s.creator = .wait ∧ s.obj.semapore.count ≠ 0) => by
    have hw : s.obj.semapore.wait = some ⟨s.obj.semapore.count - 1⟩ := by simp [Semaphore.wait, hn]
    simp [Startup.step, hw]
  | .waitError, _ => by simp [Startup.step]
  | .join, (⟨hc, _⟩ : s.creator = .ready ∧ _) => fun hw => by
    by_cases ht : s.obj.thread = 0 <;> simp [Startup.step, ht, hc] at hw
  | .destroy, _ => fun hw => by simp [Startup.step] at hw
  | .run, (⟨hu, _⟩ : s.runner ≠ .unborn ∧ s.runner ≠ .exited) => fun _ => by
    simp only [Startup.step]
    rw [runStep_runner]
    cases hr : s.runner <;> simp_all [Runner.next]

/-- The new thread is started in every reachable state where the constructor
waits for it. -/
theorem Reachable.waiting_started (hs : Reachable tid cb name s) (hc : s.creator = .wait) :
    s.runner ≠ .unborn := by
  have hinv : Transition.Invariant (Transition.Steps Enabled (step tid)) (init cb name)
      fun s => s.creator = .wait → s.runner ≠ .unborn :=
    Transition.Invariant.of_actions (fun h => by simp [init] at h)
      fun _ a _ ha => waiting_started_step tid a ha
  exact hinv.reachable hs hc

/-- **The two threads never deadlock**: while the constructor waits at
`sem_wait`, the wait can return or the new thread can run its next statement;
and once the constructor has returned, `join` can return or the new thread
can run. -/
theorem handshake_progress (hs : Reachable tid cb name s) :
    (s.creator = .wait → s.Enabled .wait ∨ s.Enabled .run) ∧
      (s.creator = .ready → s.Enabled .join ∨ s.Enabled .run) := by
  obtain ⟨hcon, -, -⟩ := hs.invariants
  refine ⟨fun hc => ?_, fun hc => ?_⟩
  · -- the count is `1` once the new thread has posted; before, it is between
    -- its start and the post
    cases hn : s.runner.notified with
    | true => exact .inl ⟨hc, by simp [hcon.sem, hc, hn]⟩
    | false =>
      refine .inr ⟨hs.waiting_started hc, fun he => ?_⟩
      rw [he] at hn
      simp [Runner.notified] at hn
  · -- after the constructor the new thread has posted: it is at the call of
    -- the callback or has returned
    have hn := hcon.ready (.inl hc)
    by_cases he : s.runner = .exited
    · exact .inl ⟨hc, fun _ => he⟩
    · refine .inr ⟨fun hu => ?_, he⟩
      rw [hu] at hn
      simp [Runner.notified] at hn

/-! ## Runs -/

/-- The constructor: `pthread_create`, the prologue of `run` up to the post,
and `sem_wait`. -/
def constructOps : List Action := [.create true, .run, .run, .run, .run, .run, .run, .wait]

/-- The constructor, then `run` returns and `join` joins the thread. -/
def joinOps : List Action := constructOps ++ [.run, .join]

/-- A thread named `"worker"` with id `7`, after `ops`. -/
def worker (ops : List Action) : Startup Unit := ops.foldl (step 7) (init (some ()) (stdString "worker"))

theorem handshake_constructed :
    Reachable 7 (some ()) (stdString "worker") (worker constructOps) ∧ (worker constructOps).creator = .ready ∧
      (worker constructOps).obj.id = 7 ∧ (worker constructOps).cb = some () ∧
      (worker constructOps).obj.cb = none ∧ (worker constructOps).tThread = true ∧
      (worker constructOps).tThreadName = Thread.initName (stdString "worker") ∧
      (worker constructOps).osName = some (Thread.osName (Thread.initName (stdString "worker"))) := by
  have hs : Reachable 7 (some ()) (stdString "worker") (worker constructOps) :=
    Transition.steps_of_allEnabled _ _ (by decide)
  exact ⟨hs, rfl, handshake hs (.inl rfl)⟩

/-- **A run where the new thread uses the object after it is gone**:
`sem_wait` fails (a signal handler interrupts it) before the new thread has
read `m_name`, the constructor throws and the members go, and `run` reads
`m_name` from the gone object. -/
def waitErrorOps : List Action := [.create true, .run, .waitError, .run]

theorem fault_of_reachable_waitError :
    Reachable 7 (some ()) (stdString "worker") (worker waitErrorOps) ∧ (worker waitErrorOps).fault = true ∧
      (worker waitErrorOps).creator = .thrown ∧ (worker waitErrorOps).runner ≠ .unborn := by
  have hs : Reachable 7 (some ()) (stdString "worker") (worker waitErrorOps) :=
    Transition.steps_of_allEnabled _ _ (by decide)
  exact ⟨hs, rfl, fault_of_reachable hs rfl⟩

theorem released_once_destroyed :
    Reachable 7 (some ()) (stdString "worker") (worker (constructOps ++ [.destroy])) ∧
      (worker (constructOps ++ [.destroy])).released ≤ 1 ∧
      ((worker (constructOps ++ [.destroy])).creator = .destroyed →
        (worker (constructOps ++ [.destroy])).released = 1) := by
  have hs : Reachable 7 (some ()) (stdString "worker") (worker (constructOps ++ [.destroy])) :=
    Transition.steps_of_allEnabled _ _ (by decide)
  exact ⟨hs, released_once hs⟩

theorem join_after_callback_joined :
    Reachable 7 (some ()) (stdString "worker") (worker joinOps) ∧ (worker joinOps).creator = .ready ∧
      (worker joinOps).obj.thread = 0 ∧ (worker joinOps).runner = .exited ∧
      (worker joinOps).called = [some ()] := by
  have hs : Reachable 7 (some ()) (stdString "worker") (worker joinOps) :=
    Transition.steps_of_allEnabled _ _ (by decide)
  exact ⟨hs, rfl, rfl, join_after_callback hs rfl rfl⟩

theorem handshake_progress_waiting :
    Reachable 7 (some ()) (stdString "worker") (worker [.create true]) ∧
      ((worker [.create true]).creator = .wait →
        (worker [.create true]).Enabled .wait ∨ (worker [.create true]).Enabled .run) ∧
      ((worker [.create true]).creator = .ready →
        (worker [.create true]).Enabled .join ∨ (worker [.create true]).Enabled .run) := by
  have hs : Reachable 7 (some ()) (stdString "worker") (worker [.create true]) :=
    Transition.steps_of_allEnabled _ _ (by decide)
  exact ⟨hs, handshake_progress hs⟩

end Startup

end Sylar
