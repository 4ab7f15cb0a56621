/-
# Fibers

`Fiber` of `fiber.h` and `fiber.cc` on one thread, built as the project
builds it, with `SYLAR_FIBER_RETURN_USE_UCLINK`.  The thread has a main fiber,
which the first `Fiber::GetThis` makes, and child fibers, each with a state,
a callback `m_cb` and the context `m_ctx` that `swapIn` resumes.  Of
`ucontext` only what the code relies on is used: `swapcontext(a, b)` saves
the current continuation in `a` and resumes `b`; a context that `makecontext`
made starts `MainFunc`; returning from `MainFunc` resumes `uc_link`, the main
fiber's context, and saves nothing.

A callback is a sequence of `YieldToReady` and `YieldToHold` calls ending in a
normal return or an exception.  Its code is the segments between the yields;
a ghost log records each segment run, with the fiber and the number of
resets of the fiber before it.

`swapIn` of a fiber that finished resumes its `m_ctx` as well.  If the fiber
yielded before it finished, that is the point after its last yield, saved in
frames that the fiber's run has popped since: the behaviour is undefined, and
the model records it as a crash after which nothing happens.  If it never
yielded, it is the context `makecontext` made, and `MainFunc` runs again.

The results: in every reachable state `t_fiber` is the fiber whose code runs
and only the running child is in `EXEC`; a fiber that finished by an
exception without a yield runs its callback again when it is swapped in; and
when no `swapIn` is issued on a finished fiber, no segment runs twice between
two resets.
-/
import Sylar.Transition
import Sylar.Interleaving

namespace Sylar

namespace Fiber

/-- **`Fiber::State`.** -/
inductive State
  | init
  | hold
  | exec
  | term
  | ready
  | excep
  deriving DecidableEq, Repr

/-- A yield of a callback: `YieldToReady` or `YieldToHold`. -/
inductive YieldKind
  | toReady
  | toHold
  deriving DecidableEq, Repr

/-- **The state a yield sets** before it switches out. -/
def YieldKind.state : YieldKind → State
  | .toReady => .ready
  | .toHold => .hold

/-- How a callback ends: a normal return, or an exception. -/
inductive Ending
  | ret
  | throw
  deriving DecidableEq, Repr

/-- **A callback**: its yields in order, then its end.  Segment `k` of its code
runs from its `k`-th yield (from its start for `k = 0`) to its next yield or
to its end. -/
structure Callback where
  yields : List YieldKind
  ending : Ending
  deriving DecidableEq, Repr

/-- **`m_ctx`**: the context `makecontext` made, which starts `MainFunc`, or
the point after the `k`-th yield of a running callback. -/
inductive Ctx
  | start
  | resume (cb : Callback) (k : Nat)
  deriving DecidableEq, Repr

/-- The segment a context resumes: `MainFunc` starts the callback at its
first. -/
def Ctx.index : Ctx → Nat
  | .start => 0
  | .resume _ k => k

/-- Whether a context is a point a yield saved. -/
def Ctx.saved : Ctx → Bool
  | .start => false
  | .resume _ _ => true

/-- **The state a child is left in when control comes back to the main
fiber**, by what its code did: `READY` after `YieldToReady`, `HOLD` after
`YieldToHold`, `TERM` after a normal return, `EXCEP` after an exception.  An
empty `m_cb` throws when `MainFunc` calls it. -/
def returnState (cb : Option Callback) : Ctx → State
  | .start =>
    match cb with
    | some cb => segmentEnd cb 0
    | none => .excep
  | .resume cb k => segmentEnd cb k
where
  /-- How segment `k` of a callback ends. -/
  segmentEnd (cb : Callback) (k : Nat) : State :=
    match cb.yields[k]? with
    | some y => y.state
    | none =>
      match cb.ending with
      | .ret => .term
      | .throw => .excep

/-- A segment ends in a yield, a return or an exception. -/
theorem segmentEnd_cases (cb : Callback) (k : Nat) :
    returnState.segmentEnd cb k = .ready ∨ returnState.segmentEnd cb k = .hold ∨
      returnState.segmentEnd cb k = .term ∨ returnState.segmentEnd cb k = .excep := by
  unfold returnState.segmentEnd
  split
  · rename_i y _
    cases y <;> simp [YieldKind.state]
  · cases cb.ending <;> simp

/-- Control comes back to the main fiber with the child waiting or finished. -/
theorem returnState_cases (cb : Option Callback) (c : Ctx) :
    returnState cb c = .ready ∨ returnState cb c = .hold ∨ returnState cb c = .term ∨
      returnState cb c = .excep := by
  cases c with
  | start =>
    cases cb with
    | none => simp [returnState]
    | some cb => exact segmentEnd_cases cb 0
  | resume cb k => exact segmentEnd_cases cb k

end Fiber

open Sylar.Fiber

/-- **A child fiber**: `m_state`, `m_cb` (`none` when empty), `m_ctx`, and
(ghost) how many times it was reset. -/
structure Fiber where
  state : Fiber.State
  cb : Option Callback
  ctx : Ctx
  gen : Nat
  deriving DecidableEq, Repr

namespace Fiber

/-- **`m_ctx` lies in popped frames**: the fiber is in `TERM` or `EXCEP` and its
context is the point after a yield, which its run went on from and left. -/
def stale (f : Fiber) : Bool :=
  (f.state == .term || f.state == .excep) && f.ctx.saved

/-- A fiber that has not finished resumes a live context. -/
theorem stale_eq_false {f : Fiber} (hterm : f.state ≠ .term) (hexcep : f.state ≠ .excep) :
    f.stale = false := by
  simp [stale, hterm, hexcep]

end Fiber

/-- **One thread's fibers**: `t_fiber` (`none` for the main fiber), the main
fiber's `m_state`, the child fibers, and (ghost) which child's code runs and
from which context (`none`: the main fiber's code), the segments run so far,
each with its fiber and that fiber's resets before it, and whether the thread
has switched to a context in popped frames. -/
structure FiberThread where
  tFiber : Option Nat
  mainState : Fiber.State
  fibers : List Fiber
  running : Option (Nat × Ctx)
  log : List (Nat × Nat × Nat)
  crashed : Bool
  deriving DecidableEq, Repr

/-- **What the thread does**: the main fiber's code constructs a child, swaps
one in or resets one; the running child's code runs until control comes back
to the main fiber. -/
inductive FiberOp
  | construct (cb : Option Callback)
  | swapIn (i : Nat)
  | reset (i : Nat) (cb : Option Callback)
  | proceed
  deriving DecidableEq, Repr

namespace FiberThread

/-- **The thread once `GetThis` has made its main fiber**: `t_fiber` is the
main fiber, in `EXEC`, and there are no children yet. -/
def init : FiberThread := ⟨none, .exec, [], none, [], false⟩

/-- **Back in the main fiber** with child `i` now `f`: `SetThis` of the main
fiber, then the switch to its context (by `swapOut`, or by `uc_link` when
`MainFunc` returns). -/
def back (s : FiberThread) (i : Nat) (f : Fiber) : FiberThread :=
  { s with tFiber := none, running := none, fibers := s.fibers.set i f }

/-- **Segment `k` of the callback `cb` of child `i` runs**, up to its next
yield, which sets the state and saves the point after it in `m_ctx`
(`swapOut`); or to the callback's end, where `MainFunc` empties `m_cb` and
sets `TERM`, or catches the exception and sets `EXCEP`, and returns through
`uc_link` without saving `m_ctx`. -/
def runSegment (s : FiberThread) (i : Nat) (f : Fiber) (cb : Callback) (k : Nat) : FiberThread :=
  let s := { s with log := s.log ++ [(i, f.gen, k)] }
  match cb.yields[k]? with
  | some y => s.back i { f with state := y.state, ctx := .resume cb (k + 1) }
  | none =>
    match cb.ending with
    | .ret => s.back i { f with state := .term, cb := none }
    | .throw => s.back i { f with state := .excep }

/-- **Child `i` runs from the context it was resumed at** until control comes
back to the main fiber.  From the context `makecontext` made, `MainFunc`
calls `m_cb`; an empty one throws `std::bad_function_call`, which `MainFunc`
catches as `EXCEP`. -/
def runFrom (s : FiberThread) (i : Nat) (f : Fiber) : Ctx → FiberThread
  | .start =>
    match f.cb with
    | some cb => s.runSegment i f cb 0
    | none => s.back i { f with state := .excep }
  | .resume cb k => s.runSegment i f cb k

/-- **One operation.** -/
def step (s : FiberThread) : FiberOp → FiberThread
  | .construct cb => { s with fibers := s.fibers ++ [⟨.init, cb, .start, 0⟩] }
  | .swapIn i =>
    -- `SetThis(this)`, `m_state = EXEC`, then the switch to `m_ctx`
    match s.fibers[i]? with
    | some f =>
      if f.stale then { s with crashed := true }
      else
        { s with tFiber := some i, fibers := s.fibers.set i { f with state := .exec },
                 running := some (i, f.ctx) }
    | none => s
  | .reset i cb =>
    -- `m_cb = cb`, a new context from `makecontext`, `m_state = INIT`
    match s.fibers[i]? with
    | some f => { s with fibers := s.fibers.set i ⟨.init, cb, .start, f.gen + 1⟩ }
    | none => s
  | .proceed =>
    match s.running with
    | some (i, c) =>
      match s.fibers[i]? with
      | some f => s.runFrom i f c
      | none => s
    | none => s

/-- **When an operation can happen**: the main fiber's code issues the first
three when no child runs and the thread has not crashed, and their assertions
must hold (a child is constructed while `t_fiber` is the main fiber; `swapIn`
rejects `EXEC`; `reset` wants `TERM`, `INIT` or `EXCEP`).  A child's code runs
when it is the running one; its `GetThis()` is `t_fiber`, which `consistent`
shows to be that child in every reachable state. -/
def Enabled (s : FiberThread) : FiberOp → Prop
  | .construct _ => s.crashed = false ∧ s.running = none ∧ s.tFiber = none
  | .swapIn i => s.crashed = false ∧ s.running = none ∧ ∃ f ∈ s.fibers[i]?, f.state ≠ .exec
  | .reset i _ => s.crashed = false ∧ s.running = none ∧
      ∃ f ∈ s.fibers[i]?, f.state = .term ∨ f.state = .init ∨ f.state = .excep
  | .proceed => ∃ p ∈ s.running, s.tFiber = some p.1

instance decidableEnabled (s : FiberThread) : ∀ op, Decidable (s.Enabled op)
  | .construct _ => inferInstanceAs (Decidable (s.crashed = false ∧ s.running = none ∧ s.tFiber = none))
  | .swapIn i => inferInstanceAs (Decidable (s.crashed = false ∧ s.running = none ∧
      ∃ f ∈ s.fibers[i]?, f.state ≠ .exec))
  | .reset i _ => inferInstanceAs (Decidable (s.crashed = false ∧ s.running = none ∧
      ∃ f ∈ s.fibers[i]?, f.state = .term ∨ f.state = .init ∨ f.state = .excep))
  | .proceed => inferInstanceAs (Decidable (∃ p ∈ s.running, s.tFiber = some p.1))

/-- The states a thread reaches. -/
def Reachable (s : FiberThread) : Prop :=
  Relation.ReflTransGen (Transition.Steps Enabled step) init s

/-! ## What a child's run does -/

/-- **A segment's run**: one segment logged, and the child back in the main
fiber in the state the segment's end gives; a yield saves the point after
it. -/
theorem runSegment_spec (s : FiberThread) (i : Nat) (f : Fiber) (cb : Callback) (k : Nat) :
    ∃ f' : Fiber, s.runSegment i f cb k = { s with log := s.log ++ [(i, f.gen, k)] }.back i f' ∧
      f'.state = returnState.segmentEnd cb k ∧ f'.gen = f.gen ∧
      (f'.state = .ready ∨ f'.state = .hold → f'.ctx.index = k + 1) := by
  unfold runSegment returnState.segmentEnd
  cases hy : cb.yields[k]? with
  | some y => exact ⟨{ f with state := y.state, ctx := .resume cb (k + 1) }, rfl, rfl, rfl, fun _ => rfl⟩
  | none =>
    cases cb.ending with
    | ret => exact ⟨{ f with state := .term, cb := none }, rfl, rfl, rfl, by simp⟩
    | throw => exact ⟨{ f with state := .excep }, rfl, rfl, rfl, by simp⟩

/-- **A child's run**, from the context it was resumed at: at most the
segment that context starts is logged, and the child is back in the main
fiber in the state `returnState` names. -/
theorem runFrom_spec (s : FiberThread) (i : Nat) (f : Fiber) (c : Ctx) :
    ∃ (ent : List (Nat × Nat × Nat)) (f' : Fiber),
      s.runFrom i f c = { s with log := s.log ++ ent }.back i f' ∧
      (ent = [] ∨ ent = [(i, f.gen, c.index)]) ∧ f'.state = returnState f.cb c ∧ f'.gen = f.gen ∧
      (f'.state = .ready ∨ f'.state = .hold → f'.ctx.index = c.index + 1) := by
  cases c with
  | start =>
    cases hcb : f.cb with
    | none =>
      -- the empty `m_cb` throws before any segment runs
      refine ⟨[], { f with state := .excep }, ?_, .inl rfl, by simp [returnState], rfl, by simp⟩
      simp [runFrom, hcb]
    | some cb =>
      obtain ⟨f', hrun, hstate, hgen, hctx⟩ := runSegment_spec s i f cb 0
      refine ⟨_, f', ?_, .inr rfl, by simp [returnState, hstate], hgen, hctx⟩
      simp only [runFrom, hcb, hrun]
      rfl
  | resume cb k =>
    obtain ⟨f', hrun, hstate, hgen, hctx⟩ := runSegment_spec s i f cb k
    exact ⟨_, f', hrun, .inr rfl, hstate, hgen, hctx⟩

/-- **`swapIn` of child `i`** with a live `m_ctx`: `t_fiber` is the child, in
`EXEC`, and its code runs from its `m_ctx`. -/
theorem step_swapIn {s : FiberThread} {i : Nat} {f : Fiber} (hf : s.fibers[i]? = some f)
    (hlive : f.stale = false) :
    s.step (.swapIn i) =
      { s with tFiber := some i, fibers := s.fibers.set i { f with state := .exec },
               running := some (i, f.ctx) } := by
  simp only [step, hf, hlive, Bool.false_eq_true, if_false]

/-- **`swapIn` of child `i` with `m_ctx` in popped frames** crashes. -/
theorem step_swapIn_stale {s : FiberThread} {i : Nat} {f : Fiber} (hf : s.fibers[i]? = some f)
    (hstale : f.stale = true) : s.step (.swapIn i) = { s with crashed := true } := by
  simp only [step, hf, hstale, if_true]

/-- **`reset` of child `i`**: a new callback from a new context, one more
reset. -/
theorem step_reset {s : FiberThread} {i : Nat} {f : Fiber} (hf : s.fibers[i]? = some f) (cb : Option Callback) :
    s.step (.reset i cb) = { s with fibers := s.fibers.set i ⟨.init, cb, .start, f.gen + 1⟩ } := by
  simp only [step, hf]

/-- **The running child's code goes on** from the context it was resumed
at. -/
theorem step_proceed {s : FiberThread} {i : Nat} {c : Ctx} {f : Fiber} (hrun : s.running = some (i, c))
    (hf : s.fibers[i]? = some f) : s.step .proceed = s.runFrom i f c := by
  simp only [step, hrun, hf]

/-! ## The current fiber -/

/-- **The fiber states agree with the running code**: `t_fiber` is the fiber
whose code runs, the main fiber is in `EXEC`, the running child is in `EXEC`,
and no other child is. -/
structure Consistent (s : FiberThread) : Prop where
  current : s.tFiber = s.running.map Prod.fst
  main : s.mainState = .exec
  running : ∀ p ∈ s.running, ∃ f ∈ s.fibers[p.1]?, f.state = .exec
  exec : ∀ (j : Nat) (f : Fiber), s.fibers[j]? = some f → f.state = .exec → ∃ p ∈ s.running, p.1 = j

theorem consistent_init : init.Consistent where
  current := rfl
  main := rfl
  running _ hp := absurd hp (by simp [init])
  exec _ _ hj := absurd hj (by simp [init])

namespace Consistent

variable {s : FiberThread}

/-- With no child running, no child is in `EXEC`. -/
theorem not_exec (hs : s.Consistent) (hrun : s.running = none) :
    ∀ (j : Nat) (f : Fiber), s.fibers[j]? = some f → f.state ≠ .exec := by
  intro j f hj hexec
  obtain ⟨p, hp, -⟩ := hs.exec j f hj hexec
  rw [hrun] at hp
  exact absurd hp (by simp)

/-- **Back in the main fiber**, from the running child `i`, now not in
`EXEC`. -/
theorem back (hs : s.Consistent) {i : Nat} {c : Ctx} {f f' : Fiber} (hrun : s.running = some (i, c))
    (hi : s.fibers[i]? = some f) (log : List (Nat × Nat × Nat)) (hf' : f'.state ≠ .exec) :
    ({ s with log }.back i f').Consistent where
  current := rfl
  main := hs.main
  running _ hp := absurd hp (by simp [FiberThread.back])
  exec j g hj hexec := by
    rcases Interleaving.getElem?_set_cases hi hj with ⟨-, rfl⟩ | ⟨hji, hj⟩
    · exact absurd hexec hf'
    · -- another child in `EXEC` would be the running one
      obtain ⟨p, hp, hpj⟩ := hs.exec j g hj hexec
      rw [hrun, Option.mem_some_iff] at hp
      exact absurd (hp ▸ hpj).symm hji

/-- **Every operation keeps the fiber states consistent.** -/
theorem step (hs : s.Consistent) : ∀ op, s.Enabled op → (s.step op).Consistent
  | .construct cb, ⟨_, hrun, htf⟩ => by
    refine ⟨by simp [FiberThread.step, htf, hrun], hs.main, fun p hp => ?_, fun j g hj hexec => ?_⟩
    · simp [FiberThread.step, hrun] at hp
    · -- the new child is in `INIT`, and an old one in `EXEC` would be running
      rcases List.mem_append.mp (List.mem_of_getElem? hj) with hg | hg
      · obtain ⟨j', hj'⟩ := List.mem_iff_getElem?.mp hg
        exact absurd hexec (hs.not_exec hrun j' g hj')
      · rw [List.mem_singleton.mp hg] at hexec
        exact absurd hexec (by simp)
  | .swapIn i, ⟨_, hrun, f, hf, _⟩ => by
    rw [Option.mem_def] at hf
    -- a crash changes nothing the invariant reads
    cases hstale : f.stale
    case true =>
      rw [step_swapIn_stale hf hstale]
      exact ⟨hs.current, hs.main, hs.running, hs.exec⟩
    rw [step_swapIn hf hstale]
    refine ⟨rfl, hs.main, fun p hp => ?_, fun j g hj hexec => ?_⟩
    · rw [Option.mem_some_iff] at hp
      subst hp
      exact ⟨_, Interleaving.getElem?_set_of hf _, rfl⟩
    · rcases Interleaving.getElem?_set_cases hf hj with ⟨rfl, -⟩ | ⟨-, hj⟩
      · exact ⟨(j, f.ctx), rfl, rfl⟩
      · exact absurd hexec (hs.not_exec hrun j g hj)
  | .reset i cb, ⟨_, hrun, f, hf, _⟩ => by
    rw [Option.mem_def] at hf
    rw [step_reset hf]
    refine ⟨hs.current, hs.main, fun p hp => ?_, fun j g hj hexec => ?_⟩
    · simp [hrun] at hp
    · rcases Interleaving.getElem?_set_cases hf hj with ⟨-, rfl⟩ | ⟨-, hj⟩
      · exact absurd hexec (by simp)
      · exact absurd hexec (hs.not_exec hrun j g hj)
  | .proceed, ⟨⟨i, c⟩, hp, _⟩ => by
    rw [Option.mem_def] at hp
    obtain ⟨f, hf, -⟩ := hs.running (i, c) hp
    rw [Option.mem_def] at hf
    obtain ⟨ent, f', hrunf, -, hstate, -, -⟩ := runFrom_spec s i f c
    rw [step_proceed hp hf, hrunf]
    refine hs.back hp hf _ ?_
    rw [hstate]
    rcases returnState_cases f.cb c with h | h | h | h <;> simp [h]

end Consistent

/-- **Every reachable state is consistent.** -/
theorem Reachable.consistent {s : FiberThread} (hs : s.Reachable) : s.Consistent :=
  (Transition.Invariant.of_actions consistent_init fun _ op h hop => h.step op hop).reachable hs

/-- **The fiber states agree with the running code, and `swapIn` returns to
the main fiber with the child in the state its code left it in.**  In every
reachable state `t_fiber` is the fiber whose code runs (the main fiber when
no child runs), the main fiber is in `EXEC`, the running child is in `EXEC`
and no other child is; and the running child's code can always go on, and
when control comes back to the main fiber, `t_fiber` is the main fiber again
and the child is in `READY`, `HOLD`, `TERM` or `EXCEP` as its code yielded,
returned or threw. -/
theorem fiber_states_consistent {s : FiberThread} (hs : s.Reachable) :
    s.tFiber = s.running.map Prod.fst ∧ s.mainState = .exec ∧
      (∀ p ∈ s.running, ∃ f ∈ s.fibers[p.1]?, f.state = .exec) ∧
      (∀ (j : Nat) (f : Fiber), s.fibers[j]? = some f → f.state = .exec → ∃ p ∈ s.running, p.1 = j) ∧
      ∀ (i : Nat) (c : Ctx) (f : Fiber), s.running = some (i, c) → s.fibers[i]? = some f →
        s.Enabled .proceed ∧ (s.step .proceed).running = none ∧ (s.step .proceed).tFiber = none ∧
          (s.step .proceed).fibers[i]?.map Fiber.state = some (returnState f.cb c) := by
  have hc := hs.consistent
  refine ⟨hc.current, hc.main, hc.running, hc.exec, fun i c f hrun hf => ?_⟩
  obtain ⟨ent, f', hrunf, -, hstate, -, -⟩ := runFrom_spec s i f c
  have hproceed : s.step .proceed = { s with log := s.log ++ ent }.back i f' := by
    rw [step_proceed hrun hf, hrunf]
  refine ⟨⟨(i, c), hrun, by rw [hc.current, hrun]; rfl⟩, by rw [hproceed]; rfl, by rw [hproceed]; rfl, ?_⟩
  rw [hproceed, FiberThread.back, Interleaving.getElem?_set_of hf, Option.map_some, hstate]

/-! ## Finished fibers

`swapIn` rejects only `EXEC`.  A child in `TERM` or `EXCEP` that never yielded
is resumed at the context `makecontext` made, where `MainFunc` calls `m_cb`
again: the emptied `m_cb` after a normal return, which throws, and the whole
callback again after an exception, since `MainFunc` does not empty `m_cb`
when it catches. -/

/-- A callback that throws before any yield. -/
def throwOnce : Callback := ⟨[], .throw⟩

/-- A child with `throwOnce` constructed and swapped in until it is in
`EXCEP`, then swapped in once more. -/
def rerunOps : List FiberOp :=
  [.construct (some throwOnce), .swapIn 0, .proceed, .swapIn 0, .proceed]

/-- **A finished fiber is re-entered.**  After the first three operations of
`rerunOps` the child is in `EXCEP` with no reset; the next `swapIn` runs its
callback from the start a second time. -/
theorem swapIn_excep_reruns :
    (rerunOps.take 3 |>.foldl step init).Reachable ∧
      (rerunOps.take 3 |>.foldl step init).fibers.map Fiber.state = [.excep] ∧
      (rerunOps.foldl step init).Reachable ∧
      (rerunOps.foldl step init).log = [(0, 0, 0), (0, 0, 0)] :=
  ⟨Transition.steps_of_allEnabled _ _ (by decide), rfl,
    Transition.steps_of_allEnabled _ _ (by decide), rfl⟩

/-- **When an operation can happen if no finished child is swapped in**:
`swapIn` is issued only on a child in `INIT`, `READY` or `HOLD`. -/
def LiveEnabled (s : FiberThread) : FiberOp → Prop
  | .swapIn i => s.Enabled (.swapIn i) ∧ ∀ f ∈ s.fibers[i]?, f.state ≠ .term ∧ f.state ≠ .excep
  | op => s.Enabled op

instance decidableLiveEnabled (s : FiberThread) : ∀ op, Decidable (s.LiveEnabled op)
  | .construct cb => inferInstanceAs (Decidable (s.Enabled (.construct cb)))
  | .swapIn i => inferInstanceAs (Decidable (s.Enabled (.swapIn i) ∧
      ∀ f ∈ s.fibers[i]?, f.state ≠ .term ∧ f.state ≠ .excep))
  | .reset i cb => inferInstanceAs (Decidable (s.Enabled (.reset i cb)))
  | .proceed => inferInstanceAs (Decidable (s.Enabled .proceed))

theorem LiveEnabled.enabled {s : FiberThread} : ∀ {op : FiberOp}, s.LiveEnabled op → s.Enabled op
  | .construct _, h => h
  | .swapIn _, h => h.1
  | .reset _ _, h => h
  | .proceed, h => h

/-- The states a thread reaches when no finished child is swapped in. -/
def LiveReachable (s : FiberThread) : Prop :=
  Relation.ReflTransGen (Transition.Steps LiveEnabled step) init s

end FiberThread

namespace Fiber

/-- **Segment `k` of the callback a fiber had after `g` resets is spent**
(`e = (g, k)`): the fiber was reset since, or it has finished, or its saved
context is past the segment.  Unless a finished fiber is swapped in, a spent
segment never runs again. -/
def Spent (f : Fiber) (e : Nat × Nat) : Prop :=
  e.1 < f.gen ∨ e.1 = f.gen ∧ (f.state = .term ∨ f.state = .excep ∨ e.2 < f.ctx.index)

variable {f : Fiber} {e : Nat × Nat}

theorem Spent.le_gen (h : f.Spent e) : e.1 ≤ f.gen := by
  rcases h with h | ⟨h, -⟩ <;> omega

/-- A reset spends every segment run before it. -/
theorem Spent.reset (h : f.Spent e) (cb : Option Callback) :
    (⟨.init, cb, .start, f.gen + 1⟩ : Fiber).Spent e :=
  .inl (Nat.lt_succ_of_le h.le_gen)

/-- `swapIn` of a child that has not finished keeps its spent segments
spent. -/
theorem Spent.swapIn (h : f.Spent e) (hterm : f.state ≠ .term) (hexcep : f.state ≠ .excep) :
    ({ f with state := .exec } : Fiber).Spent e := by
  rcases h with h | ⟨hg, h | h | h⟩
  · exact .inl h
  · exact absurd h hterm
  · exact absurd h hexcep
  · exact .inr ⟨hg, .inr (.inr h)⟩

/-- The segment a running child resumed at is not spent. -/
theorem not_spent_running (hexec : f.state = .exec) : ¬ f.Spent (f.gen, f.ctx.index) := by
  rintro (h | ⟨-, h | h | h⟩)
  · exact absurd h (Nat.lt_irrefl _)
  · exact absurd (hexec.symm.trans h) (by decide)
  · exact absurd (hexec.symm.trans h) (by decide)
  · exact absurd h (Nat.lt_irrefl _)

/-- **A child's run spends the segment it ran** and every segment before it:
the child is back in `READY` or `HOLD` with its context past the segment, or
has finished. -/
theorem spent_of_run {f' : Fiber} {c : Ctx} (hgen : f'.gen = f.gen) (hstate : f'.state = returnState f.cb c)
    (hctx : f'.state = .ready ∨ f'.state = .hold → f'.ctx.index = c.index + 1)
    (he : e.1 < f.gen ∨ e.1 = f.gen ∧ e.2 ≤ c.index) : f'.Spent e := by
  rw [Spent, hgen]
  rcases he with he | ⟨hg, hk⟩
  · exact .inl he
  refine .inr ⟨hg, ?_⟩
  rcases returnState_cases f.cb c with h | h | h | h <;> rw [← hstate] at h
  · exact .inr (.inr (by rw [hctx (.inl h)]; omega))
  · exact .inr (.inr (by rw [hctx (.inr h)]; omega))
  · exact .inl h
  · exact .inr (.inl h)

/-- Before the running child's run, its spent segments are those before the
one it resumed at. -/
theorem Spent.before_running (h : f.Spent e) (hexec : f.state = .exec) :
    e.1 < f.gen ∨ e.1 = f.gen ∧ e.2 ≤ f.ctx.index := by
  rcases h with h | ⟨hg, h | h | h⟩
  · exact .inl h
  · exact absurd (hexec.symm.trans h) (by decide)
  · exact absurd (hexec.symm.trans h) (by decide)
  · exact .inr ⟨hg, Nat.le_of_lt h⟩

end Fiber

namespace FiberThread

/-- A logged segment stays spent when one child changes to a fiber that keeps
it spent. -/
theorem spent_set {fibers : List Fiber} {i : Nat} {f f' : Fiber} (hi : fibers[i]? = some f)
    {e : Nat × Nat × Nat} (he : ∃ g ∈ fibers[e.1]?, g.Spent e.2) (hf' : f.Spent e.2 → f'.Spent e.2) :
    ∃ g ∈ (fibers.set i f')[e.1]?, g.Spent e.2 := by
  obtain ⟨g, hg, hspent⟩ := he
  rw [Option.mem_def] at hg
  by_cases hei : e.1 = i
  · rw [hei, hi, Option.some.injEq] at hg
    subst hg
    exact ⟨f', by rw [hei]; exact Interleaving.getElem?_set_of hi f', hf' hspent⟩
  · exact ⟨g, by rw [Option.mem_def, List.getElem?_set_ne (Ne.symm hei)]; exact hg, hspent⟩

/-- **The invariant of runs that swap in no finished child**: the states are
consistent, no segment is logged twice, every logged segment is spent, and the
running child's `m_ctx` is the context it was resumed at. -/
structure RunsOnce (s : FiberThread) : Prop where
  consistent : s.Consistent
  nodup : s.log.Nodup
  spent : ∀ e ∈ s.log, ∃ f ∈ s.fibers[e.1]?, f.Spent e.2
  saved : ∀ (i : Nat) (c : Ctx) (f : Fiber), s.running = some (i, c) → s.fibers[i]? = some f → f.ctx = c

theorem runsOnce_init : init.RunsOnce where
  consistent := consistent_init
  nodup := List.nodup_nil
  spent _ he := absurd he List.not_mem_nil
  saved _ _ _ hrun := absurd hrun (by simp [init])

namespace RunsOnce

variable {s : FiberThread}

/-- **The running child's run logs a segment not logged before**, and spends
it. -/
theorem proceed (hs : s.RunsOnce) {i : Nat} {c : Ctx} {f : Fiber} (hrun : s.running = some (i, c))
    (hf : s.fibers[i]? = some f) : (s.runFrom i f c).RunsOnce := by
  obtain ⟨ent, f', hrunf, hent, hstate, hgen, hctx⟩ := runFrom_spec s i f c
  obtain ⟨g, hg, hexec⟩ := hs.consistent.running (i, c) (Option.mem_def.mpr hrun)
  rw [Option.mem_def, hf, Option.some.injEq] at hg
  subst hg
  have hsaved := hs.saved i c f hrun hf
  -- the segment it runs is logged with the fiber's resets and the context it resumed at
  have hfresh : (i, f.gen, c.index) ∉ s.log := by
    intro hin
    obtain ⟨g', hg', hspent⟩ := hs.spent _ hin
    rw [Option.mem_def, hf, Option.some.injEq] at hg'
    subst hg'
    exact Fiber.not_spent_running hexec (hsaved ▸ hspent)
  have hspent' : ∀ e : Nat × Nat, e.1 < f.gen ∨ e.1 = f.gen ∧ e.2 ≤ c.index → f'.Spent e :=
    fun e he => Fiber.spent_of_run hgen hstate hctx he
  have hconsistent := hs.consistent.step .proceed ⟨(i, c), Option.mem_def.mpr hrun, by
    rw [hs.consistent.current, hrun]; rfl⟩
  rw [step_proceed hrun hf, hrunf] at hconsistent
  rw [hrunf]
  refine ⟨hconsistent, ?_, fun e he => ?_, fun _ _ _ hrun' => absurd hrun' (by simp [back])⟩
  · rcases hent with rfl | rfl
    · simpa [back] using hs.nodup
    · exact List.nodup_append.mpr ⟨hs.nodup, by simp,
        fun a ha b hb => by rw [List.mem_singleton.mp hb]; exact fun h => hfresh (h ▸ ha)⟩
  · rcases List.mem_append.mp he with he | he
    · exact spent_set hf (hs.spent e he) fun hspent => hspent' _ (hsaved ▸ hspent.before_running hexec)
    · rcases hent with rfl | rfl
      · exact absurd he List.not_mem_nil
      · rw [List.mem_singleton.mp he]
        exact ⟨f', Interleaving.getElem?_set_of hf f', hspent' _ (.inr ⟨rfl, Nat.le_refl _⟩)⟩

/-- **Every operation that swaps in no finished child keeps the invariant.** -/
theorem step (hs : s.RunsOnce) : ∀ op, s.LiveEnabled op → (s.step op).RunsOnce
  | .construct cb, h => by
    refine ⟨hs.consistent.step _ h, hs.nodup, fun e he => ?_, fun _ _ _ hrun => absurd hrun ?_⟩
    · -- the old children keep their indices
      obtain ⟨g, hg, hspent⟩ := hs.spent e he
      have hlt : e.1 < s.fibers.length := (List.getElem?_eq_some_iff.mp (Option.mem_def.mp hg)).1
      exact ⟨g, by rw [FiberThread.step, List.getElem?_append_left hlt]; exact hg, hspent⟩
    · simp [FiberThread.step, h.2.1]
  | .swapIn i, ⟨hen, hlive⟩ => by
    have hc := hs.consistent.step _ hen
    obtain ⟨-, hrun, f, hf, -⟩ := hen
    obtain ⟨hterm, hexcep⟩ := hlive f hf
    rw [Option.mem_def] at hf
    rw [step_swapIn hf (Fiber.stale_eq_false hterm hexcep)] at hc ⊢
    refine ⟨hc, hs.nodup, fun e he => spent_set hf (hs.spent e he) fun h => h.swapIn hterm hexcep,
      fun j c g hrun' hg => ?_⟩
    -- the resumed context is the child's `m_ctx`
    obtain ⟨rfl, rfl⟩ := Prod.mk.inj (Option.some.inj hrun')
    rw [Interleaving.getElem?_set_of hf, Option.some.injEq] at hg
    rw [← hg]
  | .reset i cb, h => by
    have hc := hs.consistent.step _ h.enabled
    obtain ⟨-, hrun, f, hf, -⟩ := h
    rw [Option.mem_def] at hf
    rw [step_reset hf] at hc ⊢
    exact ⟨hc, hs.nodup, fun e he => spent_set hf (hs.spent e he) fun h => h.reset cb,
      fun _ _ _ hrun' => absurd hrun' (by simp [hrun])⟩
  | .proceed, ⟨⟨i, c⟩, hp, _⟩ => by
    rw [Option.mem_def] at hp
    obtain ⟨f, hf, -⟩ := hs.consistent.running (i, c) hp
    rw [Option.mem_def] at hf
    rw [step_proceed hp hf]
    exact hs.proceed hp hf

end RunsOnce

/-- **No segment of a callback runs twice between two resets** of its fiber,
in every run that swaps in no finished child: every segment logged is logged
once, with its fiber and that fiber's resets before it. -/
theorem segments_run_once {s : FiberThread} (hs : s.LiveReachable) : s.log.Nodup :=
  ((Transition.Invariant.of_actions runsOnce_init fun _ op h hop => h.step op hop).reachable hs).nodup

/-- A callback with one `YieldToHold`, then a normal return. -/
def holdOnce : Callback := ⟨[.toHold], .ret⟩

/-- A child with `holdOnce` constructed, then swapped in until it finishes:
once for its first segment and once for the segment after the yield. -/
def finishOps : List FiberOp :=
  [.construct (some holdOnce), .swapIn 0, .proceed, .swapIn 0, .proceed]

theorem segments_run_once_holdOnce : (finishOps.foldl step init).log.Nodup :=
  segments_run_once (Transition.steps_of_allEnabled _ _ (by decide))

/-- The child of `holdOnce` swapped in once, before its first segment runs. -/
def holdOnceRunning : FiberThread :=
  [.construct (some holdOnce), .swapIn 0].foldl step init

theorem fiber_states_consistent_holdOnce :
    (holdOnceRunning.step .proceed).tFiber = none ∧
      (holdOnceRunning.step .proceed).fibers[0]?.map Fiber.state = some .hold :=
  have h := (fiber_states_consistent (s := holdOnceRunning)
    (Transition.steps_of_allEnabled _ _ (by decide))).2.2.2.2 0 .start ⟨.exec, some holdOnce, .start, 0⟩ rfl rfl
  ⟨h.2.2.1, h.2.2.2⟩

end FiberThread

end Sylar
