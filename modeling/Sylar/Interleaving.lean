/-
# Interleavings

Threads that share a state and move one atomic step at a time, in an order a
scheduler picks.  Each thread has a local state; its step function, given the
shared state, gives the next shared and local states, or nothing when the
thread cannot move (it has finished).  A schedule is the list of the threads
that move.  A thread that cannot move when it is scheduled, or an index with
no thread, leaves everything as it is.

The facts here are those that invariants of such systems need: how runs
compose, how one step changes the list of local states, and that an invariant
which every allowed step keeps holds after every allowed run.
-/
import Mathlib.Data.List.Basic
import Mathlib.Algebra.GroupWithZero.Nat

namespace Interleaving

variable {S L : Type}

/-- **A configuration**: the shared state and the local state of each
thread. -/
structure Sys (S L : Type) where
  shared : S
  threads : List L

/-- **Thread `i` moves**, if it can. -/
def stepAt (step : S → L → Option (S × L)) (i : Nat) (c : Sys S L) : Sys S L :=
  match c.threads[i]? with
  | none => c
  | some l =>
    match step c.shared l with
    | none => c
    | some (s, l') => ⟨s, c.threads.set i l'⟩

/-- **A run**: the threads of the schedule move in turn. -/
def run (step : S → L → Option (S × L)) (sched : List Nat) (c : Sys S L) : Sys S L :=
  sched.foldl (fun c i => stepAt step i c) c

/-- **Whether every step of a schedule is allowed** by `ok` in the
configuration it starts from. -/
def allowed (step : S → L → Option (S × L)) (ok : Nat → Sys S L → Bool) : List Nat → Sys S L → Bool
  | [], _ => true
  | i :: is, c => ok i c && allowed step ok is (stepAt step i c)

section Run

variable {step : S → L → Option (S × L)}

@[simp] theorem run_nil (c : Sys S L) : run step [] c = c := rfl

@[simp] theorem run_cons (i : Nat) (is : List Nat) (c : Sys S L) :
    run step (i :: is) c = run step is (stepAt step i c) := rfl

/-- **The step rule**: a property of the configuration after each possible
move of thread `i`, and of the configuration itself, holds after thread `i` is
scheduled. -/
theorem stepAt_cases {P : Sys S L → Prop} {i : Nat} {c : Sys S L} (hc : P c)
    (hmove : ∀ l s l', c.threads[i]? = some l → step c.shared l = some (s, l') →
      P ⟨s, c.threads.set i l'⟩) :
    P (stepAt step i c) := by
  unfold stepAt
  split
  · exact hc
  · rename_i l hl
    split
    · exact hc
    · rename_i s l' hs
      exact hmove l s l' hl hs

/-- **The invariant rule**: an invariant that every allowed step keeps holds
after every allowed run. -/
theorem run_preserves {ok : Nat → Sys S L → Bool} {Inv : Sys S L → Prop}
    (h : ∀ i c, ok i c = true → Inv c → Inv (stepAt step i c)) :
    ∀ (sched : List Nat) (c : Sys S L), allowed step ok sched c = true → Inv c → Inv (run step sched c)
  | [], _, _, hc => hc
  | i :: is, c, hok, hc => by
    rw [allowed, Bool.and_eq_true] at hok
    exact run_preserves h is _ hok.2 (h i c hok.1 hc)

/-- **The invariant rule** for a system whose every step is allowed. -/
theorem run_invariant {Inv : Sys S L → Prop} (h : ∀ i c, Inv c → Inv (stepAt step i c)) :
    ∀ (sched : List Nat) (c : Sys S L), Inv c → Inv (run step sched c)
  | [], _, hc => hc
  | i :: is, c, hc => run_invariant h is _ (h i c hc)

end Run

/-! ## Local states after a move -/

/-- **The threads after thread `i` moves**: thread `i` in its new state, the
others as they were. -/
theorem getElem?_set_cases {ts : List L} {i j : Nat} {l l' l'' : L} (hi : ts[i]? = some l)
    (hj : (ts.set i l')[j]? = some l'') :
    (j = i ∧ l'' = l') ∨ (j ≠ i ∧ ts[j]? = some l'') := by
  rw [List.getElem?_set] at hj
  by_cases hji : i = j
  · subst hji
    have hlen : i < ts.length := (List.getElem?_eq_some_iff.mp hi).1
    rw [if_pos rfl, if_pos hlen] at hj
    exact .inl ⟨rfl, (Option.some.inj hj).symm⟩
  · simp only [hji, if_false] at hj
    exact .inr ⟨Ne.symm hji, hj⟩

/-- The moved thread is in its new state. -/
theorem getElem?_set_of {ts : List L} {i : Nat} {l : L} (hi : ts[i]? = some l) (l' : L) :
    (ts.set i l')[i]? = some l' :=
  List.getElem?_set_self (List.getElem?_eq_some_iff.mp hi).1

/-- **A property of every thread holds after a move** to a state that has
it. -/
theorem forall_set {P : L → Prop} {ts : List L} {i : Nat} {l' : L}
    (h : ∀ (j : Nat) (u : L), ts[j]? = some u → P u) (hl' : P l') :
    ∀ (j : Nat) (u : L), (ts.set i l')[j]? = some u → P u := by
  intro j u hj
  rw [List.getElem?_set] at hj
  split_ifs at hj
  · exact Option.some.inj hj ▸ hl'
  · exact h j u hj

/-- **A count over the threads after a move**: it changes by what the moved
thread's count does. -/
theorem sum_map_set {f : L → Nat} :
    ∀ {ts : List L} {i : Nat} {l : L}, ts[i]? = some l → ∀ l' : L,
      ((ts.set i l').map f).sum + f l = (ts.map f).sum + f l'
  | [], _, _, hi, _ => by simp at hi
  | t :: ts, 0, l, hi, l' => by
    rw [List.getElem?_cons_zero, Option.some.injEq] at hi
    subst hi
    simp only [List.set_cons_zero, List.map_cons, List.sum_cons]
    omega
  | t :: ts, i + 1, l, hi, l' => by
    rw [List.getElem?_cons_succ] at hi
    have ih := sum_map_set (f := f) hi l'
    simp only [List.set_cons_succ, List.map_cons, List.sum_cons]
    omega

/-! ## One thread at a time -/

/-- **At most one thread is in a state with `P`**: the thread inside a
section that the others may not enter. -/
def AtMostOne (P : L → Prop) (ts : List L) : Prop :=
  ∀ (j k : Nat) (tj tk : L), ts[j]? = some tj → ts[k]? = some tk → P tj → P tk → j = k

namespace AtMostOne

variable {P : L → Prop} {ts : List L} {i : Nat} {l l' : L}

/-- A move to a state without `P` keeps at most one thread with it. -/
theorem set_of_not (h : AtMostOne P ts) (hi : ts[i]? = some l) (hl' : ¬ P l') :
    AtMostOne P (ts.set i l') := by
  intro j k tj tk hj hk hpj hpk
  rcases getElem?_set_cases hi hj with ⟨-, rfl⟩ | ⟨-, hj⟩
  · exact absurd hpj hl'
  rcases getElem?_set_cases hi hk with ⟨-, rfl⟩ | ⟨-, hk⟩
  · exact absurd hpk hl'
  exact h j k tj tk hj hk hpj hpk

/-- A move when no thread has `P` leaves at most the moved one with it. -/
theorem set_of_none (hnone : ∀ (j : Nat) (u : L), ts[j]? = some u → ¬ P u) (hi : ts[i]? = some l) :
    AtMostOne P (ts.set i l') := by
  intro j k tj tk hj hk hpj hpk
  rcases getElem?_set_cases hi hj with ⟨rfl, -⟩ | ⟨-, hj⟩
  · rcases getElem?_set_cases hi hk with ⟨rfl, -⟩ | ⟨-, hk⟩
    · rfl
    · exact absurd hpk (hnone k tk hk)
  · exact absurd hpj (hnone j tj hj)

end AtMostOne

end Interleaving
