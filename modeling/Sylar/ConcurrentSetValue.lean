/-
# Concurrent `setValue` calls

`ConfigVar::setValue` runs in two critical sections: under the read lock it
compares the new value with `m_val` and, when they differ, calls every
listener with `(m_val, v)`; then it releases the lock, takes the write lock
and assigns `m_val = v`.  Calls on one variable from several threads are the
threads of an interleaving whose atomic steps are these sections.  What the
listeners were told is read off the program they act on: one
compare-and-notify section calls every listener once with the same pair, in
key order (`ConfigVar.Told`), and a run tells them the pairs of its sections in
turn (`ToldAll`).

Two calls whose sections interleave both notify from the same old value, and
a listener that records what it is told then holds no chain of changes.  When
no call starts while another is between its two sections, every listener is
told a chain of changes from the initial value to `getValue()`.
-/
import Sylar.ConfigVar
import Sylar.Interleaving

namespace Sylar

open Interleaving

namespace ConcurrentSetValue

/-- Where a `setValue` call is. -/
inductive Pc
  | start
  | notified
  | done
  deriving DecidableEq, Repr

/-- **A call `setValue(v)`**: its value, and where it is: before its
read-locked section, between the two sections, or returned. -/
structure Setter (T : Type) where
  value : T
  pc : Pc

/-- **The shared state**: the variable, and the rest of the program that its
listeners act on. -/
structure Shared (T W ε : Type) where
  var : ConfigVar T W ε
  w : W

variable {T W ε : Type}

/-- **One critical section of a call.**  The read-locked section returns when
the value is equal, and otherwise tells the listeners `(m_val, v)` in key
order; a listener that throws ends the call there.  The write-locked section
assigns the value. -/
def setValueStep [BEq T] (s : Shared T W ε) (t : Setter T) : Option (Shared T W ε × Setter T) :=
  match t.pc with
  | .start =>
    if t.value == s.var.val then some (s, { t with pc := .done })
    else
      match ConfigVar.notify s.var.val t.value s.var.cbs s.w with
      | (w', none) => some ({ s with w := w' }, { t with pc := .notified })
      | (w', some _) => some ({ s with w := w' }, { t with pc := .done })
  | .notified => some ({ s with var := { s.var with val := t.value } }, { t with pc := .done })
  | .done => none

/-- The calls `setValue(v)` for each `v`, none started yet. -/
def init (var : ConfigVar T W ε) (w : W) (vs : List T) : Sys (Shared T W ε) (Setter T) :=
  ⟨⟨var, w⟩, vs.map fun v => ⟨v, .start⟩⟩

/-- **A call starts only when no call is between its two sections.** -/
def noOverlap (i : Nat) (c : Sys (Shared T W ε) (Setter T)) : Bool :=
  match c.threads[i]? with
  | some t => t.pc != .start || c.threads.all fun t' => t'.pc != .notified
  | none => true

/-! ## Chains of changes -/

/-- **A chain of changes from `a` to `b`**: the first old value is `a`, each
old value is the new value before it, and the last new value is `b`. -/
def Chain : T → List (T × T) → T → Prop
  | a, [], b => a = b
  | a, p :: ps, b => p.1 = a ∧ Chain p.2 ps b

/-- A change from the end of a chain extends it. -/
theorem chain_snoc {c : T} : ∀ {a b : T} {ps : List (T × T)}, Chain a ps b → Chain a (ps ++ [(b, c)]) c
  | _, _, [], h => ⟨h.symm, rfl⟩
  | _, _, _ :: _, h => ⟨h.1, chain_snoc h.2⟩

/-- **The listeners `cbs`, told each change of `changes` in turn, take the
program from `w` to `w'`**: for each change, every listener is called once
with it, in key order, and none throws. -/
def ToldAll (cbs : List (Nat × Listener T W ε)) : List (T × T) → W → W → Prop
  | [], w, w' => w' = w
  | c :: cs, w, w' => ∃ w₁, ConfigVar.Told c.1 c.2 cbs w w₁ ∧ ToldAll cbs cs w₁ w'

/-- One more change told to every listener extends what they were told. -/
theorem toldAll_snoc {cbs : List (Nat × Listener T W ε)} {a b : T} :
    ∀ {cs : List (T × T)} {w w₁ w₂ : W}, ToldAll cbs cs w w₁ → ConfigVar.Told a b cbs w₁ w₂ →
      ToldAll cbs (cs ++ [(a, b)]) w w₂
  | [], _, _, _, h, ht => ⟨_, h ▸ ht, rfl⟩
  | _ :: _, _, _, _, ⟨w', h₁, h₂⟩, ht => ⟨w', h₁, toldAll_snoc h₂ ht⟩

/-! ## Runs without overlap -/

/-- Listeners that never throw. -/
def NoThrow (cbs : List (Nat × Listener T W ε)) : Prop :=
  ∀ cb ∈ cbs, ∀ old new w, (cb.2 old new w).2 = none

/-- Listeners that never throw tell all. -/
theorem notify_of_noThrow {cbs : List (Nat × Listener T W ε)} (h : NoThrow cbs) (old new : T) :
    ∀ w, (ConfigVar.notify old new cbs w).2 = none := by
  induction cbs with
  | nil => intro w; rfl
  | cons cb cbs ih =>
    intro w
    have hcb := h cb List.mem_cons_self old new w
    have hrest : NoThrow cbs := fun cb' hcb' => h cb' (List.mem_cons_of_mem cb hcb')
    rw [ConfigVar.notify]
    rcases hc : cb.2 old new w with ⟨w', _ | e⟩
    · exact ih hrest w'
    · rw [hc] at hcb
      exact absurd hcb (by simp)

/-- **What the listeners were told so far**: a list of changes that they were
each told in turn, from the initial program `w₀`, which is a chain from the
initial value `v₀` to the value of the call between its sections, or to
`m_val` when there is no such call. -/
def ToldChain (v₀ : T) (w₀ : W) (c : Sys (Shared T W ε) (Setter T)) : Prop :=
  ∃ changes, ToldAll c.shared.var.cbs changes w₀ c.shared.w ∧
    (∀ (j : Nat) (t : Setter T), c.threads[j]? = some t → t.pc = .notified → Chain v₀ changes t.value) ∧
    ((∀ (j : Nat) (t : Setter T), c.threads[j]? = some t → t.pc ≠ .notified) →
      Chain v₀ changes c.shared.var.val)

/-- **The invariant of runs without overlap**: the listeners are those of the
start and do not throw, at most one call is between its sections, and the
listeners were told a chain of changes. -/
structure Inv (v₀ : T) (w₀ : W) (cbs₀ : List (Nat × Listener T W ε)) (c : Sys (Shared T W ε) (Setter T)) :
    Prop where
  cbs : c.shared.var.cbs = cbs₀
  noThrow : NoThrow c.shared.var.cbs
  single : AtMostOne (fun t : Setter T => t.pc = .notified) c.threads
  told : ToldChain v₀ w₀ c

theorem inv_init (var : ConfigVar T W ε) (w : W) (vs : List T) (h : NoThrow var.cbs) :
    Inv var.val w var.cbs (init var w vs) where
  cbs := rfl
  noThrow := h
  single j k tj tk hj _ hpc _ := by
    simp only [init, List.getElem?_map] at hj
    obtain ⟨v, -, rfl⟩ := Option.map_eq_some_iff.mp hj
    exact absurd hpc (by simp)
  told := by
    refine ⟨[], rfl, fun j t hj hpc => ?_, fun _ => rfl⟩
    simp only [init, List.getElem?_map] at hj
    obtain ⟨v, -, rfl⟩ := Option.map_eq_some_iff.mp hj
    exact absurd hpc (by simp)

namespace Inv

variable {v₀ : T} {w₀ : W} {cbs₀ : List (Nat × Listener T W ε)} {c : Sys (Shared T W ε) (Setter T)} {i : Nat} {t t' : Setter T}

/-- **A call returns from its read-locked section**: nothing shared
changes. -/
theorem of_return (hc : Inv v₀ w₀ cbs₀ c) (hi : c.threads[i]? = some t) (ht : t.pc ≠ .notified)
    (ht' : t'.pc = .done) :
    Inv v₀ w₀ cbs₀ ⟨c.shared, c.threads.set i t'⟩ where
  cbs := hc.cbs
  noThrow := hc.noThrow
  single := hc.single.set_of_not hi (by simp [ht'])
  told := by
    obtain ⟨changes, htold, hpending, hidle⟩ := hc.told
    refine ⟨changes, htold, forall_set hpending fun hpu => absurd hpu (by simp [ht']), fun hall => ?_⟩
    refine hidle fun j u hj => ?_
    by_cases hji : j = i
    · subst hji
      rw [hi] at hj
      exact Option.some.inj hj ▸ ht
    · exact hall j u (by rw [List.getElem?_set_ne (Ne.symm hji)]; exact hj)

/-- **A call tells the listeners** `(m_val, v)` while no call is between its
sections: the chain grows by that change. -/
theorem of_notify (hc : Inv v₀ w₀ cbs₀ c) (hi : c.threads[i]? = some t)
    (hnone : ∀ (j : Nat) (u : Setter T), c.threads[j]? = some u → u.pc ≠ .notified) {w' : W}
    (hn : ConfigVar.notify c.shared.var.val t.value c.shared.var.cbs c.shared.w = (w', none)) :
    Inv v₀ w₀ cbs₀ ⟨{ c.shared with w := w' }, c.threads.set i { t with pc := .notified }⟩ where
  cbs := hc.cbs
  noThrow := hc.noThrow
  single := AtMostOne.set_of_none hnone hi
  told := by
    obtain ⟨changes, htold, -, hidle⟩ := hc.told
    refine ⟨changes ++ [(c.shared.var.val, t.value)], toldAll_snoc htold (ConfigVar.told_of_notify hn),
      fun j u hj hpu => ?_, fun hall => ?_⟩
    · rcases getElem?_set_cases hi hj with ⟨-, rfl⟩ | ⟨-, hj⟩
      · exact chain_snoc (hidle hnone)
      · exact absurd hpu (hnone j u hj)
    · exact absurd rfl (hall i _ (List.getElem?_set_self (List.getElem?_eq_some_iff.mp hi).1))

/-- **A call assigns its value**: it was the one call between its sections,
and the chain now ends at `m_val`. -/
theorem of_assign (hc : Inv v₀ w₀ cbs₀ c) (hi : c.threads[i]? = some t) (ht : t.pc = .notified) :
    Inv v₀ w₀ cbs₀ ⟨{ c.shared with var := { c.shared.var with val := t.value } },
      c.threads.set i { t with pc := .done }⟩ where
  cbs := hc.cbs
  noThrow := hc.noThrow
  single := hc.single.set_of_not hi (by simp)
  told := by
    obtain ⟨changes, htold, hpending, -⟩ := hc.told
    refine ⟨changes, htold, fun j u hj hpu => ?_, fun _ => hpending i t hi ht⟩
    -- the moved call was the only one between its sections
    rcases getElem?_set_cases hi hj with ⟨-, rfl⟩ | ⟨hji, hj⟩
    · exact absurd hpu (by simp)
    exact absurd (hc.single j i u t hj hi hpu ht) hji

end Inv

variable [BEq T]

/-- **Every allowed step keeps the invariant.** -/
theorem inv_step {v₀ : T} {w₀ : W} {cbs₀ : List (Nat × Listener T W ε)} {i : Nat} {c : Sys (Shared T W ε) (Setter T)}
    (hok : noOverlap i c = true) (hc : Inv v₀ w₀ cbs₀ c) : Inv v₀ w₀ cbs₀ (stepAt setValueStep i c) := by
  refine stepAt_cases hc fun t s t' hi hs => ?_
  unfold setValueStep at hs
  cases ht : t.pc with
  | start =>
    simp only [ht] at hs
    -- the scheduled call may start: no call is between its sections
    have hnone : ∀ (j : Nat) (u : Setter T), c.threads[j]? = some u → u.pc ≠ .notified := by
      simp only [noOverlap, hi, ht, bne_self_eq_false, Bool.false_or, List.all_eq_true,
        bne_iff_ne, ne_eq] at hok
      exact fun j u hj => hok u (List.mem_of_getElem? hj)
    split at hs
    · obtain ⟨rfl, rfl⟩ := Prod.mk.inj (Option.some.inj hs)
      exact hc.of_return hi (by simp [ht]) rfl
    · have hnt := notify_of_noThrow hc.noThrow c.shared.var.val t.value c.shared.w
      rcases hn : ConfigVar.notify c.shared.var.val t.value c.shared.var.cbs c.shared.w with ⟨w', _ | e⟩
      · rw [hn] at hs
        obtain ⟨rfl, rfl⟩ := Prod.mk.inj (Option.some.inj hs)
        exact hc.of_notify hi hnone hn
      · rw [hn] at hnt
        exact absurd hnt (by simp)
  | notified =>
    simp only [ht] at hs
    obtain ⟨rfl, rfl⟩ := Prod.mk.inj (Option.some.inj hs)
    exact hc.of_assign hi ht
  | done =>
    simp only [ht] at hs
    exact absurd hs (by simp)

/-- **Concurrent `setValue` calls, none of which starts while another is
between its sections, tell every listener a chain of changes**: once no call
is between its sections, each registered listener has been called once with
each change of a chain from the initial value to `getValue()`, in turn, and
the program is what these calls made of it. -/
theorem setValue_chain (var : ConfigVar T W ε) (w : W) (vs : List T) (hnt : NoThrow var.cbs)
    (sched : List Nat) (hsched : allowed setValueStep noOverlap sched (init var w vs) = true)
    (hidle : ∀ t ∈ (run setValueStep sched (init var w vs)).threads, t.pc ≠ .notified) :
    ∃ changes, Chain var.val changes (run setValueStep sched (init var w vs)).shared.var.val ∧
      ToldAll var.cbs changes w (run setValueStep sched (init var w vs)).shared.w := by
  have hinv := run_preserves (fun _ _ hok hc => inv_step hok hc) sched _ hsched (inv_init var w vs hnt)
  obtain ⟨changes, htold, -, hdone⟩ := hinv.told
  rw [hinv.cbs] at htold
  exact ⟨changes, hdone fun j t hj => hidle t (List.mem_of_getElem? hj), htold⟩

/-! ## Two calls -/

/-- A listener that records every change it is told. -/
def recorder : Listener Nat (List (Nat × Nat)) Unit := .ofFun fun old new log => log ++ [(old, new)]

/-- A variable holding `0`, with that listener. -/
def watched : ConfigVar Nat (List (Nat × Nat)) Unit :=
  { (ConfigVar.new "x".toList 0 [] : ConfigVar Nat (List (Nat × Nat)) Unit) with cbs := [(1, recorder)] }

theorem noThrow_watched : NoThrow watched.cbs := by
  intro cb hcb old new w
  rw [List.mem_singleton.mp hcb]
  rfl

/-- **The recorder holds exactly the changes it was told.** -/
theorem toldAll_recorder : ∀ (changes : List (Nat × Nat)) (w w' : List (Nat × Nat)),
    ToldAll watched.cbs changes w w' ↔ w' = w ++ changes
  | [], w, w' => by simp [ToldAll]
  | c :: cs, w, w' => by
    -- the one listener appends the change
    have hone : ∀ w₁, ConfigVar.Told c.1 c.2 watched.cbs w w₁ ↔ w₁ = w ++ [c] := fun w₁ => by
      simp [ConfigVar.Told, watched, recorder, Listener.ofFun, eq_comm]
    simp only [ToldAll, hone, exists_eq_left, toldAll_recorder cs, List.append_assoc, List.singleton_append]

theorem setValue_chain_serial :
    NoThrow watched.cbs ∧ allowed setValueStep noOverlap [0, 0, 1, 1] (init watched [] [1, 2]) = true ∧
      (∀ t ∈ (run setValueStep [0, 0, 1, 1] (init watched [] [1, 2])).threads, t.pc ≠ .notified) ∧
      ∃ changes, Chain watched.val changes (run setValueStep [0, 0, 1, 1] (init watched [] [1, 2])).shared.var.val ∧
        ToldAll watched.cbs changes [] (run setValueStep [0, 0, 1, 1] (init watched [] [1, 2])).shared.w := by
  have hsched : allowed setValueStep noOverlap [0, 0, 1, 1] (init watched [] [1, 2]) = true := by decide
  have hidle : ∀ t ∈ (run setValueStep [0, 0, 1, 1] (init watched [] [1, 2])).threads,
      t.pc ≠ .notified := by decide
  exact ⟨noThrow_watched, hsched, hidle,
    setValue_chain watched [] [1, 2] noThrow_watched [0, 0, 1, 1] hsched hidle⟩

/-- `setValue(1)` and `setValue(2)`, each call's compare-and-notify section
before the other's assignment. -/
def overlapRun : Sys (Shared Nat (List (Nat × Nat)) Unit) (Setter Nat) :=
  run setValueStep [0, 1, 0, 1] (init watched [] [1, 2])

/-- **Two overlapping calls both notify from the initial value.**  Both
read-locked sections see `0`, so the listener is told `(0, 1)` and then
`(0, 2)`, and the variable ends at `2`: no chain of changes from `0` to `2`
gives what the listener was told. -/
theorem setValue_overlap_not_chain :
    overlapRun.shared.w = [(0, 1), (0, 2)] ∧ overlapRun.shared.var.val = 2 ∧
      (∀ t ∈ overlapRun.threads, t.pc = .done) ∧
      ¬ ∃ changes, Chain 0 changes overlapRun.shared.var.val ∧
        ToldAll watched.cbs changes [] overlapRun.shared.w := by
  have hw : overlapRun.shared.w = [(0, 1), (0, 2)] := rfl
  have hval : overlapRun.shared.var.val = 2 := rfl
  refine ⟨hw, hval, by decide, ?_⟩
  rintro ⟨changes, hchain, htold⟩
  rw [hw, toldAll_recorder] at htold
  rw [hval, ← List.nil_append changes, ← htold] at hchain
  -- the second change starts from 0, not from 1
  exact absurd hchain.2.1 (by decide)

end ConcurrentSetValue

end Sylar
