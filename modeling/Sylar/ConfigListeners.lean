/-
# The listeners of a config variable

`ConfigVar::addListener`, `delListener` and `clearListener` keep the listeners
of a variable in an `std::map` by key, and `addListener` keys each new listener
by the next value of `s_fun_id`, a `uint64_t` counter that every variable of
one type `T` shares.  While every key in the map is at most the counter, which
each call keeps, and the counter does not wrap, a new key is larger than every
key there: the map insertion `setCb` is then an append, and the map is the
list of the listeners still registered in the order they were added.  So
`setValue` tells the listeners in that order.  Once the counter wraps, the new
key is `0` and the listener goes first (`addListener_wrap`).

The main results:
* `Keyed`: the keys are at most the counter, kept by every call (`Keyed.apply`);
* `apply_refines`, `cbs_run`: the map refines the list of the listeners in the
  order of their addition, over every run of calls in which the counter does
  not wrap;
* `getListener_addListener`, `getListener_delListener`: what `getListener`
  finds after each call.
-/
import Sylar.ConfigVar
import Mathlib.Algebra.GroupWithZero.Nat

namespace Sylar

namespace ConfigVar

variable {T W ε : Type}

/-! ## The map insertion -/

/-- **A key larger than every key of the map goes at its end.** -/
theorem setCb_of_lt {key : Nat} {cb : Listener T W ε} :
    ∀ {cbs : List (Nat × Listener T W ε)}, (∀ c ∈ cbs, c.1 < key) →
      setCb key cb cbs = cbs ++ [(key, cb)]
  | [], _ => rfl
  | (k, c) :: cbs, h => by
    have hk : k < key := h (k, c) List.mem_cons_self
    rw [setCb, if_neg (by omega), if_neg (by omega),
      setCb_of_lt fun c hc => h c (List.mem_cons_of_mem _ hc)]
    rfl

/-- The map after `m_cbs[key] = cb` finds `cb` under `key`. -/
theorem find?_setCb_self (key : Nat) (cb : Listener T W ε) :
    ∀ cbs : List (Nat × Listener T W ε),
      (setCb key cb cbs).find? (fun c => decide (c.1 = key)) = some (key, cb)
  | [] => by simp [setCb]
  | (k, c) :: cbs => by
    rw [setCb]
    -- the new entry stands before `k`, replaces it, or comes after it
    by_cases hlt : key < k
    · simp [hlt]
    · by_cases heq : key = k
      · simp [heq]
      · have hk : k ≠ key := Ne.symm heq
        simp [hlt, heq, hk, find?_setCb_self key cb cbs]

/-- The map after `m_cbs[key] = cb` finds under another key what it found before. -/
theorem find?_setCb_ne {key key' : Nat} (hne : key' ≠ key) (cb : Listener T W ε) :
    ∀ cbs : List (Nat × Listener T W ε),
      (setCb key cb cbs).find? (fun c => decide (c.1 = key')) = cbs.find? fun c => decide (c.1 = key')
  | [] => by simp [setCb, Ne.symm hne]
  | (k, c) :: cbs => by
    rw [setCb]
    by_cases hlt : key < k
    · simp [hlt, Ne.symm hne]
    · by_cases heq : key = k
      · subst heq
        simp [Ne.symm hne]
      · simp only [hlt, heq, if_false]
        by_cases hk : k = key'
        · simp [hk]
        · simp [hk, find?_setCb_ne hne cb cbs]

/-! ## `getListener` after each call -/

/-- **`getListener` finds the listener `addListener` registered**, under the
key it returned. -/
theorem getListener_addListener (var : ConfigVar T W ε) (sFunId : Nat) (cb : Listener T W ε) :
    (var.addListener sFunId cb).1.getListener (var.addListener sFunId cb).2 = some cb := by
  show ((setCb ((sFunId + 1) % 2 ^ 64) cb var.cbs).find? fun c => decide (c.1 = (sFunId + 1) % 2 ^ 64)).map
    Prod.snd = some cb
  rw [find?_setCb_self]
  rfl

/-- `addListener` leaves the other keys' listeners as they were. -/
theorem getListener_addListener_ne (var : ConfigVar T W ε) (sFunId : Nat) (cb : Listener T W ε)
    {key : Nat} (hne : key ≠ (sFunId + 1) % 2 ^ 64) :
    (var.addListener sFunId cb).1.getListener key = var.getListener key := by
  simp only [addListener, getListener]
  rw [find?_setCb_ne hne]

/-- **Once `s_fun_id` wraps, a new listener goes before all the others**:
the new key is `0`, and the map sorts it first. -/
theorem addListener_wrap (var : ConfigVar T W ε) (cb : Listener T W ε) (hpos : ∀ c ∈ var.cbs, 0 < c.1) :
    (var.addListener (2 ^ 64 - 1) cb).1.cbs = (0, cb) :: var.cbs := by
  have hkey : (2 ^ 64 - 1 + 1) % 2 ^ 64 = 0 := by decide
  simp only [addListener, hkey]
  cases hcbs : var.cbs with
  | nil => rfl
  | cons c cbs =>
    have hc : 0 < c.1 := hpos c (hcbs ▸ List.mem_cons_self)
    simp [setCb, hc]

/-- **After `delListener(key)`, `getListener(key)` is `nullptr`.** -/
theorem getListener_delListener (var : ConfigVar T W ε) (key : Nat) :
    (var.delListener key).getListener key = none := by
  simp [delListener, getListener, List.find?_filter]

end ConfigVar

/-! ## Runs of calls on the listeners -/

/-- **A call on the listeners of a variable**: `addListener(cb)`,
`delListener(key)`, `clearListener()`, `setValue(v)`, or `addListener` on
another variable of the same type, which moves the shared `s_fun_id` on. -/
inductive ListenerCall (T W ε : Type)
  | add (cb : Listener T W ε)
  | del (key : Nat)
  | clear
  | set (v : T)
  | addElsewhere

namespace ListenerCall

variable {T W ε : Type} [BEq T]

/-- **A call**, on the variable, `s_fun_id` and the rest of the program. -/
def apply : ConfigVar T W ε × Nat × W → ListenerCall T W ε → ConfigVar T W ε × Nat × W
  | (var, n, w), .add cb => ((var.addListener n cb).1, (var.addListener n cb).2, w)
  | (var, n, w), .del key => (var.delListener key, n, w)
  | (var, n, w), .clear => (var.clearListener, n, w)
  | (var, n, w), .set v => ((var.setValue v w).1, n, (var.setValue v w).2.1)
  | (var, n, w), .addElsewhere => (var, (n + 1) % 2 ^ 64, w)

/-- **The same call on the list of listeners in the order of their
addition**: a new listener is appended under the next key. -/
def applyList : List (Nat × Listener T W ε) × Nat → ListenerCall T W ε →
    List (Nat × Listener T W ε) × Nat
  | (cbs, n), .add cb => (cbs ++ [(n + 1, cb)], n + 1)
  | (cbs, n), .del key => (cbs.filter fun c => c.1 ≠ key, n)
  | (_, n), .clear => ([], n)
  | (cbs, n), .set _ => (cbs, n)
  | (cbs, n), .addElsewhere => (cbs, n + 1)

/-- How far a call moves `s_fun_id` on. -/
def advance : ListenerCall T W ε → Nat
  | .add _ | .addElsewhere => 1
  | _ => 0

omit [BEq T] in
/-- The list call moves the counter on by the call's advance. -/
theorem applyList_snd (call : ListenerCall T W ε) (cbs : List (Nat × Listener T W ε)) (n : Nat) :
    (call.applyList (cbs, n)).2 = n + call.advance := by
  cases call <;> rfl

end ListenerCall

namespace ConfigVar

variable {T W ε : Type} [BEq T]

/-- **Every key of the map is at most `s_fun_id`.** -/
def Keyed (cbs : List (Nat × Listener T W ε)) (n : Nat) : Prop := ∀ c ∈ cbs, c.1 ≤ n

/-- **Each call refines the call on the list**, from a map whose keys are at
most the counter, when the counter does not wrap: `setCb` appends, since the
new key is larger than all. -/
theorem apply_refines {var : ConfigVar T W ε} {n : Nat} (w : W) (hk : Keyed var.cbs n)
    (call : ListenerCall T W ε) (hn : n + call.advance < 2 ^ 64) :
    ((call.apply (var, n, w)).1.cbs, (call.apply (var, n, w)).2.1) = call.applyList (var.cbs, n) := by
  cases call with
  | add cb =>
    have hmod : (n + 1) % 2 ^ 64 = n + 1 := Nat.mod_eq_of_lt hn
    have hlt : ∀ c ∈ var.cbs, c.1 < n + 1 := fun c hc => Nat.lt_succ_of_le (hk c hc)
    simp only [ListenerCall.apply, ListenerCall.applyList, addListener, hmod, setCb_of_lt hlt]
  | del key => rfl
  | clear => rfl
  | set v => simp [ListenerCall.apply, ListenerCall.applyList, setValue_cbs]
  | addElsewhere =>
    have hmod : (n + 1) % 2 ^ 64 = n + 1 := Nat.mod_eq_of_lt hn
    simp only [ListenerCall.apply, ListenerCall.applyList, hmod]

omit [BEq T] in
/-- **The list call keeps the keys at most the counter.** -/
theorem Keyed.applyList {cbs : List (Nat × Listener T W ε)} {n : Nat} (hk : Keyed cbs n)
    (call : ListenerCall T W ε) :
    Keyed (call.applyList (cbs, n)).1 (call.applyList (cbs, n)).2 := by
  cases call with
  | add cb =>
    intro c hc
    rcases List.mem_append.mp hc with hc | hc
    · exact Nat.le_succ_of_le (hk c hc)
    · rw [List.mem_singleton.mp hc]
      exact Nat.le_refl _
  | del key => exact fun c hc => hk c (List.mem_filter.mp hc).1
  | clear => exact fun c hc => absurd hc List.not_mem_nil
  | set v => exact hk
  | addElsewhere => exact fun c hc => Nat.le_succ_of_le (hk c hc)

/-- **Every call keeps the keys of the map at most `s_fun_id`.** -/
theorem Keyed.apply {var : ConfigVar T W ε} {n : Nat} (w : W) (hk : Keyed var.cbs n)
    (call : ListenerCall T W ε) (hn : n + call.advance < 2 ^ 64) :
    Keyed (call.apply (var, n, w)).1.cbs (call.apply (var, n, w)).2.1 := by
  have h := apply_refines w hk call hn
  rw [Prod.mk.injEq] at h
  rw [h.1, h.2]
  exact hk.applyList call

/-- **Over a run of calls, the map is the list of the listeners in the order of
their addition, less those deleted or cleared**, from any variable whose keys
are at most the counter, in a run that does not take the counter past
`2^64 - 1`. -/
theorem cbs_run : ∀ (calls : List (ListenerCall T W ε)) {var : ConfigVar T W ε} {n : Nat} (w : W),
    Keyed var.cbs n → n + (calls.map ListenerCall.advance).sum < 2 ^ 64 →
      ((calls.foldl ListenerCall.apply (var, n, w)).1.cbs,
        (calls.foldl ListenerCall.apply (var, n, w)).2.1) =
      calls.foldl ListenerCall.applyList (var.cbs, n)
  | [], _, _, _, _, _ => rfl
  | call :: calls, var, n, w, hk, hn => by
    -- one call refines its list call, and the run goes on from related states
    have hsum : n + call.advance + (calls.map ListenerCall.advance).sum < 2 ^ 64 := by
      simpa [Nat.add_assoc] using hn
    have hstep := apply_refines w hk call (by omega)
    have hk' := Keyed.apply w hk call (by omega)
    have hcount : (call.apply (var, n, w)).2.1 = n + call.advance :=
      (congrArg Prod.snd hstep).trans (call.applyList_snd var.cbs n)
    have hrest : (call.apply (var, n, w)).2.1 + (calls.map ListenerCall.advance).sum < 2 ^ 64 := by
      rw [hcount]
      exact hsum
    rw [List.foldl_cons, List.foldl_cons, ← hstep]
    exact cbs_run calls (call.apply (var, n, w)).2.2 hk' hrest

/-- **From a new variable, every run of calls leaves the listeners registered
in the order they were added, less those deleted or cleared**, while
`s_fun_id` does not wrap: the constructor registers none, and `setValue` then
tells them in this order. -/
theorem cbs_run_new (name : List Char) (defaultValue : T) (description : List Char)
    (calls : List (ListenerCall T W ε)) (n : Nat) (w : W) (hn : n + (calls.map ListenerCall.advance).sum < 2 ^ 64) :
    (calls.foldl ListenerCall.apply ((new name defaultValue description : ConfigVar T W ε), n, w)).1.cbs =
      (calls.foldl ListenerCall.applyList ([], n)).1 :=
  congrArg Prod.fst (cbs_run calls w (fun _ h => absurd h List.not_mem_nil) hn)

/-- Two listeners added to a new variable, the first then deleted. -/
def twoListeners : List (ListenerCall Nat Unit Unit) :=
  [.add (.ofFun fun _ _ w => w), .add (.ofFun fun _ _ w => w), .del 1]

theorem cbs_run_new_two :
    0 + (twoListeners.map ListenerCall.advance).sum < 2 ^ 64 ∧
      ((twoListeners.foldl ListenerCall.apply ((new [] 0 [] : ConfigVar Nat Unit Unit), 0, ())).1.cbs.map
        Prod.fst = [2]) := by
  have h := cbs_run_new [] 0 [] twoListeners 0 () (by decide)
  refine ⟨by decide, ?_⟩
  rw [h]
  rfl

end ConfigVar

end Sylar
