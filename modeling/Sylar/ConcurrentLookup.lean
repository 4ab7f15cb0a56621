/-
# Concurrent `Lookup` calls

`Config::Lookup<T>(name, default_value, description)` runs in two critical
sections: `Lookup<T>(name)` searches the registry under the read lock and
returns the variable it finds; otherwise, after checking the name, the call
makes a new `ConfigVar<T>` and, under the write lock, stores it with
`GetDatas()[name] = v`, replacing whatever is stored there, and returns it.
Calls from several threads are the threads of an interleaving whose atomic
steps are these sections.  Variables are pointers, numbered in the order
`make_shared` makes them; every entry holds a `ConfigVar<T>` of the one type
`T` of the calls, so the cast of `Lookup<T>(name)` succeeds.

Two calls that both search before either stores make two variables, and the
first caller keeps one the registry no longer holds.  When no call searches
while another is between its sections, every call returns the variable the
registry holds.
-/
import Sylar.Config
import Sylar.Interleaving

namespace Sylar

open Interleaving Yaml

namespace ConcurrentLookup

/-- **The registry**: `GetDatas()`, from names to pointers, and the number of
the next variable `make_shared` makes. -/
structure Registry where
  datas : List (List Char × Nat)
  next : Nat

/-- **`GetDatas()[name] = v`**: the entry of the name replaced, or added.  The
order of an `std::unordered_map` is unspecified; the new entry comes first. -/
def setData (datas : List (List Char × Nat)) (name : List Char) (v : Nat) : List (List Char × Nat) :=
  (name, v) :: datas.filter fun e => e.1 != name

/-- Where a `Lookup` call is: before its search, between the search and the
insertion, or returned (`none` when it threw). -/
inductive Pc
  | start
  | missed
  | done (ret : Option Nat)
  deriving DecidableEq, Repr

/-- **A call `Lookup<T>(name, default_value, description)`.** -/
structure Looker where
  name : List Char
  pc : Pc

/-- **One critical section of a call.**  The search returns the variable
found; after a miss, a name with a character not in `nameChars` throws
`std::invalid_argument`, and otherwise a new variable is stored under the
name and returned. -/
def lookupStep (r : Registry) (t : Looker) : Option (Registry × Looker) :=
  match t.pc with
  | .start =>
    match Config.lookupBase r.datas t.name with
    | some p => some (r, { t with pc := .done (some p) })
    | none => some (r, { t with pc := .missed })
  | .missed =>
    if !Config.isValidName t.name then some (r, { t with pc := .done none })
    else some (⟨setData r.datas t.name r.next, r.next + 1⟩, { t with pc := .done (some r.next) })
  | .done _ => none

/-- The calls `Lookup` for each name, none started yet. -/
def init (r : Registry) (names : List (List Char)) : Sys Registry Looker :=
  ⟨r, names.map fun name => ⟨name, .start⟩⟩

/-- **A call searches only when no call is between its sections.** -/
def noOverlap (i : Nat) (c : Sys Registry Looker) : Bool :=
  match c.threads[i]? with
  | some t => t.pc != .start || c.threads.all fun t' => t'.pc != .missed
  | none => true

/-- Storing a variable under a name is what the name then finds. -/
theorem lookupBase_setData (datas : List (List Char × Nat)) (name : List Char) (v : Nat) :
    Config.lookupBase (setData datas name v) name = some v := by
  simp [Config.lookupBase, setData]

/-! ## Runs without overlap -/

/-- **The invariant of runs without overlap**, for calls on one name: at most
one call is between its sections, and then nothing is stored under the name;
every call that returned a variable returned the one stored under the
name. -/
structure Inv (name : List Char) (c : Sys Registry Looker) : Prop where
  names : ∀ (j : Nat) (t : Looker), c.threads[j]? = some t → t.name = name
  single : AtMostOne (fun t : Looker => t.pc = .missed) c.threads
  fresh : ∀ (j : Nat) (t : Looker), c.threads[j]? = some t → t.pc = .missed →
    Config.lookupBase c.shared.datas name = none
  returned : ∀ (j : Nat) (t : Looker), c.threads[j]? = some t → ∀ p, t.pc = .done (some p) →
    Config.lookupBase c.shared.datas name = some p

theorem inv_init (r : Registry) (name : List Char) (n : Nat) : Inv name (init r (List.replicate n name)) := by
  -- every call is on the name, and none has started
  have hstart : ∀ (j : Nat) (t : Looker), (init r (List.replicate n name)).threads[j]? = some t →
      t = ⟨name, .start⟩ := by
    intro j t hj
    simp only [init, List.getElem?_map] at hj
    obtain ⟨name', hname', rfl⟩ := Option.map_eq_some_iff.mp hj
    rw [List.eq_of_mem_replicate (List.mem_of_getElem? hname')]
  refine ⟨fun j t hj => by rw [hstart j t hj], fun j _ tj _ hj _ hpj _ => ?_,
    fun j t hj hpt => ?_, fun j t hj p hpt => ?_⟩
  · rw [hstart j tj hj] at hpj
    exact absurd hpj (by simp)
  · rw [hstart j t hj] at hpt
    exact absurd hpt (by simp)
  · rw [hstart j t hj] at hpt
    exact absurd hpt (by simp)

namespace Inv

variable {name : List Char} {c : Sys Registry Looker} {i : Nat} {t : Looker}

/-- **A call returns from its search, or throws**: nothing shared changes,
and what it returns is stored under the name. -/
theorem of_return (hc : Inv name c) (hi : c.threads[i]? = some t) {ret : Option Nat}
    (hret : ∀ p, ret = some p → Config.lookupBase c.shared.datas name = some p) :
    Inv name ⟨c.shared, c.threads.set i { t with pc := .done ret }⟩ where
  names := forall_set hc.names (hc.names i t hi)
  single := hc.single.set_of_not hi (by simp)
  fresh := forall_set hc.fresh fun hpu => absurd hpu (by simp)
  returned := forall_set hc.returned fun p hp => hret p (Pc.done.inj hp)

/-- **A call misses** while no call is between its sections. -/
theorem of_miss (hc : Inv name c) (hi : c.threads[i]? = some t)
    (hnone : ∀ (j : Nat) (u : Looker), c.threads[j]? = some u → u.pc ≠ .missed)
    (hmiss : Config.lookupBase c.shared.datas name = none) :
    Inv name ⟨c.shared, c.threads.set i { t with pc := .missed }⟩ where
  names := forall_set hc.names (hc.names i t hi)
  single := AtMostOne.set_of_none hnone hi
  fresh _ _ _ _ := hmiss
  returned := forall_set hc.returned fun _ hp => absurd hp (by simp)

/-- **The call between its sections stores a new variable**: no call had
returned one, and the new one is what the name finds. -/
theorem of_store (hc : Inv name c) (hi : c.threads[i]? = some t) (ht : t.pc = .missed) :
    Inv name ⟨⟨setData c.shared.datas t.name c.shared.next, c.shared.next + 1⟩,
      c.threads.set i { t with pc := .done (some c.shared.next) }⟩ where
  names := forall_set hc.names (hc.names i t hi)
  single := hc.single.set_of_not hi (by simp)
  fresh j u hj hpu := by
    -- the moved call was the only one between its sections
    rcases getElem?_set_cases hi hj with ⟨-, rfl⟩ | ⟨hji, hj⟩
    · exact absurd hpu (by simp)
    exact absurd (hc.single j i u t hj hi hpu ht) hji
  returned j u hj p hpu := by
    rw [← hc.names i t hi, lookupBase_setData]
    rcases getElem?_set_cases hi hj with ⟨-, rfl⟩ | ⟨-, hj⟩
    · exact Pc.done.inj hpu
    -- an earlier return would be stored, but nothing is while this call is between its sections
    · have hstored := hc.returned j u hj p hpu
      rw [hc.fresh i t hi ht] at hstored
      exact absurd hstored (by simp)

end Inv

/-- **Every allowed step keeps the invariant.** -/
theorem inv_step {name : List Char} {i : Nat} {c : Sys Registry Looker} (hok : noOverlap i c = true)
    (hc : Inv name c) : Inv name (stepAt lookupStep i c) := by
  refine stepAt_cases hc fun t s t' hi hs => ?_
  have hname := hc.names i t hi
  unfold lookupStep at hs
  cases ht : t.pc with
  | start =>
    simp only [ht] at hs
    -- the scheduled call may search: no call is between its sections
    have hnone : ∀ (j : Nat) (u : Looker), c.threads[j]? = some u → u.pc ≠ .missed := by
      simp only [noOverlap, hi, ht, bne_self_eq_false, Bool.false_or, List.all_eq_true,
        bne_iff_ne, ne_eq] at hok
      exact fun j u hj => hok u (List.mem_of_getElem? hj)
    cases hfind : Config.lookupBase c.shared.datas t.name with
    | some p =>
      rw [hfind] at hs
      obtain ⟨rfl, rfl⟩ := Prod.mk.inj (Option.some.inj hs)
      exact hc.of_return hi fun q hq => hname ▸ hfind.trans hq
    | none =>
      rw [hfind] at hs
      obtain ⟨rfl, rfl⟩ := Prod.mk.inj (Option.some.inj hs)
      exact hc.of_miss hi hnone (hname ▸ hfind)
  | missed =>
    simp only [ht] at hs
    split at hs
    · obtain ⟨rfl, rfl⟩ := Prod.mk.inj (Option.some.inj hs)
      exact hc.of_return hi fun q hq => absurd hq (by simp)
    · obtain ⟨rfl, rfl⟩ := Prod.mk.inj (Option.some.inj hs)
      exact hc.of_store hi ht
  | done r =>
    simp only [ht] at hs
    exact absurd hs (by simp)

/-- **Concurrent `Lookup` calls on one name, none of which searches while
another is between its sections, return the variable the registry holds**,
and so all the same one. -/
theorem lookup_returns_registered (r : Registry) (name : List Char) (n : Nat) (sched : List Nat)
    (hsched : allowed lookupStep noOverlap sched (init r (List.replicate n name)) = true) :
    ∀ t ∈ (run lookupStep sched (init r (List.replicate n name))).threads, ∀ p, t.pc = .done (some p) →
      Config.lookupBase (run lookupStep sched (init r (List.replicate n name))).shared.datas name =
        some p := by
  have hinv := run_preserves (fun _ _ hok hc => inv_step hok hc) sched _ hsched (inv_init r name n)
  intro t ht p hpt
  obtain ⟨j, hj⟩ := List.mem_iff_getElem?.mp ht
  exact hinv.returned j t hj p hpt

/-! ## Two calls -/

/-- `Lookup("a", ...)` twice on an empty registry, each search before the
other's insertion. -/
def raceRun : Sys Registry Looker :=
  run lookupStep [0, 1, 0, 1] (init ⟨[], 0⟩ ["a".toList, "a".toList])

/-- A document setting `a`. -/
def aDocument : Node := .map [(.scalar "a".toList, .scalar "5".toList)]

/-- **Two racing calls make two variables.**  Both searches miss; each call
stores its own variable, the second replacing the first.  The first caller
holds variable `0`, which the registry no longer holds: `LoadFromYaml` of a
document setting `a` updates variable `1` only. -/
theorem lookup_race_two_variables (y : Lib) :
    raceRun.threads.map Looker.pc = [.done (some 0), .done (some 1)] ∧
      Config.lookupBase raceRun.shared.datas "a".toList = some 1 ∧
      Config.deliveries raceRun.shared.datas y aDocument = [(1, "5".toList)] :=
  ⟨rfl, rfl, rfl⟩

end ConcurrentLookup

end Sylar
