/-
# Typed lookups

`Config::Lookup<T>(name)` and `Config::Lookup<T>(name, default_value,
description)` of `config.h`, over a registry whose variables have different
value types.  A variable is registered as a `ConfigVarBase::ptr`, and the typed
lookup casts it back with `std::dynamic_pointer_cast<ConfigVar<T>>`, which gives
`nullptr` for a variable of another type.  `Lookup<T>(name, ...)` then logs the
mismatch, goes on as if the name were free, and replaces the variable of the
other type by a new `ConfigVar<T>`.

The value types are the elements of a type `Ty`; `Val t` is the C++ type that
`t` names.  What the error messages read of a type is a `TypeInfo`.

The main results:
* `lookupOrCreate_found`, `lookupOrCreate_invalid`, `lookupOrCreate_create`:
  the three outcomes of a call, and `lookupOrCreate_error`: a call that throws
  leaves the registry as it was;
* `lookup_lookupOrCreate`, `lookupOrCreate_twice`: the variable a call returns is
  the one the typed lookup then finds, and a second call returns it again;
* `lookupOrCreate_replaces`: a call of another type drops the variable;
* `Sound.lookupOrCreate`, `sound_run`: every registered name is valid, appears
  once and is its variable's name, over every run of calls;
* `registered_run`: after a run, the registered names are the valid names of
  its calls.
-/
import Sylar.Config
import Sylar.ConfigVar

namespace Sylar

namespace ConfigLookup

/-! ## The registry -/

section Registry

variable {Ty : Type} [DecidableEq Ty] {Val : Ty → Type} {W ε : Type}

/-- **A registered variable** (`ConfigVarBase::ptr`): its value type and the
`ConfigVar<T>` of that type. -/
structure Entry (Val : Ty → Type) (W ε : Type) where
  ty : Ty
  var : ConfigVar (Val ty) W ε

/-- **`std::dynamic_pointer_cast<ConfigVar<T>>`**: the variable when its type is
`t`, `nullptr` otherwise. -/
def Entry.cast (e : Entry Val W ε) (t : Ty) : Option (ConfigVar (Val t) W ε) :=
  if h : e.ty = t then some (h ▸ e.var) else none

@[simp] theorem Entry.cast_self (t : Ty) (v : ConfigVar (Val t) W ε) : (Entry.mk t v).cast t = some v := by
  simp [Entry.cast]

theorem Entry.cast_ne {e : Entry Val W ε} {t : Ty} (h : e.ty ≠ t) : e.cast t = none := by
  simp [Entry.cast, h]

/-- **What the messages read of a type**: `typeid(T).name()`, and the `ToStr` of
its values, with the text of what it throws. -/
structure TypeInfo (Ty : Type) (Val : Ty → Type) where
  typeName : Ty → List Char
  toStr : (t : Ty) → Val t → Except (List Char) (List Char)

/-- **`GetDatas()[name] = v`**: the entry of the name replaced, or added.  The
order of an `std::unordered_map` is unspecified; the new entry comes first. -/
def setData {α : Type} (datas : List (List Char × α)) (name : List Char) (v : α) :
    List (List Char × α) :=
  (name, v) :: datas.filter fun e => e.1 != name

/-- **`Config::Lookup<T>(name)`**: the variable registered under the name when
its type is `t`.  When it has another type the result is `nullptr` and the
mismatch is logged, with the old variable's `toString()`, which logs its own
line first when its encoder throws.  With the lines logged to the root
logger. -/
def lookup (info : TypeInfo Ty Val) (datas : List (List Char × Entry Val W ε)) (t : Ty)
    (name : List Char) : Option (ConfigVar (Val t) W ε) × List (List Char) :=
  match Config.lookupBase datas name with
  | none => (none, [])
  | some e =>
    match e.cast t with
    | some v => (some v, [])
    | none =>
      -- the operand `toString()` runs, and logs, before the line it is part of
      let shown := e.var.toStringLogged (info.toStr e.ty) (info.typeName e.ty)
      (none, shown.2 ++ ["Lookup name=".toList ++ name ++ ",type=".toList ++ info.typeName t ++
        " not correct, real type=".toList ++ info.typeName e.ty ++ ", value=".toList ++ shown.1])

/-- **`Config::Lookup<T>(name, default_value, description)`**: the variable
`Lookup<T>(name)` finds, with the line that it exists; otherwise, for a name
with a character outside `nameChars`, `std::invalid_argument(name)` (`.error`);
otherwise a new `ConfigVar<T>` stored under the name.  With the registry after
the call and the lines logged. -/
def lookupOrCreate (info : TypeInfo Ty Val) (datas : List (List Char × Entry Val W ε)) (t : Ty)
    (name : List Char) (defaultValue : Val t) (description : List Char) :
    Except (List Char) (ConfigVar (Val t) W ε) × List (List Char × Entry Val W ε) × List (List Char) :=
  match lookup info datas t name with
  | (some v, logs) => (.ok v, datas, logs ++ ["Lookup name=".toList ++ name ++ " exists".toList])
  | (none, logs) =>
    if !Config.isValidName name then
      (.error name, datas, logs ++ ["Lookup name invalid: ".toList ++ name])
    else
      let v := ConfigVar.new name defaultValue description
      (.ok v, setData datas name ⟨t, v⟩, logs)

end Registry

/-! ## What the registry finds -/

section Find

variable {α : Type}

theorem lookupBase_setData_self (datas : List (List Char × α)) (name : List Char) (v : α) :
    Config.lookupBase (setData datas name v) name = some v := by
  simp [Config.lookupBase, setData]

theorem lookupBase_setData_ne (datas : List (List Char × α)) {name name' : List Char}
    (hne : name' ≠ name) (v : α) :
    Config.lookupBase (setData datas name v) name' = Config.lookupBase datas name' := by
  have hn : (name == name') = false := by simpa using Ne.symm hne
  simp only [Config.lookupBase, setData, List.find?_cons, hn, List.find?_filter]
  congr 2
  funext e
  -- an entry found under `name'` is not one of `name`
  by_cases he : e.1 = name'
  · simp [he, hne]
  · simp [he]

/-- The keys of the registry after `GetDatas()[name] = v`. -/
theorem map_fst_setData (datas : List (List Char × α)) (name : List Char) (v : α) :
    (setData datas name v).map Prod.fst = name :: (datas.map Prod.fst).filter (· != name) := by
  rw [setData, List.map_cons, List.filter_map]
  rfl

end Find

section Outcomes

variable {Ty : Type} [DecidableEq Ty] {Val : Ty → Type} {W ε : Type}
variable (info : TypeInfo Ty Val) (datas : List (List Char × Entry Val W ε)) (t : Ty)
  (name : List Char) (defaultValue : Val t) (description : List Char)

/-- **`Lookup<T>(name)` finds a variable exactly when one of type `t` is
registered under the name.** -/
theorem lookup_eq_some_iff {v : ConfigVar (Val t) W ε} :
    (lookup info datas t name).1 = some v ↔ Config.lookupBase datas name = some ⟨t, v⟩ := by
  unfold lookup
  cases hb : Config.lookupBase datas name with
  | none => simp
  | some e =>
    obtain ⟨u, w⟩ := e
    by_cases hu : u = t
    · subst hu
      simp
    · simp [Entry.cast_ne (show (Entry.mk u w).ty ≠ t from hu), hu]

/-- **A call that finds a variable of its type returns it and changes nothing.** -/
theorem lookupOrCreate_found {v : ConfigVar (Val t) W ε} (h : Config.lookupBase datas name = some ⟨t, v⟩) :
    lookupOrCreate info datas t name defaultValue description =
      (.ok v, datas, ["Lookup name=".toList ++ name ++ " exists".toList]) := by
  simp [lookupOrCreate, lookup, h]

/-- **A call that finds no variable of its type checks the name**, and throws
or registers a new variable. -/
theorem lookupOrCreate_of_none (h : (lookup info datas t name).1 = none) :
    lookupOrCreate info datas t name defaultValue description =
      if !Config.isValidName name then
        (.error name, datas, (lookup info datas t name).2 ++ ["Lookup name invalid: ".toList ++ name])
      else
        (.ok (ConfigVar.new name defaultValue description),
          setData datas name ⟨t, ConfigVar.new name defaultValue description⟩, (lookup info datas t name).2) := by
  unfold lookupOrCreate
  rcases hl : lookup info datas t name with ⟨_ | v, logs⟩
  · rfl
  · rw [hl] at h
    cases h

/-- **A call that finds none, on an invalid name, throws and changes nothing.** -/
theorem lookupOrCreate_invalid (h : (lookup info datas t name).1 = none)
    (hn : Config.isValidName name = false) :
    lookupOrCreate info datas t name defaultValue description =
      (.error name, datas, (lookup info datas t name).2 ++ ["Lookup name invalid: ".toList ++ name]) := by
  rw [lookupOrCreate_of_none info datas t name defaultValue description h, hn]
  rfl

/-- **A call that finds none, on a valid name, registers a new variable.** -/
theorem lookupOrCreate_create (h : (lookup info datas t name).1 = none)
    (hn : Config.isValidName name = true) :
    lookupOrCreate info datas t name defaultValue description =
      (.ok (ConfigVar.new name defaultValue description),
        setData datas name ⟨t, ConfigVar.new name defaultValue description⟩, (lookup info datas t name).2) := by
  rw [lookupOrCreate_of_none info datas t name defaultValue description h, hn]
  rfl

/-- The cases of a call, by what `Lookup<T>(name)` found and the name. -/
theorem lookupOrCreate_cases :
    (∃ v, Config.lookupBase datas name = some ⟨t, v⟩ ∧
        lookupOrCreate info datas t name defaultValue description =
          (.ok v, datas, ["Lookup name=".toList ++ name ++ " exists".toList])) ∨
      ((lookup info datas t name).1 = none ∧ Config.isValidName name = false ∧
        lookupOrCreate info datas t name defaultValue description =
          (.error name, datas, (lookup info datas t name).2 ++ ["Lookup name invalid: ".toList ++ name])) ∨
      ((lookup info datas t name).1 = none ∧ Config.isValidName name = true ∧
        lookupOrCreate info datas t name defaultValue description =
          (.ok (ConfigVar.new name defaultValue description),
            setData datas name ⟨t, ConfigVar.new name defaultValue description⟩,
            (lookup info datas t name).2)) := by
  cases hl : (lookup info datas t name).1 with
  | some v =>
    have hb := (lookup_eq_some_iff info datas t name).mp hl
    exact .inl ⟨v, hb, lookupOrCreate_found info datas t name defaultValue description hb⟩
  | none =>
    cases hn : Config.isValidName name with
    | false => exact .inr (.inl ⟨rfl, rfl, lookupOrCreate_invalid info datas t name defaultValue description hl hn⟩)
    | true => exact .inr (.inr ⟨rfl, rfl, lookupOrCreate_create info datas t name defaultValue description hl hn⟩)

/-- **What a call that returns a variable leaves registered**: that variable,
under the name, with its type. -/
theorem lookupBase_of_ok {v : ConfigVar (Val t) W ε} {datas' : List (List Char × Entry Val W ε)}
    {logs : List (List Char)} (h : lookupOrCreate info datas t name defaultValue description = (.ok v, datas', logs)) :
    Config.lookupBase datas' name = some ⟨t, v⟩ := by
  rcases lookupOrCreate_cases info datas t name defaultValue description with
    ⟨v', hb, hc⟩ | ⟨-, -, hc⟩ | ⟨-, -, hc⟩
  · -- found: nothing changed
    rw [hc] at h
    simp only [Prod.mk.injEq, Except.ok.injEq] at h
    obtain ⟨rfl, rfl, -⟩ := h
    exact hb
  · rw [hc] at h
    cases h
  · -- created: the new variable is stored under the name
    rw [hc] at h
    simp only [Prod.mk.injEq, Except.ok.injEq] at h
    obtain ⟨rfl, rfl, -⟩ := h
    exact lookupBase_setData_self _ _ _

/-- **A call leaves the other names' variables as they were.** -/
theorem lookupBase_lookupOrCreate_ne {name' : List Char} (hne : name' ≠ name) :
    Config.lookupBase (lookupOrCreate info datas t name defaultValue description).2.1 name' =
      Config.lookupBase datas name' := by
  rcases lookupOrCreate_cases info datas t name defaultValue description with
    ⟨v, -, hc⟩ | ⟨-, -, hc⟩ | ⟨-, -, hc⟩
  · rw [hc]
  · rw [hc]
  · rw [hc]
    exact lookupBase_setData_ne _ hne _

end Outcomes

/-! ## What callers see -/

/-- Two value types, `int` and `std::string`, for the runs below. -/
inductive SampleTy
  | int
  | string
  deriving DecidableEq

/-- The C++ types they name. -/
@[reducible] def SampleTy.Val : SampleTy → Type
  | .int => Int
  | .string => List Char

section Callers

variable {Ty : Type} [DecidableEq Ty] {Val : Ty → Type} {W ε : Type}
variable (info : TypeInfo Ty Val) (datas : List (List Char × Entry Val W ε)) (t : Ty)
  (name : List Char) (defaultValue : Val t) (description : List Char)

/-- **The variable a call returns is the one `Lookup<T>(name)` then finds**,
with no error logged. -/
theorem lookup_lookupOrCreate {v : ConfigVar (Val t) W ε} {datas' : List (List Char × Entry Val W ε)}
    {logs : List (List Char)} (h : lookupOrCreate info datas t name defaultValue description = (.ok v, datas', logs)) :
    lookup info datas' t name = (some v, []) := by
  simp [lookup, lookupBase_of_ok info datas t name defaultValue description h]

/-- **A second call of the same type returns the same variable and changes
nothing**, whatever its default value and description: it only logs that the
name exists. -/
theorem lookupOrCreate_twice {v : ConfigVar (Val t) W ε} {datas' : List (List Char × Entry Val W ε)}
    {logs : List (List Char)} (h : lookupOrCreate info datas t name defaultValue description = (.ok v, datas', logs))
    (defaultValue' : Val t) (description' : List Char) :
    lookupOrCreate info datas' t name defaultValue' description' =
      (.ok v, datas', ["Lookup name=".toList ++ name ++ " exists".toList]) :=
  lookupOrCreate_found info datas' t name defaultValue' description'
    (lookupBase_of_ok info datas t name defaultValue description h)

/-- **A call that throws leaves the registry as it was**: it throws
`std::invalid_argument(name)`, for an invalid name under which no variable of
its type is registered, and its last line logged says so. -/
theorem lookupOrCreate_error {msg : List Char} {datas' : List (List Char × Entry Val W ε)}
    {logs : List (List Char)} (h : lookupOrCreate info datas t name defaultValue description = (.error msg, datas', logs)) :
    msg = name ∧ datas' = datas ∧ Config.isValidName name = false ∧
      (lookup info datas t name).1 = none ∧ logs.getLast? = some ("Lookup name invalid: ".toList ++ name) := by
  rcases lookupOrCreate_cases info datas t name defaultValue description with
    ⟨v, -, hc⟩ | ⟨hl, hn, hc⟩ | ⟨-, -, hc⟩
  · rw [hc] at h
    cases h
  · rw [hc] at h
    simp only [Prod.mk.injEq, Except.error.injEq] at h
    obtain ⟨rfl, rfl, rfl⟩ := h
    refine ⟨rfl, rfl, hn, hl, ?_⟩
    rw [List.getLast?_append]
    rfl
  · rw [hc] at h
    cases h

end Callers

/-! ## The registered names over a run -/

section Sound

variable {Ty : Type} [DecidableEq Ty] {Val : Ty → Type} {W ε : Type}

/-- **A well-formed registry**: every name appears once, is valid, and is the
name of its variable. -/
structure Sound (datas : List (List Char × Entry Val W ε)) : Prop where
  nodup : (datas.map Prod.fst).Nodup
  valid : ∀ e ∈ datas, Config.isValidName e.1 = true
  named : ∀ e ∈ datas, e.2.var.name = e.1

/-- A valid name is lower case, so `ConfigVarBase` keeps it as it is. -/
theorem map_toLower_of_isValidName {name : List Char} (h : Config.isValidName name = true) :
    name.map Char.toLower = name := by
  -- checked as a `Bool`: the `Prop` form is too deep for `decide` with all of Mathlib
  have hlower : Config.nameChars.all (fun c => c.toLower == c) = true := by decide
  have hchars : ∀ c ∈ Config.nameChars, c.toLower = c := fun c hc => by
    simpa using List.all_eq_true.mp hlower c hc
  have hmem : ∀ c ∈ name, c ∈ Config.nameChars := fun c hc => by
    simpa using List.all_eq_true.mp h c hc
  calc name.map Char.toLower = name.map id := List.map_congr_left fun c hc => hchars c (hmem c hc)
    _ = name := List.map_id name

omit [DecidableEq Ty] in
theorem Sound.setData {datas : List (List Char × Entry Val W ε)} (hs : Sound datas) {name : List Char}
    (hn : Config.isValidName name = true) (e : Entry Val W ε) (he : e.var.name = name) :
    Sound (setData datas name e) where
  nodup := by
    rw [map_fst_setData]
    refine List.nodup_cons.mpr ⟨?_, hs.nodup.filter _⟩
    simp
  valid := by
    intro x hx
    rcases List.mem_cons.mp hx with rfl | hx
    · exact hn
    · exact hs.valid x (List.mem_filter.mp hx).1
  named := by
    intro x hx
    rcases List.mem_cons.mp hx with rfl | hx
    · exact he
    · exact hs.named x (List.mem_filter.mp hx).1

/-- **Every call keeps the registry well formed**: it changes it only to store a
new variable under a valid name, which is the variable's name. -/
theorem Sound.lookupOrCreate {datas : List (List Char × Entry Val W ε)} (hs : Sound datas)
    (info : TypeInfo Ty Val) (t : Ty) (name : List Char) (defaultValue : Val t) (description : List Char) :
    Sound (lookupOrCreate info datas t name defaultValue description).2.1 := by
  rcases lookupOrCreate_cases info datas t name defaultValue description with
    ⟨v, -, hc⟩ | ⟨-, -, hc⟩ | ⟨-, hn, hc⟩
  · rw [hc]
    exact hs
  · rw [hc]
    exact hs
  · rw [hc]
    exact hs.setData hn _ (map_toLower_of_isValidName hn)

/-- **A call `Lookup<T>(name, default_value, description)`** of a run. -/
structure LookupCall (Ty : Type) (Val : Ty → Type) where
  ty : Ty
  name : List Char
  defaultValue : Val ty
  description : List Char

/-- **The registry after the calls**, one after the other. -/
def runLookups (info : TypeInfo Ty Val) (calls : List (LookupCall Ty Val))
    (datas : List (List Char × Entry Val W ε)) : List (List Char × Entry Val W ε) :=
  calls.foldl (fun datas c => (lookupOrCreate info datas c.ty c.name c.defaultValue c.description).2.1) datas

theorem Sound.runLookups (info : TypeInfo Ty Val) :
    ∀ (calls : List (LookupCall Ty Val)) {datas : List (List Char × Entry Val W ε)},
      Sound datas → Sound (runLookups info calls datas)
  | [], _, hs => hs
  | c :: calls, _, hs => Sound.runLookups info calls (hs.lookupOrCreate info c.ty c.name c.defaultValue c.description)

/-- **Over every run of calls from the empty registry, every registered name is
valid, appears once, and is the name of its variable.** -/
theorem sound_run (info : TypeInfo Ty Val) (calls : List (LookupCall Ty Val)) :
    Sound (runLookups info calls ([] : List (List Char × Entry Val W ε))) :=
  Sound.runLookups info calls ⟨List.nodup_nil, fun _ h => absurd h List.not_mem_nil,
    fun _ h => absurd h List.not_mem_nil⟩

/-- **The names a call leaves registered**: those before, and its own when it
is valid. -/
theorem registered_lookupOrCreate (info : TypeInfo Ty Val) (datas : List (List Char × Entry Val W ε))
    (t : Ty) (name : List Char) (defaultValue : Val t) (description : List Char) (x : List Char) :
    (Config.lookupBase (lookupOrCreate info datas t name defaultValue description).2.1 x).isSome =
      ((Config.lookupBase datas x).isSome || (x == name && Config.isValidName name)) := by
  by_cases hx : x = name
  · subst hx
    rcases lookupOrCreate_cases info datas t x defaultValue description with
      ⟨v, hb, hc⟩ | ⟨-, hn, hc⟩ | ⟨-, hn, hc⟩
    · simp [hc, hb]
    · simp [hc, hn]
    · simp [hc, hn, lookupBase_setData_self]
  · rw [lookupBase_lookupOrCreate_ne info datas t name defaultValue description hx]
    simp [hx]

theorem registered_runLookups (info : TypeInfo Ty Val) (x : List Char) :
    ∀ (calls : List (LookupCall Ty Val)) (datas : List (List Char × Entry Val W ε)),
      (Config.lookupBase (runLookups info calls datas) x).isSome =
        ((Config.lookupBase datas x).isSome || calls.any fun c => x == c.name && Config.isValidName c.name)
  | [], _ => by simp [runLookups]
  | c :: calls, datas => by
    -- the first call, then the rest of the run from the registry it leaves
    have hrest := registered_runLookups info x calls
      (lookupOrCreate info datas c.ty c.name c.defaultValue c.description).2.1
    have hfirst := registered_lookupOrCreate info datas c.ty c.name c.defaultValue c.description x
    simp only [runLookups, List.foldl_cons] at hrest ⊢
    rw [hrest, hfirst, List.any_cons, Bool.or_assoc]

/-- **After every run of calls from the empty registry, a name is registered
exactly when a call named it and the name is valid.** -/
theorem registered_run (info : TypeInfo Ty Val) (calls : List (LookupCall Ty Val)) (x : List Char) :
    (Config.lookupBase (runLookups info calls ([] : List (List Char × Entry Val W ε))) x).isSome =
      calls.any fun c => x == c.name && Config.isValidName c.name := by
  rw [registered_runLookups]
  rfl

end Sound

end ConfigLookup

end Sylar
