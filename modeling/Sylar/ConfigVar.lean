/-
# Config variables

`ConfigVar<T>` of `config.h`: a value, and the listeners that are told of each
change.  A listener acts on the rest of the program, of type `W`, and may throw
an exception of type `ε`; what it did before throwing stays done.  The codecs
`FromStr` and `ToStr` are parameters here (`none` when they throw); the
`LexicalCast` instances are modelled in their own module.

This module gives the meaning of each method run alone, its critical sections
back to back.
-/
import Mathlib.Data.List.Basic
import Mathlib.Algebra.Group.Nat.Defs

namespace Sylar

/-- **`ConfigVar<T>::on_change_cb`**: called with the old and the new value, it
gives the program after its effects and the exception it threw, if any. -/
def Listener (T W ε : Type) : Type := T → T → W → W × Option ε

/-- A listener that never throws. -/
def Listener.ofFun {T W ε : Type} (f : T → T → W → W) : Listener T W ε :=
  fun old new w => (f old new w, none)

/-- **`ConfigVar<T>`**: `m_name` (lower-cased by `ConfigVarBase`),
`m_description`, `m_val`, and `m_cbs`, the listeners by key in increasing key
order (a `std::map`). -/
structure ConfigVar (T W ε : Type) where
  name : List Char
  description : List Char
  val : T
  cbs : List (Nat × Listener T W ε)

namespace ConfigVar

variable {T W ε : Type}

/-- **The constructor**: `ConfigVarBase` lower-cases the name; no listener. -/
def new (name : List Char) (defaultValue : T) (description : List Char) : ConfigVar T W ε :=
  ⟨name.map Char.toLower, description, defaultValue, []⟩

/-- `ConfigVar::getValue`. -/
def getValue (var : ConfigVar T W ε) : T := var.val

/-- **The loop of `setValue`**: each listener in key order, until one throws. -/
def notify (old new : T) : List (Nat × Listener T W ε) → W → W × Option ε
  | [], w => (w, none)
  | cb :: cbs, w =>
    match cb.2 old new w with
    | (w', none) => notify old new cbs w'
    | (w', some e) => (w', some e)

/-- **`ConfigVar::setValue`**: nothing when the value is equal under `T`'s
`operator==`; otherwise the listeners are told `(m_val, v)` and the value is
assigned, unless a listener threw, which leaves `setValue` before the
assignment. -/
def setValue [BEq T] (var : ConfigVar T W ε) (v : T) (w : W) :
    ConfigVar T W ε × W × Option ε :=
  if v == var.val then (var, w, none)
  else
    match notify var.val v var.cbs w with
    | (w', none) => ({ var with val := v }, w', none)
    | (w', some e) => (var, w', some e)

/-- **`ConfigVar::fromString`**: `setValue` of the decoded text; `false` when the
decoder (`none`) or a listener throws. -/
def fromString [BEq T] (fromStr : List Char → Option T) (var : ConfigVar T W ε)
    (val : List Char) (w : W) : ConfigVar T W ε × W × Bool :=
  match fromStr val with
  | none => (var, w, false)
  | some v =>
    match var.setValue v w with
    | (var', w', none) => (var', w', true)
    | (var', w', some _) => (var', w', false)

/-- **`ConfigVar::toString`**: the encoded value, `"..."` when the encoder throws
(`none`). -/
def toString (toStr : T → Option (List Char)) (var : ConfigVar T W ε) : List Char :=
  match toStr var.val with
  | some s => s
  | none => "...".toList

/-- **`ConfigVar::toString` with the line it logs**: the encoded value; when
the encoder throws, with `e.what()` the exception's text, `"..."` and the line
its `catch` logs to the root logger, which names `typeid(m_val).name()`. -/
def toStringLogged (toStr : T → Except (List Char) (List Char)) (typeName : List Char)
    (var : ConfigVar T W ε) : List Char × List (List Char) :=
  match toStr var.val with
  | .ok s => (s, [])
  | .error what =>
    ("...".toList, ["ConfigVar::toString exception ".toList ++ what ++ " convert: ".toList ++ typeName ++
      " to string".toList])

/-- The text `toStringLogged` gives is `toString`'s, for the encoder that
forgets what it threw. -/
theorem toStringLogged_fst (toStr : T → Except (List Char) (List Char)) (typeName : List Char)
    (var : ConfigVar T W ε) : (var.toStringLogged toStr typeName).1 = var.toString fun v => (toStr v).toOption := by
  unfold toStringLogged toString
  cases h : toStr var.val <;> simp [h, Except.toOption]

/-- `m_cbs[key] = cb` on the `std::map`: replaced, or inserted in key order. -/
def setCb (key : Nat) (cb : Listener T W ε) :
    List (Nat × Listener T W ε) → List (Nat × Listener T W ε)
  | [] => [(key, cb)]
  | (k, c) :: cbs =>
    if key < k then (key, cb) :: (k, c) :: cbs
    else if key = k then (key, cb) :: cbs
    else (k, c) :: setCb key cb cbs

/-- **`ConfigVar::addListener`**: `++s_fun_id` on the `uint64_t` counter that
all variables of one type `T` share, then the listener under its new value. -/
def addListener (var : ConfigVar T W ε) (sFunId : Nat) (cb : Listener T W ε) :
    ConfigVar T W ε × Nat :=
  let key := (sFunId + 1) % 2 ^ 64
  ({ var with cbs := setCb key cb var.cbs }, key)

/-- `ConfigVar::delListener`. -/
def delListener (var : ConfigVar T W ε) (key : Nat) : ConfigVar T W ε :=
  { var with cbs := var.cbs.filter fun cb => cb.1 ≠ key }

/-- `ConfigVar::getListener`: `none` for `nullptr`. -/
def getListener (var : ConfigVar T W ε) (key : Nat) : Option (Listener T W ε) :=
  (var.cbs.find? fun cb => cb.1 = key).map Prod.snd

/-- `ConfigVar::clearListener`. -/
def clearListener (var : ConfigVar T W ε) : ConfigVar T W ε := { var with cbs := [] }

/-- `setValue` leaves the listeners as they are. -/
theorem setValue_cbs [BEq T] (var : ConfigVar T W ε) (v : T) (w : W) :
    (var.setValue v w).1.cbs = var.cbs := by
  unfold setValue
  split
  · rfl
  · split <;> rfl

/-- **`fromString(toString())` on a value whose text decodes back to an equal
value** returns `true` and changes nothing: `setValue` finds the value equal
and returns before any listener is told. -/
theorem fromString_toString_of_decodes [BEq T] {fromStr : List Char → Option T}
    {toStr : T → Option (List Char)} (var : ConfigVar T W ε) (w : W) {s : List Char} {v : T}
    (henc : toStr var.val = some s) (hdec : fromStr s = some v) (heq : (v == var.val) = true) :
    var.fromString fromStr (var.toString toStr) w = (var, w, true) := by
  have hset : var.setValue v w = (var, w, none) := by
    rw [setValue, if_pos heq]
  rw [toString, henc]
  simp only [fromString, hdec, hset]

/-! ## Listeners that do not throw -/

/-- **Listeners that do not throw are all told**, in key order. -/
theorem notify_ofFun (old new : T) :
    ∀ (fs : List (Nat × (T → T → W → W))) (w : W),
      notify old new (fs.map fun f => (f.1, (Listener.ofFun f.2 : Listener T W ε))) w =
        (fs.foldl (fun w f => f.2 old new w) w, none)
  | [], _ => rfl
  | f :: fs, w => notify_ofFun old new fs (f.2 old new w)

/-- **`setValue` with listeners that do not throw.** -/
theorem setValue_ofFun [BEq T] (var : ConfigVar T W ε) (fs : List (Nat × (T → T → W → W)))
    (hcbs : var.cbs = fs.map fun f => (f.1, Listener.ofFun f.2)) (v : T) (w : W) :
    var.setValue v w =
      if v == var.val then (var, w, none)
      else ({ var with val := v }, fs.foldl (fun w f => f.2 var.val v w) w, none) := by
  unfold setValue
  split
  · rfl
  · rw [hcbs, notify_ofFun]

/-! ## What a call did -/

/-- **The listeners `cbs`, told `(old, new)` in turn from `w` and none
throwing, leave the program at `w'`**: each was called once, in key order. -/
def Told (old new : T) : List (Nat × Listener T W ε) → W → W → Prop
  | [], w, w' => w' = w
  | cb :: cbs, w, w' => ∃ w₁, cb.2 old new w = (w₁, none) ∧ Told old new cbs w₁ w'

/-- **The loop of `setValue`, when no listener throws**, told every one. -/
theorem told_of_notify {old new : T} :
    ∀ {cbs : List (Nat × Listener T W ε)} {w w' : W}, notify old new cbs w = (w', none) →
      Told old new cbs w w'
  | [], _, _, h => (Prod.mk.inj h).1.symm
  | cb :: cbs, w, w', h => by
    rw [notify] at h
    rcases hcb : cb.2 old new w with ⟨w₁, _ | e⟩
    · simp only [hcb] at h
      exact ⟨w₁, hcb, told_of_notify h⟩
    · simp only [hcb, Prod.mk.injEq, reduceCtorEq, and_false] at h

/-- **The loop of `setValue`, when a listener throws**: the listeners before it
in key order were each told, then it was, and no later one. -/
theorem thrower_of_notify {old new : T} {e : ε} :
    ∀ {cbs : List (Nat × Listener T W ε)} {w w' : W}, notify old new cbs w = (w', some e) →
      ∃ pre cb post w₁, cbs = pre ++ cb :: post ∧ Told old new pre w w₁ ∧ cb.2 old new w₁ = (w', some e)
  | [], _, _, h => by simp [notify] at h
  | cb :: cbs, w, w', h => by
    rw [notify] at h
    rcases hcb : cb.2 old new w with ⟨w₁, _ | e'⟩
    · simp only [hcb] at h
      obtain ⟨pre, cb', post, w₂, rfl, htold, hthrow⟩ := thrower_of_notify h
      exact ⟨cb :: pre, cb', post, w₂, rfl, ⟨w₁, hcb, htold⟩, hthrow⟩
    · -- the first listener threw
      simp only [hcb] at h
      exact ⟨[], cb, cbs, w, rfl, rfl, hcb.trans h⟩

/-- **What a call `fromString(s)` did, by what it returned.**  On `true` the
text decoded, and either the decoded value compared equal to `m_val` and
nothing changed, or `getValue()` is the decoded value and every listener was
told `(previous, decoded)` once, in key order.  On `false` the variable is as
it was, and either the text did not decode and nothing else changed, or a
listener threw: those before it in key order were each told
`(previous, decoded)` once, then it was, and none after it. -/
theorem fromString_outcome [BEq T] {fromStr : List Char → Option T} {var var' : ConfigVar T W ε}
    {s : List Char} {w w' : W} {ok : Bool} (h : var.fromString fromStr s w = (var', w', ok)) :
    (ok = true → ∃ v, fromStr s = some v ∧
        ((v == var.val) = true ∧ var' = var ∧ w' = w ∨
          (v == var.val) = false ∧ var' = { var with val := v } ∧ Told var.val v var.cbs w w')) ∧
      (ok = false → var' = var ∧
        (fromStr s = none ∧ w' = w ∨
          ∃ v, fromStr s = some v ∧ (v == var.val) = false ∧
            ∃ pre cb post w₁ e, var.cbs = pre ++ cb :: post ∧ Told var.val v pre w w₁ ∧
              cb.2 var.val v w₁ = (w', some e))) := by
  unfold fromString at h
  cases hdec : fromStr s with
  | none =>
    -- the decoder threw
    simp only [hdec, Prod.mk.injEq] at h
    obtain ⟨rfl, rfl, rfl⟩ := h
    exact ⟨fun hok => absurd hok (by simp), fun _ => ⟨rfl, .inl ⟨rfl, rfl⟩⟩⟩
  | some v =>
    simp only [hdec] at h
    unfold setValue at h
    by_cases heq : (v == var.val) = true
    · -- an equal value: `setValue` returns at once
      simp only [heq, ↓reduceIte, Prod.mk.injEq] at h
      obtain ⟨rfl, rfl, rfl⟩ := h
      exact ⟨fun _ => ⟨v, rfl, .inl ⟨heq, rfl, rfl⟩⟩, fun hok => absurd hok (by simp)⟩
    · have hne : (v == var.val) = false := Bool.eq_false_iff.mpr heq
      rcases hn : notify var.val v var.cbs w with ⟨w₁, _ | e⟩
      · simp only [hne, hn, Bool.false_eq_true, ↓reduceIte, Prod.mk.injEq] at h
        obtain ⟨rfl, rfl, rfl⟩ := h
        exact ⟨fun _ => ⟨v, rfl, .inr ⟨hne, rfl, told_of_notify hn⟩⟩, fun hok => absurd hok (by simp)⟩
      · -- a listener threw: the assignment is skipped
        simp only [hne, hn, Bool.false_eq_true, ↓reduceIte, Prod.mk.injEq] at h
        obtain ⟨rfl, rfl, rfl⟩ := h
        obtain ⟨pre, cb, post, w₂, hsplit, htold, hthrow⟩ := thrower_of_notify hn
        exact ⟨fun hok => absurd hok (by simp),
          fun _ => ⟨rfl, .inr ⟨v, rfl, hne, pre, cb, post, w₂, e, hsplit, htold, hthrow⟩⟩⟩

/-- A listener that records each change it is told, under its key. -/
def logChange (key : Nat) : Listener (List Char) (List (Nat × List Char × List Char)) Unit :=
  .ofFun fun old new log => log ++ [(key, old, new)]

/-- A listener that records the change it is told, then throws. -/
def logThenThrow (key : Nat) : Listener (List Char) (List (Nat × List Char × List Char)) Unit :=
  fun old new log => (log ++ [(key, old, new)], some ())

/-- **A `ConfigVar<std::string>` holding `"a"`**, whose second listener
throws.  Its `FromStr`, `LexicalCast<std::string, std::string>`, is the
identity. -/
def throwingVar : ConfigVar (List Char) (List (Nat × List Char × List Char)) Unit :=
  { (new "x".toList "a".toList [] : ConfigVar (List Char) (List (Nat × List Char × List Char)) Unit) with
    cbs := [(1, logChange 1), (2, logThenThrow 2)] }

theorem fromString_outcome_throwingVar :
    ∃ pre cb post w₁ e, throwingVar.cbs = pre ++ cb :: post ∧ Told "a".toList "b".toList pre [] w₁ ∧
      cb.2 "a".toList "b".toList w₁ = ([(1, "a".toList, "b".toList), (2, "a".toList, "b".toList)], some e) := by
  obtain ⟨-, hfalse⟩ := fromString_outcome (rfl : throwingVar.fromString some "b".toList [] =
    (throwingVar, [(1, "a".toList, "b".toList), (2, "a".toList, "b".toList)], false))
  rcases (hfalse rfl).2 with ⟨hnone, -⟩ | ⟨v, hv, -, hthrow⟩
  · exact absurd hnone (by simp)
  · obtain rfl := Option.some.inj hv
    exact hthrow

/-- **A failed update has an effect.**  `fromString("b")` returns `false` and
keeps `"a"`, yet the first listener was told the change `("a", "b")`, and so
was the second before it threw. -/
theorem fromString_false_told_change :
    throwingVar.fromString some "b".toList [] =
      (throwingVar, [(1, "a".toList, "b".toList), (2, "a".toList, "b".toList)], false) := rfl

end ConfigVar

end Sylar
