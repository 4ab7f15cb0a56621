/-
# Backtraces

`Backtrace` and `BacktraceToString` of `util.cc`.  `Backtrace(bt, size, skip)`
captures the frames of the current stack, reserves room in `bt` for the
`s - skip` frames it keeps, computed in `size_t`, and pushes the frames
`skip..s-1`.  The platform is a parameter: `::backtrace` and
`backtrace_symbols` in the default build, `boost::stacktrace` in a build with
`BOOST_STACKTRACE_USE_BACKTRACE`.

`std::vector::reserve(n)` throws `std::length_error` when `n` exceeds
`max_size()`, which is at most `PTRDIFF_MAX`.  When fewer than `skip` frames
are captured, `s - skip` wraps to nearly `2^64`, and `Backtrace` throws.

* `backtrace_result` : what `Backtrace` and `BacktraceToString` give, by the
  frames captured: the frames from `skip` on, or `std::length_error` when there
  are fewer than `skip`.
-/
import Mathlib.Algebra.Group.Nat.Defs
import Mathlib.Data.List.Basic

namespace Sylar

namespace Util

/-! ## The standard library -/

/-- `std::length_error`. -/
structure LengthError where
  deriving DecidableEq, Repr

/-- **`std::vector::reserve(n)`**: the elements stay; `std::length_error` when
`n` exceeds `max_size()`.  Memory for `n` elements is taken to be there. -/
def reserve (maxSize : Nat) (n : UInt64) : Except LengthError Unit :=
  if maxSize < n.toNat then .error ⟨⟩ else pure ()

/-- `PTRDIFF_MAX` on a 64-bit platform: no `std::vector` has more elements. -/
def ptrdiffMax : Nat := 2 ^ 63 - 1

/-- **An `int` converted to `size_t`**: its value modulo `2^64`. -/
def sizeTOfInt (i : Int32) : UInt64 := UInt64.ofInt i.toInt

/-! ## The platform -/

/-- **What the platform gives**: `::backtrace(array, size)` the return
addresses it stores, `backtrace_symbols` their texts (`none` for `NULL`), and
`boost::stacktrace::stacktrace().as_vector()` the frames, each written by its
`operator<<`. -/
structure Platform (Addr Frame : Type) where
  backtrace : Int32 → List Addr
  backtraceSymbols : List Addr → Option (List (List Char))
  stacktrace : List Frame
  frameText : Frame → List Char

/-- **What the platform documents**: `::backtrace` stores at most `size`
addresses, `backtrace_symbols` gives one text per address, and a stack trace
is a `std::vector`, whose size is a `size_t`. -/
structure Platform.Documented {Addr Frame : Type} (p : Platform Addr Frame) : Prop where
  backtrace_le : ∀ size, (p.backtrace size).length ≤ size.toNatClampNeg
  symbols_length : ∀ as ss, p.backtraceSymbols as = some ss → ss.length = as.length
  stacktrace_lt : p.stacktrace.length < 2 ^ 64

/-- **The frames a backtrace captures**, as texts: `none` when
`backtrace_symbols` fails. -/
def Platform.frames {Addr Frame : Type} (p : Platform Addr Frame) (boostStacktrace : Bool)
    (size : Int32) : Option (List (List Char)) :=
  if boostStacktrace then some (p.stacktrace.map p.frameText) else p.backtraceSymbols (p.backtrace size)

/-! ## `Backtrace` and `BacktraceToString` -/

/-- **The copying loop** `for (size_t i = skip; i < s; ++i) bt.push_back(texts[i])`. -/
def pushFrames (texts : List (List Char)) (s i : Nat) (bt : List (List Char)) : List (List Char) :=
  (List.range' i (s - i)).foldl (fun bt j => bt ++ [texts.getD j []]) bt

/-- **The tail both builds share**: `bt.reserve(s - skip)` in `size_t`, then
the copying loop. -/
def keepFrames (maxSize : Nat) (texts : List (List Char)) (s : Nat) (skip : Int32)
    (bt : List (List Char)) : Except LengthError (List (List Char)) := do
  reserve maxSize (UInt64.ofNat s - sizeTOfInt skip)
  pure (pushFrames texts s (sizeTOfInt skip).toNat bt)

/-- **`Backtrace(bt, size, skip)`**: the frames from `skip` on pushed onto
`bt`.  When `backtrace_symbols` fails, the error is logged and nothing is
pushed. -/
def backtrace {Addr Frame : Type} (p : Platform Addr Frame) (boostStacktrace : Bool) (maxSize : Nat)
    (bt : List (List Char)) (size skip : Int32) : Except LengthError (List (List Char)) :=
  if boostStacktrace then
    let vec := p.stacktrace
    keepFrames maxSize (vec.map p.frameText) vec.length skip bt
  else
    let array := p.backtrace size
    match p.backtraceSymbols array with
    | none => pure bt
    | some strings => keepFrames maxSize strings array.length skip bt

/-- **The printing loop of `BacktraceToString`**: line `i` is the prefix, `i`,
`"# "` and frame `i`, then `std::endl`. -/
def printFrames (pre : List Char) (bt : List (List Char)) : List Char :=
  (List.range bt.length).foldl
    (fun ss i => ss ++ pre ++ (Nat.repr i).toList ++ "# ".toList ++ bt.getD i [] ++ ['\n']) []

/-- **`BacktraceToString(size, skip, prefix)`**: the frames `Backtrace` gives,
one per line.  An exception of `Backtrace` goes through. -/
def backtraceToString {Addr Frame : Type} (p : Platform Addr Frame) (boostStacktrace : Bool)
    (maxSize : Nat) (size skip : Int32) (pre : List Char) : Except LengthError (List Char) := do
  let bt ← backtrace p boostStacktrace maxSize [] size skip
  pure (printFrames pre bt)

/-! ## The reserved count -/

theorem toNatClampNeg_lt (i : Int32) : i.toNatClampNeg < 2 ^ 31 := by
  have hlt := Int32.toInt_lt i
  rw [Int32.toNatClampNeg]
  omega

/-- **`skip` as a `size_t`** is its value, when it is not negative. -/
theorem sizeTOfInt_toNat {skip : Int32} (hskip : 0 ≤ skip.toInt) :
    (sizeTOfInt skip).toNat = skip.toNatClampNeg := by
  have hlt := Int32.toInt_lt skip
  rw [sizeTOfInt, UInt64.ofInt, UInt64.toNat_ofNat', Int32.toNatClampNeg]
  omega

/-- **The count `s - skip` of `bt.reserve`**, in `size_t`: the frames kept,
or, when fewer than `skip` frames were captured, `2^64` less the
shortfall. -/
theorem reserveCount_toNat {s : Nat} (hs : s < 2 ^ 64) {skip : Int32} (hskip : 0 ≤ skip.toInt) :
    (UInt64.ofNat s - sizeTOfInt skip).toNat =
      if skip.toNatClampNeg ≤ s then s - skip.toNatClampNeg else 2 ^ 64 - (skip.toNatClampNeg - s) := by
  have hlt := toNatClampNeg_lt skip
  rw [UInt64.toNat_sub, sizeTOfInt_toNat hskip, UInt64.toNat_ofNat']
  split <;> omega

/-! ## The copying loop -/

/-- Each pass of the loop pushes the text at its index. -/
theorem foldl_push_range' (texts : List (List Char)) :
    ∀ (n i : Nat) (bt : List (List Char)), i + n ≤ texts.length →
      (List.range' i n).foldl (fun bt j => bt ++ [texts.getD j []]) bt = bt ++ (texts.drop i).take n
  | 0, i, bt, _ => by simp
  | n + 1, i, bt, h => by
    have hi : i < texts.length := by omega
    rw [List.range'_succ, List.foldl_cons, foldl_push_range' texts n (i + 1) _ (by omega),
      List.drop_eq_getElem_cons hi, List.take_succ_cons, ← List.getElem_eq_getD [], List.append_assoc,
      List.singleton_append]

/-- **The copying loop appends the texts from `i` on.** -/
theorem pushFrames_eq (texts : List (List Char)) (i : Nat) (bt : List (List Char)) :
    pushFrames texts texts.length i bt = bt ++ texts.drop i := by
  by_cases hi : i ≤ texts.length
  · rw [pushFrames, foldl_push_range' texts _ i bt (by omega), List.take_of_length_le (by simp)]
  · rw [pushFrames, Nat.sub_eq_zero_of_le (by omega), List.drop_of_length_le (by omega)]
    simp

/-! ## What a backtrace gives -/

/-- **What the shared tail gives** of the captured texts: those from `skip` on,
unless there are fewer than `skip` of them, when the count wraps past
`max_size()`, or the rest does not fit in a vector; then
`std::length_error`. -/
theorem keepFrames_eq {maxSize : Nat} (hmax : maxSize ≤ ptrdiffMax) {texts : List (List Char)}
    (hs : texts.length < 2 ^ 64) {skip : Int32} (hskip : 0 ≤ skip.toInt) (bt : List (List Char)) :
    keepFrames maxSize texts texts.length skip bt =
      if skip.toNatClampNeg ≤ texts.length ∧ texts.length - skip.toNatClampNeg ≤ maxSize then
        .ok (bt ++ texts.drop skip.toNatClampNeg)
      else .error ⟨⟩ := by
  have hlt := toNatClampNeg_lt skip
  have hmax' : maxSize ≤ 2 ^ 63 - 1 := hmax
  rw [keepFrames, reserve, reserveCount_toNat hs hskip, sizeTOfInt_toNat hskip, pushFrames_eq]
  by_cases hok : skip.toNatClampNeg ≤ texts.length ∧ texts.length - skip.toNatClampNeg ≤ maxSize
  · rw [if_pos hok, if_pos hok.1, if_neg (Nat.not_lt.mpr hok.2)]
    rfl
  · rw [if_neg hok]
    by_cases hle : skip.toNatClampNeg ≤ texts.length
    · rw [if_pos hle, if_pos (Nat.lt_of_not_le fun h => hok ⟨hle, h⟩)]
      rfl
    · -- fewer frames than `skip`: the count wraps past `max_size()`
      rw [if_neg hle, if_pos (by omega)]
      rfl

/-- **What `Backtrace` gives**, by the frames the platform captures. -/
theorem backtrace_eq {Addr Frame : Type} {p : Platform Addr Frame} (hp : p.Documented)
    (boostStacktrace : Bool) {maxSize : Nat} (hmax : maxSize ≤ ptrdiffMax) (bt : List (List Char))
    (size : Int32) {skip : Int32} (hskip : 0 ≤ skip.toInt) :
    backtrace p boostStacktrace maxSize bt size skip =
      match p.frames boostStacktrace size with
      | none => .ok bt
      | some texts =>
        if skip.toNatClampNeg ≤ texts.length ∧ texts.length - skip.toNatClampNeg ≤ maxSize then
          .ok (bt ++ texts.drop skip.toNatClampNeg)
        else .error ⟨⟩ := by
  unfold backtrace Platform.frames
  cases boostStacktrace with
  | true =>
    have hs : (p.stacktrace.map p.frameText).length < 2 ^ 64 := by
      rw [List.length_map]
      exact hp.stacktrace_lt
    have hlen : p.stacktrace.length = (p.stacktrace.map p.frameText).length := (List.length_map _).symm
    simp only [↓reduceIte]
    rw [hlen, keepFrames_eq hmax hs hskip]
  | false =>
    simp only [Bool.false_eq_true, ↓reduceIte]
    cases hsym : p.backtraceSymbols (p.backtrace size) with
    | none => rfl
    | some strings =>
      -- one text per address, and at most `size` addresses
      have hlen := hp.symbols_length _ _ hsym
      have hs : strings.length < 2 ^ 64 := by
        have := hp.backtrace_le size
        have := toNatClampNeg_lt size
        omega
      dsimp only
      rw [← hlen, keepFrames_eq hmax hs hskip]

/-- **What `Backtrace` and `BacktraceToString` give**, by the frames the
platform captures, in both builds: the frames from `skip` on, pushed onto `bt`
and printed one per line, when at least `skip` frames were captured and the
rest fits in a vector; otherwise `std::length_error`, which leaves both.  With
fewer than `skip` frames, `s - skip` wraps in `size_t` past `max_size()`. -/
theorem backtrace_result {Addr Frame : Type} {p : Platform Addr Frame} (hp : p.Documented)
    (boostStacktrace : Bool) {maxSize : Nat} (hmax : maxSize ≤ ptrdiffMax) (size : Int32) {skip : Int32}
    (hskip : 0 ≤ skip.toInt) (bt : List (List Char)) (pre : List Char) :
    backtrace p boostStacktrace maxSize bt size skip =
        (match p.frames boostStacktrace size with
        | none => .ok bt
        | some texts =>
          if skip.toNatClampNeg ≤ texts.length ∧ texts.length - skip.toNatClampNeg ≤ maxSize then
            .ok (bt ++ texts.drop skip.toNatClampNeg)
          else .error ⟨⟩) ∧
      backtraceToString p boostStacktrace maxSize size skip pre =
        match p.frames boostStacktrace size with
        | none => .ok []
        | some texts =>
          if skip.toNatClampNeg ≤ texts.length ∧ texts.length - skip.toNatClampNeg ≤ maxSize then
            .ok (printFrames pre (texts.drop skip.toNatClampNeg))
          else .error ⟨⟩ := by
  refine ⟨backtrace_eq hp boostStacktrace hmax bt size hskip, ?_⟩
  rw [backtraceToString, backtrace_eq hp boostStacktrace hmax [] size hskip]
  cases p.frames boostStacktrace size with
  | none => rfl
  | some texts =>
    dsimp only
    split <;> rfl

/-- A stack twelve frames deep, as glibc and boost report it: `::backtrace`
stores the innermost `size` of them. -/
def twelveFrames : Platform Nat Nat where
  backtrace size := List.range (min 12 size.toNatClampNeg)
  backtraceSymbols as := some (as.map fun a => "frame ".toList ++ (Nat.repr a).toList)
  stacktrace := List.range 12
  frameText a := "frame ".toList ++ (Nat.repr a).toList

theorem twelveFrames_documented : twelveFrames.Documented where
  backtrace_le size := by
    rw [twelveFrames, List.length_range]
    exact Nat.min_le_right _ _
  symbols_length as ss h := by
    simp only [twelveFrames, Option.some.injEq] at h
    rw [← h, List.length_map]
  stacktrace_lt := by decide

/-- `max_size()` of a `std::vector<std::string>` in libstdc++: `PTRDIFF_MAX`
over the 32 bytes of a `std::string`. -/
def stringVectorMaxSize : Nat := ptrdiffMax / 32

/-- **`BacktraceToString(1)` throws** in the default build: `::backtrace`
stores one frame, `skip` defaults to `2`, and `bt.reserve(1 - 2)` asks for
`2^64 - 1` strings. -/
theorem backtraceToString_one :
    (UInt64.ofNat 1 - sizeTOfInt 2).toNat = 2 ^ 64 - 1 ∧
      backtraceToString twelveFrames false stringVectorMaxSize 1 2 "    ".toList = .error ⟨⟩ := by
  refine ⟨by decide, ?_⟩
  rw [(backtrace_result twelveFrames_documented false (by decide) 1 (by decide) [] "    ".toList).2]
  rfl

end Util

end Sylar
