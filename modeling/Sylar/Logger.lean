/-
# Loggers, appenders and the logger manager

The objects of `log.cc` that hold formatters.  A `LogAppender` has a level, a
formatter pointer and the flag `m_has_formatter`; a `Logger` has a name, a
level, the list of its appenders and a formatter of its own; the
`LoggerManager` maps names to loggers.  Appenders are shared, mutable objects,
so they live in a `Memory` indexed by address and a logger holds their
addresses.  A `LogFormatter` is never changed after its constructor, so a
formatter pointer is the pair of its address and the formatter.

What is studied here is which formatter each object ends up with; writing
log lines (`log`, `format`, the appenders' streams) is the subject of
`LogOutput`.
-/
import Sylar.LogFormatter
import Sylar.Transition

namespace Sylar

/-! ## Levels -/

/-- **`LogLevel::Level`.** An enumeration over `int`: it holds `UNKNOW` (0) to
`FATAL` (5), and any other value cast to it, such as the 100 that the log
reloader gives a logger it deletes. -/
structure LogLevel where
  val : Nat
  deriving DecidableEq, Repr

namespace LogLevel

def unknow : LogLevel := ⟨0⟩
def debug : LogLevel := ⟨1⟩
def info : LogLevel := ⟨2⟩
def warn : LogLevel := ⟨3⟩
def error : LogLevel := ⟨4⟩
def fatal : LogLevel := ⟨5⟩

/-- The levels that have a name, with it, in the order of the `XX` cases of
`ToString` and `FromString`. -/
def names : List (LogLevel × List Char) :=
  [(debug, "DEBUG".toList), (info, "INFO".toList), (warn, "WARN".toList),
    (error, "ERROR".toList), (fatal, "FATAL".toList)]

/-- **`LogLevel::ToString`**: the name of a named level, `"UNKNOW"` otherwise. -/
def toString (level : LogLevel) : List Char :=
  (names.lookup level).getD "UNKNOW".toList

/-- **`LogLevel::FromString`**: the level whose name is the upper-cased text,
`UNKNOW` if there is none. -/
def fromString (str : List Char) : LogLevel :=
  let ucstr := str.map Char.toUpper
  ((names.find? fun p => p.2 = ucstr).map Prod.fst).getD unknow

/-- `FromString` gives a level from `UNKNOW` to `FATAL`. -/
theorem fromString_val_le (str : List Char) : (fromString str).val ≤ 5 := by
  have hnames : ∀ p ∈ names, p.1.val ≤ 5 := by decide
  simp only [fromString]
  cases hfind : names.find? fun p => p.2 = str.map Char.toUpper with
  | none => exact Nat.zero_le 5
  | some p => exact hnames p (List.mem_of_find?_eq_some hfind)

/-- **`FromString` reads back what `ToString` writes**, for the levels from
`UNKNOW` to `FATAL`. -/
theorem fromString_toString {level : LogLevel} (h : level.val ≤ 5) :
    fromString (toString level) = level := by
  obtain ⟨v⟩ := level
  simp only at h
  interval_cases v <;> decide

end LogLevel

/-! ## Appenders in memory -/

/-- **A non-null `LogFormatter::ptr`**: the formatter's address and the
formatter. -/
structure FormatterPtr where
  addr : Nat
  formatter : LogFormatter
  deriving DecidableEq, Repr

/-- The two appender classes; a `FileLogAppender` has its `m_filename`. -/
inductive AppenderKind
  | stdout
  | file (filename : List Char)
  deriving DecidableEq, Repr

/-- **`LogAppender`**: `m_level`, `m_formatter` (`none` when null) and
`m_has_formatter`. -/
structure LogAppender where
  kind : AppenderKind
  level : LogLevel
  formatter : Option FormatterPtr
  hasFormatter : Bool
  deriving DecidableEq, Repr

namespace LogAppender

/-- The constructors of both classes: level `DEBUG`, a null formatter and
`m_has_formatter` false. -/
def new (kind : AppenderKind) : LogAppender := ⟨kind, .debug, none, false⟩

/-- **`LogAppender::setFormatter`**: every call sets `m_has_formatter`, whoever
makes it. -/
def setFormatter (ap : LogAppender) (val : Option FormatterPtr) : LogAppender :=
  { ap with formatter := val, hasFormatter := true }

/-- `LogAppender::setLevel`. -/
def setLevel (ap : LogAppender) (level : LogLevel) : LogAppender := { ap with level }

@[simp] theorem new_formatter (kind : AppenderKind) : (new kind).formatter = none := rfl
@[simp] theorem new_hasFormatter (kind : AppenderKind) : (new kind).hasFormatter = false := rfl
@[simp] theorem setFormatter_formatter (ap : LogAppender) (val : Option FormatterPtr) :
    (ap.setFormatter val).formatter = val := rfl
@[simp] theorem setFormatter_hasFormatter (ap : LogAppender) (val : Option FormatterPtr) :
    (ap.setFormatter val).hasFormatter = true := rfl
@[simp] theorem setLevel_formatter (ap : LogAppender) (level : LogLevel) :
    (ap.setLevel level).formatter = ap.formatter := rfl
@[simp] theorem setLevel_hasFormatter (ap : LogAppender) (level : LogLevel) :
    (ap.setLevel level).hasFormatter = ap.hasFormatter := rfl

/-- The call of `Logger::addAppender`: only a null formatter is replaced. -/
def setFormatterIfNull (val : FormatterPtr) (ap : LogAppender) : LogAppender :=
  if ap.formatter = none then ap.setFormatter (some val) else ap

/-- The call of `Logger::setFormatter`'s loop: only an appender whose
`hasFormatter()` is false is given the formatter. -/
def setFormatterIfUnset (val : FormatterPtr) (ap : LogAppender) : LogAppender :=
  if ap.hasFormatter then ap else ap.setFormatter (some val)

@[simp] theorem setFormatterIfNull_kind (val : FormatterPtr) (ap : LogAppender) :
    (setFormatterIfNull val ap).kind = ap.kind := by
  unfold setFormatterIfNull
  split <;> rfl

@[simp] theorem setFormatterIfNull_level (val : FormatterPtr) (ap : LogAppender) :
    (setFormatterIfNull val ap).level = ap.level := by
  unfold setFormatterIfNull
  split <;> rfl

theorem setFormatterIfNull_hasFormatter (val : FormatterPtr) {ap : LogAppender}
    (hap : ap.formatter ≠ none → ap.hasFormatter = true) :
    (setFormatterIfNull val ap).hasFormatter = true := by
  unfold setFormatterIfNull
  by_cases hf : ap.formatter = none
  · rw [if_pos hf, setFormatter_hasFormatter]
  · rw [if_neg hf]
    exact hap hf

@[simp] theorem setFormatterIfUnset_hasFormatter (val : FormatterPtr) (ap : LogAppender) :
    (setFormatterIfUnset val ap).hasFormatter = true := by
  unfold setFormatterIfUnset
  split
  · assumption
  · rfl

theorem setFormatterIfUnset_of_hasFormatter (val : FormatterPtr) {ap : LogAppender}
    (h : ap.hasFormatter = true) : setFormatterIfUnset val ap = ap := if_pos h

end LogAppender

/-- **The heap.** The appender objects by address, and the next free address,
which every allocation takes (appenders and formatters alike). -/
structure Memory where
  next : Nat
  appenders : Nat → Option LogAppender

namespace Memory

/-- The memory before any allocation. -/
def empty : Memory := ⟨0, fun _ => none⟩

/-- **`std::make_shared<LogFormatter>(pattern)`**: a formatter at the next address. -/
def newFormatter (m : Memory) (pattern : List Char) : FormatterPtr × Memory :=
  (⟨m.next, ⟨pattern⟩⟩, { m with next := m.next + 1 })

/-- **`new StdoutLogAppender` / `new FileLogAppender(file)`**: a new appender at
the next address. -/
def newAppender (m : Memory) (kind : AppenderKind) : Nat × Memory :=
  (m.next, ⟨m.next + 1, Function.update m.appenders m.next (some (.new kind))⟩)

/-- A method call on the appender at `a`. -/
def modify (m : Memory) (a : Nat) (f : LogAppender → LogAppender) : Memory :=
  { m with appenders := Function.update m.appenders a ((m.appenders a).map f) }

@[simp] theorem newFormatter_fst (m : Memory) (pattern : List Char) :
    (m.newFormatter pattern).1 = ⟨m.next, ⟨pattern⟩⟩ := rfl
@[simp] theorem newFormatter_next (m : Memory) (pattern : List Char) :
    (m.newFormatter pattern).2.next = m.next + 1 := rfl
@[simp] theorem newFormatter_appenders (m : Memory) (pattern : List Char) :
    (m.newFormatter pattern).2.appenders = m.appenders := rfl
@[simp] theorem newAppender_fst (m : Memory) (kind : AppenderKind) :
    (m.newAppender kind).1 = m.next := rfl
@[simp] theorem newAppender_next (m : Memory) (kind : AppenderKind) :
    (m.newAppender kind).2.next = m.next + 1 := rfl
@[simp] theorem newAppender_appenders (m : Memory) (kind : AppenderKind) :
    (m.newAppender kind).2.appenders =
      Function.update m.appenders m.next (some (.new kind)) := rfl
@[simp] theorem modify_next (m : Memory) (a : Nat) (f : LogAppender → LogAppender) :
    (m.modify a f).next = m.next := rfl
@[simp] theorem modify_appenders (m : Memory) (a : Nat) (f : LogAppender → LogAppender) :
    (m.modify a f).appenders = Function.update m.appenders a ((m.appenders a).map f) := rfl

/-- A call that leaves the appender as it is leaves the memory as it is. -/
theorem modify_eq_self {m : Memory} {a : Nat} {f : LogAppender → LogAppender}
    {ap : LogAppender} (ha : m.appenders a = some ap) (hf : f ap = ap) : m.modify a f = m := by
  have hu : Function.update m.appenders a ((m.appenders a).map f) = m.appenders := by
    rw [ha, Option.map_some, hf, ← ha, Function.update_eq_self]
  unfold modify
  rw [hu]

end Memory

/-! ## Well-formed memory -/

/-- **Well-formed memory.** Every appender lies below the next free address, and
an appender that holds a formatter has had `setFormatter` called on it. -/
structure Memory.Sound (m : Memory) : Prop where
  lt_next : ∀ a, m.appenders a ≠ none → a < m.next
  hasFormatter : ∀ a ap, m.appenders a = some ap → ap.formatter ≠ none → ap.hasFormatter = true

namespace Memory.Sound

variable {m : Memory}

theorem empty : Memory.empty.Sound :=
  ⟨fun _ h => absurd rfl h, fun _ _ h => by cases h⟩

theorem newFormatter (h : m.Sound) (pattern : List Char) : (m.newFormatter pattern).2.Sound := by
  constructor
  · intro a ha
    have hlt : a < m.next := h.lt_next a ha
    show a < m.next + 1
    omega
  · exact h.hasFormatter

theorem newAppender (h : m.Sound) (kind : AppenderKind) : (m.newAppender kind).2.Sound := by
  constructor
  · intro a ha
    show a < m.next + 1
    by_cases hn : a = m.next
    · omega
    · rw [newAppender_appenders, Function.update_of_ne hn] at ha
      have hlt : a < m.next := h.lt_next a ha
      omega
  · intro a ap ha hf
    by_cases hn : a = m.next
    · subst hn
      rw [newAppender_appenders, Function.update_self, Option.some.injEq] at ha
      subst ha
      exact absurd rfl hf
    · rw [newAppender_appenders, Function.update_of_ne hn] at ha
      exact h.hasFormatter a ap ha hf

/-- **A method call keeps the memory well formed** if it gives a formatter only
together with `m_has_formatter`. -/
theorem modify (h : m.Sound) (a : Nat) {f : LogAppender → LogAppender}
    (hf : ∀ ap, (ap.formatter ≠ none → ap.hasFormatter = true) →
      (f ap).formatter ≠ none → (f ap).hasFormatter = true) :
    (m.modify a f).Sound := by
  constructor
  · intro b hb
    by_cases hn : b = a
    · subst hn
      rw [modify_appenders, Function.update_self] at hb
      exact h.lt_next b fun hnone => hb (by rw [hnone, Option.map_none])
    · rw [modify_appenders, Function.update_of_ne hn] at hb
      exact h.lt_next b hb
  · intro b ap hb
    by_cases hn : b = a
    · subst hn
      rw [modify_appenders, Function.update_self] at hb
      obtain ⟨ap₀, h₀, rfl⟩ := Option.map_eq_some_iff.mp hb
      exact hf ap₀ (h.hasFormatter b ap₀ h₀)
    · rw [modify_appenders, Function.update_of_ne hn] at hb
      exact h.hasFormatter b ap hb

end Memory.Sound

/-! ## Loggers -/

/-- The pattern of the formatter that `Logger::Logger` makes. -/
def defaultPattern : List Char :=
  "%d\x7b%Y-%m-%d %H:%M:%S\x7d%T%t%T%N%T%F%T[%p]%T[%c]%T%f:%l%T%m%n".toList

/-- **`Logger`**: `m_name`, `m_level`, `m_appenders` (by address) and
`m_formatter`. -/
structure Logger where
  name : List Char
  level : LogLevel
  appenders : List Nat
  formatter : FormatterPtr
  deriving DecidableEq, Repr

namespace Logger

/-- **`Logger::Logger(name)`**: level `DEBUG`, no appenders and a new formatter
for the default pattern. -/
def new (name : List Char) (m : Memory) : Logger × Memory :=
  (⟨name, .debug, [], (m.newFormatter defaultPattern).1⟩, (m.newFormatter defaultPattern).2)

/-- **`Logger::addAppender`**: an appender whose formatter is null is given the
logger's, then it is appended. -/
def addAppender (g : Logger) (m : Memory) (a : Nat) : Logger × Memory :=
  ({ g with appenders := g.appenders ++ [a] }, m.modify a (LogAppender.setFormatterIfNull g.formatter))

/-- **`Logger::delAppender`**: the first occurrence of the pointer goes. -/
def delAppender (g : Logger) (a : Nat) : Logger := { g with appenders := g.appenders.erase a }

/-- `Logger::clearAppenders`. -/
def clearAppenders (g : Logger) : Logger := { g with appenders := [] }

/-- `Logger::setLevel`. -/
def setLevel (g : Logger) (level : LogLevel) : Logger := { g with level }

/-- The loop of `Logger::setFormatter`: every appender whose `hasFormatter()` is
false is given the new formatter. -/
def inheritFormatter (val : FormatterPtr) (m : Memory) (as : List Nat) : Memory :=
  as.foldl (fun m a => m.modify a (LogAppender.setFormatterIfUnset val)) m

/-- **`Logger::setFormatter(LogFormatter::ptr)`**: a formatter in error is
refused. -/
def setFormatter (g : Logger) (m : Memory) (val : FormatterPtr) : Logger × Memory :=
  if val.formatter.isError then (g, m)
  else ({ g with formatter := val }, inheritFormatter val m g.appenders)

/-- **`Logger::setFormatter(const std::string&)`**: a new formatter for the
pattern, refused (with a message on standard output) when in error. -/
def setFormatterPattern (g : Logger) (m : Memory) (val : List Char) : Logger × Memory :=
  let p := m.newFormatter val
  if p.1.formatter.isError then (g, p.2) else g.setFormatter p.2 p.1

@[simp] theorem new_name (name : List Char) (m : Memory) : (new name m).1.name = name := rfl
@[simp] theorem new_appenders (name : List Char) (m : Memory) : (new name m).1.appenders = [] := rfl
@[simp] theorem new_memory (name : List Char) (m : Memory) :
    (new name m).2 = (m.newFormatter defaultPattern).2 := rfl
@[simp] theorem addAppender_appenders (g : Logger) (m : Memory) (a : Nat) :
    (g.addAppender m a).1.appenders = g.appenders ++ [a] := rfl
@[simp] theorem addAppender_formatter (g : Logger) (m : Memory) (a : Nat) :
    (g.addAppender m a).1.formatter = g.formatter := rfl
@[simp] theorem delAppender_formatter (g : Logger) (a : Nat) :
    (g.delAppender a).formatter = g.formatter := rfl
@[simp] theorem clearAppenders_appenders (g : Logger) : g.clearAppenders.appenders = [] := rfl
@[simp] theorem setFormatter_appenders (g : Logger) (m : Memory) (val : FormatterPtr) :
    (g.setFormatter m val).1.appenders = g.appenders := by
  unfold setFormatter
  split <;> rfl

/-- **The formatter after `setFormatter`**: the new one unless it is in error. -/
theorem setFormatter_formatter (g : Logger) (m : Memory) (val : FormatterPtr) :
    (g.setFormatter m val).1.formatter = if val.formatter.isError then g.formatter else val := by
  unfold setFormatter
  split <;> rfl

/-- The string version is the pointer version on a new formatter, whose own
error check makes the first one redundant. -/
theorem setFormatterPattern_eq (g : Logger) (m : Memory) (val : List Char) :
    g.setFormatterPattern m val = g.setFormatter (m.newFormatter val).2 (m.newFormatter val).1 := by
  unfold setFormatterPattern setFormatter
  split <;> simp_all

end Logger

/-! ## Appenders with a formatter of their own

`LogAppender::setFormatter` sets `m_has_formatter` whoever calls it, and
`Logger::addAppender` calls it on every appender whose formatter is null.  So
every appender attached to a logger has the flag set, and the loop of
`Logger::setFormatter` never changes one of them.
-/

namespace Memory.Sound

variable {m : Memory}

theorem addAppender (h : m.Sound) (g : Logger) (a : Nat) : (g.addAppender m a).2.Sound :=
  h.modify a fun _ hap _ => LogAppender.setFormatterIfNull_hasFormatter _ hap

theorem inheritFormatter (val : FormatterPtr) :
    ∀ (as : List Nat) {m : Memory}, m.Sound → (Logger.inheritFormatter val m as).Sound
  | [], _, h => h
  | a :: as, _, h =>
    inheritFormatter val as (h.modify a fun ap _ _ => LogAppender.setFormatterIfUnset_hasFormatter val ap)

theorem setFormatter (h : m.Sound) (g : Logger) (val : FormatterPtr) : (g.setFormatter m val).2.Sound := by
  unfold Logger.setFormatter
  split
  · exact h
  · exact inheritFormatter val g.appenders h

theorem setFormatterPattern (h : m.Sound) (g : Logger) (val : List Char) :
    (g.setFormatterPattern m val).2.Sound := by
  rw [Logger.setFormatterPattern_eq]
  exact (h.newFormatter val).setFormatter g _

end Memory.Sound

namespace Logger

variable {g : Logger} {m : Memory}

/-- **Every appender of the logger exists and has `m_has_formatter` set.** -/
def Settled (g : Logger) (m : Memory) : Prop :=
  ∀ a ∈ g.appenders, ∃ ap, m.appenders a = some ap ∧ ap.hasFormatter = true

/-- **The loop of `setFormatter` changes no appender whose flag is set.** -/
theorem inheritFormatter_of_hasFormatter (val : FormatterPtr) :
    ∀ (as : List Nat) (m : Memory),
      (∀ a ∈ as, ∃ ap, m.appenders a = some ap ∧ ap.hasFormatter = true) →
      inheritFormatter val m as = m
  | [], _, _ => rfl
  | a :: as, m, h => by
    obtain ⟨ap, ha, hf⟩ := h a List.mem_cons_self
    have hm : m.modify a (LogAppender.setFormatterIfUnset val) = m :=
      Memory.modify_eq_self ha (LogAppender.setFormatterIfUnset_of_hasFormatter val hf)
    unfold inheritFormatter
    rw [List.foldl_cons, hm]
    exact inheritFormatter_of_hasFormatter val as m fun b hb => h b (List.mem_cons_of_mem a hb)

/-- **`Logger::setFormatter` changes no appender of a settled logger.** -/
theorem setFormatter_memory (h : g.Settled m) (val : FormatterPtr) :
    (g.setFormatter m val).2 = m := by
  unfold setFormatter
  split
  · rfl
  · exact inheritFormatter_of_hasFormatter val g.appenders m h

/-- **`setFormatter(pattern)` on a settled logger** only allocates the new
formatter and, if the parser accepts it, makes it the logger's. -/
theorem setFormatterPattern_of_settled (h : g.Settled m) (val : List Char) :
    g.setFormatterPattern m val =
      ({ g with formatter := if (LogFormatter.mk val).isError then g.formatter else ⟨m.next, ⟨val⟩⟩ },
        (m.newFormatter val).2) := by
  have h' : g.Settled (m.newFormatter val).2 := h
  have hmem := setFormatter_memory h' (m.newFormatter val).1
  rw [setFormatterPattern_eq, Prod.ext_iff]
  refine ⟨?_, hmem⟩
  unfold setFormatter
  split <;> rename_i herr <;> simp only [Memory.newFormatter_fst] at herr ⊢ <;> simp [herr]

namespace Settled

/-- A logger stays settled under a call that keeps the flag set. -/
theorem modify (h : g.Settled m) (a : Nat) {f : LogAppender → LogAppender}
    (hf : ∀ ap, ap.hasFormatter = true → (f ap).hasFormatter = true) : g.Settled (m.modify a f) := by
  intro b hb
  obtain ⟨ap, hap, hflag⟩ := h b hb
  by_cases hn : b = a
  · subst hn
    refine ⟨f ap, ?_, hf ap hflag⟩
    rw [Memory.modify_appenders, Function.update_self, hap, Option.map_some]
  · refine ⟨ap, ?_, hflag⟩
    rw [Memory.modify_appenders, Function.update_of_ne hn, hap]

/-- A new appender takes an address that no attached appender has. -/
theorem newAppender (hm : m.Sound) (h : g.Settled m) (kind : AppenderKind) :
    g.Settled (m.newAppender kind).2 := by
  intro b hb
  obtain ⟨ap, hap, hflag⟩ := h b hb
  have hn : b ≠ m.next := Nat.ne_of_lt (hm.lt_next b (by rw [hap]; exact Option.some_ne_none ap))
  refine ⟨ap, ?_, hflag⟩
  rw [Memory.newAppender_appenders, Function.update_of_ne hn, hap]

theorem newFormatter (h : g.Settled m) (pattern : List Char) :
    g.Settled (m.newFormatter pattern).2 := h

theorem addAppender (hm : m.Sound) (h : g.Settled m) {a : Nat} (ha : m.appenders a ≠ none) :
    (g.addAppender m a).1.Settled (g.addAppender m a).2 := by
  intro b hb
  rw [addAppender_appenders, List.mem_append, List.mem_singleton] at hb
  by_cases hn : b = a
  · subst hn
    obtain ⟨ap, hap⟩ := Option.ne_none_iff_exists'.mp ha
    refine ⟨_, ?_, LogAppender.setFormatterIfNull_hasFormatter g.formatter (hm.hasFormatter b ap hap)⟩
    show (m.modify b _).appenders b = _
    rw [Memory.modify_appenders, Function.update_self, hap, Option.map_some]
  · obtain ⟨ap, hap, hflag⟩ := h b (hb.resolve_right hn)
    refine ⟨ap, ?_, hflag⟩
    show (m.modify a _).appenders b = _
    rw [Memory.modify_appenders, Function.update_of_ne hn, hap]

theorem delAppender (h : g.Settled m) (a : Nat) : (g.delAppender a).Settled m :=
  fun b hb => h b (List.mem_of_mem_erase hb)

theorem clearAppenders (m : Memory) : g.clearAppenders.Settled m :=
  fun _ hb => absurd hb List.not_mem_nil

theorem setLevel (h : g.Settled m) (level : LogLevel) : (g.setLevel level).Settled m := h

theorem setFormatter (h : g.Settled m) (val : FormatterPtr) :
    (g.setFormatter m val).1.Settled (g.setFormatter m val).2 := by
  intro b hb
  rw [setFormatter_appenders] at hb
  rw [setFormatter_memory h]
  exact h b hb

theorem setFormatterPattern (h : g.Settled m) (val : List Char) :
    (g.setFormatterPattern m val).1.Settled (g.setFormatterPattern m val).2 := by
  rw [setFormatterPattern_eq]
  exact (h.newFormatter val).setFormatter _

end Settled

end Logger

/-! ## Runs of one logger

One logger and the appenders given to it.  The operations are the logger's
methods that touch appenders or formatters, the creation of appenders, and
calls of `LogAppender::setFormatter` made from outside the logger; the
addresses of the appenders of such calls are kept as ghost state.
-/

/-- The operations on the logger and its appenders. -/
inductive LoggerOp
  | newAppender (kind : AppenderKind)
  | addAppender (a : Nat)
  | delAppender (a : Nat)
  | clearAppenders
  | setFormatter (val : FormatterPtr)
  | setFormatterPattern (val : List Char)
  | appenderSetFormatter (a : Nat) (val : Option FormatterPtr)
  deriving DecidableEq, Repr

/-- **A logger with its memory**, and the appenders that were given a formatter
by a direct call (ghost). -/
structure LoggerRun where
  logger : Logger
  memory : Memory
  direct : List Nat

namespace LoggerRun

/-- A new logger, the first object of the memory. -/
def init (name : List Char) : LoggerRun :=
  ⟨(Logger.new name .empty).1, (Logger.new name .empty).2, []⟩

/-- **One operation.** -/
def step (r : LoggerRun) : LoggerOp → LoggerRun
  | .newAppender kind => { r with memory := (r.memory.newAppender kind).2 }
  | .addAppender a =>
    { r with logger := (r.logger.addAppender r.memory a).1,
             memory := (r.logger.addAppender r.memory a).2 }
  | .delAppender a => { r with logger := r.logger.delAppender a }
  | .clearAppenders => { r with logger := r.logger.clearAppenders }
  | .setFormatter val =>
    { r with logger := (r.logger.setFormatter r.memory val).1,
             memory := (r.logger.setFormatter r.memory val).2 }
  | .setFormatterPattern val =>
    { r with logger := (r.logger.setFormatterPattern r.memory val).1,
             memory := (r.logger.setFormatterPattern r.memory val).2 }
  | .appenderSetFormatter a val =>
    { r with memory := r.memory.modify a (·.setFormatter val), direct := a :: r.direct }

/-- An operation names only appenders that exist: a `LogAppender::ptr` points
to an object. -/
def Enabled (r : LoggerRun) : LoggerOp → Prop
  | .addAppender a | .delAppender a | .appenderSetFormatter a _ => r.memory.appenders a ≠ none
  | _ => True

/-- The states reachable from a new logger. -/
def Reachable (name : List Char) (r : LoggerRun) : Prop :=
  Relation.ReflTransGen (Transition.Steps Enabled step) (init name) r

/-- **Inherited formatters follow the logger's**: every appender of the logger
that no direct call gave a formatter holds the logger's formatter. -/
def FollowsLogger (r : LoggerRun) : Prop :=
  ∀ a ∈ r.logger.appenders, a ∉ r.direct →
    (r.memory.appenders a).bind LogAppender.formatter = some r.logger.formatter

instance (r : LoggerRun) : Decidable r.FollowsLogger :=
  inferInstanceAs (Decidable (∀ a ∈ r.logger.appenders, a ∉ r.direct →
    (r.memory.appenders a).bind LogAppender.formatter = some r.logger.formatter))

/-- **The invariant of the runs**: the memory is well formed and the logger
settled. -/
structure Sound (r : LoggerRun) : Prop where
  memory : r.memory.Sound
  settled : r.logger.Settled r.memory

/-- **One operation keeps the invariant.** -/
theorem Sound.step {r : LoggerRun} (h : r.Sound) : ∀ op, Enabled r op → (r.step op).Sound
  | .newAppender kind, _ => ⟨h.memory.newAppender kind, h.settled.newAppender h.memory kind⟩
  | .addAppender _, ha => ⟨h.memory.addAppender _ _, h.settled.addAppender h.memory ha⟩
  | .delAppender a, _ => ⟨h.memory, h.settled.delAppender a⟩
  | .clearAppenders, _ => ⟨h.memory, Logger.Settled.clearAppenders _⟩
  | .setFormatter val, _ => ⟨h.memory.setFormatter _ val, h.settled.setFormatter val⟩
  | .setFormatterPattern val, _ =>
    ⟨h.memory.setFormatterPattern _ val, h.settled.setFormatterPattern val⟩
  | .appenderSetFormatter a val, _ =>
    ⟨h.memory.modify a fun _ _ _ => LogAppender.setFormatter_hasFormatter _ val,
      h.settled.modify a fun _ _ => LogAppender.setFormatter_hasFormatter _ val⟩

theorem sound_init (name : List Char) : (init name).Sound :=
  ⟨Memory.Sound.empty.newFormatter defaultPattern, fun _ hb => absurd hb List.not_mem_nil⟩

/-- **Every reachable state satisfies the invariant.** -/
theorem Reachable.sound {name : List Char} {r : LoggerRun} (hr : Reachable name r) : r.Sound :=
  (Transition.Invariant.of_actions (sound_init name) fun _ op h hop => h.step op hop).reachable hr

/-- **`Logger::setFormatter` never reaches an appender of the logger**: from any
reachable state the memory is unchanged, so an appender that inherited the
logger's formatter keeps the old one. -/
theorem Reachable.setFormatter_memory {name : List Char} {r : LoggerRun} (hr : Reachable name r)
    (val : FormatterPtr) : (r.step (.setFormatter val)).memory = r.memory :=
  Logger.setFormatter_memory hr.sound.settled val

/-- **An appender added with a null formatter keeps the logger's formatter of
that moment.** Adding it gives it the logger's formatter and sets its flag; a
later successful `setFormatter(pattern)` moves the logger to a new formatter
and leaves the appender behind. -/
theorem Reachable.inherited_formatter_stale {name : List Char} {r : LoggerRun}
    (hr : Reachable name r) {a : Nat} {ap : LogAppender} (ha : r.memory.appenders a = some ap)
    (hnull : ap.formatter = none) {val : List Char} (herr : (LogFormatter.mk val).isError = false) :
    let r' := (r.step (.addAppender a)).step (.setFormatterPattern val)
    a ∈ r'.logger.appenders ∧
      (r'.memory.appenders a).bind LogAppender.formatter = some r.logger.formatter ∧
      r'.logger.formatter = ⟨r.memory.next, ⟨val⟩⟩ := by
  intro r'
  let r₁ := r.step (.addAppender a)
  have hr₁ : Reachable name r₁ :=
    hr.tail ⟨.addAppender a, show r.memory.appenders a ≠ none by rw [ha]; exact Option.some_ne_none ap,
      rfl⟩
  have hnew := Logger.setFormatterPattern_eq r₁.logger r₁.memory val
  -- the new formatter changes no appender of the settled logger
  have hmem : r'.memory.appenders = r₁.memory.appenders := by
    show (r₁.logger.setFormatterPattern r₁.memory val).2.appenders = _
    rw [hnew, Logger.setFormatter_memory (hr₁.sound.settled.newFormatter val)]
    rfl
  refine ⟨?_, ?_, ?_⟩
  · show a ∈ (r₁.logger.setFormatterPattern r₁.memory val).1.appenders
    rw [hnew, Logger.setFormatter_appenders]
    exact List.mem_append_right _ (List.mem_singleton_self a)
  · rw [hmem]
    show ((r.memory.modify a _).appenders a).bind _ = _
    rw [Memory.modify_appenders, Function.update_self, ha, Option.map_some, Option.bind_some,
      LogAppender.setFormatterIfNull, if_pos hnull, LogAppender.setFormatter_formatter]
  · show (r₁.logger.setFormatterPattern r₁.memory val).1.formatter = _
    rw [hnew, Logger.setFormatter_formatter, Memory.newFormatter_fst]
    exact if_neg (Bool.not_eq_true _ ▸ herr)

/-- **An appender added before a `setFormatter` does not follow it.** A new
logger, a new stdout appender added to it, then `setFormatter("%m%n")`: the
appender has had no direct call, yet it keeps the logger's first formatter. -/
theorem addAppender_then_setFormatter_stale (name : List Char) :
    Reachable name (step (step (step (init name) (.newAppender .stdout)) (.addAppender 1))
        (.setFormatterPattern "%m%n".toList)) ∧
      ¬ FollowsLogger (step (step (step (init name) (.newAppender .stdout)) (.addAppender 1))
        (.setFormatterPattern "%m%n".toList)) := by
  let r₁ := (init name).step (.newAppender .stdout)
  have ha : r₁.memory.appenders 1 = some (.new .stdout) := rfl
  have hr₁ : Reachable name r₁ := .single ⟨.newAppender .stdout, trivial, rfl⟩
  obtain ⟨hmem, hfmt, hlog⟩ :=
    hr₁.inherited_formatter_stale ha rfl
      (by decide : (LogFormatter.mk "%m%n".toList).isError = false)
  have hen : r₁.Enabled (.addAppender 1) :=
    show r₁.memory.appenders 1 ≠ none by rw [ha]; exact Option.some_ne_none _
  refine ⟨(hr₁.tail ⟨.addAppender 1, hen, rfl⟩).tail ⟨.setFormatterPattern _, trivial, rfl⟩, ?_⟩
  intro hf
  have h := hf 1 hmem List.not_mem_nil
  rw [hfmt, hlog, Option.some.injEq] at h
  -- the first formatter is at address 0, the new one at 2
  have haddr : r₁.logger.formatter.addr ≠ r₁.memory.next := show (0 : Nat) ≠ 2 by decide
  exact haddr (congrArg FormatterPtr.addr h)

end LoggerRun

/-! ## Memory that keeps its objects -/

namespace Memory

/-- **`m'` keeps the objects of `m`**: it has allocated at least as much, and
every appender below `m.next` is unchanged. -/
def Keeps (m m' : Memory) : Prop :=
  m.next ≤ m'.next ∧ ∀ a < m.next, m'.appenders a = m.appenders a

namespace Keeps

variable {m m' m'' : Memory}

@[refl] theorem refl (m : Memory) : m.Keeps m := ⟨Nat.le_refl _, fun _ _ => rfl⟩

@[trans] theorem trans (h : m.Keeps m') (h' : m'.Keeps m'') : m.Keeps m'' := by
  refine ⟨Nat.le_trans h.1 h'.1, fun a ha => ?_⟩
  rw [h'.2 a (Nat.lt_of_lt_of_le ha h.1), h.2 a ha]

theorem newFormatter (h : m.Keeps m') (pattern : List Char) : m.Keeps (m'.newFormatter pattern).2 :=
  ⟨Nat.le_succ_of_le h.1, h.2⟩

theorem newAppender (h : m.Keeps m') (kind : AppenderKind) : m.Keeps (m'.newAppender kind).2 := by
  refine ⟨Nat.le_succ_of_le h.1, fun a ha => ?_⟩
  have hne : a ≠ m'.next := by
    have := h.1
    omega
  rw [newAppender_appenders, Function.update_of_ne hne, h.2 a ha]

/-- A call on an appender allocated after `m` keeps the objects of `m`. -/
theorem modify (h : m.Keeps m') {a : Nat} (ha : m.next ≤ a) (f : LogAppender → LogAppender) :
    m.Keeps (m'.modify a f) := by
  refine ⟨h.1, fun b hb => ?_⟩
  have hne : b ≠ a := by omega
  rw [modify_appenders, Function.update_of_ne hne, h.2 b hb]

end Keeps

end Memory

/-- **A settled logger stays settled in memory that keeps its objects.** -/
theorem Logger.Settled.of_keeps {g : Logger} {m m' : Memory} (hm : m.Sound) (h : g.Settled m)
    (hk : m.Keeps m') : g.Settled m' := by
  intro a ha
  obtain ⟨ap, hap, hflag⟩ := h a ha
  have hlt : a < m.next := hm.lt_next a (by rw [hap]; exact Option.some_ne_none ap)
  exact ⟨ap, by rw [hk.2 a hlt, hap], hflag⟩

/-! ## The logger manager -/

/-- **The loggers of `LoggerManager`** (`m_loggers`, by name) with the memory.
`m_root` is the logger filed under `root`, to which `Logger::log` falls back
(`LogState.rootOf`). -/
structure LogState where
  memory : Memory
  loggers : List Char → Option Logger

namespace LogState

/-- **`LoggerManager::getLogger`**: the logger of that name, made if there is
none. -/
def getLogger (s : LogState) (name : List Char) : Logger × LogState :=
  match s.loggers name with
  | some g => (g, s)
  | none => ((Logger.new name s.memory).1,
      ⟨(Logger.new name s.memory).2, Function.update s.loggers name (some (Logger.new name s.memory).1)⟩)

/-- A logger written back after calls of its methods, with the memory they
left: the manager holds a pointer to the same object. -/
def putLogger (s : LogState) (g : Logger) (m : Memory) : LogState :=
  ⟨m, Function.update s.loggers g.name (some g)⟩

/-- The pattern of the root logger's stdout appender. -/
def stdoutPattern : List Char :=
  "%d\x7b%Y-%m-%d %H:%M:%S\x7d%T%t%T%F%T[%P]%T[%c](dft)%T%f\x7b\x7d:%l%T%m%n".toList

/-- The pattern of the root logger's file appender. -/
def filePattern : List Char :=
  "%d\x7b%Y-%m-%d %H:%M:%S\x7d%T%t%T%F%T[%p]%T[%c](dft)%T%f\x7b\x7d:%l%T%m%n".toList

/-- A new appender given a new formatter and added to the logger, as the
constructor of `LoggerManager` does twice. -/
def addOwnAppender (g : Logger) (m : Memory) (kind : AppenderKind) (pattern : List Char) :
    Logger × Memory :=
  let ap := m.newAppender kind
  let f := ap.2.newFormatter pattern
  g.addAppender (f.2.modify ap.1 (·.setFormatter (some f.1))) ap.1

/-- **The root logger of `LoggerManager::LoggerManager`**, with a stdout
appender and a file appender on `root.log`, each with a formatter of its own. -/
def initRoot : Logger × Memory :=
  let root := Logger.new "root".toList .empty
  let r₁ := addOwnAppender root.1 root.2 .stdout stdoutPattern
  addOwnAppender r₁.1 r₁.2 (.file "root.log".toList) filePattern

/-- **`LoggerManager::LoggerManager`**: the root logger alone. -/
def init : LogState :=
  ⟨initRoot.2, Function.update (fun _ => none) "root".toList (some initRoot.1)⟩

/-- **The invariant of the manager**: the memory is well formed, each logger is
filed under its name and is settled. -/
structure Sound (s : LogState) : Prop where
  memory : s.memory.Sound
  name_eq : ∀ n g, s.loggers n = some g → g.name = n
  settled : ∀ n g, s.loggers n = some g → g.Settled s.memory

/-- The formatter pattern of a logger, or the default one of a logger that
`getLogger` would make. -/
def formatterOf (s : LogState) (name : List Char) : List Char :=
  ((s.loggers name).map fun g => g.formatter.formatter.pattern).getD defaultPattern

variable {s : LogState}

@[simp] theorem putLogger_memory (s : LogState) (g : Logger) (m : Memory) :
    (s.putLogger g m).memory = m := rfl

/-- **Writing a logger back** files it under its name and leaves the others. -/
theorem putLogger_loggers (s : LogState) (g : Logger) (m : Memory) (x : List Char) :
    (s.putLogger g m).loggers x = if x = g.name then some g else s.loggers x :=
  Function.update_apply ..

/-- A logger filed after `putLogger` is the one written back, under its name,
or one filed before. -/
theorem putLogger_loggers_cases {g g' : Logger} {m : Memory} {n : List Char}
    (h : (s.putLogger g m).loggers n = some g') : n = g.name ∧ g' = g ∨ s.loggers n = some g' := by
  rw [putLogger_loggers] at h
  split at h
  · rename_i hn
    exact .inl ⟨hn, (Option.some.inj h).symm⟩
  · exact .inr h

/-- **Writing back a settled logger, with memory that keeps the objects of the
state, keeps the invariant.** -/
theorem Sound.putLogger (hs : s.Sound) {g : Logger} {m : Memory} (hm : m.Sound) (hk : s.memory.Keeps m)
    (hg : g.Settled m) : (s.putLogger g m).Sound := by
  refine ⟨hm, fun n g' hg' => ?_, fun n g' hg' => ?_⟩
  · rcases putLogger_loggers_cases hg' with ⟨rfl, rfl⟩ | hold
    · rfl
    · exact hs.name_eq n g' hold
  · rcases putLogger_loggers_cases hg' with ⟨-, rfl⟩ | hold
    · exact hg
    · exact (hs.settled n g' hold).of_keeps hs.memory hk

theorem getLogger_of_some {name : List Char} {g : Logger} (h : s.loggers name = some g) :
    s.getLogger name = (g, s) := by
  unfold getLogger
  rw [h]

/-- A name that has no logger gets a new one, written back as `putLogger`
would. -/
theorem getLogger_of_none {name : List Char} (h : s.loggers name = none) :
    s.getLogger name = ((Logger.new name s.memory).1,
      s.putLogger (Logger.new name s.memory).1 (Logger.new name s.memory).2) := by
  unfold getLogger
  rw [h]
  rfl

/-- **What `getLogger` gives**: a settled logger of that name, filed under it,
with the formatter pattern `formatterOf`; the memory keeps its objects, the
other loggers stay and the invariant holds. -/
theorem Sound.getLogger (hs : s.Sound) (name : List Char) :
    let p := s.getLogger name
    p.1.name = name ∧ p.1.formatter.formatter.pattern = s.formatterOf name ∧
      p.1.Settled p.2.memory ∧ p.2.loggers name = some p.1 ∧
      (∀ x, x ≠ name → p.2.loggers x = s.loggers x) ∧ s.memory.Keeps p.2.memory ∧ p.2.Sound := by
  cases h : s.loggers name with
  | some g =>
    rw [getLogger_of_some h]
    dsimp only
    refine ⟨hs.name_eq name g h, ?_, hs.settled name g h, h, fun _ _ => rfl, .refl _, hs⟩
    simp [formatterOf, h]
  | none =>
    rw [getLogger_of_none h]
    dsimp only
    have hm : s.memory.Keeps (Logger.new name s.memory).2 :=
      (Memory.Keeps.refl _).newFormatter defaultPattern
    have hsound : (Logger.new name s.memory).2.Sound := hs.memory.newFormatter defaultPattern
    -- the new logger has no appenders, so it is settled in any memory
    have hsettled : (Logger.new name s.memory).1.Settled (Logger.new name s.memory).2 :=
      fun _ hb => absurd hb List.not_mem_nil
    refine ⟨rfl, by simp [formatterOf, h, Logger.new], hsettled, Function.update_self ..,
      fun x hx => Function.update_of_ne hx .., hm, hs.putLogger hsound hm hsettled⟩

/-- **An appender with a formatter of its own, added to a settled logger**,
leaves it settled with the same name and formatter. -/
theorem addOwnAppender_spec {g : Logger} {m : Memory} (hm : m.Sound) (hg : g.Settled m)
    (kind : AppenderKind) (pattern : List Char) :
    let r := addOwnAppender g m kind pattern
    r.2.Sound ∧ r.1.Settled r.2 ∧ r.1.name = g.name ∧ r.1.formatter = g.formatter := by
  let ap := m.newAppender kind
  let f := ap.2.newFormatter pattern
  let m' := f.2.modify ap.1 (·.setFormatter (some f.1))
  have hm' : m'.Sound := ((hm.newAppender kind).newFormatter pattern).modify ap.1
    fun _ _ _ => LogAppender.setFormatter_hasFormatter _ _
  have hg' : g.Settled m' := ((hg.newAppender hm kind).newFormatter pattern).modify ap.1
    fun _ _ => LogAppender.setFormatter_hasFormatter _ _
  have hap : m'.appenders ap.1 ≠ none := by
    show (f.2.modify ap.1 _).appenders ap.1 ≠ none
    rw [Memory.modify_appenders, Function.update_self]
    simp [ap, f]
  exact ⟨hm'.addAppender g ap.1, hg'.addAppender hm' hap, rfl, rfl⟩

theorem init_loggers (x : List Char) :
    init.loggers x = if x = "root".toList then some initRoot.1 else none := by
  show Function.update (fun _ => none) "root".toList (some initRoot.1) x = _
  exact Function.update_apply ..

/-- **The manager's initial state satisfies the invariant.** -/
theorem sound_init : init.Sound := by
  let root := Logger.new "root".toList .empty
  have h₀ : root.2.Sound := Memory.Sound.empty.newFormatter defaultPattern
  have hr₀ : root.1.Settled root.2 := fun _ hb => absurd hb List.not_mem_nil
  obtain ⟨h₁, hr₁, hn₁, -⟩ := addOwnAppender_spec h₀ hr₀ .stdout stdoutPattern
  obtain ⟨h₂, hr₂, hn₂, -⟩ := addOwnAppender_spec h₁ hr₁ (.file "root.log".toList) filePattern
  refine ⟨h₂, fun n g hg => ?_, fun n g hg => ?_⟩ <;> rw [init_loggers] at hg <;> split at hg
  · rename_i hn
    rw [← Option.some.inj hg]
    exact (hn₂.trans hn₁).trans hn.symm
  · cases hg
  · rw [← Option.some.inj hg]
    exact hr₂
  · cases hg

/-- **Every logger starts from the default pattern**: the root logger's
formatter is the one its constructor made. -/
theorem formatterOf_init (x : List Char) : init.formatterOf x = defaultPattern := by
  unfold formatterOf
  rw [init_loggers]
  split <;> rfl

end LogState

end Sylar
