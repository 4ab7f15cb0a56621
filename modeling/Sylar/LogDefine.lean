/-
# Log definitions

The values of the config variable `logs` (`g_log_defines`): the structs
`LogAppenderDefine` and `LogDefine` of `log.cc`, and the `std::set<LogDefine>`
that holds them.  The set is ordered by `LogDefine::operator<`, which compares
names only, so it is a list strictly sorted by name; `std::set::find` finds the
element of the same name, whatever its other members.
-/
import Sylar.Logger

namespace Sylar

/-- **`LogAppenderDefine::Type`.** -/
inductive AppenderType
  | typeUnknow
  | typeFileLogAppender
  | typeStdoutLogAppender
  deriving DecidableEq, Repr

namespace AppenderType

/-- **`LogAppenderDefine::StringToType`**: the upper-cased text against the two
class names. -/
def stringToType (str : List Char) : AppenderType :=
  let ucstr := str.map Char.toUpper
  if ucstr = "FILELOGAPPENDER".toList then typeFileLogAppender
  else if ucstr = "STDOUTLOGAPPENDER".toList then typeStdoutLogAppender
  else typeUnknow

/-- **`LogAppenderDefine::TypeToString`.** -/
def typeToString : AppenderType → List Char
  | typeFileLogAppender => "FileLogAppender".toList
  | typeStdoutLogAppender => "StdoutLogAppender".toList
  | typeUnknow => "UNKNOW".toList

/-- The name of a known type reads back as the type. -/
theorem stringToType_typeToString {t : AppenderType} (ht : t ≠ typeUnknow) :
    stringToType (typeToString t) = t := by
  cases t with
  | typeUnknow => exact absurd rfl ht
  | typeFileLogAppender => decide
  | typeStdoutLogAppender => decide

end AppenderType

/-- **`LogAppenderDefine`**, with the defaults of its members. -/
structure LogAppenderDefine where
  type : AppenderType := .typeUnknow
  level : LogLevel := .unknow
  formatter : List Char := []
  file : List Char := []
  deriving DecidableEq, Repr

/-- **`LogDefine`**, with the defaults of its members.  Its `operator==`
compares every member, as the derived equality does. -/
structure LogDefine where
  name : List Char := []
  level : LogLevel := .unknow
  formatter : List Char := []
  appenders : List LogAppenderDefine := []
  deriving DecidableEq, Repr

/-- **`std::set<LogDefine>`**: strictly sorted by name, the order of
`LogDefine::operator<`.  Its `operator==` compares the elements in order. -/
def LogDefineSet : Type := { l : List LogDefine // l.Pairwise fun a b => a.name < b.name }

instance : DecidableEq LogDefineSet :=
  inferInstanceAs (DecidableEq { l : List LogDefine // l.Pairwise fun a b => a.name < b.name })

namespace LogDefineSet

/-- The empty set, the default value of `logs`. -/
def empty : LogDefineSet := ⟨[], .nil⟩

/-- **`std::set::find`**: the element equivalent under `operator<`, that is,
of the same name. -/
def find (S : LogDefineSet) (name : List Char) : Option LogDefine :=
  S.val.find? fun d => d.name = name

/-- The names of a set are distinct. -/
theorem names_nodup (S : LogDefineSet) : (S.val.map LogDefine.name).Nodup :=
  (List.pairwise_map.mpr S.property).nodup

/-- **An element is found under its name.** -/
theorem find_of_mem {S : LogDefineSet} {d : LogDefine} (hd : d ∈ S.val) : S.find d.name = some d := by
  obtain ⟨l, hl⟩ := S
  unfold find
  induction l with
  | nil => exact absurd hd List.not_mem_nil
  | cons e l ih =>
    rw [List.pairwise_cons] at hl
    rw [List.find?_cons]
    rcases List.mem_cons.mp hd with rfl | hmem
    · simp
    · -- the head sorts strictly before `d`, so it has another name
      have hne : e.name ≠ d.name := ne_of_lt (hl.1 d hmem)
      simpa [hne] using ih hl.2 hmem

theorem find_eq_some {S : LogDefineSet} {name : List Char} {d : LogDefine}
    (h : S.find name = some d) : d ∈ S.val ∧ d.name = name := by
  unfold find at h
  exact ⟨List.mem_of_find?_eq_some h, by simpa using List.find?_some h⟩

theorem find_eq_none {S : LogDefineSet} {name : List Char} :
    S.find name = none ↔ ∀ d ∈ S.val, d.name ≠ name := by
  unfold find
  simp

/-- **A set around one of its elements**: the others have other names. -/
theorem split_of_mem {S : LogDefineSet} {d : LogDefine} (hd : d ∈ S.val) :
    ∃ L₁ L₂, S.val = L₁ ++ d :: L₂ ∧ (∀ i ∈ L₁, i.name ≠ d.name) ∧ ∀ i ∈ L₂, i.name ≠ d.name := by
  obtain ⟨L₁, L₂, hS⟩ := List.append_of_mem hd
  have hnd := S.names_nodup
  rw [hS, List.map_append, List.map_cons, List.nodup_middle, List.nodup_cons, List.mem_append] at hnd
  refine ⟨L₁, L₂, hS, fun i hi hn => hnd.1 (Or.inl ?_), fun i hi hn => hnd.1 (Or.inr ?_)⟩
  · exact hn ▸ List.mem_map_of_mem hi
  · exact hn ▸ List.mem_map_of_mem hi

end LogDefineSet

end Sylar
