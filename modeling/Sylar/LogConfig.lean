/-
# Loading the log configuration

`Config::LoadFromYaml` on a registry in which `g_log_defines` is one of the
variables, and on a document whose member `logs` reaches it and whose other
members reach other variables.  The loader hands each member to the variable
its path names, in the order `ListAllMember` lists them
(`Config.loadFromYaml_eq_deliveries`); the call on `g_log_defines` decodes the
emitted `logs` node into a set of defines and assigns it, and the listener
reloads the loggers, while the calls on the other variables leave the
variable `logs` and the loggers as they are.  So loading a configuration file
is one more assignment in the history of `logs`, and what the loggers write
afterwards follows from the reload and output results.

The main results, for every such registry and document:
* `loadFromYaml_logs`: loading the document is the history one longer;
* `log_after_load`: afterwards each logger of a define of the file writes what
  the define says, from the formatter it had before the load;
* `log_dropped_after_load`: a logger configured before and not in the file
  writes nothing;
* `log_after_load_fresh`: a logger whose define fixes its pattern and has an
  appender writes the same whatever the history before the file;
* `load_twice`: loading the same file again leaves `logs` and the loggers as
  they are.
-/
import Sylar.LogOutput
import Sylar.Config
import Sylar.LogDefineCast

namespace Sylar

open Yaml LogIniter LogDefineCast

namespace LogConfig

/-! ## The loader on a configuration file -/

/-- **`fromString` of `g_log_defines`**, on the variable and the loggers. -/
def logsFromString (y : Lib) (text : List Char) (w : ConfigVar LogDefineSet LogState Unit × LogState) :
    (ConfigVar LogDefineSet LogState Unit × LogState) × Bool :=
  match w.1.fromString (setFromString y) text w.2 with
  | (var, s, ok) => ((var, s), ok)

/-- **A registry in which `logsVar` is `g_log_defines`**, for a program `W`
whose variable `logs` and loggers are `part w`: the `fromString` of
`logsVar` acts on them as `g_log_defines->fromString` does, and the
`fromString` of every other variable leaves them as they are. -/
structure LogsRegistry {V W : Type} (y : Lib) (fromString : V → List Char → W → W × Bool)
    (part : W → ConfigVar LogDefineSet LogState Unit × LogState) (logsVar : V) : Prop where
  logs : ∀ text w, part (fromString logsVar text w).1 = (logsFromString y text (part w)).1
  other : ∀ v, v ≠ logsVar → ∀ text w, part (fromString v text w).1 = part w

/-- **A document whose member `logs` hands `text` to `logsVar`**: of the calls
`LoadFromYaml` makes, one is `logsVar` reading `text`, and all the others are
on other variables. -/
def LogsDocument {V : Type} (y : Lib) (datas : List (List Char × V)) (logsVar : V) (root : Node)
    (text : List Char) : Prop :=
  ∃ pre post, Config.deliveries datas y root = pre ++ (logsVar, text) :: post ∧
    ∀ d ∈ pre ++ post, d.1 ≠ logsVar

section Load

variable {V W : Type} {y : Lib} {datas : List (List Char × V)} {fromString : V → List Char → W → W × Bool}
  {part : W → ConfigVar LogDefineSet LogState Unit × LogState} {logsVar : V}

/-- **Calls on other variables leave `logs` and the loggers as they are.** -/
theorem part_foldl_other (hreg : LogsRegistry y fromString part logsVar) :
    ∀ (ds : List (V × List Char)), (∀ d ∈ ds, d.1 ≠ logsVar) → ∀ w : W,
      part (ds.foldl (fun w d => (fromString d.1 d.2 w).1) w) = part w
  | [], _, _ => rfl
  | d :: ds, h, w => by
    rw [List.foldl_cons, part_foldl_other hreg ds (fun d' hd' => h d' (List.mem_cons_of_mem d hd')),
      hreg.other d.1 (h d List.mem_cons_self)]

/-- **`g_log_defines->fromString` of a text that decodes to `S`** assigns
`S` after the history. -/
theorem logsFromString_assignAll {text : List Char} {S : LogDefineSet} (hS : setFromString y text = some S)
    (ss : List LogDefineSet) : (logsFromString y text (assignAll ss)).1 = assignAll (ss ++ [S]) := by
  simp only [logsFromString, ConfigVar.fromString, hS, setValue_assignAll]

/-- **Loading the file is one more assignment of `logs`**: the set that the
text of its member `logs` decodes to, assigned after the history, whatever
the calls on the other variables. -/
theorem loadFromYaml_logs (hreg : LogsRegistry y fromString part logsVar) {root : Node} {text : List Char}
    (hdoc : LogsDocument y datas logsVar root text) {S : LogDefineSet} (hS : setFromString y text = some S)
    {ss : List LogDefineSet} {w : W} (hw : part w = assignAll ss) :
    part (Config.loadFromYaml datas fromString y root w) = assignAll (ss ++ [S]) := by
  obtain ⟨pre, post, hdeliv, hother⟩ := hdoc
  rw [Config.loadFromYaml_eq_deliveries, hdeliv, List.foldl_append, List.foldl_cons,
    part_foldl_other hreg post (fun d hd => hother d (List.mem_append_right pre hd)), hreg.logs,
    part_foldl_other hreg pre (fun d hd => hother d (List.mem_append_left post hd)), hw,
    logsFromString_assignAll hS]

end Load

/-! ## The loggers after loading -/

section Loggers

variable {V W : Type} (p : LogPlatform) {y : Lib} {datas : List (List Char × V)}
  {fromString : V → List Char → W → W × Bool} {part : W → ConfigVar LogDefineSet LogState Unit × LogState}
  {logsVar : V} {root : Node} {text : List Char} {S : LogDefineSet} {ss : List LogDefineSet}

/-- **After loading a configuration file, each logger of a define of the file
writes what the define says, from the formatter it had before**: the logger
as it was when the value of `logs` before the load held the define itself,
and otherwise, for an event at or above the define's level, each of its
appenders of a known type in turn, at its own level, with its own pattern or
else the logger's, and the root logger when it has none; the logger's pattern
is the define's when the parser accepts it, and otherwise the one the logger
had before the load. -/
theorem log_after_load (hreg : LogsRegistry y fromString part logsVar) (hdoc : LogsDocument y datas logsVar root text)
    (hS : setFromString y text = some S) {w : W} (hw : part w = assignAll ss) {d : LogDefine} (hd : d ∈ S.val)
    (e : LogEvent) :
    (part (Config.loadFromYaml datas fromString y root w)).2.logName p d.name e =
      (if (assignAll ss).1.val.find d.name = some d then view (assignAll ss).2 d.name
        else some (defineView d ((assignAll ss).2.formatterOf d.name))).map fun v =>
          v.logWith p (rootLog p (part (Config.loadFromYaml datas fromString y root w)).2 d.name) e := by
  rw [loadFromYaml_logs hreg hdoc hS hw, logName_eq_view (assignAll_reloaded _).1, view_assignAll_snoc ss S hd]

/-- **After loading a configuration file, a logger that an earlier
configuration had and the file lacks writes nothing** for an event of any
level up to `FATAL`: the reload left it with no appenders and a level above
`FATAL`. -/
theorem log_dropped_after_load (hreg : LogsRegistry y fromString part logsVar)
    (hdoc : LogsDocument y datas logsVar root text) (hS : setFromString y text = some S) {w : W}
    (hw : part w = assignAll ss) {x : List Char} (hx : ∃ T ∈ ss, T.find x ≠ none) (hSx : S.find x = none)
    {e : LogEvent} (he : e.level.val ≤ LogLevel.fatal.val) :
    (part (Config.loadFromYaml datas fromString y root w)).2.logName p x e = some (some []) := by
  obtain ⟨-, hdel⟩ := assignAll_reloaded (ss ++ [S])
  unfold Reloaded at hdel
  obtain ⟨T, hT, hTx⟩ := hx
  have hval : (assignAll (ss ++ [S])).1.val = S := assignAll_val ss S
  obtain ⟨g, hg, -, hl⟩ := hdel x ⟨T, List.mem_append_left _ hT, hTx⟩ (by rw [hval]; exact hSx)
  rw [loadFromYaml_logs hreg hdoc hS hw]
  unfold LogState.logName LogState.loggerLog Logger.logWith
  rw [hg, Option.map_some, if_neg (by omega)]

/-- **Loading the same configuration file again leaves `logs` and the loggers
as they are**: the second load assigns the value `logs` already holds, and
no listener runs. -/
theorem load_twice (hreg : LogsRegistry y fromString part logsVar) (hdoc : LogsDocument y datas logsVar root text)
    (hS : setFromString y text = some S) {w : W} (hw : part w = assignAll ss) :
    part (Config.loadFromYaml datas fromString y root (Config.loadFromYaml datas fromString y root w)) =
      part (Config.loadFromYaml datas fromString y root w) := by
  have hval : S = (assignAll (ss ++ [S])).1.val := (assignAll_val ss S).symm
  rw [loadFromYaml_logs hreg hdoc hS (loadFromYaml_logs hreg hdoc hS hw), loadFromYaml_logs hreg hdoc hS hw,
    assignAll_snoc, if_pos hval]

/-- A logger with appenders does not write through the root logger. -/
theorem logWith_of_appenders {v : LoggerView} (hv : v.appenders ≠ [])
    (r r' : LogEvent → Option (List Output)) (e : LogEvent) :
    v.logWith p r e = v.logWith p r' e := by
  have he : v.appenders.isEmpty = false := List.isEmpty_eq_false_iff.mpr hv
  simp only [LoggerView.logWith, he, Bool.false_eq_true, if_false]

/-- **A define that fixes its pattern and has a known appender gives its
logger's view after a load, whatever the history.** -/
theorem view_after_load (hreg : LogsRegistry y fromString part logsVar) (hdoc : LogsDocument y datas logsVar root text)
    (hS : setFromString y text = some S) {w : W} (hw : part w = assignAll ss) {d : LogDefine} (hd : d ∈ S.val)
    (hfmt : d.formatter ≠ [] ∧ (LogFormatter.mk d.formatter).isError = false) :
    view (part (Config.loadFromYaml datas fromString y root w)).2 d.name = some (defineView d d.formatter) := by
  -- the logger is the define's view from the formatter it had when the define was last applied
  obtain ⟨j, -, -, -, hview⟩ := view_lastApplied ss S hd
  rw [loadFromYaml_logs hreg hdoc hS hw, hview, defineView_of_formatter hfmt _ d.formatter]

/-- **A logger whose define fixes its pattern and has a known appender writes
the same after loading the file, whatever the history**: what it writes after
the file is loaded into a program that has just started. -/
theorem log_after_load_fresh (hreg : LogsRegistry y fromString part logsVar)
    (hdoc : LogsDocument y datas logsVar root text) (hS : setFromString y text = some S) {w w₀ : W}
    (hw : part w = assignAll ss) (hw₀ : part w₀ = assignAll []) {d : LogDefine} (hd : d ∈ S.val)
    (hfmt : d.formatter ≠ [] ∧ (LogFormatter.mk d.formatter).isError = false)
    (happ : knownAppenders d.appenders ≠ []) (e : LogEvent) :
    (part (Config.loadFromYaml datas fromString y root w)).2.logName p d.name e =
      (part (Config.loadFromYaml datas fromString y root w₀)).2.logName p d.name e := by
  have hv : (defineView d d.formatter).appenders ≠ [] := by simpa [defineView] using happ
  have hs : (part (Config.loadFromYaml datas fromString y root w)).2.Sound := by
    rw [loadFromYaml_logs hreg hdoc hS hw]
    exact (assignAll_reloaded _).1
  have hs₀ : (part (Config.loadFromYaml datas fromString y root w₀)).2.Sound := by
    rw [loadFromYaml_logs hreg hdoc hS hw₀]
    exact (assignAll_reloaded _).1
  rw [logName_eq_view hs, logName_eq_view hs₀, view_after_load hreg hdoc hS hw hd hfmt,
    view_after_load hreg hdoc hS hw₀ hd hfmt]
  simp only [Option.map_some, Option.some.injEq]
  exact logWith_of_appenders p hv _ _ e

end Loggers

/-! ## A configuration file -/

/-- The define `app` as a configuration file writes it: level `INFO`, one
`StdoutLogAppender` at `WARN` with the pattern `%m%n`. -/
def appNode : Node :=
  .map [(.scalar "name".toList, .scalar "app".toList), (.scalar "level".toList, .scalar "INFO".toList),
    (.scalar "appenders".toList, .sequence [.map [(.scalar "type".toList, .scalar "StdoutLogAppender".toList),
      (.scalar "level".toList, .scalar "WARN".toList), (.scalar "formatter".toList, .scalar "%m%n".toList)]])]

/-- **A file with one define decodes to the set of that define**, for the
library that reads back what it writes. -/
theorem singleton_decodes {n : Node} (hn : n.isDefined = true) {d : LogDefine}
    (hd : fromNode codeLib.decodeIndex n = some d) :
    setFromString codeLib (codeLib.emit (.sequence [n])) = some ⟨[d], List.pairwise_singleton _ _⟩ := by
  have hload : codeLib.load (codeLib.emit (.sequence [n])) = some (.sequence [n]) := codeLib_loadsEmitted _ rfl
  have hitem : fromString codeLib (codeLib.emit n) = some d := by
    rw [fromString, codeLib_loadsEmitted _ hn, Option.bind_some, hd]
  have hsize : (Node.sequence [n]).size = some 1 := by simp [Node.size, hn]
  have hindex := @Node.index_sequence codeLib.decodeIndex [n] 0 (by simp)
    (List.forall_mem_singleton.mpr hn)
  -- the decoder reads the one item of the sequence, which it leaves in place
  simp only [setFromString, stringToSet, decodeItems, hload, hsize, Option.bind_eq_bind, Option.bind_some,
    List.range_one, List.foldlM_cons, List.foldlM_nil, hindex, List.getD_cons_zero, hitem]
  rfl

/-- The file with `app` decodes to the set of `appDefine`. -/
theorem appNode_decodes : setFromString codeLib (codeLib.emit (.sequence [appNode])) = some appSet :=
  singleton_decodes rfl (by decide)

/-- The define `app` with its own pattern `%m%n` and one `StdoutLogAppender`. -/
def fmtNode : Node :=
  .map [(.scalar "name".toList, .scalar "app".toList), (.scalar "level".toList, .scalar "INFO".toList),
    (.scalar "formatter".toList, .scalar "%m%n".toList),
    (.scalar "appenders".toList, .sequence [.map [(.scalar "type".toList, .scalar "StdoutLogAppender".toList)]])]

/-- The define the decoder reads from `fmtNode`. -/
def fmtDefine : LogDefine :=
  { name := "app".toList, level := .info, formatter := "%m%n".toList,
    appenders := [{ type := .typeStdoutLogAppender }] }

/-- **The file with no loggers decodes to the empty set.** -/
theorem emptyDocument_decodes : setFromString codeLib (codeLib.emit (.sequence [])) = some LogDefineSet.empty := by
  have hload : codeLib.load (codeLib.emit (.sequence [])) = some (.sequence []) := codeLib_loadsEmitted _ rfl
  simp only [setFromString, stringToSet, decodeItems, hload, Option.bind_eq_bind, Option.bind_some,
    show (Node.sequence []).size = some 0 from rfl, List.range_zero, List.foldlM_nil]
  rfl

/-! ## A program with one more variable -/

/-- The variables of a program with `logs` and `system.port`. -/
inductive SampleVar
  | logs
  | port
  deriving DecidableEq

/-- Its registry. -/
def sampleRegistry : List (List Char × SampleVar) := [("logs".toList, .logs), ("system.port".toList, .port)]

/-- Their `fromString`s, on the variable `logs` with the loggers, and on the
text the port holds. -/
def sampleFromString (y : Lib) :
    SampleVar → List Char → (ConfigVar LogDefineSet LogState Unit × LogState) × List Char →
      ((ConfigVar LogDefineSet LogState Unit × LogState) × List Char) × Bool
  | .logs, text, w => (((logsFromString y text w.1).1, w.2), (logsFromString y text w.1).2)
  | .port, text, w => ((w.1, text), true)

theorem sampleRegistry_logs (y : Lib) : LogsRegistry y (sampleFromString y) Prod.fst .logs where
  logs _ _ := rfl
  other v hv _ _ := by
    cases v with
    | logs => exact absurd rfl hv
    | port => rfl

/-- **A configuration file**: the loggers under `logs`, and `system.port`. -/
def sampleDocument (node : Node) : Node :=
  .map [(.scalar "system".toList, .map [(.scalar "port".toList, .scalar "9900".toList)]),
    (.scalar "logs".toList, node)]

/-- **The file's member `logs` reaches `logs`**, after `system.port` has read
its text. -/
theorem sampleDocument_logs (y : Lib) (items : List Node) :
    LogsDocument y sampleRegistry .logs (sampleDocument (.sequence items)) (y.emit (.sequence items)) := by
  refine ⟨[(.port, "9900".toList)], [], ?_, by simp⟩
  -- every path is a valid name, and `system` names no variable
  simp +decide [Config.deliveries, sampleDocument, Config.listAllMember, Config.listAllEntries, Config.joinKey,
    Config.lookupBase, sampleRegistry]

/-- A program that has just started, its port text empty. -/
def fresh : (ConfigVar LogDefineSet LogState Unit × LogState) × List Char := (assignAll [], [])

theorem log_after_load_app :
    LogsRegistry codeLib (sampleFromString codeLib) Prod.fst .logs ∧
      LogsDocument codeLib sampleRegistry .logs (sampleDocument (.sequence [appNode]))
        (codeLib.emit (.sequence [appNode])) ∧
      setFromString codeLib (codeLib.emit (.sequence [appNode])) = some appSet ∧
      fresh.1 = assignAll [] ∧ appDefine ∈ appSet.val ∧
      (Config.loadFromYaml sampleRegistry (sampleFromString codeLib) codeLib (sampleDocument (.sequence [appNode]))
          fresh).1.2.logName plainPlatform appDefine.name (hiEvent .error) =
        (if (assignAll []).1.val.find appDefine.name = some appDefine then view (assignAll []).2 appDefine.name
          else some (defineView appDefine ((assignAll []).2.formatterOf appDefine.name))).map fun v =>
            v.logWith plainPlatform (rootLog plainPlatform (Config.loadFromYaml sampleRegistry
              (sampleFromString codeLib) codeLib (sampleDocument (.sequence [appNode])) fresh).1.2 appDefine.name)
              (hiEvent .error) :=
  ⟨sampleRegistry_logs codeLib, sampleDocument_logs codeLib _, appNode_decodes, rfl, List.mem_singleton_self _,
    log_after_load plainPlatform (sampleRegistry_logs codeLib) (sampleDocument_logs codeLib _) appNode_decodes
      rfl (List.mem_singleton_self _) (hiEvent .error)⟩

/-- The program after `appSet` was assigned. -/
def afterApp : (ConfigVar LogDefineSet LogState Unit × LogState) × List Char := (assignAll [appSet], [])

theorem log_dropped_after_load_app :
    LogsRegistry codeLib (sampleFromString codeLib) Prod.fst .logs ∧
      LogsDocument codeLib sampleRegistry .logs (sampleDocument (.sequence [])) (codeLib.emit (.sequence [])) ∧
      setFromString codeLib (codeLib.emit (.sequence [])) = some LogDefineSet.empty ∧
      afterApp.1 = assignAll [appSet] ∧
      (∃ T ∈ [appSet], T.find appDefine.name ≠ none) ∧ LogDefineSet.empty.find appDefine.name = none ∧
      (hiEvent .fatal).level.val ≤ LogLevel.fatal.val ∧
      (Config.loadFromYaml sampleRegistry (sampleFromString codeLib) codeLib (sampleDocument (.sequence []))
          afterApp).1.2.logName plainPlatform appDefine.name (hiEvent .fatal) = some (some []) := by
  have hx : ∃ T ∈ [appSet], T.find appDefine.name ≠ none := ⟨appSet, List.mem_singleton_self _, by decide⟩
  exact ⟨sampleRegistry_logs codeLib, sampleDocument_logs codeLib _, emptyDocument_decodes, rfl, hx, rfl,
    Nat.le_refl _, log_dropped_after_load plainPlatform (sampleRegistry_logs codeLib) (sampleDocument_logs codeLib _)
      emptyDocument_decodes rfl hx rfl (Nat.le_refl _)⟩

theorem load_twice_app :
    LogsRegistry codeLib (sampleFromString codeLib) Prod.fst .logs ∧
      LogsDocument codeLib sampleRegistry .logs (sampleDocument (.sequence [appNode]))
        (codeLib.emit (.sequence [appNode])) ∧
      setFromString codeLib (codeLib.emit (.sequence [appNode])) = some appSet ∧ fresh.1 = assignAll [] ∧
      (Config.loadFromYaml sampleRegistry (sampleFromString codeLib) codeLib (sampleDocument (.sequence [appNode]))
          (Config.loadFromYaml sampleRegistry (sampleFromString codeLib) codeLib
            (sampleDocument (.sequence [appNode])) fresh)).1 =
        (Config.loadFromYaml sampleRegistry (sampleFromString codeLib) codeLib
          (sampleDocument (.sequence [appNode])) fresh).1 :=
  ⟨sampleRegistry_logs codeLib, sampleDocument_logs codeLib _, appNode_decodes, rfl,
    load_twice (sampleRegistry_logs codeLib) (sampleDocument_logs codeLib _) appNode_decodes rfl⟩

theorem log_after_load_fresh_fmt :
    LogsRegistry codeLib (sampleFromString codeLib) Prod.fst .logs ∧
      LogsDocument codeLib sampleRegistry .logs (sampleDocument (.sequence [fmtNode]))
        (codeLib.emit (.sequence [fmtNode])) ∧
      setFromString codeLib (codeLib.emit (.sequence [fmtNode])) = some ⟨[fmtDefine], List.pairwise_singleton _ _⟩ ∧
      afterApp.1 = assignAll [appSet] ∧ fresh.1 = assignAll [] ∧ fmtDefine ∈ [fmtDefine] ∧
      (fmtDefine.formatter ≠ [] ∧ (LogFormatter.mk fmtDefine.formatter).isError = false) ∧
      knownAppenders fmtDefine.appenders ≠ [] ∧
      (Config.loadFromYaml sampleRegistry (sampleFromString codeLib) codeLib (sampleDocument (.sequence [fmtNode]))
          afterApp).1.2.logName plainPlatform fmtDefine.name (hiEvent .error) =
        (Config.loadFromYaml sampleRegistry (sampleFromString codeLib) codeLib (sampleDocument (.sequence [fmtNode]))
          fresh).1.2.logName plainPlatform fmtDefine.name (hiEvent .error) := by
  have hS := @singleton_decodes fmtNode rfl fmtDefine (by decide)
  have hfmt : fmtDefine.formatter ≠ [] ∧ (LogFormatter.mk fmtDefine.formatter).isError = false := by decide
  have happ : knownAppenders fmtDefine.appenders ≠ [] := by decide
  exact ⟨sampleRegistry_logs codeLib, sampleDocument_logs codeLib _, hS, rfl, rfl, List.mem_singleton_self _, hfmt,
    happ, log_after_load_fresh plainPlatform (sampleRegistry_logs codeLib) (sampleDocument_logs codeLib _) hS rfl rfl
      (List.mem_singleton_self _) hfmt happ (hiEvent .error)⟩

end LogConfig

end Sylar
