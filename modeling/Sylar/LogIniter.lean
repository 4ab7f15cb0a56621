/-
# Reloading the log configuration

The listener that `LogIniter` puts on the config variable `logs`.  Given the
old and the new set of `LogDefine`, it applies every define that is new or
changed to the logger of its name, and silences every logger whose define
has gone.  A logger keeps its formatter when the define gives none, or one
that the parser rejects, so what it ends with depends on the earlier
configurations through that formatter, and through nothing else.
-/
import Sylar.LogDefine
import Sylar.ConfigVar

namespace Sylar

namespace LogIniter

/-! ## The listener -/

/-- The class an appender define asks for; `none` for an unknown type, where
the listener prints `Unknown Appender Type` and leaves its loop. -/
def appenderKind (a : LogAppenderDefine) : Option AppenderKind :=
  match a.type with
  | .typeFileLogAppender => some (.file a.file)
  | .typeStdoutLogAppender => some .stdout
  | .typeUnknow => none

/-- **An appender made as the listener makes it**: the object, its level, and
a new formatter of its own when the define has a pattern (not checked for
errors). -/
def setUpAppender (a : LogAppenderDefine) (kind : AppenderKind) (m : Memory) : Nat × Memory :=
  let ap := m.newAppender kind
  let m₁ := ap.2.modify ap.1 (·.setLevel a.level)
  if a.formatter ≠ [] then
    let f := m₁.newFormatter a.formatter
    (ap.1, f.2.modify ap.1 (·.setFormatter (some f.1)))
  else (ap.1, m₁)

/-- **The loop over a define's appenders**: each is made and added to the
logger, up to the first of unknown type. -/
def addAppenders (g : Logger) (m : Memory) : List LogAppenderDefine → Logger × Memory
  | [] => (g, m)
  | a :: as =>
    match appenderKind a with
    | none => (g, m)
    | some kind =>
      let ap := setUpAppender a kind m
      addAppenders (g.addAppender ap.2 ap.1).1 (g.addAppender ap.2 ap.1).2 as

/-- **A define applied to the logger of its name**: level, formatter when the
define has one, then a new list of appenders. -/
def applyDefine (s : LogState) (i : LogDefine) : LogState :=
  let p := s.getLogger i.name
  let g := p.1.setLevel i.level
  let q := if i.formatter ≠ [] then g.setFormatterPattern p.2.memory i.formatter else (g, p.2.memory)
  let r := addAppenders q.1.clearAppenders q.2 i.appenders
  p.2.putLogger r.1 r.2

/-- **A logger whose define has gone**: level 100, which no event reaches, and
no appenders. -/
def deleteLogger (s : LogState) (name : List Char) : LogState :=
  let p := s.getLogger name
  p.2.putLogger ((p.1.setLevel ⟨100⟩).clearAppenders) p.2.memory

/-- The first loop of the listener on one define of the new set: applied when
the old set has none of that name or a different one. -/
def updateLogger (oldValue : LogDefineSet) (s : LogState) (i : LogDefine) : LogState :=
  match oldValue.find i.name with
  | none => applyDefine s i
  | some o => if i ≠ o then applyDefine s i else s

/-- The second loop of the listener on one define of the old set: its logger
is deleted when the new set has none of that name. -/
def removeLogger (newValue : LogDefineSet) (s : LogState) (i : LogDefine) : LogState :=
  if newValue.find i.name = none then deleteLogger s i.name else s

/-- **The listener `on_logger_conf_changed`.** -/
def onLoggerConfChanged (oldValue newValue : LogDefineSet) (s : LogState) : LogState :=
  oldValue.val.foldl (removeLogger newValue) (newValue.val.foldl (updateLogger oldValue) s)

/-- **`g_log_defines`** once `LogIniter` has run: the variable `logs`, empty,
with the listener under the first key. -/
def gLogDefines : ConfigVar LogDefineSet LogState Unit :=
  { (ConfigVar.new "logs".toList LogDefineSet.empty "logs config".toList :
      ConfigVar LogDefineSet LogState Unit) with
    cbs := [(1, .ofFun onLoggerConfChanged)] }

/-- **Assigning the sets in turn** (`g_log_defines->setValue`), from the
manager's initial state. -/
def assignAll (ss : List LogDefineSet) : ConfigVar LogDefineSet LogState Unit × LogState :=
  ss.foldl (fun p S => ((p.1.setValue S p.2).1, (p.1.setValue S p.2).2.1)) (gLogDefines, LogState.init)

/-! ## What a logger looks like -/

/-- An appender as the configuration sees it: its class (with the file), level
and formatter pattern. -/
structure AppenderView where
  kind : AppenderKind
  level : LogLevel
  formatter : Option (List Char)
  deriving DecidableEq, Repr

/-- A logger as the configuration sees it: level, formatter pattern and the
ordered list of its appenders. -/
structure LoggerView where
  level : LogLevel
  formatter : List Char
  appenders : List (Option AppenderView)
  deriving DecidableEq, Repr

/-- The view of the appender at an address. -/
def appenderView (m : Memory) (a : Nat) : Option AppenderView :=
  (m.appenders a).map fun ap => ⟨ap.kind, ap.level, ap.formatter.map fun f => f.formatter.pattern⟩

/-- **The view of the logger of a name**, if there is one. -/
def view (s : LogState) (name : List Char) : Option LoggerView :=
  (s.loggers name).map fun g => ⟨g.level, g.formatter.formatter.pattern, g.appenders.map (appenderView s.memory)⟩

/-! ## What a define gives -/

/-- The appenders of a define's list that the listener makes: those before
the first of unknown type, with their class. -/
def knownAppenders : List LogAppenderDefine → List (LogAppenderDefine × AppenderKind)
  | [] => []
  | a :: as =>
    match appenderKind a with
    | none => []
    | some kind => (a, kind) :: knownAppenders as

/-- The formatter pattern a logger has after its define, from the one `f₀` it
had: the define's, when it has one and the parser accepts it. -/
def defineFormatter (d : LogDefine) (f₀ : List Char) : List Char :=
  if d.formatter ≠ [] ∧ (LogFormatter.mk d.formatter).isError = false then d.formatter else f₀

/-- The view of an appender made from a define and added to a logger whose
formatter pattern is `f`: its own pattern, or else the logger's. -/
def defineAppenderView (f : List Char) (p : LogAppenderDefine × AppenderKind) : AppenderView :=
  ⟨p.2, p.1.level, some (if p.1.formatter ≠ [] then p.1.formatter else f)⟩

/-- **The view a define gives a logger** whose formatter pattern was `f₀`. -/
def defineView (d : LogDefine) (f₀ : List Char) : LoggerView :=
  ⟨d.level, defineFormatter d f₀,
    (knownAppenders d.appenders).map fun p => some (defineAppenderView (defineFormatter d f₀) p)⟩

/-- **A define with an accepted formatter forgets the old one.** -/
theorem defineView_of_formatter {d : LogDefine}
    (hd : d.formatter ≠ [] ∧ (LogFormatter.mk d.formatter).isError = false) (f₀ f₁ : List Char) :
    defineView d f₀ = defineView d f₁ := by
  unfold defineView defineFormatter
  rw [if_pos hd, if_pos hd]

/-! ## Frames -/

/-- The appenders of a settled logger look the same in memory that keeps their
objects. -/
theorem map_appenderView_of_keeps {g : Logger} {m m' : Memory} (hm : m.Sound) (hg : g.Settled m)
    (hk : m.Keeps m') : g.appenders.map (appenderView m') = g.appenders.map (appenderView m) := by
  apply List.map_congr_left
  intro a ha
  obtain ⟨ap, hap, -⟩ := hg a ha
  have hlt : a < m.next := hm.lt_next a (by rw [hap]; exact Option.some_ne_none ap)
  unfold appenderView
  rw [hk.2 a hlt]

/-- **The view of a logger depends only on it and its appenders**: filed the
same, in memory that keeps the objects of a sound state, it looks the same. -/
theorem view_eq_of_keeps {s s' : LogState} (hs : s.Sound) {x : List Char}
    (hx : s'.loggers x = s.loggers x) (hk : s.memory.Keeps s'.memory) : view s' x = view s x := by
  unfold view
  rw [hx]
  cases h : s.loggers x with
  | none => rfl
  | some g => simp only [Option.map_some, map_appenderView_of_keeps hs.memory (hs.settled x g h) hk]

/-- **The appender `setUpAppender` makes**: at the next address, of the class
and level of its define, with a formatter exactly when the define has a
pattern. -/
theorem setUpAppender_spec {m : Memory} (hm : m.Sound) (a : LogAppenderDefine) (kind : AppenderKind) :
    (setUpAppender a kind m).1 = m.next ∧ m.Keeps (setUpAppender a kind m).2 ∧
      (setUpAppender a kind m).2.Sound ∧
      ∃ ap, (setUpAppender a kind m).2.appenders m.next = some ap ∧ ap.kind = kind ∧
        ap.level = a.level ∧
        ap.formatter.map (fun f => f.formatter.pattern) =
          if a.formatter ≠ [] then some a.formatter else none := by
  let m₁ := (m.newAppender kind).2.modify m.next (·.setLevel a.level)
  have hk₁ : m.Keeps m₁ := ((Memory.Keeps.refl m).newAppender kind).modify (Nat.le_refl _) _
  have hs₁ : m₁.Sound := (hm.newAppender kind).modify m.next fun _ hap => hap
  have ha₁ : m₁.appenders m.next = some ((LogAppender.new kind).setLevel a.level) := by
    simp [m₁]
  by_cases hf : a.formatter ≠ []
  · have hr : setUpAppender a kind m = (m.next, (m₁.newFormatter a.formatter).2.modify m.next
        (·.setFormatter (some (m₁.newFormatter a.formatter).1))) := by
      simp only [setUpAppender, if_pos hf]
      rfl
    rw [hr]
    refine ⟨rfl, (hk₁.newFormatter _).modify (Nat.le_refl _) _,
      (hs₁.newFormatter _).modify _ fun _ _ _ => LogAppender.setFormatter_hasFormatter _ _,
      ((LogAppender.new kind).setLevel a.level).setFormatter (some (m₁.newFormatter a.formatter).1),
      ?_, rfl, rfl, ?_⟩
    · simp only [Memory.modify_appenders, Function.update_self, Memory.newFormatter_appenders, ha₁,
        Option.map_some]
    · simp [hf]
  · have hr : setUpAppender a kind m = (m.next, m₁) := by
      simp only [setUpAppender, if_neg hf]
      rfl
    rw [hr]
    exact ⟨rfl, hk₁, hs₁, _, ha₁, rfl, rfl, by simp [hf]⟩

/-- The pattern of an appender after `addAppender`: its own, or the logger's. -/
theorem setFormatterIfNull_pattern (val : FormatterPtr) (ap : LogAppender) :
    (ap.setFormatterIfNull val).formatter.map (fun f => f.formatter.pattern) =
      some ((ap.formatter.map fun f => f.formatter.pattern).getD val.formatter.pattern) := by
  unfold LogAppender.setFormatterIfNull
  cases h : ap.formatter with
  | none => rfl
  | some f => simp [h]

/-- **`addAppenders` only appends to the logger's list.** -/
theorem addAppenders_logger (as : List LogAppenderDefine) :
    ∀ (g : Logger) (m : Memory), ∃ L, (addAppenders g m as).1 = { g with appenders := g.appenders ++ L } := by
  induction as with
  | nil => exact fun g _ => ⟨[], by simp [addAppenders]⟩
  | cons a as ih =>
    intro g m
    unfold addAppenders
    cases appenderKind a with
    | none => exact ⟨[], by simp⟩
    | some kind =>
      obtain ⟨L, hL⟩ := ih (g.addAppender (setUpAppender a kind m).2 (setUpAppender a kind m).1).1
        (g.addAppender (setUpAppender a kind m).2 (setUpAppender a kind m).1).2
      exact ⟨(setUpAppender a kind m).1 :: L, by rw [hL]; simp [Logger.addAppender]⟩

/-- **One appender of `addAppenders`**, made by `setUpAppender` and added to a
settled logger: the memory stays well formed, the logger settled, and the
objects already there stay. -/
theorem addSetUpAppender_sound {g : Logger} {m : Memory} (hm : m.Sound) (hg : g.Settled m)
    (a : LogAppenderDefine) (kind : AppenderKind) :
    let r := setUpAppender a kind m
    (g.addAppender r.2 r.1).2.Sound ∧ (g.addAppender r.2 r.1).1.Settled (g.addAppender r.2 r.1).2 ∧
      m.Keeps (g.addAppender r.2 r.1).2 := by
  obtain ⟨hnext, hk, hs, ap, hap, -⟩ := setUpAppender_spec hm a kind
  -- the new appender is at the address `setUpAppender` returns
  have hex : (setUpAppender a kind m).2.appenders (setUpAppender a kind m).1 ≠ none := by
    rw [hnext, hap]
    exact Option.some_ne_none ap
  exact ⟨hs.addAppender g _, (hg.of_keeps hm hk).addAppender hs hex, hk.modify (Nat.le_of_eq hnext.symm) _⟩

/-- **`addAppenders` keeps the invariant and the objects already there.** -/
theorem addAppenders_sound (as : List LogAppenderDefine) :
    ∀ (g : Logger) (m : Memory), m.Sound → g.Settled m →
      (addAppenders g m as).2.Sound ∧ (addAppenders g m as).1.Settled (addAppenders g m as).2 ∧
        m.Keeps (addAppenders g m as).2 := by
  induction as with
  | nil => exact fun g m hm hg => ⟨hm, hg, .refl m⟩
  | cons a as ih =>
    intro g m hm hg
    unfold addAppenders
    cases appenderKind a with
    | none => exact ⟨hm, hg, .refl m⟩
    | some kind =>
      obtain ⟨hs₁, hg₁, hk₁⟩ := addSetUpAppender_sound hm hg a kind
      obtain ⟨hs₂, hg₂, hk₂⟩ := ih _ _ hs₁ hg₁
      exact ⟨hs₂, hg₂, hk₁.trans hk₂⟩

/-- **What `addAppenders` adds**: the appenders the define's list asks for,
up to the first of unknown type, each with its own pattern or else the
logger's. -/
theorem addAppenders_view (as : List LogAppenderDefine) :
    ∀ (g : Logger) (m : Memory), m.Sound → g.Settled m →
      (addAppenders g m as).1.appenders.map (appenderView (addAppenders g m as).2) =
        g.appenders.map (appenderView m) ++
          (knownAppenders as).map fun p => some (defineAppenderView g.formatter.formatter.pattern p) := by
  induction as with
  | nil => exact fun g m _ _ => by simp [addAppenders, knownAppenders]
  | cons a as ih =>
    intro g m hm hg
    unfold addAppenders knownAppenders
    cases hkind : appenderKind a with
    | none => simp
    | some kind =>
      obtain ⟨hnext, -, -, ap, hap, hkd, hlv, hpat⟩ := setUpAppender_spec hm a kind
      obtain ⟨hs₁, hg₁, hk₁⟩ := addSetUpAppender_sound hm hg a kind
      let r := setUpAppender a kind m
      let m₁ := (g.addAppender r.2 r.1).2
      -- the new appender, once added, has its own pattern or the logger's
      have hnew : appenderView m₁ r.1 = some (defineAppenderView g.formatter.formatter.pattern (a, kind)) := by
        show ((r.2.modify r.1 _).appenders r.1).map _ = _
        rw [Memory.modify_appenders, Function.update_self, hnext, hap, Option.map_some, Option.map_some]
        rw [setFormatterIfNull_pattern, hpat, LogAppender.setFormatterIfNull_kind,
          LogAppender.setFormatterIfNull_level, hkd, hlv]
        unfold defineAppenderView
        by_cases hf : a.formatter ≠ [] <;> simp [hf]
      have hrest := ih _ _ hs₁ hg₁
      simp only at hrest ⊢
      rw [hrest, Logger.addAppender_appenders, Logger.addAppender_formatter, List.map_append,
        map_appenderView_of_keeps hm hg hk₁, List.map_singleton, hnew, List.map_cons, List.append_assoc,
        List.singleton_append]

/-- **The formatter step of `applyDefine`** on a settled logger: the logger
takes the pattern `defineFormatter` says, and the memory only gains a
formatter. -/
theorem defineFormatter_step {g : Logger} {m : Memory} (hg : g.Settled m) (hm : m.Sound)
    (d : LogDefine) :
    ∃ F m', (if d.formatter ≠ [] then g.setFormatterPattern m d.formatter else (g, m)) =
        ({ g with formatter := F }, m') ∧
      F.formatter.pattern = defineFormatter d g.formatter.formatter.pattern ∧ m.Keeps m' ∧
      m'.Sound ∧ m'.appenders = m.appenders := by
  by_cases hf : d.formatter ≠ []
  · rw [if_pos hf, Logger.setFormatterPattern_of_settled hg]
    refine ⟨_, _, rfl, ?_, (Memory.Keeps.refl m).newFormatter _, hm.newFormatter _, rfl⟩
    unfold defineFormatter
    cases herr : (LogFormatter.mk d.formatter).isError <;> simp [hf]
  · rw [if_neg hf]
    refine ⟨g.formatter, m, rfl, ?_, .refl m, hm, rfl⟩
    unfold defineFormatter
    rw [if_neg fun h => hf h.1]

/-- **What `applyDefine` does**: the logger of the define's name looks as the
define says, from the formatter it had; every other logger stays, and so do
the objects in memory. -/
theorem applyDefine_spec {s : LogState} (hs : s.Sound) (d : LogDefine) :
    view (applyDefine s d) d.name = some (defineView d (s.formatterOf d.name)) ∧
      (∀ x, x ≠ d.name → (applyDefine s d).loggers x = s.loggers x) ∧
      s.memory.Keeps (applyDefine s d).memory ∧ (applyDefine s d).Sound := by
  obtain ⟨hname, hpat, hset, -, hother, hk, hs'⟩ := hs.getLogger d.name
  obtain ⟨F, m', hq, hF, hk', hm', -⟩ := defineFormatter_step (hset.setLevel d.level) hs'.memory d
  -- the logger with its new formatter, cleared, then given the define's appenders
  set p := s.getLogger d.name
  set g' : Logger := { p.1.setLevel d.level with formatter := F }
  have hg' : g'.clearAppenders.Settled m' := Logger.Settled.clearAppenders m'
  obtain ⟨L, hL⟩ := addAppenders_logger d.appenders g'.clearAppenders m'
  obtain ⟨hrs, hrg, hrk⟩ := addAppenders_sound d.appenders g'.clearAppenders m' hm' hg'
  have hview := addAppenders_view d.appenders g'.clearAppenders m' hm' hg'
  set r := addAppenders g'.clearAppenders m' d.appenders
  have happly : applyDefine s d = p.2.putLogger r.1 r.2 := by
    dsimp only [applyDefine]
    rw [hq]
  have hrname : r.1.name = d.name := by
    rw [hL]
    exact hname
  rw [happly]
  refine ⟨?_, fun x hx => ?_, hk.trans (hk'.trans hrk), hs'.putLogger hrs (hk'.trans hrk) hrg⟩
  · unfold view
    rw [LogState.putLogger_loggers, if_pos hrname.symm, Option.map_some, LogState.putLogger_memory,
      hview, Option.some.injEq, hL]
    have hF' : F.formatter.pattern = defineFormatter d (s.formatterOf d.name) := by
      rw [hF, ← hpat]
      rfl
    show LoggerView.mk d.level F.formatter.pattern (List.map (appenderView m') [] ++
      (knownAppenders d.appenders).map fun p => some (defineAppenderView F.formatter.pattern p)) = _
    rw [hF', List.map_nil, List.nil_append]
    rfl
  · rw [LogState.putLogger_loggers, if_neg (hrname ▸ hx)]
    exact hother x hx

/-- **A logger silenced by the listener**: no appenders and a level above
`FATAL`. -/
def Deleted (s : LogState) (x : List Char) : Prop :=
  ∃ g, s.loggers x = some g ∧ g.appenders = [] ∧ LogLevel.fatal.val < g.level.val

/-- **What `deleteLogger` does**: the logger of that name is silenced; every
other logger stays, and so does the memory. -/
theorem deleteLogger_spec {s : LogState} (hs : s.Sound) (n : List Char) :
    Deleted (deleteLogger s n) n ∧ (∀ x, x ≠ n → (deleteLogger s n).loggers x = s.loggers x) ∧
      s.memory.Keeps (deleteLogger s n).memory ∧ (deleteLogger s n).Sound := by
  obtain ⟨hname, -, -, -, hother, hk, hs'⟩ := hs.getLogger n
  set p := s.getLogger n
  let g := (p.1.setLevel ⟨100⟩).clearAppenders
  have hgname : g.name = n := hname
  refine ⟨⟨g, ?_, rfl, show 5 < 100 by decide⟩, fun x hx => ?_, hk,
    hs'.putLogger hs'.memory (.refl _) (Logger.Settled.clearAppenders _)⟩
  · show (p.2.putLogger g p.2.memory).loggers n = some g
    rw [LogState.putLogger_loggers, if_pos hgname.symm]
  · show (p.2.putLogger g p.2.memory).loggers x = s.loggers x
    rw [LogState.putLogger_loggers, if_neg (hgname ▸ hx)]
    exact hother x hx

/-- Being silenced is a matter of the logger alone. -/
theorem Deleted.of_loggers {s s' : LogState} {x : List Char} (h : Deleted s x)
    (hx : s'.loggers x = s.loggers x) : Deleted s' x := by
  obtain ⟨g, hg, happ, hlv⟩ := h
  exact ⟨g, hx.trans hg, happ, hlv⟩

/-! ## The listener's loops -/

/-- **What one step of the listener's loops may do**: keep the invariant and
the objects in memory, and leave every logger but the one of its define's
name. -/
def Frames (f : LogState → LogDefine → LogState) : Prop :=
  ∀ s i, s.Sound → (f s i).Sound ∧ s.memory.Keeps (f s i).memory ∧
    ∀ x, x ≠ i.name → (f s i).loggers x = s.loggers x

/-- **One step of the first loop**: a define that the old set has unchanged
leaves the state as it is, and any other is applied. -/
theorem updateLogger_eq (oldValue : LogDefineSet) (s : LogState) (i : LogDefine) :
    updateLogger oldValue s i = if oldValue.find i.name = some i then s else applyDefine s i := by
  unfold updateLogger
  split
  · rename_i hnone
    rw [hnone, if_neg (Option.some_ne_none i).symm]
  · rename_i o ho
    rw [ho]
    by_cases hio : i = o
    · subst hio
      simp
    · rw [if_pos hio, if_neg fun h => hio (Option.some.inj h).symm]

theorem frames_updateLogger (oldValue : LogDefineSet) : Frames (updateLogger oldValue) := by
  intro s i hs
  rw [updateLogger_eq]
  split
  · exact ⟨hs, .refl _, fun _ _ => rfl⟩
  · obtain ⟨-, hother, hk, hs'⟩ := applyDefine_spec hs i
    exact ⟨hs', hk, hother⟩

theorem frames_removeLogger (newValue : LogDefineSet) : Frames (removeLogger newValue) := by
  intro s i hs
  unfold removeLogger
  split
  · obtain ⟨-, hother, hk, hs'⟩ := deleteLogger_spec hs i.name
    exact ⟨hs', hk, hother⟩
  · exact ⟨hs, .refl _, fun _ _ => rfl⟩

namespace Frames

variable {f : LogState → LogDefine → LogState}

/-- **A loop of such steps keeps the invariant and the objects in memory.** -/
theorem foldl (hf : Frames f) :
    ∀ (L : List LogDefine) (s : LogState), s.Sound →
      (L.foldl f s).Sound ∧ s.memory.Keeps (L.foldl f s).memory
  | [], s, hs => ⟨hs, .refl _⟩
  | i :: L, s, hs => by
    obtain ⟨hs₁, hk₁, -⟩ := hf s i hs
    obtain ⟨hs₂, hk₂⟩ := foldl hf L (f s i) hs₁
    exact ⟨hs₂, hk₁.trans hk₂⟩

/-- **A loop of steps that each leave a logger leaves it.** -/
theorem foldl_loggers (hf : Frames f) {x : List Char} :
    ∀ (L : List LogDefine) (s : LogState), s.Sound →
      (∀ i ∈ L, ∀ t : LogState, t.Sound → (f t i).loggers x = t.loggers x) →
      (L.foldl f s).loggers x = s.loggers x
  | [], _, _, _ => rfl
  | i :: L, s, hs, hL => by
    rw [List.foldl_cons, foldl_loggers hf L (f s i) (hf s i hs).1
      fun j hj => hL j (List.mem_cons_of_mem i hj)]
    exact hL i List.mem_cons_self s hs

/-- The steps for defines of other names leave the logger. -/
theorem foldl_loggers_of_names (hf : Frames f) {x : List Char} (L : List LogDefine)
    (hL : ∀ i ∈ L, i.name ≠ x) (s : LogState) (hs : s.Sound) :
    (L.foldl f s).loggers x = s.loggers x :=
  hf.foldl_loggers L s hs fun i hi t ht => (hf t i ht).2.2 x (hL i hi).symm

end Frames

/-! ## The listener, logger by logger -/

variable {s : LogState}

/-- **The listener keeps the invariant and the objects in memory.** -/
theorem onLoggerConfChanged_sound (hs : s.Sound) (oldValue newValue : LogDefineSet) :
    (onLoggerConfChanged oldValue newValue s).Sound ∧
      s.memory.Keeps (onLoggerConfChanged oldValue newValue s).memory := by
  obtain ⟨hs₁, hk₁⟩ := (frames_updateLogger oldValue).foldl newValue.val s hs
  obtain ⟨hs₂, hk₂⟩ := (frames_removeLogger newValue).foldl oldValue.val _ hs₁
  exact ⟨hs₂, hk₁.trans hk₂⟩

/-- The second loop leaves the loggers whose name the new set has. -/
theorem removeLoggers_loggers (hs : s.Sound) (oldValue newValue : LogDefineSet) {x : List Char}
    (hx : newValue.find x ≠ none) :
    (oldValue.val.foldl (removeLogger newValue) s).loggers x = s.loggers x := by
  refine (frames_removeLogger newValue).foldl_loggers oldValue.val s hs fun i _ t ht => ?_
  by_cases hi : i.name = x
  · unfold removeLogger
    rw [if_neg (hi ▸ hx)]
  · exact ((frames_removeLogger newValue) t i ht).2.2 x (Ne.symm hi)

/-- **A define of the new set**: its logger looks as the define says, from the
formatter it had, unless the old set had the very same define, which leaves
it as it was. -/
theorem onLoggerConfChanged_view_of_mem (hs : s.Sound) (oldValue newValue : LogDefineSet)
    {d : LogDefine} (hd : d ∈ newValue.val) :
    view (onLoggerConfChanged oldValue newValue s) d.name =
      if oldValue.find d.name = some d then view s d.name
      else some (defineView d (s.formatterOf d.name)) := by
  obtain ⟨L₁, L₂, hL, h₁, h₂⟩ := LogDefineSet.split_of_mem hd
  have hf := frames_updateLogger oldValue
  -- the first loop before `d`, at `d`, and after it
  let s₁ := L₁.foldl (updateLogger oldValue) s
  let s₂ := updateLogger oldValue s₁ d
  let s₃ := L₂.foldl (updateLogger oldValue) s₂
  obtain ⟨hs₁, hk₁⟩ := hf.foldl L₁ s hs
  obtain ⟨hs₂, -, -⟩ := hf s₁ d hs₁
  obtain ⟨hs₃, hk₃⟩ := hf.foldl L₂ s₂ hs₂
  have hl₁ : s₁.loggers d.name = s.loggers d.name := hf.foldl_loggers_of_names L₁ h₁ s hs
  have hl₃ : s₃.loggers d.name = s₂.loggers d.name := hf.foldl_loggers_of_names L₂ h₂ s₂ hs₂
  have hfind : newValue.find d.name ≠ none := by
    rw [LogDefineSet.find_of_mem hd]
    exact Option.some_ne_none d
  obtain ⟨-, hk₄⟩ := (frames_removeLogger newValue).foldl oldValue.val s₃ hs₃
  have hl₄ := removeLoggers_loggers hs₃ oldValue newValue hfind
  have hfirst : newValue.val.foldl (updateLogger oldValue) s = s₃ := by
    rw [hL, List.foldl_append, List.foldl_cons]
  have hv : view (onLoggerConfChanged oldValue newValue s) d.name = view s₂ d.name := by
    unfold onLoggerConfChanged
    rw [hfirst, view_eq_of_keeps hs₃ hl₄ hk₄, view_eq_of_keeps hs₂ hl₃ hk₃]
  have hs₂eq : s₂ = if oldValue.find d.name = some d then s₁ else applyDefine s₁ d :=
    updateLogger_eq oldValue s₁ d
  rw [hv, hs₂eq]
  split
  · exact view_eq_of_keeps hs hl₁ hk₁
  · have hfmt : s₁.formatterOf d.name = s.formatterOf d.name := by
      unfold LogState.formatterOf
      rw [hl₁]
    rw [(applyDefine_spec hs₁ d).1, hfmt]

/-- **A define that has gone**: its logger is silenced. -/
theorem onLoggerConfChanged_deleted (hs : s.Sound) (oldValue newValue : LogDefineSet)
    {x : List Char} (hnew : newValue.find x = none) (hold : oldValue.find x ≠ none) :
    Deleted (onLoggerConfChanged oldValue newValue s) x := by
  obtain ⟨o, ho⟩ := Option.ne_none_iff_exists'.mp hold
  obtain ⟨hmem, rfl⟩ := LogDefineSet.find_eq_some ho
  obtain ⟨L₁, L₂, hL, -, h₂⟩ := LogDefineSet.split_of_mem hmem
  have hf := frames_removeLogger newValue
  -- the second loop before `o`, at `o`, and after it
  let t := newValue.val.foldl (updateLogger oldValue) s
  let t₁ := L₁.foldl (removeLogger newValue) t
  let t₂ := removeLogger newValue t₁ o
  obtain ⟨ht, -⟩ := (frames_updateLogger oldValue).foldl newValue.val s hs
  obtain ⟨ht₁, -⟩ := hf.foldl L₁ t ht
  obtain ⟨ht₂, -, -⟩ := hf t₁ o ht₁
  have hdel : Deleted t₂ o.name := by
    show Deleted (removeLogger newValue t₁ o) o.name
    unfold removeLogger
    rw [if_pos hnew]
    exact (deleteLogger_spec ht₁ o.name).1
  unfold onLoggerConfChanged
  rw [hL, List.foldl_append, List.foldl_cons]
  exact hdel.of_loggers (hf.foldl_loggers_of_names L₂ h₂ t₂ ht₂)

/-- **A name neither set has**: its logger is left as it was. -/
theorem onLoggerConfChanged_loggers_of_absent (hs : s.Sound) (oldValue newValue : LogDefineSet)
    {x : List Char} (hnew : newValue.find x = none) (hold : oldValue.find x = none) :
    (onLoggerConfChanged oldValue newValue s).loggers x = s.loggers x := by
  obtain ⟨ht, -⟩ := (frames_updateLogger oldValue).foldl newValue.val s hs
  unfold onLoggerConfChanged
  rw [(frames_removeLogger newValue).foldl_loggers_of_names oldValue.val
      (LogDefineSet.find_eq_none.mp hold) _ ht,
    (frames_updateLogger oldValue).foldl_loggers_of_names newValue.val
      (LogDefineSet.find_eq_none.mp hnew) s hs]

/-! ## Histories of assignments -/

/-- The listeners of `logs` stay those `LogIniter` registered. -/
theorem assignAll_cbs (ss : List LogDefineSet) : (assignAll ss).1.cbs = gLogDefines.cbs := by
  induction ss using List.reverseRecOn with
  | nil => rfl
  | append_singleton ss S ih =>
    unfold assignAll
    rw [List.foldl_append, List.foldl_cons, List.foldl_nil, ConfigVar.setValue_cbs]
    exact ih

theorem assignAll_append_singleton (ss : List LogDefineSet) (S : LogDefineSet) :
    assignAll (ss ++ [S]) =
      (((assignAll ss).1.setValue S (assignAll ss).2).1,
        ((assignAll ss).1.setValue S (assignAll ss).2).2.1) := by
  unfold assignAll
  rw [List.foldl_append, List.foldl_cons, List.foldl_nil]

/-- **One more assignment**: nothing if the value is equal, otherwise the
listener runs from the old value to the new one. -/
theorem assignAll_snoc (ss : List LogDefineSet) (S : LogDefineSet) :
    assignAll (ss ++ [S]) =
      if S = (assignAll ss).1.val then assignAll ss
      else ({ (assignAll ss).1 with val := S },
        onLoggerConfChanged (assignAll ss).1.val S (assignAll ss).2) := by
  have hset := ConfigVar.setValue_ofFun (assignAll ss).1 [(1, onLoggerConfChanged)]
    (assignAll_cbs ss) S (assignAll ss).2
  rw [assignAll_append_singleton, hset]
  simp only [beq_iff_eq]
  split <;> rfl

/-- **`setValue` on `logs` after a history** is the history one longer; the
listener never throws. -/
theorem setValue_assignAll (ss : List LogDefineSet) (S : LogDefineSet) :
    (assignAll ss).1.setValue S (assignAll ss).2 =
      ((assignAll (ss ++ [S])).1, (assignAll (ss ++ [S])).2, none) := by
  have hnone : ((assignAll ss).1.setValue S (assignAll ss).2).2.2 = none := by
    rw [ConfigVar.setValue_ofFun (assignAll ss).1 [(1, onLoggerConfChanged)] (assignAll_cbs ss)]
    split <;> rfl
  rw [assignAll_append_singleton]
  exact Prod.ext rfl (Prod.ext rfl hnone)

/-- Before any assignment, `logs` holds no define. -/
theorem find_assignAll_nil (x : List Char) : (assignAll []).1.val.find x = none := rfl

/-- The value of `logs` after a history is its last set. -/
theorem assignAll_val (ss : List LogDefineSet) (S : LogDefineSet) :
    (assignAll (ss ++ [S])).1.val = S := by
  rw [assignAll_snoc]
  split
  · rename_i h
    exact h.symm
  · rfl

/-- **The loggers a history has silenced**: every logger that an earlier value
had and the last value `V` of `logs` lacks. -/
def Reloaded (ss : List LogDefineSet) (V : LogDefineSet) (s : LogState) : Prop :=
  ∀ x, (∃ T ∈ ss, T.find x ≠ none) → V.find x = none → Deleted s x

/-- **The invariant of histories**, by induction on the assignments. -/
theorem assignAll_reloaded (ss : List LogDefineSet) :
    (assignAll ss).2.Sound ∧ Reloaded ss (assignAll ss).1.val (assignAll ss).2 := by
  induction ss using List.reverseRecOn with
  | nil =>
    refine ⟨LogState.sound_init, ?_⟩
    rintro x ⟨T, hT, -⟩
    exact absurd hT List.not_mem_nil
  | append_singleton ss S ih =>
    obtain ⟨hs, hdel⟩ := ih
    rw [assignAll_val, assignAll_snoc]
    split
    · -- an equal value: no listener runs
      rename_i hS
      refine ⟨hs, fun x ⟨T, hT, hx⟩ hSx => ?_⟩
      rcases List.mem_append.mp hT with hT | hT
      · exact hdel x ⟨T, hT, hx⟩ (hS ▸ hSx)
      · rw [List.mem_singleton.mp hT] at hx
        exact absurd hSx hx
    · refine ⟨(onLoggerConfChanged_sound hs (assignAll ss).1.val S).1, fun x ⟨T, hT, hx⟩ hSx => ?_⟩
      by_cases hold : (assignAll ss).1.val.find x = none
      · -- the logger was already silenced by an earlier value
        rcases List.mem_append.mp hT with hT | hT
        · exact (hdel x ⟨T, hT, hx⟩ hold).of_loggers
            (onLoggerConfChanged_loggers_of_absent hs _ _ hSx hold)
        · rw [List.mem_singleton.mp hT] at hx
          exact absurd hSx hx
      · exact onLoggerConfChanged_deleted hs _ _ hSx hold

/-- **What one more assignment leaves the logger of a define of its set**: the
logger as it was when the previous value held the define itself, and
otherwise the state the define gives from the formatter the logger had. -/
theorem view_assignAll_snoc (ss : List LogDefineSet) (S : LogDefineSet) {d : LogDefine} (hd : d ∈ S.val) :
    view (assignAll (ss ++ [S])).2 d.name =
      if (assignAll ss).1.val.find d.name = some d then view (assignAll ss).2 d.name
      else some (defineView d ((assignAll ss).2.formatterOf d.name)) := by
  have hs := (assignAll_reloaded ss).1
  rw [assignAll_snoc]
  split
  · -- an equal value: no listener runs, and the previous value holds `d`
    rename_i hS
    have hprev : (assignAll ss).1.val.find d.name = some d := by
      rw [← hS]
      exact LogDefineSet.find_of_mem hd
    rw [if_pos hprev]
  · exact onLoggerConfChanged_view_of_mem hs _ _ hd

/-- **The logger of a define, from the formatter it had before the define was
last applied.**  After a history ending in a set that holds `d`, the
assignment at index `j` is the last whose previous value did not hold `d`
itself: every set from it on holds `d`.  The logger is in the state `d` gives
from the formatter it had just before that assignment. -/
theorem view_lastApplied (ss : List LogDefineSet) (S : LogDefineSet) {d : LogDefine} (hd : d ∈ S.val) :
    ∃ j < (ss ++ [S]).length, (assignAll ((ss ++ [S]).take j)).1.val.find d.name ≠ some d ∧
      (∀ T ∈ (ss ++ [S]).drop j, d ∈ T.val) ∧
      view (assignAll (ss ++ [S])).2 d.name =
        some (defineView d ((assignAll ((ss ++ [S]).take j)).2.formatterOf d.name)) := by
  induction ss using List.reverseRecOn generalizing S with
  | nil =>
    -- the first assignment applies every define of its set
    have hfind : (assignAll []).1.val.find d.name ≠ some d := by simp [find_assignAll_nil]
    refine ⟨0, by simp, hfind, fun T hT => ?_, ?_⟩
    · rw [List.drop_zero, List.nil_append, List.mem_singleton] at hT
      exact hT ▸ hd
    · rw [view_assignAll_snoc [] S hd, if_neg hfind]
      rfl
  | append_singleton ss S' ih =>
    have hlen : (ss ++ [S']).length < (ss ++ [S'] ++ [S]).length := by simp
    rw [view_assignAll_snoc (ss ++ [S']) S hd]
    by_cases hprev : (assignAll (ss ++ [S'])).1.val.find d.name = some d
    · -- `d` was already in the previous set: the logger is as the shorter
      -- history left it
      have hd' : d ∈ S'.val := by
        rw [assignAll_val] at hprev
        exact (LogDefineSet.find_eq_some hprev).1
      obtain ⟨j, hj, hfind, hmem, hview⟩ := ih S' hd'
      have htake : (ss ++ [S'] ++ [S]).take j = (ss ++ [S']).take j :=
        List.take_append_of_le_length (Nat.le_of_lt hj)
      refine ⟨j, Nat.lt_trans hj hlen, by rw [htake]; exact hfind, fun T hT => ?_, ?_⟩
      · rw [List.drop_append_of_le_length (Nat.le_of_lt hj)] at hT
        rcases List.mem_append.mp hT with hT | hT
        · exact hmem T hT
        · exact List.mem_singleton.mp hT ▸ hd
      · rw [if_pos hprev, htake]
        exact hview
    · -- the last assignment applied `d`
      refine ⟨(ss ++ [S']).length, hlen, by rw [List.take_left]; exact hprev, fun T hT => ?_, ?_⟩
      · rw [List.drop_left, List.mem_singleton] at hT
        exact hT ▸ hd
      · rw [if_neg hprev, List.take_left]

/-- **A set assigned alone** puts each logger of its defines in the state the
define describes from the default pattern. -/
theorem assignAll_singleton_view (S : LogDefineSet) {d : LogDefine} (hd : d ∈ S.val) :
    view (assignAll [S]).2 d.name = some (defineView d defaultPattern) := by
  have h := view_assignAll_snoc [] S hd
  rw [List.nil_append, find_assignAll_nil, if_neg (by simp), show (assignAll []).2 = LogState.init from rfl,
    LogState.formatterOf_init] at h
  exact h

/-- **Reloading depends on the history only through a logger's formatter.**
After any history ending in `S`, every logger of a define `d` of `S` has the
level, the appenders (class, file, level, formatter) and the formatter that
`d` gives from the formatter the logger had just before `d` was last applied:
before the assignment at index `j`, the last whose previous value did not hold
`d`, every set from it on holding `d`.  Assigning `S` alone gives them from
the default pattern, so the two agree whenever `d` has a formatter the parser
accepts.  Every logger of an earlier set that `S` lacks is silenced. -/
theorem reload_history_formatter (ss : List LogDefineSet) (S : LogDefineSet) :
    (∀ d ∈ S.val, ∃ j < (ss ++ [S]).length,
        (assignAll ((ss ++ [S]).take j)).1.val.find d.name ≠ some d ∧
        (∀ T ∈ (ss ++ [S]).drop j, d ∈ T.val) ∧
        view (assignAll (ss ++ [S])).2 d.name =
          some (defineView d ((assignAll ((ss ++ [S]).take j)).2.formatterOf d.name))) ∧
      (∀ d ∈ S.val, view (assignAll [S]).2 d.name = some (defineView d defaultPattern)) ∧
      (∀ d ∈ S.val, d.formatter ≠ [] ∧ (LogFormatter.mk d.formatter).isError = false →
        view (assignAll (ss ++ [S])).2 d.name = view (assignAll [S]).2 d.name) ∧
      ∀ x, (∃ T ∈ ss, T.find x ≠ none) → S.find x = none →
        Deleted (assignAll (ss ++ [S])).2 x := by
  have hdel := (assignAll_reloaded (ss ++ [S])).2
  rw [assignAll_val] at hdel
  refine ⟨fun d hd => view_lastApplied ss S hd, fun d hd => assignAll_singleton_view S hd,
    fun d hd hfmt => ?_, fun x ⟨T, hT, hx⟩ hSx => hdel x ⟨T, List.mem_append_left _ hT, hx⟩ hSx⟩
  -- an accepted formatter makes the earlier one irrelevant
  obtain ⟨j, -, -, -, hview⟩ := view_lastApplied ss S hd
  rw [hview, assignAll_singleton_view S hd, defineView_of_formatter hfmt]

/-- **A formatter dropped from the configuration stays.** A logger `x` first
given the pattern `%m%n`, then a define without formatter, keeps `%m%n`; the
second set alone leaves it the default pattern. -/
theorem reload_keeps_dropped_formatter :
    view (assignAll
        [⟨[{ name := "x".toList, level := .debug, formatter := "%m%n".toList }], List.pairwise_singleton _ _⟩,
          ⟨[{ name := "x".toList, level := .debug }], List.pairwise_singleton _ _⟩]).2 "x".toList ≠
      view (assignAll [⟨[{ name := "x".toList, level := .debug }], List.pairwise_singleton _ _⟩]).2
        "x".toList := by
  decide

end LogIniter

end Sylar
