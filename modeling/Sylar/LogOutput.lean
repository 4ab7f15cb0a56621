/-
# Writing log events

The output side of `log.cc`.  `LogFormatter::format` runs the formatter's
items over an event into a fresh stream, each item writing one field of the
event.  An appender writes the formatted event when the event's level
reaches its own.  `Logger::log` hands an event at or above its level to its
appenders, or to the root logger when it has none.  `SYLAR_LOG_LEVEL` makes
the event only when the logger's level lets it through, and the destructor
of `LogEventWrap` logs it.  What the platform computes is a parameter:
`strftime` for the date item and the two `boost::filesystem` renderings of
the file name.

The results:
- `format_eq_render`: a pattern that tokenizes formats an event as its
  tokens in turn, a literal as itself and an item as the event's field,
  followed by `<<error_pattern>>` when the scanner stopped bare;
- `format_escape`: text with every `%` doubled is accepted and formats to the
  text itself;
- `format_colorLevel_unnamed`: `%P` on a level without a colour leaves the
  stream bad, and the rest of the line is lost;
- `log_after_reload`: once the reload listener has applied a define, what its
  logger writes is given by the define;
- `log_deleted`: a logger whose define has gone writes nothing.
-/
import Sylar.LogPattern
import Sylar.LogIniter
import Sylar.LexicalCast

namespace Sylar

open ConfType (decimal intDecimal)

/-! ## Events, streams and items -/

/-- **`LogEvent`**: the fields the items read.  Of the logger the event goes
to, the items read only the name. -/
structure LogEvent where
  file : List Char
  line : Int32
  elapse : UInt32
  threadId : UInt32
  fiberId : UInt32
  time : UInt64
  logger : List Char
  level : LogLevel
  threadName : List Char
  content : List Char
  deriving DecidableEq, Repr

/-- **What the platform computes**: `strftime` of a format at a time (after
`localtime_r`, into the item's buffer of 64 bytes); and, of a file name as a
`boost::filesystem::path`, its `filename()`, the elements that iterating over
it after `remove_filename()` gives, and `boost::filesystem::relative` of it. -/
structure LogPlatform where
  strftime : List Char → UInt64 → List Char
  filename : List Char → List Char
  parentElements : List Char → List (List Char)
  relative : List Char → List Char

/-- **The `"s"` rendering of `FilenameFormatItem`**: for each element of the
file's directory, its first character (`s.string()[0]`, the terminating `NUL`
of an empty one), then `/` unless the element is the root directory `/`; then
the file name. -/
def LogPlatform.shortPath (p : LogPlatform) (file : List Char) : List Char :=
  (p.parentElements file).foldl (fun ss s => ss ++ s.headD '\x00' :: (if s != ['/'] then ['/'] else [])) [] ++
    p.filename file

example : (⟨fun _ _ => [], fun _ => "log.cc".toList, fun _ => ["/".toList, "home".toList, "x".toList], id⟩ :
    LogPlatform).shortPath "/home/x/log.cc".toList = "/h/x/log.cc".toList := by
  decide

/-- **An output stream** (`std::stringstream`): what has been written, and
whether it is still good. -/
structure OStream where
  text : List Char
  good : Bool
  deriving DecidableEq, Repr

namespace OStream

/-- A fresh stream. -/
def empty : OStream := ⟨[], true⟩

/-- **`os << str`**: a bad stream writes nothing. -/
def put (os : OStream) (str : List Char) : OStream := if os.good then ⟨os.text ++ str, true⟩ else os

/-- **`os << (const char*)nullptr`**: libstdc++ sets `badbit`. -/
def putNull (os : OStream) : OStream := { os with good := false }

@[simp] theorem put_good (t str : List Char) : put ⟨t, true⟩ str = ⟨t ++ str, true⟩ := rfl
@[simp] theorem put_bad (t str : List Char) : put ⟨t, false⟩ str = ⟨t, false⟩ := rfl

end OStream

/-- **`stdout_colors`**: the escape sequence of each named level. -/
def stdoutColors : List (LogLevel × List Char) :=
  [(.debug, "\x1b[32m\x1b[1m".toList), (.info, "\x1b[0m\x1b[1m ".toList),
    (.warn, "\x1b[33m\x1b[1m ".toList), (.error, "\x1b[31m\x1b[1m".toList),
    (.fatal, "\x1b[35m\x1b[1m".toList)]

/-- **`stdout_clearfmt`.** -/
def stdoutClearfmt : List Char := "\x1b[0m".toList

/-- **`FormatItem::format`** of each item class: it writes one field of the
event.  `ColorLevelFormatItem` looks the level up with `operator[]`, which
gives a null pointer for a level without a colour. -/
def FormatItem.format (p : LogPlatform) (e : LogEvent) (os : OStream) : FormatItem → OStream
  | .message => os.put e.content
  | .level => os.put (LogLevel.toString e.level)
  | .elapse => os.put (decimal e.elapse.toNat)
  | .name => os.put e.logger
  | .threadId => os.put (decimal e.threadId.toNat)
  | .newLine => os.put ['\n']
  | .dateTime format => os.put (p.strftime format e.time)
  | .filename str =>
    os.put (if str = ['s'] then p.shortPath e.file else if str = ['r'] then p.relative e.file else e.file)
  | .line => os.put (intDecimal e.line.toInt)
  | .tab => os.put ['\t']
  | .fiberId => os.put (decimal e.fiberId.toNat)
  | .colorLevel =>
    match stdoutColors.lookup e.level with
    | some c => ((os.put c).put (LogLevel.toString e.level)).put stdoutClearfmt
    | none => (os.putNull.put (LogLevel.toString e.level)).put stdoutClearfmt
  | .threadName => os.put e.threadName
  | .string str => os.put str

/-- **`LogFormatter::format`**: the items in turn into a fresh stream, and the
text it holds. -/
def LogFormatter.format (p : LogPlatform) (f : LogFormatter) (e : LogEvent) : List Char :=
  (f.items.foldl (fun os it => it.format p e os) OStream.empty).text

/-! ## Items on a good stream -/

section Items

variable (p : LogPlatform) (e : LogEvent)

/-- What an item writes into a fresh stream. -/
def FormatItem.text (it : FormatItem) : List Char := (it.format p e OStream.empty).text

/-- The item leaves a good stream good: every item but `%P` on a level
without a colour. -/
def FormatItem.keepsGood : FormatItem → Bool
  | .colorLevel => (stdoutColors.lookup e.level).isSome
  | _ => true

variable {p e}

/-- **An item on a good stream** appends what it writes to a fresh one. -/
theorem FormatItem.format_good {it : FormatItem} (h : it.keepsGood e = true) (t : List Char) :
    it.format p e ⟨t, true⟩ = ⟨t ++ it.text p e, true⟩ := by
  cases it with
  | colorLevel =>
    obtain ⟨c, hc⟩ := Option.isSome_iff_exists.mp h
    simp [format, text, hc, OStream.empty]
  | _ => simp [format, text, OStream.empty]

/-- A bad stream stays as it is. -/
theorem FormatItem.format_bad (it : FormatItem) (t : List Char) :
    it.format p e ⟨t, false⟩ = ⟨t, false⟩ := by
  cases it with
  | colorLevel => cases h : stdoutColors.lookup e.level <;> simp [format, h, OStream.putNull]
  | _ => simp [format]

/-- **Items on a good stream** append what each writes, in turn. -/
theorem foldl_format_good :
    ∀ (its : List FormatItem), (∀ it ∈ its, it.keepsGood e = true) → ∀ t : List Char,
      its.foldl (fun os it => it.format p e os) ⟨t, true⟩ = ⟨t ++ (its.map (FormatItem.text p e)).flatten, true⟩
  | [], _, t => by simp
  | it :: its, h, t => by
    rw [List.foldl_cons, FormatItem.format_good (h it List.mem_cons_self),
      foldl_format_good its (fun it' hit' => h it' (List.mem_cons_of_mem it hit'))]
    simp

/-- Items on a bad stream write nothing. -/
theorem foldl_format_bad (its : List FormatItem) (t : List Char) :
    its.foldl (fun os it => it.format p e os) ⟨t, false⟩ = ⟨t, false⟩ := by
  induction its with
  | nil => rfl
  | cons it its ih => rw [List.foldl_cons, FormatItem.format_bad, ih]

end Items

/-! ## What a pattern formats to -/

section Render

variable (p : LogPlatform) (e : LogEvent)

/-- The item an item token becomes, as the second pass of `init` builds it. -/
def PatternToken.toItem (name : List Char) (arg : Option (List Char)) : FormatItem :=
  (buildItem ⟨name, arg.getD [], .item⟩).2

/-- **What a token writes**: a literal itself, an item the event's field. -/
def PatternToken.render : PatternToken → List Char
  | .literal c => [c]
  | .item name arg => (PatternToken.toItem name arg).text p e

/-- The token leaves a good stream good. -/
def PatternToken.keepsGood : PatternToken → Bool
  | .literal _ => true
  | .item name arg => (PatternToken.toItem name arg).keepsGood e

variable {p e}

/-- A text entry writes its text. -/
theorem textEntry_text (pending : List Char) :
    ((textEntry pending).map fun en => ((buildItem en).2).text p e).flatten = pending := by
  unfold textEntry
  split
  · simp_all
  · simp [buildItem, FormatItem.text, FormatItem.format, OStream.empty]

theorem textEntry_keepsGood (pending : List Char) :
    ∀ en ∈ textEntry pending, ((buildItem en).2).keepsGood e = true := by
  unfold textEntry
  split <;> simp [buildItem, FormatItem.keepsGood]

/-- **The entries of tokens write the pending text, then the tokens in
turn.** -/
theorem tokenEntries_text :
    ∀ (pending : List Char) (toks : List PatternToken),
      ((tokenEntries pending toks).map fun en => ((buildItem en).2).text p e).flatten =
        pending ++ (toks.map (PatternToken.render p e)).flatten
  | pending, [] => by simp [tokenEntries, textEntry_text]
  | pending, .literal c :: ts => by
    rw [tokenEntries, tokenEntries_text (pending ++ [c]) ts]
    simp [PatternToken.render]
  | pending, .item name arg :: ts => by
    rw [tokenEntries, List.map_append, List.flatten_append, textEntry_text, List.map_cons,
      List.flatten_cons, tokenEntries_text [] ts]
    simp [PatternToken.render, PatternToken.toItem]

theorem tokenEntries_keepsGood :
    ∀ (pending : List Char) (toks : List PatternToken), (∀ t ∈ toks, t.keepsGood e = true) →
      ∀ en ∈ tokenEntries pending toks, ((buildItem en).2).keepsGood e = true
  | pending, [], _ => textEntry_keepsGood pending
  | pending, .literal c :: ts, h => by
    rw [tokenEntries]
    exact tokenEntries_keepsGood (pending ++ [c]) ts fun t ht => h t (List.mem_cons_of_mem _ ht)
  | pending, .item name arg :: ts, h => by
    rw [tokenEntries]
    intro en hen
    rcases List.mem_append.mp hen with hen | hen
    · exact textEntry_keepsGood pending en hen
    rcases List.mem_cons.mp hen with rfl | hen
    · exact h _ List.mem_cons_self
    · exact tokenEntries_keepsGood [] ts (fun t ht => h t (List.mem_cons_of_mem _ ht)) en hen

/-- **What a pattern formats to.**  A pattern that tokenizes, whose tokens
keep the stream good, formats an event as its tokens in turn, followed by
`<<error_pattern>>` when the scanner stops bare. -/
theorem format_eq_render {pat : List Char} {toks : List PatternToken} (h : tokenize pat = some toks)
    (hgood : ∀ t ∈ toks, t.keepsGood e = true) :
    (LogFormatter.mk pat).format p e =
      (toks.map (PatternToken.render p e)).flatten ++
        (if endsBare [] toks then InitState.errorPattern else []) := by
  have hitems := items_eq h
  have hkeep : ∀ it ∈ (LogFormatter.mk pat).items, it.keepsGood e = true := by
    rw [hitems]
    intro it hit
    rcases List.mem_append.mp hit with hit | hit
    · obtain ⟨en, hen, rfl⟩ := List.mem_map.mp hit
      exact tokenEntries_keepsGood [] toks hgood en hen
    · split at hit <;> simp_all [FormatItem.keepsGood]
  unfold LogFormatter.format
  rw [OStream.empty, foldl_format_good _ hkeep, hitems, List.map_append, List.flatten_append,
    tokenItems, List.map_map]
  have htext := tokenEntries_text (p := p) (e := e) [] toks
  simp only [List.nil_append, Function.comp_def] at htext ⊢
  rw [htext]
  split <;> simp [FormatItem.text, FormatItem.format, OStream.empty]

/-- A platform whose `strftime` writes nothing, whose file names have no
directory, and whose relative names are the names themselves. -/
def plainPlatform : LogPlatform := ⟨fun _ _ => [], id, fun _ => [], id⟩

/-- An event at `level` with the message `"hi"`. -/
def hiEvent (level : LogLevel) : LogEvent :=
  ⟨"main.cc".toList, 7, 0, 1, 0, 0, "app".toList, level, "main".toList, "hi".toList⟩

/-- **An item without an argument**: `%`, a name of letters, then text that
does not go on with a letter or a brace. -/
theorem tokenize_item {name rest : List Char} (hn : name ≠ []) (ha : ∀ c ∈ name, c.isAlpha = true)
    (hr : ∀ c r, rest = c :: r → c.isAlpha = false ∧ c ≠ '\x7b' ∧ c ≠ '\x7d') :
    tokenize ('%' :: (name ++ rest)) = (tokenize rest).map (.item name none :: ·) := by
  have hnp : ∀ r, name ++ rest ≠ '%' :: r := by
    intro r h
    obtain ⟨c, cs, rfl⟩ := List.exists_cons_of_ne_nil hn
    have hc : c = '%' := (List.cons.inj h).1
    exact absurd (ha c List.mem_cons_self) (by rw [hc]; decide)
  have htake : (name ++ rest).takeWhile Char.isAlpha = name := by
    rw [List.takeWhile_append_of_pos ha]
    cases rest with
    | nil => simp
    | cons c r => rw [List.takeWhile_cons_of_neg (by simp [(hr c r rfl).1])]; simp
  have hdrop : (name ++ rest).dropWhile Char.isAlpha = rest := by
    rw [List.dropWhile_append_of_pos ha]
    cases rest with
    | nil => rfl
    | cons c r => exact List.dropWhile_cons_of_neg (by simp [(hr c r rfl).1])
  rw [tokenize_percent _ hnp, htake, hdrop]
  exact afterName_other name rest (fun arg h => (hr _ _ h).2.1 rfl) (fun tail h => (hr _ _ h).2.2 rfl)

theorem tokenize_message : tokenize "%m".toList = some [.item ['m'] none] := by
  rw [show "%m".toList = '%' :: (['m'] ++ []) by decide,
    @tokenize_item ['m'] [] (List.cons_ne_nil _ _) (by simp only [List.mem_singleton, forall_eq]; rfl) (by rintro c r ⟨⟩), tokenize_nil]
  rfl

theorem format_eq_render_message :
    tokenize "%m".toList = some [.item ['m'] none] ∧
      (∀ t ∈ [PatternToken.item ['m'] none], t.keepsGood (hiEvent .info) = true) ∧
      (LogFormatter.mk "%m".toList).format plainPlatform (hiEvent .info) = "hi".toList := by
  have hgood : ∀ t ∈ [PatternToken.item ['m'] none], t.keepsGood (hiEvent .info) = true := by decide
  refine ⟨tokenize_message, hgood, ?_⟩
  rw [format_eq_render tokenize_message hgood]
  rfl

end Render

/-! ## Escaped text -/

/-- **The pattern of a text**: every `%` doubled. -/
def escape (t : List Char) : List Char := t.flatMap fun c => if c = '%' then ['%', '%'] else [c]

theorem tokenize_escape : ∀ t : List Char, tokenize (escape t) = some (t.map .literal)
  | [] => tokenize_nil
  | c :: t => by
    by_cases hc : c = '%'
    · subst hc
      have : escape ('%' :: t) = '%' :: '%' :: escape t := rfl
      rw [this, tokenize_percent_percent, tokenize_escape t]
      rfl
    · have : escape (c :: t) = c :: escape t := by simp [escape, hc]
      rw [this, tokenize_char c _ hc, tokenize_escape t]
      rfl

theorem endsBare_literals : ∀ (pending t : List Char),
    endsBare pending (t.map .literal) = (pending ++ t).isEmpty
  | pending, [] => by simp [endsBare]
  | pending, c :: t => by
    rw [List.map_cons, endsBare, endsBare_literals (pending ++ [c]) t]
    simp

/-- **A text with every `%` doubled is an accepted pattern that formats every
event to the text itself**, as long as the text is not empty; the empty
pattern is rejected. -/
theorem format_escape (p : LogPlatform) {t : List Char} (ht : t ≠ []) :
    (LogFormatter.mk (escape t)).isError = false ∧ ∀ e, (LogFormatter.mk (escape t)).format p e = t := by
  have hbare : endsBare [] (t.map .literal) = false := by
    rw [endsBare_literals]
    simpa using ht
  refine ⟨?_, fun e => ?_⟩
  · rw [isError_eq_of_tokenize (tokenize_escape t), hbare, Bool.false_or]
    simp [PatternToken.known]
  · rw [format_eq_render (tokenize_escape t) (by simp [PatternToken.keepsGood]), hbare]
    simp only [PatternToken.render, List.map_map, Function.comp_def, Bool.false_eq_true, ↓reduceIte,
      List.append_nil]
    rw [← List.flatMap_def, List.flatMap_singleton']

theorem format_escape_percent :
    "100%".toList ≠ [] ∧ (LogFormatter.mk (escape "100%".toList)).isError = false ∧
      (LogFormatter.mk (escape "100%".toList)).format plainPlatform (hiEvent .info) = "100%".toList := by
  have ht : "100%".toList ≠ [] := by decide
  obtain ⟨herr, hfmt⟩ := format_escape plainPlatform ht
  exact ⟨ht, herr, hfmt _⟩

/-! ## `%P` on a level without a colour -/

section ColorLevel

variable {p : LogPlatform} {e : LogEvent}

/-- **The entries of tokens around an item**: the entries of the pending text
and the tokens before it, which write them, then the item's entry, then the
entries of the tokens after it. -/
theorem tokenEntries_around (name : List Char) (arg : Option (List Char)) (post : List PatternToken) :
    ∀ (pending : List Char) (pre : List PatternToken), (∀ t ∈ pre, t.keepsGood e = true) →
      ∃ before, tokenEntries pending (pre ++ .item name arg :: post) =
          before ++ ⟨name, arg.getD [], .item⟩ :: tokenEntries [] post ∧
        (before.map fun en => ((buildItem en).2).text p e).flatten =
          pending ++ (pre.map (PatternToken.render p e)).flatten ∧
        ∀ en ∈ before, ((buildItem en).2).keepsGood e = true
  | pending, [], _ =>
    ⟨textEntry pending, by simp [tokenEntries], by simp [textEntry_text], textEntry_keepsGood pending⟩
  | pending, .literal c :: pre, h => by
    obtain ⟨before, h₁, h₂, h₃⟩ :=
      tokenEntries_around name arg post (pending ++ [c]) pre fun t ht => h t (List.mem_cons_of_mem _ ht)
    refine ⟨before, by rw [List.cons_append, tokenEntries, h₁], by rw [h₂]; simp [PatternToken.render], h₃⟩
  | pending, .item name' arg' :: pre, h => by
    obtain ⟨before, h₁, h₂, h₃⟩ :=
      tokenEntries_around name arg post [] pre fun t ht => h t (List.mem_cons_of_mem _ ht)
    refine ⟨textEntry pending ++ ⟨name', arg'.getD [], .item⟩ :: before, ?_, ?_, ?_⟩
    · rw [List.cons_append, tokenEntries, h₁]
      simp
    · rw [List.map_append, List.flatten_append, textEntry_text, List.map_cons, List.flatten_cons, h₂]
      simp [PatternToken.render, PatternToken.toItem]
    · intro en hen
      rcases List.mem_append.mp hen with hen | hen
      · exact textEntry_keepsGood pending en hen
      rcases List.mem_cons.mp hen with rfl | hen
      · exact h _ List.mem_cons_self
      · exact h₃ en hen

/-- **`%P` on a level without a colour loses the rest of the line**: the stream
goes bad at the colour, and the event formats to what the tokens before the
item write. -/
theorem format_colorLevel_unnamed {pat : List Char} {pre post : List PatternToken}
    {arg : Option (List Char)} (h : tokenize pat = some (pre ++ .item ['P'] arg :: post))
    (hpre : ∀ t ∈ pre, t.keepsGood e = true) (hl : stdoutColors.lookup e.level = none) :
    (LogFormatter.mk pat).format p e = (pre.map (PatternToken.render p e)).flatten := by
  obtain ⟨before, h₁, h₂, h₃⟩ := tokenEntries_around (p := p) ['P'] arg post [] pre hpre
  have hP : (buildItem ⟨['P'], arg.getD [], .item⟩).2 = .colorLevel := rfl
  unfold LogFormatter.format
  rw [items_eq h, tokenItems, h₁, List.map_append, List.map_cons, hP, List.append_assoc,
    List.cons_append, List.foldl_append, OStream.empty, foldl_format_good _ ?_, List.foldl_cons]
  · have hbad : FormatItem.format p e ⟨[] ++ ((before.map fun en => (buildItem en).2).map
        (FormatItem.text p e)).flatten, true⟩ .colorLevel =
        ⟨((before.map fun en => (buildItem en).2).map (FormatItem.text p e)).flatten, false⟩ := by
      simp [FormatItem.format, hl, OStream.putNull]
    rw [hbad, foldl_format_bad]
    simpa [List.map_map, Function.comp_def] using h₂
  · intro it hit
    obtain ⟨en, hen, rfl⟩ := List.mem_map.mp hit
    exact h₃ en hen

theorem format_colorLevel_unknow :
    tokenize "x%P%m".toList = some ([.literal 'x'] ++ .item ['P'] none :: [.item ['m'] none]) ∧
      (∀ t ∈ [PatternToken.literal 'x'], t.keepsGood (hiEvent .unknow) = true) ∧
      stdoutColors.lookup (hiEvent .unknow).level = none ∧
      (LogFormatter.mk "x%P%m".toList).format plainPlatform (hiEvent .unknow) = "x".toList := by
  have h : tokenize "x%P%m".toList = some ([.literal 'x'] ++ .item ['P'] none :: [.item ['m'] none]) := by
    rw [show "x%P%m".toList = 'x' :: '%' :: (['P'] ++ "%m".toList) by decide,
      tokenize_char 'x' _ (by decide),
      @tokenize_item ['P'] "%m".toList (List.cons_ne_nil _ _) (by simp only [List.mem_singleton, forall_eq]; rfl)
        (by rw [show "%m".toList = ['%', 'm'] by decide]; rintro c r ⟨⟩; decide),
      tokenize_message]
    rfl
  have hpre : ∀ t ∈ [PatternToken.literal 'x'], t.keepsGood (hiEvent .unknow) = true := by decide
  have hl : stdoutColors.lookup (hiEvent .unknow).level = none := rfl
  exact ⟨h, hpre, hl, format_colorLevel_unnamed h hpre hl⟩

end ColorLevel

/-! ## Appenders and loggers -/

/-- **A line written**: to the console or to the file of a `FileLogAppender`,
and its text. -/
structure Output where
  dest : AppenderKind
  text : List Char
  deriving DecidableEq, Repr

section Log

variable (p : LogPlatform)

/-- **`StdoutLogAppender::log` and `FileLogAppender::log`**: nothing for an
event below the appender's level, else the text of its formatter, to its
stream.  `none` for a null `m_formatter`, which `log` dereferences. -/
def LogAppender.log (ap : LogAppender) (e : LogEvent) : Option (List Output) :=
  if ap.level.val ≤ e.level.val then ap.formatter.map fun f => [⟨ap.kind, f.formatter.format p e⟩]
  else some []

/-- **The loop of `Logger::log` over `m_appenders`**, by address; `none` when
an appender is missing or has no formatter. -/
def appendersLog (m : Memory) (as : List Nat) (e : LogEvent) : Option (List Output) :=
  as.foldlM (fun acc a => ((m.appenders a).bind fun ap => ap.log p e).map (acc ++ ·)) []

/-- **`Logger::log`**: nothing for an event below the logger's level; else its
appenders in turn, or, when it has none, `rootLog`, the `log` of its
`m_root`. -/
def Logger.logWith (m : Memory) (g : Logger) (rootLog : LogEvent → Option (List Output))
    (e : LogEvent) : Option (List Output) :=
  if g.level.val ≤ e.level.val then
    if g.appenders.isEmpty then rootLog e else appendersLog p m g.appenders e
  else some []

/-- **The `m_root` of a logger of the manager**: the root logger for every
logger that `getLogger` made; the root logger itself has none. -/
def LogState.rootOf (s : LogState) (g : Logger) : Option Logger :=
  if g.name = "root".toList then none else s.loggers "root".toList

/-- **`Logger::log` of a logger of the manager**: the root logger's `log` ends
at its own null `m_root`. -/
def LogState.loggerLog (s : LogState) (g : Logger) (e : LogEvent) : Option (List Output) :=
  g.logWith p s.memory (fun e => match s.rootOf g with
    | some r => r.logWith p s.memory (fun _ => some []) e
    | none => some []) e

/-- **`SYLAR_LOG_LEVEL(logger, level)`**: the event (of that level) is made,
and logged by `~LogEventWrap`, only when `logger->getLevel() <= level`. -/
def LogState.logLevel (s : LogState) (g : Logger) (e : LogEvent) : Option (List Output) :=
  if g.level.val ≤ e.level.val then s.loggerLog p g e else some []

/-- What an event logged through the manager's logger of a name writes; `none`
when the manager has no such logger. -/
def LogState.logName (s : LogState) (name : List Char) (e : LogEvent) : Option (Option (List Output)) :=
  (s.loggers name).map fun g => s.loggerLog p g e

end Log

/-! ## What a logger writes, from its view -/

namespace LogIniter

section View

variable (p : LogPlatform)

/-- What an appender of a view writes for an event. -/
def AppenderView.log (v : AppenderView) (e : LogEvent) : Option (List Output) :=
  if v.level.val ≤ e.level.val then v.formatter.map fun f => [⟨v.kind, (LogFormatter.mk f).format p e⟩]
  else some []

/-- What the appenders of a view write, in turn. -/
def viewsLog (vs : List (Option AppenderView)) (e : LogEvent) : Option (List Output) :=
  vs.foldlM (fun acc v => (v.bind fun v => v.log p e).map (acc ++ ·)) []

/-- **What a logger of a view writes**, with `rootLog` for the root logger. -/
def LoggerView.logWith (v : LoggerView) (rootLog : LogEvent → Option (List Output))
    (e : LogEvent) : Option (List Output) :=
  if v.level.val ≤ e.level.val then
    if v.appenders.isEmpty then rootLog e else viewsLog p v.appenders e
  else some []

/-- **What the root logger writes for the logger of a name**, from its
view. -/
def rootLog (s : LogState) (name : List Char) (e : LogEvent) : Option (List Output) :=
  if name = "root".toList then some [] else
    match view s "root".toList with
    | some r => r.logWith p (fun _ => some []) e
    | none => some []

theorem appenderLog_eq (m : Memory) (a : Nat) (e : LogEvent) :
    (m.appenders a).bind (fun ap => ap.log p e) = (appenderView m a).bind fun v => v.log p e := by
  unfold appenderView
  cases m.appenders a with
  | none => rfl
  | some ap =>
    simp only [Option.bind_some, Option.map_some, LogAppender.log, AppenderView.log]
    split
    · cases ap.formatter <;> rfl
    · rfl

/-- **The appenders of a logger write what their views say.** -/
theorem appendersLog_eq (m : Memory) (as : List Nat) (e : LogEvent) :
    appendersLog p m as e = viewsLog p (as.map (appenderView m)) e := by
  unfold appendersLog viewsLog
  rw [List.foldlM_map]
  congr 1
  funext acc a
  rw [appenderLog_eq]

variable {p}

/-- The root logger's `log`, from its view. -/
theorem rootLog_eq (s : LogState) (g : Logger) (e : LogEvent) :
    (match s.rootOf g with
      | some r => r.logWith p s.memory (fun _ => some []) e
      | none => some []) = rootLog p s g.name e := by
  unfold LogState.rootOf rootLog view
  by_cases hn : g.name = "root".toList
  · simp [hn]
  · rw [if_neg hn, if_neg hn]
    cases hr : s.loggers "root".toList with
    | none => rfl
    | some r => simp [Logger.logWith, LoggerView.logWith, appendersLog_eq]

/-- **What a logger writes depends only on the views** of it and of the root
logger, in a sound state. -/
theorem logName_eq_view {s : LogState} (hs : s.Sound) (name : List Char) (e : LogEvent) :
    s.logName p name e = (view s name).map fun v => v.logWith p (rootLog p s name) e := by
  unfold LogState.logName view
  cases hg : s.loggers name with
  | none => rfl
  | some g =>
    have hroot : (fun e => match s.rootOf g with
        | some r => r.logWith p s.memory (fun _ => some []) e
        | none => some []) = rootLog p s name := by
      funext e
      rw [rootLog_eq, hs.name_eq name g hg]
    simp only [Option.map_some, Option.some.injEq]
    unfold LogState.loggerLog
    rw [hroot]
    unfold Logger.logWith LoggerView.logWith
    simp only [List.isEmpty_map, appendersLog_eq]

end View

/-! ## After a reload -/

variable {p : LogPlatform} {s : LogState}

/-- **Once the reload listener has applied a define, its logger writes what
the define says**: for an event at or above the define's level, each appender
of a known type in the define's list in turn, at its own level, with its own
pattern or else the logger's (the define's, if the parser accepts it, else the
one the logger had); the root logger when the list has none. -/
theorem log_after_reload (hs : s.Sound) (oldValue newValue : LogDefineSet) {d : LogDefine}
    (hd : d ∈ newValue.val) (hch : oldValue.find d.name ≠ some d) (e : LogEvent) :
    (onLoggerConfChanged oldValue newValue s).logName p d.name e =
      some ((defineView d (s.formatterOf d.name)).logWith p
        (rootLog p (onLoggerConfChanged oldValue newValue s) d.name) e) := by
  rw [logName_eq_view (onLoggerConfChanged_sound hs oldValue newValue).1,
    onLoggerConfChanged_view_of_mem hs oldValue newValue hd, if_neg hch]
  rfl

/-- **A logger whose define has gone writes nothing** for an event of any level
up to `FATAL`. -/
theorem log_deleted (hs : s.Sound) (oldValue newValue : LogDefineSet) {x : List Char}
    (hnew : newValue.find x = none) (hold : oldValue.find x ≠ none) {e : LogEvent}
    (he : e.level.val ≤ LogLevel.fatal.val) :
    (onLoggerConfChanged oldValue newValue s).logName p x e = some (some []) := by
  obtain ⟨g, hg, -, hl⟩ := onLoggerConfChanged_deleted hs oldValue newValue hnew hold
  unfold LogState.logName LogState.loggerLog Logger.logWith
  rw [hg, Option.map_some, if_neg (by omega)]

/-- A logger `app` at `INFO` with one stdout appender at `WARN` whose pattern
is `%m%n`. -/
def appDefine : LogDefine :=
  { name := "app".toList, level := .info,
    appenders := [{ type := .typeStdoutLogAppender, level := .warn, formatter := "%m%n".toList }] }

/-- The set of `appDefine` alone. -/
def appSet : LogDefineSet := ⟨[appDefine], List.pairwise_singleton _ _⟩

theorem log_after_reload_app :
    LogState.init.Sound ∧ appDefine ∈ appSet.val ∧ LogDefineSet.empty.find appDefine.name ≠ some appDefine ∧
      (onLoggerConfChanged .empty appSet .init).logName plainPlatform appDefine.name (hiEvent .error) =
        some (some [⟨.stdout, "hi\n".toList⟩]) := by
  have hd : appDefine ∈ appSet.val := List.mem_singleton.mpr rfl
  have hch : LogDefineSet.empty.find appDefine.name ≠ some appDefine := by decide
  refine ⟨LogState.sound_init, hd, hch, ?_⟩
  rw [log_after_reload LogState.sound_init .empty appSet hd hch]
  rfl

theorem log_deleted_app :
    LogState.init.Sound ∧ LogDefineSet.empty.find appDefine.name = none ∧ appSet.find appDefine.name ≠ none ∧
      (hiEvent .fatal).level.val ≤ LogLevel.fatal.val ∧
      (onLoggerConfChanged appSet .empty .init).logName plainPlatform appDefine.name (hiEvent .fatal) =
        some (some []) := by
  have hold : appSet.find appDefine.name ≠ none := by decide
  exact ⟨LogState.sound_init, rfl, hold, Nat.le_refl _,
    log_deleted LogState.sound_init appSet .empty rfl hold (Nat.le_refl _)⟩

end LogIniter

end Sylar
