/-
# `LogFormatter`: the pattern scanner of `log.cc`

`LogFormatter::LogFormatter(pattern)` stores the pattern and runs `init`, which
turns a pattern such as `%d{%H:%M}%T%m%n` into the list `m_items` of format
items and sets `m_error` when the pattern is malformed.  `init` has two passes:

* a three-state scanner (`PS_NORMAL_STRING`, `PS_PARSING_STR`,
  `PS_PARSING_FMT`) over the characters of the pattern, with one character of
  look-ahead for `%%`, that fills `vec` with `(text, fmt, type)` entries, and
  the *parse end check* that flushes what is pending when the input runs out;
* a lookup of every item name in the table `s_format_items`.

`std::string` is modelled by its list of characters, and the index loop of the
source (with its `++i` that skips the second `%` of `%%`) by structural
recursion on the remaining input.  Braces are written `'\x7b'` and `'\x7d'`.
-/
import Mathlib

namespace Sylar

/-- The scanner states of `LogFormatter::init`. -/
inductive ParseStatus
  | normalString
  | parsingStr
  | parsingFmt
  deriving DecidableEq, Repr

/-- The `int` of an entry of `vec`: `0` for literal text, `1` for a format item. -/
inductive EntryType
  | text
  | item
  deriving DecidableEq, Repr

/-- One `std::tuple<std::string, std::string, int>` of `vec`: the text (or the
item name), the item's argument, and the entry type. -/
structure PatternEntry where
  str : List Char
  fmt : List Char
  type : EntryType
  deriving DecidableEq, Repr

/-- The locals `vec`, `nstr`, `pstr`, `pfmt` of `LogFormatter::init`, with the
member `m_error`. -/
structure InitState where
  vec : List PatternEntry
  nstr : List Char
  pstr : List Char
  pfmt : List Char
  error : Bool
  deriving DecidableEq, Repr

namespace InitState

/-- The state at the start of `init`: empty buffers, `m_error = false`. -/
def empty : InitState := ⟨[], [], [], [], false⟩

/-- The text `"<<error_pattern>>"` pushed for a misplaced brace. -/
def errorPattern : List Char := "<<error_pattern>>".toList

/-- The literal entry that stands for a malformed pattern. -/
def errorEntry : PatternEntry := ⟨errorPattern, [], .text⟩

/-- `if (!nstr.empty()) { vec.emplace_back(nstr, "", 0); nstr.clear(); }` -/
def flushNstr (st : InitState) : InitState :=
  if st.nstr = [] then st else { st with vec := st.vec ++ [⟨st.nstr, [], .text⟩], nstr := [] }

/-- `vec.emplace_back(pstr, pfmt, 1); pstr.clear(); pfmt.clear();` -/
def pushItem (st : InitState) : InitState :=
  { st with vec := st.vec ++ [⟨st.pstr, st.pfmt, .item⟩], pstr := [], pfmt := [] }

/-- The brace error: push `<<error_pattern>>`, clear `pstr` and `pfmt`, set `m_error`. -/
def pushError (st : InitState) : InitState :=
  { st with vec := st.vec ++ [errorEntry], pstr := [], pfmt := [], error := true }

/-- `nstr.append(1, c)` -/
def appendNstr (st : InitState) (c : Char) : InitState := { st with nstr := st.nstr ++ [c] }

/-- `pstr.append(1, c)` -/
def appendPstr (st : InitState) (c : Char) : InitState := { st with pstr := st.pstr ++ [c] }

/-- `pfmt.append(1, c)` -/
def appendPfmt (st : InitState) (c : Char) : InitState := { st with pfmt := st.pfmt ++ [c] }

@[simp] theorem pushItem_vec (st : InitState) :
    st.pushItem.vec = st.vec ++ [⟨st.pstr, st.pfmt, .item⟩] := rfl
@[simp] theorem pushItem_nstr (st : InitState) : st.pushItem.nstr = st.nstr := rfl
@[simp] theorem pushItem_pstr (st : InitState) : st.pushItem.pstr = [] := rfl
@[simp] theorem pushItem_pfmt (st : InitState) : st.pushItem.pfmt = [] := rfl
@[simp] theorem pushItem_error (st : InitState) : st.pushItem.error = st.error := rfl
@[simp] theorem pushError_error (st : InitState) : st.pushError.error = true := rfl
@[simp] theorem appendNstr_nstr (st : InitState) (c : Char) :
    (st.appendNstr c).nstr = st.nstr ++ [c] := rfl
@[simp] theorem appendNstr_vec (st : InitState) (c : Char) : (st.appendNstr c).vec = st.vec := rfl
@[simp] theorem appendNstr_error (st : InitState) (c : Char) :
    (st.appendNstr c).error = st.error := rfl
@[simp] theorem appendPstr_error (st : InitState) (c : Char) :
    (st.appendPstr c).error = st.error := rfl
@[simp] theorem appendPfmt_error (st : InitState) (c : Char) :
    (st.appendPfmt c).error = st.error := rfl

@[simp] theorem flushNstr_error (st : InitState) : st.flushNstr.error = st.error := by
  unfold flushNstr
  split <;> rfl

@[simp] theorem flushNstr_nstr (st : InitState) : st.flushNstr.nstr = [] := by
  unfold flushNstr
  split <;> simp_all

@[simp] theorem flushNstr_pstr (st : InitState) : st.flushNstr.pstr = st.pstr := by
  unfold flushNstr
  split <;> rfl

@[simp] theorem flushNstr_pfmt (st : InitState) : st.flushNstr.pfmt = st.pfmt := by
  unfold flushNstr
  split <;> rfl

end InitState

open InitState

/-- **The scanner loop of `LogFormatter::init`** (the `for` over `m_pattern`
with its `switch (status)`).  It returns the status and the state reached when
the input runs out. -/
def initLoop : ParseStatus → InitState → List Char → ParseStatus × InitState
  | status, st, [] => (status, st)
  | .normalString, st, '%' :: '%' :: rest => initLoop .normalString (st.appendNstr '%') rest
  | .normalString, st, '%' :: rest => initLoop .parsingStr st.flushNstr rest
  | .normalString, st, c :: rest => initLoop .normalString (st.appendNstr c) rest
  | .parsingStr, st, '\x7b' :: rest => initLoop .parsingFmt st rest
  | .parsingStr, st, '\x7d' :: rest => initLoop .normalString st.pushError rest
  | .parsingStr, st, '%' :: '%' :: rest =>
    initLoop .normalString (st.pushItem.appendNstr '%') rest
  | .parsingStr, st, '%' :: rest => initLoop .parsingStr st.pushItem rest
  | .parsingStr, st, c :: rest =>
    -- `isalpha` in the C locale is `Char.isAlpha`: ASCII letters only
    if c.isAlpha then initLoop .parsingStr (st.appendPstr c) rest
    else initLoop .normalString (st.pushItem.appendNstr c) rest
  | .parsingFmt, st, '\x7d' :: rest => initLoop .normalString st.pushItem rest
  | .parsingFmt, st, '\x7b' :: rest => initLoop .normalString st.pushError rest
  | .parsingFmt, st, c :: rest => initLoop .parsingFmt (st.appendPfmt c) rest

/-- **The parse end check.**  Pending text is flushed in the normal state and a
pending item in the name state; every other case, including the normal state
with nothing pending, is reported as an error. -/
def parseEndCheck (status : ParseStatus) (st : InitState) : InitState :=
  if status = .normalString ∧ st.nstr ≠ [] then
    { st with vec := st.vec ++ [⟨st.nstr, [], .text⟩] }
  else if status = .parsingStr then
    { st with vec := st.vec ++ [⟨st.pstr, st.pfmt, .item⟩] }
  else
    { st with error := true, vec := st.vec ++ [errorEntry] }

/-- The scanner from `status` and `st`, followed by the end check. -/
def scanFrom (status : ParseStatus) (st : InitState) (p : List Char) : InitState :=
  let r := initLoop status st p
  parseEndCheck r.1 r.2

/-- The first pass of `init`: the scanner from the empty state, then the end check. -/
def scanPattern (pattern : List Char) : InitState := scanFrom .normalString InitState.empty pattern

/-- The format items of `log.cc`, one constructor per `FormatItem` subclass,
with the argument each class keeps. -/
inductive FormatItem
  | message
  | level
  | elapse
  | name
  | threadId
  | newLine
  | dateTime (format : List Char)
  | filename (str : List Char)
  | line
  | tab
  | fiberId
  | colorLevel
  | threadName
  | string (str : List Char)
  deriving DecidableEq, Repr

/-- `DateTimeFormatItem(format)`: an empty format is replaced by the default. -/
def dateTimeFormatItem (format : List Char) : FormatItem :=
  .dateTime (if format = [] then "%Y-%m-%d %H:%M:%S".toList else format)

/-- The table `s_format_items`: item name and the constructor it calls with
the item's argument. -/
def sFormatItems : List (List Char × (List Char → FormatItem)) :=
  [(['m'], fun _ => .message), (['p'], fun _ => .level), (['r'], fun _ => .elapse),
    (['c'], fun _ => .name), (['t'], fun _ => .threadId), (['n'], fun _ => .newLine),
    (['d'], dateTimeFormatItem), (['f'], .filename), (['l'], fun _ => .line),
    (['T'], fun _ => .tab), (['F'], fun _ => .fiberId), (['P'], fun _ => .colorLevel),
    (['N'], fun _ => .threadName)]

/-- The names that `s_format_items` knows. -/
def formatItemNames : List (List Char) := sFormatItems.map Prod.fst

/-- One iteration of the second pass: the item an entry of `vec` becomes, and
whether it sets `m_error` (an item name missing from `s_format_items`). -/
def buildItem (e : PatternEntry) : Bool × FormatItem :=
  match e.type with
  | .text => (false, .string e.str)
  | .item =>
    match sFormatItems.lookup e.str with
    | none => (true, .string ("<<error_format %".toList ++ e.str ++ ">>".toList))
    | some make => (false, make e.fmt)

/-- A log formatter.  Its items and error flag are computed once, by the
constructor, from the pattern, so the pattern determines the object. -/
structure LogFormatter where
  pattern : List Char
  deriving DecidableEq, Repr

namespace LogFormatter

/-- The entries of `vec` after the first pass of `init`. -/
def entries (f : LogFormatter) : List PatternEntry := (scanPattern f.pattern).vec

/-- `m_items`. -/
def items (f : LogFormatter) : List FormatItem := f.entries.map fun e => (buildItem e).2

/-- `LogFormatter::isError`: `m_error` after both passes of `init`. -/
def isError (f : LogFormatter) : Bool :=
  (scanPattern f.pattern).error || f.entries.any fun e => (buildItem e).1

/-- `LogFormatter::getPattern`. -/
def getPattern (f : LogFormatter) : List Char := f.pattern

end LogFormatter

/-! ## One lemma per transition of the scanner -/

attribute [local simp] initLoop in
/-- The loop stops when the input runs out. -/
theorem initLoop_nil (status : ParseStatus) (st : InitState) :
    initLoop status st [] = (status, st) := by
  simp

/-- `%%` in the normal state is a literal `%`. -/
theorem initLoop_normal_percent_percent (st : InitState) (rest : List Char) :
    initLoop .normalString st ('%' :: '%' :: rest)
      = initLoop .normalString (st.appendNstr '%') rest := rfl

/-- Any other `%` in the normal state flushes the pending text and opens an item. -/
theorem initLoop_normal_percent (st : InitState) (rest : List Char)
    (h : ∀ r, rest ≠ '%' :: r) :
    initLoop .normalString st ('%' :: rest) = initLoop .parsingStr st.flushNstr rest := by
  cases rest with
  | nil => rfl
  | cons d rest =>
    have hd : d ≠ '%' := fun hd => h rest (by rw [hd])
    simp [initLoop]

/-- A character other than `%` in the normal state is literal text. -/
theorem initLoop_normal_char (st : InitState) (c : Char) (rest : List Char) (hc : c ≠ '%') :
    initLoop .normalString st (c :: rest) = initLoop .normalString (st.appendNstr c) rest := by
  simp [initLoop, hc]

/-- `{` after a name opens its argument. -/
theorem initLoop_str_lbrace (st : InitState) (rest : List Char) :
    initLoop .parsingStr st ('\x7b' :: rest) = initLoop .parsingFmt st rest := rfl

/-- `}` directly after a name is an error. -/
theorem initLoop_str_rbrace (st : InitState) (rest : List Char) :
    initLoop .parsingStr st ('\x7d' :: rest) = initLoop .normalString st.pushError rest := rfl

/-- `%%` after a name closes the item and starts a literal `%`. -/
theorem initLoop_str_percent_percent (st : InitState) (rest : List Char) :
    initLoop .parsingStr st ('%' :: '%' :: rest)
      = initLoop .normalString (st.pushItem.appendNstr '%') rest := rfl

/-- Any other `%` after a name closes the item and opens the next one. -/
theorem initLoop_str_percent (st : InitState) (rest : List Char) (h : ∀ r, rest ≠ '%' :: r) :
    initLoop .parsingStr st ('%' :: rest) = initLoop .parsingStr st.pushItem rest := by
  cases rest with
  | nil => rfl
  | cons d rest =>
    have hd : d ≠ '%' := fun hd => h rest (by rw [hd])
    simp [initLoop]

/-- An ASCII letter is neither a brace nor `%`. -/
theorem ne_of_isAlpha {c : Char} (hc : c.isAlpha) : c ≠ '\x7b' ∧ c ≠ '\x7d' ∧ c ≠ '%' := by
  refine ⟨?_, ?_, ?_⟩ <;> (rintro rfl; revert hc; decide)

/-- A letter extends the item name. -/
theorem initLoop_str_alpha (st : InitState) (c : Char) (rest : List Char) (hc : c.isAlpha) :
    initLoop .parsingStr st (c :: rest) = initLoop .parsingStr (st.appendPstr c) rest := by
  obtain ⟨hl, hr, hp⟩ := ne_of_isAlpha hc
  simp [initLoop, hp, hc]

/-- Any other character after a name closes the item and is literal text. -/
theorem initLoop_str_other (st : InitState) (c : Char) (rest : List Char)
    (hl : c ≠ '\x7b') (hr : c ≠ '\x7d') (hp : c ≠ '%') (ha : c.isAlpha = false) :
    initLoop .parsingStr st (c :: rest) = initLoop .normalString (st.pushItem.appendNstr c) rest := by
  simp [initLoop, hp, ha]

/-- `}` closes an argument and the item. -/
theorem initLoop_fmt_rbrace (st : InitState) (rest : List Char) :
    initLoop .parsingFmt st ('\x7d' :: rest) = initLoop .normalString st.pushItem rest := rfl

/-- `{` inside an argument is an error. -/
theorem initLoop_fmt_lbrace (st : InitState) (rest : List Char) :
    initLoop .parsingFmt st ('\x7b' :: rest) = initLoop .normalString st.pushError rest := rfl

/-- Any other character belongs to the argument. -/
theorem initLoop_fmt_char (st : InitState) (c : Char) (rest : List Char)
    (hl : c ≠ '\x7b') (hr : c ≠ '\x7d') :
    initLoop .parsingFmt st (c :: rest) = initLoop .parsingFmt (st.appendPfmt c) rest := by
  simp [initLoop]

/-! ## Runs of the scanner -/

/-- `m_error` is never cleared by the scanner. -/
theorem initLoop_error_of_error (status : ParseStatus) (st : InitState) (p : List Char)
    (h : st.error = true) : (initLoop status st p).2.error = true := by
  fun_induction initLoop status st p <;> simp_all

/-- Whether a character is `{` or `}`. -/
def isBrace (c : Char) : Bool := c = '\x7b' || c = '\x7d'

/-- A run of letters after `%` is read into the item name. -/
theorem initLoop_str_letters (st : InitState) (name rest : List Char)
    (h : ∀ c ∈ name, c.isAlpha) :
    initLoop .parsingStr st (name ++ rest)
      = initLoop .parsingStr { st with pstr := st.pstr ++ name } rest := by
  induction name generalizing st with
  | nil => simp
  | cons c name ih =>
    rw [List.cons_append, initLoop_str_alpha st c _ (h c List.mem_cons_self),
      ih _ fun d hd => h d (List.mem_cons_of_mem c hd)]
    simp [appendPstr]

/-- A run of characters other than braces after `{` is read into the argument. -/
theorem initLoop_fmt_chars (st : InitState) (f rest : List Char)
    (h : ∀ c ∈ f, isBrace c = false) :
    initLoop .parsingFmt st (f ++ rest)
      = initLoop .parsingFmt { st with pfmt := st.pfmt ++ f } rest := by
  induction f generalizing st with
  | nil => simp
  | cons c f ih =>
    have hc : isBrace c = false := h c List.mem_cons_self
    simp only [isBrace, Bool.or_eq_false_iff, decide_eq_false_iff_not] at hc
    rw [List.cons_append, initLoop_fmt_char st c _ hc.1 hc.2,
      ih _ fun d hd => h d (List.mem_cons_of_mem c hd)]
    simp [appendPfmt]

/-- Flushing with no pending text does nothing. -/
@[simp] theorem flushNstr_of_nstr_nil {st : InitState} (h : st.nstr = []) : st.flushNstr = st := by
  simp [flushNstr, h]

/-- **Hand-over after a name.**  Once the name of an item is complete and no
`{` follows, the name state behaves as if the item had been pushed and the
next character were read in the normal state. -/
theorem initLoop_str_after_name (st : InitState) (c : Char) (rest : List Char)
    (hn : st.nstr = []) (ha : c.isAlpha = false) (hb : isBrace c = false) :
    initLoop .parsingStr st (c :: rest) = initLoop .normalString st.pushItem (c :: rest) := by
  simp only [isBrace, Bool.or_eq_false_iff, decide_eq_false_iff_not] at hb
  by_cases hp : c = '%'
  · subst hp
    cases rest with
    | nil => rw [initLoop_str_percent _ _ (by simp), initLoop_normal_percent _ _ (by simp),
        flushNstr_of_nstr_nil (by simpa using hn)]
    | cons d rest =>
      by_cases hd : d = '%'
      · subst hd
        rw [initLoop_str_percent_percent, initLoop_normal_percent_percent]
      · have hr : ∀ r, d :: rest ≠ '%' :: r := by simp [hd]
        rw [initLoop_str_percent _ _ hr, initLoop_normal_percent _ _ hr,
          flushNstr_of_nstr_nil (by simpa using hn)]
  · rw [initLoop_str_other st c rest hb.1 hb.2 hp ha, initLoop_normal_char _ c rest hp]

/-! ## The end check -/

/-- The end check in the normal state with nothing pending reports an error. -/
theorem scanFrom_normal_nil {st : InitState} (h : st.nstr = []) :
    scanFrom .normalString st [] = { st with error := true, vec := st.vec ++ [errorEntry] } := by
  simp [scanFrom, initLoop, parseEndCheck, h]

/-- The end check in the normal state flushes pending text. -/
theorem scanFrom_normal_nil_of_ne {st : InitState} (h : st.nstr ≠ []) :
    scanFrom .normalString st [] = { st with vec := st.vec ++ [⟨st.nstr, [], .text⟩] } := by
  simp [scanFrom, initLoop, parseEndCheck, h]

/-- The end check in the name state flushes the pending item. -/
theorem scanFrom_str_nil (st : InitState) :
    scanFrom .parsingStr st [] = { st with vec := st.vec ++ [⟨st.pstr, st.pfmt, .item⟩] } := by
  simp [scanFrom, initLoop, parseEndCheck]

/-- The end check inside an argument reports an error. -/
theorem scanFrom_fmt_nil (st : InitState) :
    (scanFrom .parsingFmt st []).error = true := by
  simp [scanFrom, initLoop, parseEndCheck]

/-- Once set, `m_error` stays set through the scanner and the end check. -/
theorem scanFrom_error_of_error (status : ParseStatus) (st : InitState) (p : List Char)
    (h : st.error = true) : (scanFrom status st p).error = true := by
  have hr := initLoop_error_of_error status st p h
  simp only [scanFrom, parseEndCheck]
  split_ifs <;> simp [hr]

end Sylar
