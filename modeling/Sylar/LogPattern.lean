/-
# The pattern grammar of `LogFormatter` and what its scanner computes

The pattern language that `log.h` documents (`%m`, `%p`, `%d{…}`, `%%`, …),
stated as a reference tokenizer that reads a pattern from left to right: a
character other than `%` is literal text, `%%` is a literal `%`, and any other
`%` starts an item whose name is the longest run of ASCII letters after it,
optionally followed directly by an argument `{F}` with no brace in `F`.  A
pattern is well formed when the tokenizer succeeds and every item name is a key
of `s_format_items`.

`normalScans` relates the scanner of `LogFormatter.lean` to the tokenizer on
every input: by one induction that follows the three functions of the
tokenizer, the scanner emits the expected entries (each maximal run of
literals merged into one text entry) when the pattern tokenizes, and sets
`m_error` when it does not.  The end check adds one more error: it reports the
normal state with nothing pending, which is where the scanner stops on the
empty pattern and after an item with a `{…}` argument at the very end.  So
`isError_eq_false_iff` characterises the accepted patterns as the well-formed,
non-empty ones that do not end with an argument, and `items_eq` gives the items
of every pattern that tokenizes.
-/
import Sylar.LogFormatter

namespace Sylar

open InitState

/-! ## The reference tokenizer -/

/-- A token of a formatter pattern: one literal character, or an item with its
name and its `{…}` argument when it has one. -/
inductive PatternToken
  | literal (c : Char)
  | item (name : List Char) (arg : Option (List Char))
  deriving DecidableEq, Repr

mutual
/-- **The reference tokenizer.**  Literal text and `%%` are read here; any other
`%` reads the longest run of letters as the item name and hands over to
`afterName`.  `none` marks a misplaced brace. -/
def tokenize : List Char → Option (List PatternToken)
  | [] => some []
  | '%' :: '%' :: rest => (tokenize rest).map (.literal '%' :: ·)
  | '%' :: rest => afterName (rest.takeWhile Char.isAlpha) (rest.dropWhile Char.isAlpha)
  | c :: rest => (tokenize rest).map (.literal c :: ·)
termination_by p => (p.length, 0)
decreasing_by
  all_goals simp only [List.length_cons]
  · exact Prod.Lex.left _ _ (by omega)
  · exact Prod.Lex.left _ _ (by have := List.length_dropWhile_le Char.isAlpha rest; omega)
  · exact Prod.Lex.left _ _ (by omega)

/-- After the name of an item: an argument `{F}` whose `F` runs up to the next
brace, or nothing; a `}` directly after the name is an error. -/
def afterName (name : List Char) : List Char → Option (List PatternToken)
  | '\x7b' :: arg => closeArg name (arg.takeWhile (!isBrace ·)) (arg.dropWhile (!isBrace ·))
  | '\x7d' :: _ => none
  | after => (tokenize after).map (.item name none :: ·)
termination_by l => (l.length, 1)
decreasing_by
  · simp only [List.length_cons]
    exact Prod.Lex.left _ _ (by have := List.length_dropWhile_le (!isBrace ·) arg; omega)
  · exact Prod.Lex.right _ (by omega)

/-- After the argument `arg` of an item: the argument must be closed by `}`;
a `{` inside it, or the end of the pattern, is an error. -/
def closeArg (name arg : List Char) : List Char → Option (List PatternToken)
  | '\x7d' :: after => (tokenize after).map (.item name (some arg) :: ·)
  | _ => none
termination_by l => (l.length, 2)
decreasing_by
  simp only [List.length_cons]
  exact Prod.Lex.left _ _ (by omega)
end

/-- An item token names a key of `s_format_items`. -/
def PatternToken.known : PatternToken → Bool
  | .literal _ => true
  | .item name _ => (sFormatItems.lookup name).isSome

/-- **Well-formed patterns**: the tokenizer succeeds and every item name is known. -/
def WellFormed (p : List Char) : Prop :=
  ∃ toks, tokenize p = some toks ∧ toks.all PatternToken.known = true

/-- The last token of the pattern is an item with a `{…}` argument. -/
def EndsWithArgument (p : List Char) : Prop :=
  ∃ toks name arg, tokenize p = some toks ∧ toks.getLast? = some (.item name (some arg))

/-! ## One lemma per branch of the tokenizer -/

attribute [local simp] tokenize afterName closeArg in
/-- The empty pattern has no tokens. -/
theorem tokenize_nil : tokenize [] = some [] := by
  simp

theorem tokenize_percent_percent (rest : List Char) :
    tokenize ('%' :: '%' :: rest) = (tokenize rest).map (.literal '%' :: ·) := by
  simp [tokenize]

theorem tokenize_percent (rest : List Char) (h : ∀ r, rest ≠ '%' :: r) :
    tokenize ('%' :: rest)
      = afterName (rest.takeWhile Char.isAlpha) (rest.dropWhile Char.isAlpha) := by
  rw [tokenize]
  exact h

theorem tokenize_char (c : Char) (rest : List Char) (hc : c ≠ '%') :
    tokenize (c :: rest) = (tokenize rest).map (.literal c :: ·) := by
  rw [tokenize] <;> simp [hc]

theorem afterName_lbrace (name arg : List Char) :
    afterName name ('\x7b' :: arg)
      = closeArg name (arg.takeWhile (!isBrace ·)) (arg.dropWhile (!isBrace ·)) := by
  simp [afterName]

theorem afterName_rbrace (name tail : List Char) : afterName name ('\x7d' :: tail) = none := by
  simp [afterName]

theorem afterName_other (name after : List Char) (hl : ∀ arg, after ≠ '\x7b' :: arg)
    (hr : ∀ tail, after ≠ '\x7d' :: tail) :
    afterName name after = (tokenize after).map (.item name none :: ·) := by
  rw [afterName]
  · exact hl
  · exact hr

theorem closeArg_rbrace (name arg after : List Char) :
    closeArg name arg ('\x7d' :: after) = (tokenize after).map (.item name (some arg) :: ·) := by
  simp [closeArg]

theorem closeArg_other (name arg x : List Char) (hx : ∀ after, x ≠ '\x7d' :: after) :
    closeArg name arg x = none := by
  rw [closeArg]
  exact hx

/-- What `afterName` reads is one item with the given name, then more tokens. -/
theorem afterName_some {name l : List Char} {toks : List PatternToken}
    (h : afterName name l = some toks) : ∃ arg ts, toks = .item name arg :: ts := by
  by_cases hl : ∃ arg, l = '\x7b' :: arg
  · obtain ⟨arg, rfl⟩ := hl
    rw [afterName_lbrace] at h
    by_cases hx : ∃ after, arg.dropWhile (!isBrace ·) = '\x7d' :: after
    · obtain ⟨after, hx⟩ := hx
      rw [hx, closeArg_rbrace] at h
      obtain ⟨ts, -, rfl⟩ := Option.map_eq_some_iff.mp h
      exact ⟨_, ts, rfl⟩
    · push Not at hx
      rw [closeArg_other _ _ _ hx] at h
      cases h
  · by_cases hr : ∃ tail, l = '\x7d' :: tail
    · obtain ⟨tail, rfl⟩ := hr
      rw [afterName_rbrace] at h
      cases h
    · push Not at hl hr
      rw [afterName_other _ _ hl hr] at h
      obtain ⟨ts, -, rfl⟩ := Option.map_eq_some_iff.mp h
      exact ⟨_, ts, rfl⟩

/-- A non-empty pattern that tokenizes has at least one token. -/
theorem tokenize_cons_ne_nil {c : Char} {rest : List Char} {toks : List PatternToken}
    (h : tokenize (c :: rest) = some toks) : toks ≠ [] := by
  by_cases hc : c = '%'
  · subst hc
    by_cases hr : ∃ r, rest = '%' :: r
    · obtain ⟨r, rfl⟩ := hr
      rw [tokenize_percent_percent] at h
      obtain ⟨ts, -, rfl⟩ := Option.map_eq_some_iff.mp h
      simp
    · push Not at hr
      rw [tokenize_percent _ hr] at h
      obtain ⟨arg, ts, rfl⟩ := afterName_some h
      simp
  · rw [tokenize_char _ _ hc] at h
    obtain ⟨ts, -, rfl⟩ := Option.map_eq_some_iff.mp h
    simp

/-- Only the empty pattern has no tokens. -/
theorem tokenize_eq_some_nil_iff (p : List Char) : tokenize p = some [] ↔ p = [] := by
  constructor
  · intro h
    cases p with
    | nil => rfl
    | cons c rest => exact absurd rfl (tokenize_cons_ne_nil h)
  · rintro rfl
    exact tokenize_nil

/-! ## The entries the scanner should emit -/

/-- The text entry for pending literal text, when there is any. -/
def textEntry (pending : List Char) : List PatternEntry :=
  if pending = [] then [] else [⟨pending, [], .text⟩]

/-- **The expected entries** of the tokens `toks` after the pending literal
text `pending`: each maximal run of literals is merged into one text entry, and
each item becomes an item entry with its argument, or `""` when it has none. -/
def tokenEntries : List Char → List PatternToken → List PatternEntry
  | pending, [] => textEntry pending
  | pending, .literal c :: ts => tokenEntries (pending ++ [c]) ts
  | pending, .item name arg :: ts =>
    textEntry pending ++ ⟨name, arg.getD [], .item⟩ :: tokenEntries [] ts

/-- Whether the scanner stops in the normal state with nothing pending after
reading `toks`: no literal text is left over and the last token, if any, is an
item with a `{…}` argument. -/
def endsBare : List Char → List PatternToken → Bool
  | pending, [] => pending.isEmpty
  | pending, .literal c :: ts => endsBare (pending ++ [c]) ts
  | _, .item _ arg :: ts => if ts = [] then arg.isSome else endsBare [] ts

/-- The expected items: the expected entries, each built as `init` builds it. -/
def tokenItems (toks : List PatternToken) : List FormatItem :=
  (tokenEntries [] toks).map fun e => (buildItem e).2

/-- Flushing pending text appends its text entry. -/
theorem flushNstr_vec (st : InitState) : st.flushNstr.vec = st.vec ++ textEntry st.nstr := by
  unfold flushNstr textEntry
  split <;> simp

/-- The pending text before an item is flushed in front of it. -/
theorem tokenEntries_item (pending name : List Char) (arg : Option (List Char))
    (ts : List PatternToken) :
    tokenEntries pending (.item name arg :: ts)
      = textEntry pending ++ tokenEntries [] (.item name arg :: ts) := by
  simp [tokenEntries, textEntry]

/-- `endsBare` ends with the last item: the pending text before it is irrelevant. -/
theorem endsBare_item (pending name : List Char) (arg : Option (List Char))
    (ts : List PatternToken) :
    endsBare pending (.item name arg :: ts) = endsBare [] (.item name arg :: ts) := by
  simp [endsBare]

/-- **When the scanner stops bare**: on no tokens and no pending text, or after
a last token that is an item with an argument. -/
theorem endsBare_eq_true_iff (pending : List Char) (toks : List PatternToken) :
    endsBare pending toks = true ↔
      (toks = [] ∧ pending = []) ∨ ∃ name arg, toks.getLast? = some (.item name (some arg)) := by
  induction toks generalizing pending with
  | nil => simp [endsBare]
  | cons t ts ih =>
    cases t with
    | literal c =>
      rw [endsBare, ih]
      cases ts with
      | nil => simp
      | cons t' ts' => simp
    | item name arg =>
      by_cases hts : ts = []
      · subst hts
        cases arg <;> simp [endsBare]
      · rw [endsBare, if_neg hts, ih]
        obtain ⟨t', ts', rfl⟩ := List.exists_cons_of_ne_nil hts
        simp

/-- A name is missing from `s_format_items` exactly when some item of the
tokens has an unknown name. -/
theorem any_buildItem_tokenEntries (pending : List Char) (toks : List PatternToken) :
    (tokenEntries pending toks).any (fun e => (buildItem e).1) = toks.any (fun t => !t.known) := by
  induction toks generalizing pending with
  | nil => unfold tokenEntries textEntry; split <;> simp [buildItem]
  | cons t ts ih =>
    cases t with
    | literal c => simp [tokenEntries, ih, PatternToken.known]
    | item name arg =>
      have htext : (textEntry pending).any (fun e => (buildItem e).1) = false := by
        unfold textEntry; split <;> simp [buildItem]
      simp only [tokenEntries, List.any_append, htext, List.any_cons, ih, Bool.false_or,
        PatternToken.known]
      cases h : sFormatItems.lookup name <;> simp [buildItem, h]

/-! ## The scanner against the tokenizer -/

/-- What the scanner must leave after reading `toks` from the state `st`: the
expected entries after those already in `vec`, then the error entry of the end
check when it stops bare. -/
def ScanResult (st r : InitState) (toks : List PatternToken) : Prop :=
  r.vec = st.vec ++ tokenEntries st.nstr toks ++
      (if endsBare st.nstr toks then [errorEntry] else []) ∧
    r.error = (st.error || endsBare st.nstr toks)

/-- The scanner's result `r` from `st` against the tokenizer's answer: the
expected result when the input tokenizes, `m_error` set when it does not. -/
def Scanned (st r : InitState) : Option (List PatternToken) → Prop
  | some toks => ScanResult st r toks
  | none => r.error = true

/-- Two start states with the same pending text and entries give the same
expectation. -/
theorem Scanned.of_same {st st' r : InitState} {o : Option (List PatternToken)}
    (h : Scanned st' r o) (herr : st'.error = st.error)
    (hrel : ∀ toks, o = some toks →
      st'.vec ++ tokenEntries st'.nstr toks = st.vec ++ tokenEntries st.nstr toks ∧
        endsBare st'.nstr toks = endsBare st.nstr toks) :
    Scanned st r o := by
  cases o with
  | none => exact h
  | some toks =>
    obtain ⟨hv, hb⟩ := hrel toks rfl
    obtain ⟨hvec, herr'⟩ := h
    exact ⟨by rw [hvec, hv, hb], by rw [herr', herr, hb]⟩

/-- Reading one more token `t` in front: the expectation for `t :: toks` from
`st` is the one for `toks` from the state `st'` reached after `t`. -/
theorem Scanned.map_cons {st st' r : InitState} {t : PatternToken}
    {o : Option (List PatternToken)} (h : Scanned st' r o) (herr : st'.error = st.error)
    (hrel : ∀ toks, o = some toks →
      st'.vec ++ tokenEntries st'.nstr toks = st.vec ++ tokenEntries st.nstr (t :: toks) ∧
        endsBare st'.nstr toks = endsBare st.nstr (t :: toks)) :
    Scanned st r (o.map (t :: ·)) := by
  cases o with
  | none => exact h
  | some toks =>
    obtain ⟨hv, hb⟩ := hrel toks rfl
    obtain ⟨hvec, herr'⟩ := h
    exact ⟨by rw [hvec, hv, hb], by rw [herr', herr, hb]⟩

/-- The induction claim in the normal state, for any pending text. -/
def NormalScans (p : List Char) : Prop :=
  ∀ st : InitState, st.pstr = [] → st.pfmt = [] →
    Scanned st (scanFrom .normalString st p) (tokenize p)

/-- The induction claim in the name state, once the name `name` is complete. -/
def NameScans (name l : List Char) : Prop :=
  (∀ c ∈ l.head?, c.isAlpha = false) → ∀ st : InitState, st.nstr = [] → st.pstr = name →
    st.pfmt = [] → Scanned st (scanFrom .parsingStr st l) (afterName name l)

/-- The induction claim inside an argument, once its text `arg` is read. -/
def ArgScans (name arg l : List Char) : Prop :=
  (∀ c ∈ l.head?, isBrace c = true) → ∀ st : InitState, st.nstr = [] → st.pstr = name →
    st.pfmt = arg → Scanned st (scanFrom .parsingFmt st l) (closeArg name arg l)

theorem normalScans_nil : NormalScans [] := by
  intro st _ _
  rw [tokenize_nil]
  by_cases hn : st.nstr = []
  · rw [scanFrom_normal_nil hn]
    simp [Scanned, ScanResult, tokenEntries, textEntry, endsBare, hn]
  · rw [scanFrom_normal_nil_of_ne hn]
    simp [Scanned, ScanResult, tokenEntries, textEntry, endsBare, hn]

theorem normalScans_percent_percent {rest : List Char} (h : NormalScans rest) :
    NormalScans ('%' :: '%' :: rest) := by
  intro st hp hf
  have hs : scanFrom .normalString st ('%' :: '%' :: rest)
      = scanFrom .normalString (st.appendNstr '%') rest := by
    simp only [scanFrom, initLoop_normal_percent_percent]
  rw [hs, tokenize_percent_percent]
  exact (h (st.appendNstr '%') hp hf).map_cons rfl fun toks _ =>
    ⟨by simp [tokenEntries], by simp [endsBare]⟩

theorem normalScans_char {c : Char} {rest : List Char} (hc : c ≠ '%') (h : NormalScans rest) :
    NormalScans (c :: rest) := by
  intro st hp hf
  have hs : scanFrom .normalString st (c :: rest)
      = scanFrom .normalString (st.appendNstr c) rest := by
    simp only [scanFrom, initLoop_normal_char _ _ _ hc]
  rw [hs, tokenize_char _ _ hc]
  exact (h (st.appendNstr c) hp hf).map_cons rfl fun toks _ =>
    ⟨by simp [tokenEntries], by simp [endsBare]⟩

theorem normalScans_percent {rest : List Char} (hr : ∀ r, rest ≠ '%' :: r)
    (h : NameScans (rest.takeWhile Char.isAlpha) (rest.dropWhile Char.isAlpha)) :
    NormalScans ('%' :: rest) := by
  intro st hp hf
  have hsplit : rest = rest.takeWhile Char.isAlpha ++ rest.dropWhile Char.isAlpha :=
    List.takeWhile_append_dropWhile.symm
  -- `%` flushes the pending text, then the letters are read into the name
  have hs : scanFrom .normalString st ('%' :: rest)
      = scanFrom .parsingStr { st.flushNstr with pstr := rest.takeWhile Char.isAlpha }
          (rest.dropWhile Char.isAlpha) := by
    unfold scanFrom
    rw [initLoop_normal_percent st rest hr]
    conv_lhs => rw [hsplit]
    rw [initLoop_str_letters _ _ _ fun c hc => List.mem_takeWhile_imp hc]
    simp [hp]
  have hhead : ∀ c ∈ (rest.dropWhile Char.isAlpha).head?, c.isAlpha = false := by
    intro c hc
    have := List.head?_dropWhile_not Char.isAlpha rest
    rw [Option.mem_def.mp hc] at this
    exact this
  rw [hs, tokenize_percent _ hr]
  refine (h hhead _ (by simp) rfl (by simp [hf])).of_same (by simp) fun toks ht => ?_
  obtain ⟨arg, ts, rfl⟩ := afterName_some ht
  refine ⟨?_, endsBare_item _ _ _ _⟩
  rw [tokenEntries_item st.nstr]
  simp [flushNstr_vec]

theorem nameScans_lbrace {name arg : List Char}
    (h : ArgScans name (arg.takeWhile (!isBrace ·)) (arg.dropWhile (!isBrace ·))) :
    NameScans name ('\x7b' :: arg) := by
  intro _ st hn hp hf
  have hsplit : arg = arg.takeWhile (!isBrace ·) ++ arg.dropWhile (!isBrace ·) :=
    List.takeWhile_append_dropWhile.symm
  -- `{` opens the argument, whose text runs up to the next brace
  have hs : scanFrom .parsingStr st ('\x7b' :: arg)
      = scanFrom .parsingFmt { st with pfmt := arg.takeWhile (!isBrace ·) }
          (arg.dropWhile (!isBrace ·)) := by
    unfold scanFrom
    rw [initLoop_str_lbrace]
    conv_lhs => rw [hsplit]
    rw [initLoop_fmt_chars _ _ _ fun c hc => by simpa using List.mem_takeWhile_imp hc]
    simp [hf]
  have hhead : ∀ c ∈ (arg.dropWhile (!isBrace ·)).head?, isBrace c = true := by
    intro c hc
    have := List.head?_dropWhile_not (!isBrace ·) arg
    rw [Option.mem_def.mp hc] at this
    simpa using this
  rw [hs, afterName_lbrace]
  exact (h hhead { st with pfmt := arg.takeWhile (!isBrace ·) } hn hp rfl).of_same rfl
    fun _ _ => ⟨rfl, rfl⟩

theorem nameScans_rbrace (name tail : List Char) : NameScans name ('\x7d' :: tail) := by
  intro _ st _ _ _
  rw [afterName_rbrace]
  have hs : scanFrom .parsingStr st ('\x7d' :: tail) = scanFrom .normalString st.pushError tail := by
    simp only [scanFrom, initLoop_str_rbrace]
  rw [Scanned, hs]
  exact scanFrom_error_of_error _ _ _ rfl

theorem nameScans_other {name after : List Char} (hl : ∀ arg, after ≠ '\x7b' :: arg)
    (hr : ∀ tail, after ≠ '\x7d' :: tail) (h : NormalScans after) : NameScans name after := by
  intro ha st hn hp hf
  rw [afterName_other _ _ hl hr]
  cases after with
  | nil =>
    -- the input ends inside the name: the end check pushes the item
    rw [tokenize_nil, Option.map_some, scanFrom_str_nil]
    simp [Scanned, ScanResult, tokenEntries, textEntry, endsBare, hn, hp, hf]
  | cons c rest =>
    have hca : c.isAlpha = false := ha c rfl
    have hcb : isBrace c = false := by
      simp only [isBrace, Bool.or_eq_false_iff, decide_eq_false_iff_not]
      exact ⟨fun hc => hl rest (by rw [hc]), fun hc => hr rest (by rw [hc])⟩
    have hs : scanFrom .parsingStr st (c :: rest) = scanFrom .normalString st.pushItem (c :: rest) := by
      simp only [scanFrom, initLoop_str_after_name st c rest hn hca hcb]
    rw [hs]
    refine (h st.pushItem rfl rfl).map_cons rfl fun toks ht => ⟨?_, ?_⟩
    · simp [tokenEntries, textEntry, hn, hp, hf]
    · simp [endsBare, hn, tokenize_cons_ne_nil ht]

theorem argScans_rbrace {name arg after : List Char} (h : NormalScans after) :
    ArgScans name arg ('\x7d' :: after) := by
  intro _ st hn hp hf
  rw [closeArg_rbrace]
  have hs : scanFrom .parsingFmt st ('\x7d' :: after) = scanFrom .normalString st.pushItem after := by
    simp only [scanFrom, initLoop_fmt_rbrace]
  rw [hs]
  refine (h st.pushItem rfl rfl).map_cons rfl fun toks _ => ⟨?_, ?_⟩
  · simp [tokenEntries, textEntry, hn, hp, hf]
  · cases toks <;> simp [endsBare, hn]

theorem argScans_other {name arg x : List Char} (hx : ∀ after, x ≠ '\x7d' :: after) :
    ArgScans name arg x := by
  intro hb st _ _ _
  rw [closeArg_other _ _ _ hx, Scanned]
  cases x with
  | nil => exact scanFrom_fmt_nil st
  | cons c rest =>
    -- the argument runs into a second `{`
    have hc : c = '\x7b' := by
      have h1 := hb c rfl
      simp only [isBrace, Bool.or_eq_true, decide_eq_true_eq] at h1
      exact h1.resolve_right fun h2 => hx rest (by rw [h2])
    subst hc
    have hs : scanFrom .parsingFmt st ('\x7b' :: rest) = scanFrom .normalString st.pushError rest := by
      simp only [scanFrom, initLoop_fmt_lbrace]
    rw [hs]
    exact scanFrom_error_of_error _ _ _ rfl

/-- **The scanner follows the tokenizer.**  From any normal-state start with no
pending name or argument, the scanner with its end check emits the expected
entries when the input tokenizes and sets `m_error` when it does not.  The
induction is the tokenizer's own, through its three functions. -/
theorem normalScans (p : List Char) : NormalScans p :=
  tokenize.induct NormalScans NameScans ArgScans normalScans_nil
    (fun _ ih => normalScans_percent_percent ih) (fun _ hr ih => normalScans_percent hr ih)
    (fun _ _ _ hc ih => normalScans_char hc ih) (fun _ _ ih => nameScans_lbrace ih)
    nameScans_rbrace (fun _ _ hl hr ih => nameScans_other hl hr ih)
    (fun _ _ _ ih => argScans_rbrace ih) (fun _ _ _ hx => argScans_other hx) p

/-- The first pass of `init` on a whole pattern. -/
theorem scanPattern_scanned (p : List Char) :
    Scanned InitState.empty (scanPattern p) (tokenize p) :=
  normalScans p InitState.empty rfl rfl

/-! ## Accepted patterns and their items -/

/-- The error flag of a pattern that tokenizes: it stops bare, or an item name
is unknown. -/
theorem isError_eq_of_tokenize {p : List Char} {toks : List PatternToken}
    (h : tokenize p = some toks) :
    (LogFormatter.mk p).isError = (endsBare [] toks || toks.any fun t => !t.known) := by
  have hs := scanPattern_scanned p
  rw [h] at hs
  obtain ⟨hvec, herr⟩ := hs
  simp only [InitState.empty, List.nil_append, Bool.false_or] at hvec herr
  simp only [LogFormatter.isError, LogFormatter.entries, hvec, herr, List.any_append,
    any_buildItem_tokenEntries]
  -- the error entry of the end check is literal text, never an unknown name
  by_cases hb : endsBare [] toks = true <;> simp [hb, buildItem, errorEntry]

/-- A pattern that does not tokenize is reported as an error. -/
theorem isError_of_tokenize_none {p : List Char} (h : tokenize p = none) :
    (LogFormatter.mk p).isError = true := by
  have hs := scanPattern_scanned p
  rw [h] at hs
  simp only [LogFormatter.isError]
  rw [show (scanPattern p).error = true from hs, Bool.true_or]

/-- **The patterns `LogFormatter` accepts**: exactly the well-formed patterns
that are not empty and do not end with an item with a `{…}` argument. -/
theorem isError_eq_false_iff (p : List Char) :
    (LogFormatter.mk p).isError = false ↔ WellFormed p ∧ p ≠ [] ∧ ¬ EndsWithArgument p := by
  cases ht : tokenize p with
  | none =>
    rw [isError_of_tokenize_none ht]
    simp [WellFormed, ht]
  | some toks =>
    have hwf : WellFormed p ↔ toks.all PatternToken.known = true := by
      simp [WellFormed, ht]
    have hne : p ≠ [] ↔ toks ≠ [] := by
      rw [Ne, Ne, ← tokenize_eq_some_nil_iff, ht, Option.some_inj]
    have hend : EndsWithArgument p ↔ ∃ name arg, toks.getLast? = some (.item name (some arg)) := by
      simp [EndsWithArgument, ht]
    have hbare : endsBare [] toks = false ↔
        toks ≠ [] ∧ ¬ ∃ name arg, toks.getLast? = some (.item name (some arg)) := by
      rw [← Bool.not_eq_true, endsBare_eq_true_iff]
      simp
    rw [isError_eq_of_tokenize ht, Bool.or_eq_false_iff, hbare, hwf, hne, hend]
    simp only [List.any_eq_false, List.all_eq_true, Bool.not_eq_true', Bool.not_eq_false]
    tauto

/-- **The items of every pattern that tokenizes**: the expected items, followed
by `<<error_pattern>>` when the scanner stops bare. -/
theorem items_eq {p : List Char} {toks : List PatternToken} (h : tokenize p = some toks) :
    (LogFormatter.mk p).items
      = tokenItems toks ++ (if endsBare [] toks then [.string errorPattern] else []) := by
  have hs := scanPattern_scanned p
  rw [h] at hs
  obtain ⟨hvec, -⟩ := hs
  simp only [InitState.empty, List.nil_append] at hvec
  simp only [LogFormatter.items, LogFormatter.entries, hvec, tokenItems, List.map_append]
  by_cases hb : endsBare [] toks = true <;> simp [hb, buildItem, errorEntry]

/-- An accepted pattern has exactly the expected items. -/
theorem items_eq_tokenItems {p : List Char} {toks : List PatternToken}
    (h : tokenize p = some toks) (he : (LogFormatter.mk p).isError = false) :
    (LogFormatter.mk p).items = tokenItems toks := by
  have hbare : endsBare [] toks = false := by
    rw [isError_eq_of_tokenize h, Bool.or_eq_false_iff] at he
    exact he.1
  rw [items_eq h, hbare]
  simp

/-- **`%d{%H:%M}` is well formed, yet `LogFormatter` reports an error on it**,
and so it does on the empty pattern: the end check's last branch catches the
normal state with nothing pending. -/
theorem isError_trailing_argument :
    WellFormed "%d\x7b%H:%M\x7d".toList ∧ (LogFormatter.mk "%d\x7b%H:%M\x7d".toList).isError = true ∧
      WellFormed [] ∧ (LogFormatter.mk []).isError = true := by
  refine ⟨⟨[.item ['d'] (some "%H:%M".toList)], ?_, by decide⟩, by decide,
    ⟨[], tokenize_nil, rfl⟩, by decide⟩
  simp +decide [tokenize, afterName, closeArg, isBrace]

end Sylar
