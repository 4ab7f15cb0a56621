/-
# The codec of the log definitions

`LexicalCast<std::string, LogDefine>` and `LexicalCast<LogDefine, std::string>`
of `log.cc`, and through them the codec of `std::set<LogDefine>`, the type of
`g_log_defines`.  The decoder reads the fields of a YAML map in turn: `name`
and `level` are required, `formatter` and `appenders` optional, and at the
first field that fails it returns what it has read so far.  An appender needs
a known `type`, and a `file` when it is a `FileLogAppender`; an appender that
fails is skipped.  The encoder writes every field of the define, and of each
appender its type and those of `file`, `formatter` and `level` that differ
from their defaults.

So a `FileLogAppender` whose file is empty, which the decoder accepts from
`file: ""`, is written without its file and then skipped: the codec gives
back every decoded define less those appenders.
-/
import Sylar.LexicalCast
import Sylar.LogIniter

namespace Sylar

open Yaml LogIniter

namespace LogDefineCast

/-! ## The decoder -/

/-- **A scalar field** (the checks of `_read_name`, `_read_level`,
`_read_formatter` and of the fields of `_read_an_appender`): looked up in
`node`; when absent, it fails if `required` and leaves `x` as it is otherwise;
a node that is not a scalar fails; the text of a scalar is stored by `store`.
`none` when the lookup throws. -/
def readScalar {α : Type} (key : List Char) (required : Bool) (store : List Char → α → α) (x : α)
    (node : Node) : Option (Bool × α) := do
  let f ← node.lookup key
  if !f.isDefined then return (!required, x)
  match f with
  | .scalar s => return (true, store s x)
  | _ => return (false, x)

/-- `_read_name`. -/
def readName : LogDefine → Node → Option (Bool × LogDefine) :=
  readScalar "name".toList true fun s ld => { ld with name := s }

/-- `_read_level`. -/
def readLevel : LogDefine → Node → Option (Bool × LogDefine) :=
  readScalar "level".toList true fun s ld => { ld with level := LogLevel.fromString s }

/-- `_read_formatter`: a missing formatter is only warned about. -/
def readFormatter : LogDefine → Node → Option (Bool × LogDefine) :=
  readScalar "formatter".toList false fun s ld => { ld with formatter := s }

/-- The type of an appender, in `_read_an_appender`: required. -/
def readType : LogAppenderDefine → Node → Option (Bool × LogAppenderDefine) :=
  readScalar "type".toList true fun s lad => { lad with type := AppenderType.stringToType s }

/-- The file of an appender, in `_read_an_appender`: required of a
`FileLogAppender`, not read for the other types. -/
def readFile (lad : LogAppenderDefine) (node : Node) : Option (Bool × LogAppenderDefine) :=
  if lad.type = .typeFileLogAppender then
    readScalar "file".toList true (fun s lad => { lad with file := s }) lad node
  else pure (true, lad)

/-- The level of an appender, in `_read_an_appender`: a missing level is only
warned about. -/
def readAppenderLevel : LogAppenderDefine → Node → Option (Bool × LogAppenderDefine) :=
  readScalar "level".toList false fun s lad => { lad with level := LogLevel.fromString s }

/-- The formatter of an appender, in `_read_an_appender`: a missing formatter
is only warned about. -/
def readAppenderFormatter : LogAppenderDefine → Node → Option (Bool × LogAppenderDefine) :=
  readScalar "formatter".toList false fun s lad => { lad with formatter := s }

/-- **`_read_an_appender`**: `none` when a lookup throws, `some none` when it
returns false.  The type must be known. -/
def readAnAppender (appenderNode : Node) : Option (Option LogAppenderDefine) := do
  let (ok, lad) ← readType {} appenderNode
  if !ok || lad.type = .typeUnknow then return none
  let (ok, lad) ← readFile lad appenderNode
  if !ok then return none
  let (ok, lad) ← readAppenderLevel lad appenderNode
  if !ok then return none
  let (ok, lad) ← readAppenderFormatter lad appenderNode
  if !ok then return none
  return some lad

/-- **`_read_appenders`**: a missing `appenders` is only warned about and a
node that is not a sequence fails; otherwise each item, read through the
const `operator[]`, that `_read_an_appender` accepts is pushed, the others
skipped.  `decodeIndex` is the library's reading of a key as an index. -/
def readAppenders (decodeIndex : Node → Option Nat) (ld : LogDefine) (node : Node) :
    Option (Bool × LogDefine) := do
  let an ← node.lookup "appenders".toList
  if !an.isDefined then return (true, ld)
  match an with
  | .sequence _ =>
    let n ← an.size
    let ld ← (List.range n).foldlM (fun ld x => do
      let a ← an.get decodeIndex x
      match ← readAnAppender a with
      | some lad => pure { ld with appenders := ld.appenders ++ [lad] }
      | none => pure ld) ld
    return (true, ld)
  | _ => return (false, ld)

/-- **`LexicalCast<std::string, LogDefine>` on the loaded node**: the fields in
turn, and at the first that fails what has been read so far. -/
def fromNode (decodeIndex : Node → Option Nat) (node : Node) : Option LogDefine := do
  let (ok, ld) ← readName {} node
  if !ok then return ld
  let (ok, ld) ← readLevel ld node
  if !ok then return ld
  let (ok, ld) ← readFormatter ld node
  if !ok then return ld
  let (_, ld) ← readAppenders decodeIndex ld node
  return ld

/-- **`LexicalCast<std::string, LogDefine>`**: `none` when it throws. -/
def fromString (y : Lib) (v : List Char) : Option LogDefine := (y.load v).bind (fromNode y.decodeIndex)

/-! ## The encoder -/

/-- **The writes of one appender** into item `n` of the appenders node
(`appenders_node[n][key] = value`): the file, formatter and level when they
differ from their defaults, then the type.  `none` when one throws. -/
def writeAppender (decodeIndex : Node → Option Nat) (appendersNode : Node) (n : Nat) (a : LogAppenderDefine) :
    Option Node := do
  let an ← if a.file.isEmpty then pure appendersNode
    else appendersNode.modifyItem decodeIndex n (·.set "file".toList (.scalar a.file))
  let an ← if a.formatter.isEmpty then pure an
    else an.modifyItem decodeIndex n (·.set "formatter".toList (.scalar a.formatter))
  let an ← if a.level = .unknow then pure an
    else an.modifyItem decodeIndex n (·.set "level".toList (.scalar a.level.toString))
  an.modifyItem decodeIndex n (·.set "type".toList (.scalar (AppenderType.typeToString a.type)))

/-- **The node `LexicalCast<LogDefine, std::string>` builds**: `node[key] =
value` for the three scalar fields, the appenders written into a node that
starts null, which is assigned last.  `none` when a write throws, which none
does (`buildNode_eq`). -/
def buildNode (decodeIndex : Node → Option Nat) (ld : LogDefine) : Option Node := do
  let node ← Node.null.set "name".toList (.scalar ld.name)
  let node ← node.set "level".toList (.scalar ld.level.toString)
  let node ← node.set "formatter".toList (.scalar ld.formatter)
  let appendersNode ← (List.range ld.appenders.length).foldlM
    (fun an n => writeAppender decodeIndex an n (ld.appenders.getD n {})) Node.null
  node.set "appenders".toList appendersNode

/-! ### The encoder throws nothing -/

/-- **The fields the encoder writes of an appender**, with their values: its
file, formatter and level when they differ from their defaults, then its
type. -/
def appenderWrites (a : LogAppenderDefine) : List (List Char × Node) :=
  (if a.file.isEmpty then [] else [("file".toList, .scalar a.file)]) ++
    (if a.formatter.isEmpty then [] else [("formatter".toList, .scalar a.formatter)]) ++
    (if a.level = .unknow then [] else [("level".toList, .scalar a.level.toString)]) ++
    [("type".toList, .scalar (AppenderType.typeToString a.type))]

/-- **The item the encoder writes for an appender**: the map of its writes. -/
def appenderNode (a : LogAppenderDefine) : Node := .map ((appenderWrites a).map fun w => (.scalar w.1, w.2))

/-- **The writes of an appender are its fields in turn.** -/
theorem writeAppender_eq_foldlM (decodeIndex : Node → Option Nat) (an : Node) (n : Nat) (a : LogAppenderDefine) :
    writeAppender decodeIndex an n a =
      (appenderWrites a).foldlM (fun an w => an.modifyItem decodeIndex n (·.set w.1 w.2)) an := by
  unfold writeAppender appenderWrites
  split_ifs <;> simp

/-- An appender's fields are distinct. -/
theorem appenderWrites_pairwise (a : LogAppenderDefine) :
    (appenderWrites a).Pairwise fun u v => u.1 ≠ v.1 := by
  have hsub : List.Sublist ((appenderWrites a).map Prod.fst)
      ["file".toList, "formatter".toList, "level".toList, "type".toList] := by
    unfold appenderWrites
    split_ifs <;> simp
  have hnodup : ["file".toList, "formatter".toList, "level".toList, "type".toList].Nodup := by decide
  exact List.pairwise_map.mp (hsub.nodup hnodup)

/-- **The writes of an appender after the items of the appenders before
it** push its item. -/
theorem writeAppender_ofItems (decodeIndex : Node → Option Nat) {items : List Node}
    (h : ∀ x ∈ items, x.isDefined = true) (a : LogAppenderDefine) :
    writeAppender decodeIndex (Node.ofItems items) items.length a = some (.sequence (items ++ [appenderNode a])) := by
  -- the writes end with the type, so there is a first one
  obtain ⟨w, ws, hws⟩ : ∃ w ws, appenderWrites a = w :: ws := by
    refine List.exists_cons_of_ne_nil ?_
    rw [appenderWrites]
    exact List.append_ne_nil_of_right_ne_nil _ (List.cons_ne_nil _ _)
  have hv : ∀ x ∈ w :: ws, x.2.isValid = true := by
    rw [← hws]
    unfold appenderWrites
    split_ifs <;> simp [Node.isValid]
  rw [writeAppender_eq_foldlM, hws,
    Node.foldlM_modifyItem_ofItems h w ws hv (hws ▸ appenderWrites_pairwise a), appenderNode, hws]

theorem appendersNode_eq (decodeIndex : Node → Option Nat) (as : List LogAppenderDefine) :
    ∀ k ≤ as.length, (List.range k).foldlM (fun an n => writeAppender decodeIndex an n (as.getD n {}))
      Node.null = some (Node.ofItems ((as.take k).map appenderNode))
  | 0, _ => rfl
  | k + 1, hk => by
    have hdefs : ∀ x ∈ (as.take k).map appenderNode, x.isDefined = true := by
      intro x hx
      obtain ⟨a, -, rfl⟩ := List.mem_map.mp hx
      rfl
    have hw := writeAppender_ofItems decodeIndex hdefs (as.getD k {})
    have hlen : ((as.take k).map appenderNode).length = k := by simp; omega
    rw [hlen] at hw
    have htake : (as.take (k + 1)).map appenderNode =
        (as.take k).map appenderNode ++ [appenderNode (as.getD k {})] := by
      rw [List.take_add_one, List.getElem?_eq_getElem (by omega), Option.toList_some,
        List.map_append, List.map_singleton, List.getD_eq_getElem _ _ (by omega)]
    rw [List.range_succ, List.foldlM_append, appendersNode_eq decodeIndex as k (by omega), Option.bind_eq_bind,
      Option.bind_some, List.foldlM_cons, hw, htake]
    cases (as.take k).map appenderNode <;> rfl

/-- **The node of a define**: the map of its name, level and formatter, then
the items of its appenders. -/
theorem buildNode_eq (decodeIndex : Node → Option Nat) (ld : LogDefine) :
    buildNode decodeIndex ld = some (.map [(.scalar "name".toList, .scalar ld.name),
      (.scalar "level".toList, .scalar ld.level.toString), (.scalar "formatter".toList, .scalar ld.formatter),
      (.scalar "appenders".toList, Node.ofItems (ld.appenders.map appenderNode))]) := by
  have hvalid : (Node.ofItems (ld.appenders.map appenderNode)).isValid = true := by
    cases ld.appenders.map appenderNode <;> rfl
  -- each key is new to the map
  rw [buildNode, Node.set_null _ rfl, Option.bind_eq_bind, Option.bind_some,
    Node.set_map_absent (by simp [Node.keyIs]) rfl, Option.bind_some,
    Node.set_map_absent (by simp [Node.keyIs]) rfl, Option.bind_some,
    appendersNode_eq decodeIndex ld.appenders ld.appenders.length le_rfl, List.take_length, Option.bind_some,
    Node.set_map_absent (by simp [Node.keyIs]) hvalid]
  rfl

/-- **`LexicalCast<LogDefine, std::string>`** builds its node, which
`buildNode_eq` shows it always does. -/
def toNode (decodeIndex : Node → Option Nat) (ld : LogDefine) : Node :=
  (buildNode decodeIndex ld).get (by rw [buildNode_eq]; rfl)

/-- **`LexicalCast<LogDefine, std::string>`**: the node emitted. -/
def toString (y : Lib) (ld : LogDefine) : List Char := y.emit (toNode y.decodeIndex ld)

/-! ## The set of defines -/

/-- **`LogDefine::operator<`**: by name. -/
def nameLt (a b : LogDefine) : Bool := decide (a.name < b.name)

theorem nameLt_trans (a b c : LogDefine) (hab : nameLt a b = true) (hbc : nameLt b c = true) :
    nameLt a c = true := by
  simp only [nameLt, decide_eq_true_eq] at hab hbc ⊢
  exact lt_trans hab hbc

theorem nameLt_asymm : Container.Asymm nameLt := by
  intro a b h
  simp only [nameLt, decide_eq_true_eq, decide_eq_false_iff_not] at h ⊢
  exact lt_asymm h

/-- **`LexicalCast<std::string, std::set<LogDefine>>`**, whose result is
ordered by name. -/
def setFromString (y : Lib) (v : List Char) : Option LogDefineSet :=
  (stringToSet y nameLt (fromString y) v).pmap Subtype.mk fun _ h =>
    (stringToSet_sorted nameLt_trans h).imp fun hab => of_decide_eq_true hab

/-- **`LexicalCast<std::set<LogDefine>, std::string>`.** -/
def setToString (y : Lib) (S : LogDefineSet) : Option (List Char) :=
  Sylar.setToString y (fun ld => some (toString y ld)) S.val

/-! ## What the decoder gives -/

section Decoder

variable {α : Type}

/-- What a scalar field gives, by the node found under its key. -/
def scalarField (required : Bool) (store : List Char → α → α) (x : α) : Node → Bool × α
  | .zombie | .undefined => (!required, x)
  | .scalar s => (true, store s x)
  | _ => (false, x)

/-- **A scalar field reads the node under its key.** -/
theorem readScalar_eq (key : List Char) (required : Bool) (store : List Char → α → α) (x : α)
    (node : Node) : readScalar key required store x node = (node.lookup key).map (scalarField required store x) := by
  unfold readScalar
  cases node.lookup key with
  | none => rfl
  | some f => cases f <;> rfl

/-- **A scalar field keeps what its store keeps.** -/
theorem readScalar_preserves {P : α → Prop} {key : List Char} {required : Bool}
    {store : List Char → α → α} {x x' : α} {node : Node} {ok : Bool}
    (h : readScalar key required store x node = some (ok, x')) (hstore : ∀ s x, P x → P (store s x))
    (hx : P x) : P x' := by
  rw [readScalar_eq] at h
  obtain ⟨f, -, hf⟩ := Option.map_eq_some_iff.mp h
  cases f with
  | scalar s =>
    obtain ⟨-, rfl⟩ := Prod.mk.inj hf
    exact hstore s x hx
  | _ => obtain ⟨-, rfl⟩ := Prod.mk.inj hf; exact hx

end Decoder

/-- **What the decoder gives of an appender**: a known type, no file unless
it is a `FileLogAppender`, and a level that `LogLevel::FromString` gives. -/
structure AppenderDecoded (a : LogAppenderDefine) : Prop where
  type_ne : a.type ≠ .typeUnknow
  file_of_ne : a.type ≠ .typeFileLogAppender → a.file = []
  level_le : a.level.val ≤ 5

/-- **What the decoder gives of a define**: a level that `FromString` gives,
and appenders as above. -/
structure Decoded (ld : LogDefine) : Prop where
  level_le : ld.level.val ≤ 5
  appenders : ∀ a ∈ ld.appenders, AppenderDecoded a

theorem readType_fresh {node : Node} {ok : Bool} {lad : LogAppenderDefine}
    (h : readType {} node = some (ok, lad)) : lad.file = [] ∧ lad.level = .unknow :=
  readScalar_preserves (P := fun l : LogAppenderDefine => l.file = [] ∧ l.level = .unknow)
    h (fun _ _ hl => hl) ⟨rfl, rfl⟩

theorem readFile_keeps {node : Node} {ok : Bool} {lad lad' : LogAppenderDefine}
    (h : readFile lad node = some (ok, lad')) :
    lad'.type = lad.type ∧ lad'.level = lad.level ∧
      (lad.type ≠ .typeFileLogAppender → lad'.file = lad.file) := by
  unfold readFile at h
  split at h
  · rename_i hfile
    exact readScalar_preserves (P := fun l : LogAppenderDefine => l.type = lad.type ∧
      l.level = lad.level ∧ (lad.type ≠ .typeFileLogAppender → l.file = lad.file))
      h (fun _ _ hl => ⟨hl.1, hl.2.1, fun hne => absurd hfile hne⟩) ⟨rfl, rfl, fun _ => rfl⟩
  · obtain ⟨-, rfl⟩ := Prod.mk.inj (Option.some.inj h)
    exact ⟨rfl, rfl, fun _ => rfl⟩

theorem readAppenderLevel_keeps {node : Node} {ok : Bool} {lad lad' : LogAppenderDefine}
    (h : readAppenderLevel lad node = some (ok, lad')) :
    lad'.type = lad.type ∧ lad'.file = lad.file ∧ (lad.level.val ≤ 5 → lad'.level.val ≤ 5) :=
  readScalar_preserves (P := fun l : LogAppenderDefine => l.type = lad.type ∧ l.file = lad.file ∧
      (lad.level.val ≤ 5 → l.level.val ≤ 5))
    h (fun s _ hl => ⟨hl.1, hl.2.1, fun _ => LogLevel.fromString_val_le s⟩) ⟨rfl, rfl, id⟩

theorem readAppenderFormatter_keeps {node : Node} {ok : Bool} {lad lad' : LogAppenderDefine}
    (h : readAppenderFormatter lad node = some (ok, lad')) :
    lad'.type = lad.type ∧ lad'.file = lad.file ∧ lad'.level = lad.level :=
  readScalar_preserves (P := fun l : LogAppenderDefine => l.type = lad.type ∧ l.file = lad.file ∧
      l.level = lad.level) h (fun _ _ hl => hl) ⟨rfl, rfl, rfl⟩

/-- **The decoder's appenders have a known type, no file unless they are
files, and a level `FromString` gives.** -/
theorem readAnAppender_decoded {node : Node} {lad : LogAppenderDefine}
    (h : readAnAppender node = some (some lad)) : AppenderDecoded lad := by
  simp only [readAnAppender, Option.bind_eq_bind, Option.pure_def] at h
  -- the four field reads, each past its early return
  obtain ⟨⟨ok₁, lad₁⟩, h₁, h⟩ := Option.bind_eq_some_iff.mp h
  simp only at h
  split at h
  · simp at h
  rename_i hok₁
  obtain ⟨⟨ok₂, lad₂⟩, h₂, h⟩ := Option.bind_eq_some_iff.mp h
  simp only at h
  split at h
  · simp at h
  obtain ⟨⟨ok₃, lad₃⟩, h₃, h⟩ := Option.bind_eq_some_iff.mp h
  simp only at h
  split at h
  · simp at h
  obtain ⟨⟨ok₄, lad₄⟩, h₄, h⟩ := Option.bind_eq_some_iff.mp h
  simp only at h
  split at h
  · simp at h
  obtain rfl : lad₄ = lad := by simpa using h
  have htype : lad₁.type ≠ .typeUnknow := by
    simp only [Bool.or_eq_true, Bool.not_eq_eq_eq_not, Bool.not_true, decide_eq_true_eq, not_or] at hok₁
    exact hok₁.2
  obtain ⟨hfile₁, hlevel₁⟩ := readType_fresh h₁
  obtain ⟨htype₂, hlevel₂, hfile₂⟩ := readFile_keeps h₂
  obtain ⟨htype₃, hfile₃, hlevel₃⟩ := readAppenderLevel_keeps h₃
  obtain ⟨htype₄, hfile₄, hlevel₄⟩ := readAppenderFormatter_keeps h₄
  refine ⟨by rw [htype₄, htype₃, htype₂]; exact htype, fun hne => ?_, ?_⟩
  · rw [htype₄, htype₃, htype₂] at hne
    rw [hfile₄, hfile₃, hfile₂ hne, hfile₁]
  · rw [hlevel₄]
    exact hlevel₃ (by rw [hlevel₂, hlevel₁]; decide)

theorem readAppenders_decoded {decodeIndex : Node → Option Nat} {node : Node} {ok : Bool} {ld ld' : LogDefine}
    (h : readAppenders decodeIndex ld node = some (ok, ld')) (hld : Decoded ld) : Decoded ld' := by
  simp only [readAppenders, Option.bind_eq_bind, Option.pure_def] at h
  obtain ⟨an, -, h⟩ := Option.bind_eq_some_iff.mp h
  split at h
  · obtain ⟨-, rfl⟩ := Prod.mk.inj (Option.some.inj h)
    exact hld
  split at h
  · obtain ⟨n, -, h⟩ := Option.bind_eq_some_iff.mp h
    obtain ⟨ld'', hloop, h⟩ := Option.bind_eq_some_iff.mp h
    obtain ⟨-, rfl⟩ := Prod.mk.inj (Option.some.inj h)
    -- each step pushes an appender the reader accepted, or nothing
    refine Container.foldlM_preserves (fun b i b' hstep hb => ?_) _ ld ld'' hloop hld
    obtain ⟨a, -, hstep⟩ := Option.bind_eq_some_iff.mp hstep
    obtain ⟨r, hr, hstep⟩ := Option.bind_eq_some_iff.mp hstep
    cases r with
    | none => exact Option.some.inj hstep ▸ hb
    | some lad =>
      obtain rfl := Option.some.inj hstep
      refine ⟨hb.level_le, fun x hx => ?_⟩
      rcases List.mem_append.mp hx with hx | hx
      · exact hb.appenders x hx
      · rw [List.mem_singleton.mp hx]
        exact readAnAppender_decoded hr
  · obtain ⟨-, rfl⟩ := Prod.mk.inj (Option.some.inj h)
    exact hld

/-- **Every define the decoder gives is `Decoded`.** -/
theorem fromNode_decoded {decodeIndex : Node → Option Nat} {node : Node} {ld : LogDefine}
    (h : fromNode decodeIndex node = some ld) : Decoded ld := by
  have hname : ∀ {ok x x'}, readName x node = some (ok, x') → Decoded x → Decoded x' :=
    fun h hx => readScalar_preserves h (fun _ _ hx => ⟨hx.level_le, hx.appenders⟩) hx
  have hlevel : ∀ {ok x x'}, readLevel x node = some (ok, x') → Decoded x → Decoded x' :=
    fun h hx => readScalar_preserves h (fun s _ hx => ⟨LogLevel.fromString_val_le s, hx.appenders⟩) hx
  have hfmt : ∀ {ok x x'}, readFormatter x node = some (ok, x') → Decoded x → Decoded x' :=
    fun h hx => readScalar_preserves h (fun _ _ hx => ⟨hx.level_le, hx.appenders⟩) hx
  have h₀ : Decoded {} := ⟨Nat.zero_le 5, fun _ h => absurd h List.not_mem_nil⟩
  simp only [fromNode, Option.bind_eq_bind, Option.pure_def] at h
  -- each field read keeps the invariant, and an early return gives what is read
  obtain ⟨⟨ok₁, ld₁⟩, h₁, h⟩ := Option.bind_eq_some_iff.mp h
  have hd₁ := hname h₁ h₀
  simp only at h
  split at h
  · exact Option.some.inj h ▸ hd₁
  obtain ⟨⟨ok₂, ld₂⟩, h₂, h⟩ := Option.bind_eq_some_iff.mp h
  have hd₂ := hlevel h₂ hd₁
  simp only at h
  split at h
  · exact Option.some.inj h ▸ hd₂
  obtain ⟨⟨ok₃, ld₃⟩, h₃, h⟩ := Option.bind_eq_some_iff.mp h
  have hd₃ := hfmt h₃ hd₂
  simp only at h
  split at h
  · exact Option.some.inj h ▸ hd₃
  obtain ⟨⟨ok₄, ld₄⟩, h₄, h⟩ := Option.bind_eq_some_iff.mp h
  exact Option.some.inj h ▸ readAppenders_decoded h₄ hd₃

theorem fromString_decoded {y : Lib} {v : List Char} {ld : LogDefine} (h : fromString y v = some ld) :
    Decoded ld := by
  obtain ⟨node, -, h⟩ := Option.bind_eq_some_iff.mp h
  exact fromNode_decoded h

/-! ## What the encoder writes -/

/-- The fields of an appender's item. -/
theorem appenderNode_lookup (a : LogAppenderDefine) :
    (appenderNode a).lookup "type".toList = some (.scalar (AppenderType.typeToString a.type)) ∧
      (appenderNode a).lookup "file".toList =
        some (if a.file.isEmpty then .zombie else .scalar a.file) ∧
      (appenderNode a).lookup "level".toList =
        some (if a.level = .unknow then .zombie else .scalar a.level.toString) ∧
      (appenderNode a).lookup "formatter".toList =
        some (if a.formatter.isEmpty then .zombie else .scalar a.formatter) := by
  unfold appenderNode appenderWrites
  split_ifs <;> simp [Node.lookup, Node.keyIs]

/-! ## The round trip -/

/-- **Whether the decoder reads back the encoder's item of an appender**: all
but a `FileLogAppender` whose file is empty, which is written without its
file. -/
def survives (a : LogAppenderDefine) : Bool := !(a.type == .typeFileLogAppender && a.file.isEmpty)

/-- **What the codec gives back of a define**: the define less the appenders
that do not survive. -/
def survivors (ld : LogDefine) : LogDefine := { ld with appenders := ld.appenders.filter survives }

/-- The codec gives a define back exactly when all its appenders survive. -/
theorem survivors_eq_self_iff (ld : LogDefine) : survivors ld = ld ↔ ∀ a ∈ ld.appenders, survives a = true := by
  obtain ⟨name, level, formatter, appenders⟩ := ld
  simp [survivors, List.filter_eq_self]

theorem readAnAppender_appenderNode {a : LogAppenderDefine} (ha : AppenderDecoded a) :
    readAnAppender (appenderNode a) = some (if survives a then some a else none) := by
  obtain ⟨htype, hfile, hlevel, hfmt⟩ := appenderNode_lookup a
  have hst := AppenderType.stringToType_typeToString ha.type_ne
  have hlv := LogLevel.fromString_toString ha.level_le
  simp only [readAnAppender, readType, readFile, readAppenderLevel, readAppenderFormatter, readScalar_eq,
    htype, hfile, hlevel, hfmt, Option.map_some, scalarField, hst, Option.bind_eq_bind, Option.pure_def,
    Option.bind_some]
  obtain ⟨type, level, formatter, file⟩ := a
  -- the type decides whether the file is read; the defaults decide which fields were written
  cases type with
  | typeUnknow => exact absurd rfl ha.type_ne
  | typeFileLogAppender =>
    by_cases hf : file.isEmpty <;> by_cases hl : level = .unknow <;>
      by_cases hm : formatter.isEmpty <;> simp_all [survives]
  | typeStdoutLogAppender =>
    have hfile' : file = [] :=
      ha.file_of_ne (show AppenderType.typeStdoutLogAppender ≠ .typeFileLogAppender by decide)
    subst hfile'
    by_cases hl : level = .unknow <;> by_cases hm : formatter.isEmpty <;> simp_all [survives]

/-- The loop of `_read_appenders` over the encoder's items, for any
continuation that pushes what `_read_an_appender` returns. -/
theorem foldlM_readAnAppender {G : LogDefine → Option LogAppenderDefine → Option LogDefine}
    (hsome : ∀ ld lad, G ld (some lad) = some { ld with appenders := ld.appenders ++ [lad] })
    (hnone : ∀ ld, G ld none = some ld) :
    ∀ (as : List LogAppenderDefine) (ld : LogDefine), (∀ a ∈ as, AppenderDecoded a) →
      (as.map appenderNode).foldlM (fun ld n => (readAnAppender n).bind (G ld)) ld =
        some { ld with appenders := ld.appenders ++ as.filter survives }
  | [], ld, _ => by simp
  | a :: as, ld, h => by
    have ih := foldlM_readAnAppender hsome hnone as
    rw [List.map_cons, List.foldlM_cons, readAnAppender_appenderNode (h a List.mem_cons_self)]
    -- the item is pushed when it survives, skipped otherwise
    by_cases hs : survives a = true
    · simp [hs, hsome, ih _ fun b hb => h b (List.mem_cons_of_mem a hb)]
    · simp [hs, hnone, ih _ fun b hb => h b (List.mem_cons_of_mem a hb)]

theorem readAppenders_loop {G : LogDefine → Option LogAppenderDefine → Option LogDefine}
    (hsome : ∀ ld lad, G ld (some lad) = some { ld with appenders := ld.appenders ++ [lad] })
    (hnone : ∀ ld, G ld none = some ld) (as : List LogAppenderDefine) (ld : LogDefine)
    (has : ∀ a ∈ as, AppenderDecoded a) :
    (List.range (as.map appenderNode).length).foldlM
        (fun ld x => (readAnAppender ((as.map appenderNode).getD x .zombie)).bind (G ld)) ld =
      some { ld with appenders := ld.appenders ++ as.filter survives } := by
  rw [Container.foldlM_range_getD (fun ld n => (readAnAppender n).bind (G ld))]
  exact foldlM_readAnAppender hsome hnone as ld has

/-- **`_read_appenders` on the encoder's items** keeps the appenders that
survive, in order. -/
theorem readAppenders_appenderNodes (decodeIndex : Node → Option Nat) (ld : LogDefine) {node : Node}
    {as : List LogAppenderDefine} (has : ∀ a ∈ as, AppenderDecoded a)
    (hnode : node.lookup "appenders".toList = some (Node.ofItems (as.map appenderNode))) :
    (readAppenders decodeIndex ld node).map Prod.snd =
      some { ld with appenders := ld.appenders ++ as.filter survives } := by
  have hdefs : ∀ x ∈ as.map appenderNode, x.isDefined = true := by
    intro x hx
    obtain ⟨a, -, rfl⟩ := List.mem_map.mp hx
    rfl
  simp only [readAppenders, hnode, Option.bind_eq_bind, Option.pure_def, Option.bind_some,
    Node.size_ofItems hdefs]
  cases as with
  | nil => simp [Node.ofItems, Node.isDefined]
  | cons a as' =>
    -- a sequence: the loop over its indices is the loop over its items
    have hseq : Node.ofItems ((a :: as').map appenderNode) = .sequence ((a :: as').map appenderNode) :=
      rfl
    simp only [hseq, Node.isDefined, Bool.not_true, Bool.false_eq_true, if_false, Node.get_sequence,
      Option.bind_some]
    rw [readAppenders_loop ?_ ?_ _ ld has]
    · rfl
    · exact fun _ _ => rfl
    · exact fun _ => rfl

/-- The fields of the node of a define. -/
theorem toNode_lookup (decodeIndex : Node → Option Nat) (ld : LogDefine) :
    (toNode decodeIndex ld).lookup "name".toList = some (.scalar ld.name) ∧
      (toNode decodeIndex ld).lookup "level".toList = some (.scalar ld.level.toString) ∧
      (toNode decodeIndex ld).lookup "formatter".toList = some (.scalar ld.formatter) ∧
      (toNode decodeIndex ld).lookup "appenders".toList = some (Node.ofItems (ld.appenders.map appenderNode)) := by
  simp only [toNode, buildNode_eq, Option.get_some]
  simp [Node.lookup, Node.keyIs]

theorem toNode_isDefined (decodeIndex : Node → Option Nat) (ld : LogDefine) :
    (toNode decodeIndex ld).isDefined = true := by
  simp only [toNode, buildNode_eq, Option.get_some]
  rfl

/-- **The decoder reads back the encoder's node** of a decoded define, less
the appenders that do not survive. -/
theorem fromNode_toNode (decodeIndex : Node → Option Nat) {ld : LogDefine} (hld : Decoded ld) :
    fromNode decodeIndex (toNode decodeIndex ld) = some (survivors ld) := by
  obtain ⟨hname, hlevel, hfmt, happ⟩ := toNode_lookup decodeIndex ld
  have hlv := LogLevel.fromString_toString hld.level_le
  -- the appenders are read into the define of the three scalar fields
  obtain ⟨p, hp, hp₂⟩ := Option.map_eq_some_iff.mp
    (readAppenders_appenderNodes decodeIndex { ld with appenders := [] } hld.appenders happ)
  simp only [fromNode, readName, readLevel, readFormatter, readScalar_eq, hname, hlevel, hfmt,
    Option.map_some, scalarField, hlv, Option.bind_eq_bind, Option.pure_def, Option.bind_some,
    Bool.not_true, Bool.false_eq_true, if_false]
  rw [hp]
  simpa [survivors] using hp₂

/-- **The text of a define decodes to the define less the appenders that do
not survive**, for a library whose loader reads back what it emits. -/
theorem fromString_toString {y : Lib} (hy : y.LoadsEmitted) {ld : LogDefine} (hld : Decoded ld) :
    fromString y (toString y ld) = some (survivors ld) := by
  rw [fromString, toString, hy _ (toNode_isDefined y.decodeIndex ld), Option.bind_some,
    fromNode_toNode y.decodeIndex hld]

/-! ## The codec of the set, and reloading `logs` -/

/-- **What the set codec gives back of a set**: each define less the
appenders that do not survive; the names, and so the order, stay. -/
def survivorsSet (S : LogDefineSet) : LogDefineSet :=
  ⟨S.val.map survivors, List.pairwise_map.mpr S.property⟩

/-- **The set codec gives back the survivors** of a set of decoded defines. -/
theorem setFromString_setToString {y : Lib} (hy : y.LoadsEmitted) {S : LogDefineSet}
    (hS : ∀ ld ∈ S.val, Decoded ld) :
    ∃ s, setToString y S = some s ∧ setFromString y s = some (survivorsSet S) := by
  -- each define's text loads as its node, whose text decodes to its survivors
  have hitems : ∀ ld ∈ S.val, ∃ s n, some (toString y ld) = some s ∧ y.load s = some n ∧
      n.isDefined = true ∧ fromString y (y.emit n) = some (survivors ld) :=
    fun ld hld => ⟨_, toNode y.decodeIndex ld, rfl, hy _ (toNode_isDefined y.decodeIndex ld),
      toNode_isDefined y.decodeIndex ld, fromString_toString hy (hS ld hld)⟩
  obtain ⟨N, -, henc, hdec⟩ :=
    decodeItems_encodeItems_map hy survivors (Container.insertSorted nameLt) hitems
  -- the survivors keep the names, so each is inserted at the end
  have hsorted : (S.val.map survivors).Pairwise fun a b => nameLt a b = true :=
    List.pairwise_map.mpr (S.property.imp fun h => decide_eq_true h)
  have hins := Container.foldl_insert _ (fun _ _ => Container.insertSorted_of_lt nameLt_asymm) [] _ hsorted
  rw [List.nil_append] at hins
  refine ⟨y.emit N, henc, ?_⟩
  simp only [setFromString, stringToSet, hdec, hins]
  rfl

/-- **`g_log_defines->fromString(g_log_defines->toString())`** after a history
whose last set holds decoded defines assigns the survivors of that set: it is
the history one longer. -/
theorem reload_eq_assignAll {y : Lib} (hy : y.LoadsEmitted) (ss : List LogDefineSet)
    (hS : ∀ ld ∈ (assignAll ss).1.val.val, Decoded ld) :
    (assignAll ss).1.fromString (setFromString y) ((assignAll ss).1.toString (setToString y))
        (assignAll ss).2 =
      ((assignAll (ss ++ [survivorsSet (assignAll ss).1.val])).1,
        (assignAll (ss ++ [survivorsSet (assignAll ss).1.val])).2, true) := by
  obtain ⟨s, henc, hdec⟩ := setFromString_setToString hy hS
  rw [ConfigVar.toString, henc]
  simp only [ConfigVar.fromString, hdec, setValue_assignAll]

/-- **Reloading changes nothing and tells no listener** when every appender
of the set survives. -/
theorem reload_of_survive {y : Lib} (hy : y.LoadsEmitted) (ss : List LogDefineSet)
    (hS : ∀ ld ∈ (assignAll ss).1.val.val, Decoded ld)
    (hsurv : ∀ ld ∈ (assignAll ss).1.val.val, ∀ a ∈ ld.appenders, survives a = true) :
    (assignAll ss).1.fromString (setFromString y) ((assignAll ss).1.toString (setToString y))
        (assignAll ss).2 = ((assignAll ss).1, (assignAll ss).2, true) := by
  have hsame : survivorsSet (assignAll ss).1.val = (assignAll ss).1.val := by
    apply Subtype.ext
    refine (List.map_congr_left fun ld hld => ?_).trans (List.map_id _)
    exact (survivors_eq_self_iff ld).mpr (hsurv ld hld)
  rw [reload_eq_assignAll hy ss hS, assignAll_snoc, if_pos hsame]

/-! ## A define that does not come back -/

/-- A define as the decoder reads it: `x` at level `info`, whose one appender
is a `FileLogAppender` with `file: ""`. -/
def emptyFileDefineNode : Node :=
  .map [(.scalar "name".toList, .scalar "x".toList), (.scalar "level".toList, .scalar "info".toList),
    (.scalar "appenders".toList, .sequence [.map [(.scalar "type".toList, .scalar "FileLogAppender".toList),
      (.scalar "file".toList, .scalar [])]])]

/-- **A value of `logs`** holding that define. -/
def emptyFileNode : Node := .sequence [emptyFileDefineNode]

/-- The define the decoder reads from it. -/
def emptyFileDefine : LogDefine :=
  { name := "x".toList, level := .info, appenders := [{ type := .typeFileLogAppender }] }

/-- The value of `logs` the decoder reads from `emptyFileNode`. -/
def emptyFileSet : LogDefineSet := ⟨[emptyFileDefine], List.pairwise_singleton _ _⟩

/-- **A `FileLogAppender` with an empty file does not come back.**  The
decoder accepts `file: ""`; the encoder writes no empty file, and the decoder
then skips the appender.  So once `logs` holds the decoded define, reloading
it from its own text assigns the define without its appender, and the
reloader runs.  For any library that reads back what it emits. -/
theorem reload_drops_empty_file {y : Lib} (hy : y.LoadsEmitted) {v : List Char}
    (hload : y.load v = some emptyFileNode) :
    setFromString y v = some emptyFileSet ∧
      fromString y (toString y emptyFileDefine) = some { emptyFileDefine with appenders := [] } ∧
      (assignAll [emptyFileSet]).1.fromString (setFromString y)
          ((assignAll [emptyFileSet]).1.toString (setToString y)) (assignAll [emptyFileSet]).2 =
        ({ (assignAll [emptyFileSet]).1 with val := survivorsSet emptyFileSet },
          onLoggerConfChanged emptyFileSet (survivorsSet emptyFileSet) (assignAll [emptyFileSet]).2, true) ∧
      survivorsSet emptyFileSet ≠ emptyFileSet := by
  have hitem : fromString y (y.emit emptyFileDefineNode) = some emptyFileDefine := by
    rw [fromString, hy _ rfl, Option.bind_some]
    rfl
  -- the decoder reads the one item of the sequence, which it leaves in place
  have hset : setFromString y v = some emptyFileSet := by
    simp only [setFromString, stringToSet, decodeItems, hload, Option.bind_eq_bind, Option.bind_some,
      show emptyFileNode.size = some 1 from rfl, List.range_one, List.foldlM_cons, List.foldlM_nil,
      show emptyFileNode.index y.decodeIndex 0 = some (emptyFileDefineNode, emptyFileNode) from rfl, hitem]
    rfl
  have hdecoded : Decoded emptyFileDefine := fromString_decoded hitem
  have hne : survivorsSet emptyFileSet ≠ emptyFileSet := by decide
  have hval : (assignAll [emptyFileSet]).1.val = emptyFileSet := assignAll_val [] emptyFileSet
  refine ⟨hset, fromString_toString hy hdecoded, ?_, hne⟩
  -- the reload assigns the survivors, which differ: the listener runs
  have hS : ∀ ld ∈ (assignAll [emptyFileSet]).1.val.val, Decoded ld := by
    rw [hval]
    intro ld hld
    rw [List.mem_singleton.mp hld]
    exact hdecoded
  rw [reload_eq_assignAll hy [emptyFileSet] hS, assignAll_snoc, hval, if_neg hne]

theorem reload_drops_empty_file_codeLib :
    codeLib.LoadsEmitted ∧ codeLib.load (codeLib.emit emptyFileNode) = some emptyFileNode ∧
      setFromString codeLib (codeLib.emit emptyFileNode) = some emptyFileSet ∧
      fromString codeLib (toString codeLib emptyFileDefine) = some { emptyFileDefine with appenders := [] } ∧
      (assignAll [emptyFileSet]).1.fromString (setFromString codeLib)
          ((assignAll [emptyFileSet]).1.toString (setToString codeLib)) (assignAll [emptyFileSet]).2 =
        ({ (assignAll [emptyFileSet]).1 with val := survivorsSet emptyFileSet },
          onLoggerConfChanged emptyFileSet (survivorsSet emptyFileSet) (assignAll [emptyFileSet]).2, true) ∧
      survivorsSet emptyFileSet ≠ emptyFileSet :=
  have hload := codeLib_loadsEmitted emptyFileNode rfl
  ⟨codeLib_loadsEmitted, hload, reload_drops_empty_file codeLib_loadsEmitted hload⟩

end LogDefineCast

end Sylar
