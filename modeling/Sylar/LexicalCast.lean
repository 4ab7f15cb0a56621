/-
# LexicalCast

The codecs between config values and text of `config.h`, `LexicalCast<F, T>`.
For the leaf types `int`, `uint32_t` and `std::string` it is
`boost::lexical_cast`: a parameter here (`CastLib`), except on strings, where
it is the identity.  For `std::vector`, `std::list`, `std::set`,
`std::unordered_set`, `std::map<std::string, T>` and
`std::unordered_map<std::string, T>` it goes through YAML: the decoder loads
the text, emits each item again and decodes that text; the encoder loads the
text of each item as a YAML document, builds a node of the loaded nodes and
emits it.  The YAML library is a parameter too (`Yaml.Lib`).

The types are the terms of `ConfType`, nested to any depth, and the two
directions are `ConfType.fromStr` and `ConfType.toStr`, the default `FromStr`
and `ToStr` of a `ConfigVar`.  Since the encoder loads the text of every leaf
as a document, a string such as `""`, `"~"` or `"[x]"` inside a container
comes back as another node.  The round trip holds for the values whose
leaves inside containers are plain scalars, and fails for
`std::vector<std::string>{""}`.
-/
import Mathlib.Data.Nat.Digits.Defs
import Sylar.ConfigVar
import Sylar.Container
import Sylar.Yaml

namespace Sylar

open Yaml

/-- **`std::string`'s `<`**: lexicographic by character. -/
def stringLt : List Char → List Char → Bool := Container.lexLt fun a b => decide (a < b)

theorem stringLt_asymm : Container.Asymm stringLt :=
  Container.lexLt_asymm fun a b h => by
    simp only [decide_eq_true_eq, decide_eq_false_iff_not] at h ⊢
    exact Char.lt_asymm h

/-! ## The container codecs -/

section Codecs

variable (y : Lib) {α : Type}

/-- **The decoder of the sequence containers**: load the text; for each index
below the node's size, read the item through the non-const `operator[]` (the
loaded node is not const), emit it and decode that text; `insert` the result.
`none` when loading, indexing or the decoding of an item throws.  The loop
tests `i < node.size()` before each item; reading an index below the size
leaves the size as it is (`Node.size_index`), so the bound is the size of the
loaded node. -/
def decodeItems (dec : List Char → Option α) (insert : α → List α → List α) (v : List Char) :
    Option (List α) := do
  let node ← y.load v
  let n ← node.size
  let r ← (List.range n).foldlM (fun (r : List α × Node) i => do
    let (item, node) ← r.2.index y.decodeIndex i
    let x ← dec (y.emit item)
    pure (insert x r.1, node)) ([], node)
  pure r.1

/-- **The encoder of the sequence containers**: the text of each item loaded
as a YAML document and pushed onto a node that starts null; the node
emitted. -/
def encodeItems (enc : α → Option (List Char)) (v : List α) : Option (List Char) := do
  let nodes ← v.mapM fun i => do
    let s ← enc i
    y.load s
  pure (y.emit (Node.ofItems nodes))

/-- **The decoder of the maps**: load the text; for each entry the node
iterates over, the decoding of the emitted value under the key's scalar
text, inserted. -/
def decodeEntries (dec : List Char → Option α)
    (insert : List Char × α → List (List Char × α) → List (List Char × α)) (v : List Char) :
    Option (List (List Char × α)) := do
  let node ← y.load v
  node.pairs.foldlM (fun vec it => do
    let x ← dec (y.emit it.2)
    let k ← it.1.scalarText
    pure (insert (k, x) vec)) []

/-- **The encoder of the maps**: `node[key] = YAML::Load(text of the value)`
for each entry, on a node that starts null; the node emitted. -/
def encodeEntries (enc : α → Option (List Char)) (v : List (List Char × α)) :
    Option (List Char) := do
  let node ← v.foldlM (fun node i => do
    let s ← enc i.2
    let n ← y.load s
    node.set i.1 n) Node.null
  pure (y.emit node)

/-- `LexicalCast<std::string, std::vector<T>>`: `push_back`. -/
def stringToVector (dec : List Char → Option α) : List Char → Option (List α) :=
  decodeItems y dec fun x vec => vec ++ [x]

/-- `LexicalCast<std::vector<T>, std::string>`. -/
def vectorToString (enc : α → Option (List Char)) : List α → Option (List Char) :=
  encodeItems y enc

/-- `LexicalCast<std::string, std::list<T>>`: `push_back`. -/
def stringToList (dec : List Char → Option α) : List Char → Option (List α) :=
  decodeItems y dec fun x vec => vec ++ [x]

/-- `LexicalCast<std::list<T>, std::string>`. -/
def listToString (enc : α → Option (List Char)) : List α → Option (List Char) :=
  encodeItems y enc

/-- `LexicalCast<std::string, std::set<T>>`: `insert` by `T`'s `<`. -/
def stringToSet (lt : α → α → Bool) (dec : List Char → Option α) : List Char → Option (List α) :=
  decodeItems y dec (Container.insertSorted lt)

/-- `LexicalCast<std::set<T>, std::string>`. -/
def setToString (enc : α → Option (List Char)) : List α → Option (List Char) :=
  encodeItems y enc

/-- `LexicalCast<std::string, std::unordered_set<T>>`: `insert` by `T`'s `==`. -/
def stringToUnorderedSet (eq : α → α → Bool) (dec : List Char → Option α) :
    List Char → Option (List α) :=
  decodeItems y dec (Container.insertNew eq)

/-- `LexicalCast<std::unordered_set<T>, std::string>`. -/
def unorderedSetToString (enc : α → Option (List Char)) : List α → Option (List Char) :=
  encodeItems y enc

/-- `LexicalCast<std::string, std::map<std::string, T>>`: `insert` by key
order, so the first entry of a key stays. -/
def stringToMap (dec : List Char → Option α) : List Char → Option (List (List Char × α)) :=
  decodeEntries y dec (Container.insertSorted fun a b => stringLt a.1 b.1)

/-- `LexicalCast<std::map<std::string, T>, std::string>`. -/
def mapToString (enc : α → Option (List Char)) : List (List Char × α) → Option (List Char) :=
  encodeEntries y enc

/-- `LexicalCast<std::string, std::unordered_map<std::string, T>>`: `insert`
by key, so the first entry of a key stays. -/
def stringToUnorderedMap (dec : List Char → Option α) :
    List Char → Option (List (List Char × α)) :=
  decodeEntries y dec (Container.insertNew fun a b => a.1 == b.1)

/-- `LexicalCast<std::unordered_map<std::string, T>, std::string>`. -/
def unorderedMapToString (enc : α → Option (List Char)) :
    List (List Char × α) → Option (List Char) :=
  encodeEntries y enc

/-- **An item that survives the container codecs**: its text, loaded as a
document, gives a defined node whose emitted text decodes back to the item. -/
def ItemCodec (enc : α → Option (List Char)) (dec : List Char → Option α) (x : α) : Prop :=
  ∃ s n, enc x = some s ∧ y.load s = some n ∧ n.isDefined = true ∧ dec (y.emit n) = some x

/-- **A value that round-trips through an emitted node**: its text is what the
emitter writes for a defined node, and that text decodes back to it. -/
def RoundTrips {β : Type} (enc : β → Option (List Char)) (dec : List Char → Option β) (v : β) :
    Prop :=
  ∃ N : Node, N.isDefined = true ∧ enc v = some (y.emit N) ∧ dec (y.emit N) = some v

end Codecs

/-! ## Round trips of the container codecs -/

section CodecRoundTrip

variable {y : Lib} {α : Type} {enc : α → Option (List Char)} {dec : List Char → Option α}

/-- A leaf whose text is a plain scalar survives. -/
theorem itemCodec_of_plain {x : α} {s : List Char} (henc : enc x = some s) (hp : y.Plain s)
    (hdec : dec s = some x) : ItemCodec y enc dec x :=
  ⟨s, .scalar s, henc, hp.1, rfl, by rw [hp.2]; exact hdec⟩

/-- A value that round-trips through an emitted node survives. -/
theorem itemCodec_of_roundTrips (hy : y.LoadsEmitted) {x : α} (h : RoundTrips y enc dec x) :
    ItemCodec y enc dec x := by
  obtain ⟨N, hN, henc, hdec⟩ := h
  exact ⟨y.emit N, N, henc, hy N hN, hN, hdec⟩

/-- **A loop whose state holds a node that each step leaves as it is** is
the loop on the rest of its state. -/
theorem foldlM_pair_const {γ ι : Type} {step : γ × Node → ι → Option (γ × Node)} {g : γ → ι → Option γ}
    {N : Node} :
    ∀ (is : List ι), (∀ i ∈ is, ∀ b, step (b, N) i = (g b i).map fun b' => (b', N)) → ∀ b : γ,
      is.foldlM step (b, N) = (is.foldlM g b).map fun b' => (b', N)
  | [], _, _ => rfl
  | i :: is, h, b => by
    rw [List.foldlM_cons, List.foldlM_cons, h i List.mem_cons_self]
    cases g b i with
    | none => rfl
    | some b' => exact foldlM_pair_const is (fun j hj => h j (List.mem_cons_of_mem i hj)) b'

/-- **The encoder's nodes, and the decoder's loop over them**, for items whose
text, loaded as a document and emitted again, decodes to `g` of the item. -/
theorem items_of_decodes (g : α → α) (insert : α → List α → List α) :
    ∀ (xs acc : List α),
      (∀ x ∈ xs, ∃ s n, enc x = some s ∧ y.load s = some n ∧ n.isDefined = true ∧
        dec (y.emit n) = some (g x)) →
      ∃ nodes : List Node, (xs.mapM fun i => (enc i).bind fun s => y.load s) = some nodes ∧
        (∀ n ∈ nodes, n.isDefined = true) ∧
        nodes.foldlM (fun vec n => (dec (y.emit n)).bind fun x => some (insert x vec)) acc =
          some ((xs.map g).foldl (fun vec x => insert x vec) acc)
  | [], _, _ => ⟨[], rfl, fun _ h => absurd h List.not_mem_nil, rfl⟩
  | x :: xs, acc, h => by
    obtain ⟨s, n, hs, hn, hdef, hx⟩ := h x List.mem_cons_self
    obtain ⟨nodes, hmap, hdefs, hfold⟩ :=
      items_of_decodes g insert xs (insert (g x) acc) fun z hz => h z (List.mem_cons_of_mem x hz)
    refine ⟨n :: nodes, ?_, List.forall_mem_cons.mpr ⟨hdef, hdefs⟩, ?_⟩
    · simp [List.mapM_cons, hs, hn, hmap]
    · simp [List.foldlM_cons, hx, hfold]

/-- **The decoder's loop over a sequence of defined items** reads each item
in place: it is the loop over the items. -/
theorem decodeItems_ofItems {dec : List Char → Option α} {insert : α → List α → List α}
    (hy : y.LoadsEmitted) {nodes : List Node} (hdefs : ∀ n ∈ nodes, n.isDefined = true) :
    decodeItems y dec insert (y.emit (Node.ofItems nodes)) =
      nodes.foldlM (fun vec n => (dec (y.emit n)).bind fun x => some (insert x vec)) [] := by
  have hN : (Node.ofItems nodes).isDefined = true := by cases nodes <;> rfl
  simp only [decodeItems, hy _ hN, Option.bind_eq_bind, Option.bind_some, Node.size_ofItems hdefs]
  -- each index below the length reads its item and leaves the node as it is
  have hrange := Container.foldlM_range_getD (fun vec n => (dec (y.emit n)).bind fun x => some (insert x vec))
    nodes Node.zombie []
  rw [foldlM_pair_const (g := fun vec i => (dec (y.emit (nodes.getD i .zombie))).bind fun x => some (insert x vec))
    _ ?_ [], hrange]
  · cases nodes.foldlM (fun vec n => (dec (y.emit n)).bind fun x => some (insert x vec)) [] <;> rfl
  · intro i hi vec
    have hlt : i < nodes.length := List.mem_range.mp hi
    cases nodes with
    | nil => exact absurd hlt (Nat.not_lt_zero _)
    | cons n ns =>
      simp only [show Node.ofItems (n :: ns) = .sequence (n :: ns) from rfl, Node.index_sequence hlt hdefs,
        Option.bind_some]
      cases dec (y.emit ((n :: ns).getD i .zombie)) <;> rfl

/-- **The sequence codecs map each item to what its text decodes to**, up to
the insertions of the decoder. -/
theorem decodeItems_encodeItems_map (hy : y.LoadsEmitted) (g : α → α) (insert : α → List α → List α)
    {xs : List α} (h : ∀ x ∈ xs, ∃ s n, enc x = some s ∧ y.load s = some n ∧ n.isDefined = true ∧
      dec (y.emit n) = some (g x)) :
    ∃ N : Node, N.isDefined = true ∧ encodeItems y enc xs = some (y.emit N) ∧
      decodeItems y dec insert (y.emit N) = some ((xs.map g).foldl (fun vec x => insert x vec) []) := by
  obtain ⟨nodes, hmap, hdefs, hfold⟩ := items_of_decodes g insert xs [] h
  have hN : (Node.ofItems nodes).isDefined = true := by cases nodes <;> rfl
  refine ⟨Node.ofItems nodes, hN, by simp [encodeItems, hmap], ?_⟩
  rw [decodeItems_ofItems hy hdefs, hfold]

/-- **The sequence codecs round-trip on surviving items**, up to the
insertions of the decoder. -/
theorem decodeItems_encodeItems (hy : y.LoadsEmitted) (insert : α → List α → List α) {xs : List α}
    (h : ∀ x ∈ xs, ItemCodec y enc dec x) :
    ∃ N : Node, N.isDefined = true ∧ encodeItems y enc xs = some (y.emit N) ∧
      decodeItems y dec insert (y.emit N) = some (xs.foldl (fun vec x => insert x vec) []) := by
  simpa using decodeItems_encodeItems_map hy id insert h

/-- **The encoder's nodes for the values of surviving entries, and the
decoder's loop over them**: the encoder assigns each key the node loaded from
the text of its value. -/
theorem entries_of_itemCodec (insert : List Char × α → List (List Char × α) → List (List Char × α)) :
    ∀ (es acc : List (List Char × α)), (∀ e ∈ es, ItemCodec y enc dec e.2) →
      ∃ nodes : List (List Char × Node),
        nodes.map Prod.fst = es.map Prod.fst ∧ (∀ e ∈ nodes, e.2.isDefined = true) ∧
        (∀ node₀ : Node, es.foldlM (fun node i => (enc i.2).bind fun s =>
            (y.load s).bind fun n => node.set i.1 n) node₀ =
          nodes.foldlM (fun node e => node.set e.1 e.2) node₀) ∧
        (nodes.map fun e => (Node.scalar e.1, e.2)).foldlM (fun vec it =>
            (dec (y.emit it.2)).bind fun x => it.1.scalarText.bind fun k => some (insert (k, x) vec)) acc =
          some (es.foldl (fun vec e => insert e vec) acc)
  | [], _, _ => ⟨[], rfl, fun _ h => absurd h List.not_mem_nil, fun _ => rfl, rfl⟩
  | e :: es, acc, h => by
    obtain ⟨s, n, hs, hn, hdef, hx⟩ := h e List.mem_cons_self
    obtain ⟨nodes, hkeys, hdefs, hbuild, hfold⟩ :=
      entries_of_itemCodec insert es (insert e acc) fun z hz => h z (List.mem_cons_of_mem e hz)
    refine ⟨(e.1, n) :: nodes, by simp [hkeys], List.forall_mem_cons.mpr ⟨hdef, hdefs⟩, fun node₀ => ?_, ?_⟩
    · -- the first entry is assigned the loaded node, then the rest as before
      simp only [List.foldlM_cons, Option.bind_eq_bind, hs, hn, Option.bind_some]
      cases node₀.set e.1 n with
      | none => rfl
      | some node => exact hbuild node
    · simp [List.foldlM_cons, hx, hfold]

/-- **The map codecs round-trip on surviving values with distinct keys**, up
to the insertions of the decoder. -/
theorem decodeEntries_encodeEntries (hy : y.LoadsEmitted)
    (insert : List Char × α → List (List Char × α) → List (List Char × α)) {es : List (List Char × α)}
    (hk : es.Pairwise fun a b => a.1 ≠ b.1) (h : ∀ e ∈ es, ItemCodec y enc dec e.2) :
    ∃ N : Node, N.isDefined = true ∧ encodeEntries y enc es = some (y.emit N) ∧
      decodeEntries y dec insert (y.emit N) = some (es.foldl (fun vec e => insert e vec) []) := by
  obtain ⟨nodes, hkeys, hdefs, hbuild, hfold⟩ := entries_of_itemCodec insert es [] h
  have hN : (Node.ofEntries nodes).isDefined = true := by cases nodes <;> rfl
  -- the keys stay distinct, so each assignment adds an entry
  have hk' : nodes.Pairwise fun a b => a.1 ≠ b.1 := by
    have hmap : (nodes.map Prod.fst).Pairwise (· ≠ ·) := by
      rw [hkeys, List.pairwise_map]
      exact hk
    exact List.pairwise_map.mp hmap
  have hset := Node.foldlM_set_null [] nodes (by simpa using hk')
    (fun e he => Node.isValid_of_isDefined (hdefs e (by simpa using he)))
  refine ⟨Node.ofEntries nodes, hN, ?_, ?_⟩
  · simp only [encodeEntries, Option.bind_eq_bind]
    rw [show Node.null = Node.ofEntries [] from rfl, hbuild, hset]
    rfl
  · simp only [decodeEntries, hy _ hN, Option.bind_eq_bind, Option.pure_def, Option.bind_some,
      Node.pairs_ofEntries hdefs]
    exact hfold

theorem vector_roundTrips (hy : y.LoadsEmitted) {xs : List α} (h : ∀ x ∈ xs, ItemCodec y enc dec x) :
    RoundTrips y (vectorToString y enc) (stringToVector y dec) xs := by
  obtain ⟨N, hN, henc, hdec⟩ := decodeItems_encodeItems hy (fun x vec => vec ++ [x]) h
  refine ⟨N, hN, henc, ?_⟩
  rw [stringToVector, hdec, Container.foldl_insert (R := fun _ _ => True) _ (fun _ _ _ => rfl) [] xs
    (List.pairwise_of_forall fun _ _ => trivial)]
  rfl

theorem list_roundTrips (hy : y.LoadsEmitted) {xs : List α} (h : ∀ x ∈ xs, ItemCodec y enc dec x) :
    RoundTrips y (listToString y enc) (stringToList y dec) xs :=
  vector_roundTrips hy h

theorem set_roundTrips (hy : y.LoadsEmitted) {lt : α → α → Bool} (hlt : Container.Asymm lt)
    {xs : List α} (hs : xs.Pairwise fun a b => lt a b = true) (h : ∀ x ∈ xs, ItemCodec y enc dec x) :
    RoundTrips y (setToString y enc) (stringToSet y lt dec) xs := by
  obtain ⟨N, hN, henc, hdec⟩ := decodeItems_encodeItems hy (Container.insertSorted lt) h
  refine ⟨N, hN, henc, ?_⟩
  -- the items come in increasing order, so each goes at the end
  rw [stringToSet, hdec, Container.foldl_insert _ (fun _ _ => Container.insertSorted_of_lt hlt) [] xs hs]
  rfl

theorem unorderedSet_roundTrips (hy : y.LoadsEmitted) {eq : α → α → Bool} {xs : List α}
    (hs : xs.Pairwise fun a b => eq a b = false) (h : ∀ x ∈ xs, ItemCodec y enc dec x) :
    RoundTrips y (unorderedSetToString y enc) (stringToUnorderedSet y eq dec) xs := by
  obtain ⟨N, hN, henc, hdec⟩ := decodeItems_encodeItems hy (Container.insertNew eq) h
  refine ⟨N, hN, henc, ?_⟩
  rw [stringToUnorderedSet, hdec, Container.foldl_insert _ (fun _ _ => Container.insertNew_of_ne) [] xs hs]
  rfl

theorem map_roundTrips (hy : y.LoadsEmitted) {es : List (List Char × α)}
    (hs : es.Pairwise fun a b => stringLt a.1 b.1 = true) (h : ∀ e ∈ es, ItemCodec y enc dec e.2) :
    RoundTrips y (mapToString y enc) (stringToMap y dec) es := by
  -- ordered keys are distinct
  have hk : es.Pairwise fun a b => a.1 ≠ b.1 := hs.imp fun {a b} hab heq => by
    rw [heq] at hab
    exact absurd ((stringLt_asymm _ _ hab).symm.trans hab) Bool.false_ne_true
  obtain ⟨N, hN, henc, hdec⟩ :=
    decodeEntries_encodeEntries hy (Container.insertSorted fun a b => stringLt a.1 b.1) hk h
  refine ⟨N, hN, henc, ?_⟩
  have hlt : Container.Asymm fun (a b : List Char × α) => stringLt a.1 b.1 :=
    fun a b => stringLt_asymm a.1 b.1
  rw [stringToMap, hdec, Container.foldl_insert _ (fun _ _ => Container.insertSorted_of_lt hlt) [] es hs]
  rfl

theorem unorderedMap_roundTrips (hy : y.LoadsEmitted) {es : List (List Char × α)}
    (hs : es.Pairwise fun a b => a.1 ≠ b.1) (h : ∀ e ∈ es, ItemCodec y enc dec e.2) :
    RoundTrips y (unorderedMapToString y enc) (stringToUnorderedMap y dec) es := by
  obtain ⟨N, hN, henc, hdec⟩ := decodeEntries_encodeEntries hy (Container.insertNew fun a b => a.1 == b.1) hs h
  refine ⟨N, hN, henc, ?_⟩
  have hs' : es.Pairwise fun a b => (a.1 == b.1) = false :=
    hs.imp fun hne => beq_eq_false_iff_ne.mpr hne
  rw [stringToUnorderedMap, hdec, Container.foldl_insert _ (fun _ _ => Container.insertNew_of_ne) [] es hs']
  rfl

/-- **What the sequence decoder gives** is its insertions of some items, in
order. -/
theorem decodeItems_eq_foldl {insert : α → List α → List α} {v : List Char} {l : List α}
    (h : decodeItems y dec insert v = some l) : ∃ xs : List α, l = xs.foldl (fun acc x => insert x acc) [] := by
  simp only [decodeItems, Option.bind_eq_bind, Option.pure_def] at h
  obtain ⟨node, -, h⟩ := Option.bind_eq_some_iff.mp h
  obtain ⟨n, -, h⟩ := Option.bind_eq_some_iff.mp h
  obtain ⟨r, hr, h⟩ := Option.bind_eq_some_iff.mp h
  obtain rfl := Option.some.inj h
  refine Container.foldlM_preserves (P := fun r : List α × Node =>
    ∃ xs : List α, r.1 = xs.foldl (fun acc x => insert x acc) []) (fun b i b' hstep hb => ?_) _ _ r hr ⟨[], rfl⟩
  -- one step: an item indexed, decoded and inserted
  obtain ⟨xs, hxs⟩ := hb
  obtain ⟨p, -, hstep⟩ := Option.bind_eq_some_iff.mp hstep
  obtain ⟨x, -, hstep⟩ := Option.bind_eq_some_iff.mp hstep
  obtain rfl := Option.some.inj hstep
  exact ⟨xs ++ [x], by rw [List.foldl_append, ← hxs]; rfl⟩

/-- **The set decoder gives an ordered list**, for a transitive `<`. -/
theorem stringToSet_sorted {lt : α → α → Bool}
    (htrans : ∀ a b c, lt a b = true → lt b c = true → lt a c = true) {v : List Char} {l : List α}
    (h : stringToSet y lt dec v = some l) : l.Pairwise fun a b => lt a b = true := by
  obtain ⟨xs, rfl⟩ := decodeItems_eq_foldl h
  exact Container.foldl_insertSorted_pairwise htrans xs [] List.Pairwise.nil

end CodecRoundTrip

/-! ## The config types -/

/-- **`boost::lexical_cast` on the integer leaves**, which is not in the
repository: the text of an `int` and of a `uint32_t`, and back (`none` when it
throws `bad_lexical_cast`).  On `std::string` it is the identity. -/
structure CastLib where
  intToString : Int32 → List Char
  stringToInt : List Char → Option Int32
  uint32ToString : UInt32 → List Char
  stringToUint32 : List Char → Option UInt32

/-- **The integer casts round-trip**, as boost documents of them. -/
structure CastLib.RoundTrips (c : CastLib) : Prop where
  int : ∀ i, c.stringToInt (c.intToString i) = some i
  uint32 : ∀ u, c.stringToUint32 (c.uint32ToString u) = some u

/-- **The config types**: the leaves `int`, `uint32_t` and `std::string`, and
the six containers over any of them, the maps keyed by `std::string`.  A
`std::set` of a type without `<` and a `std::unordered_set` of a type without
`std::hash` do not compile; the model gives them the comparisons below, and
its results hold of them too. -/
inductive ConfType
  | int
  | uint32
  | string
  | vector (t : ConfType)
  | list (t : ConfType)
  | set (t : ConfType)
  | unorderedSet (t : ConfType)
  | map (t : ConfType)
  | unorderedMap (t : ConfType)
  deriving DecidableEq, Repr

namespace ConfType

/-- **The values of a type**: a container is the list of its elements in
iteration order, those of a map being its key-value pairs. -/
def Val : ConfType → Type
  | int => Int32
  | uint32 => UInt32
  | string => List Char
  | vector t | list t | set t | unorderedSet t => List t.Val
  | map t | unorderedMap t => List (List Char × t.Val)

/-- **`operator<`**: of the integers and strings, and lexicographic for the
sequences, `std::set` and `std::map`.  The unordered containers have none. -/
def lt : (t : ConfType) → t.Val → t.Val → Bool
  | int => fun (a b : Int32) => decide (a.toInt < b.toInt)
  | uint32 => fun (a b : UInt32) => decide (a.toNat < b.toNat)
  | string => stringLt
  | vector t | list t | set t => Container.lexLt t.lt
  | map t => Container.lexLt (Container.pairLt stringLt t.lt)
  | unorderedSet _ | unorderedMap _ => fun _ _ => false

/-- **`operator==`**: of the integers and strings; element by element for the
sequences, `std::set` and `std::map`; for the unordered containers, the same
elements in any order. -/
def beq : (t : ConfType) → t.Val → t.Val → Bool
  | int => fun (a b : Int32) => decide (a = b)
  | uint32 => fun (a b : UInt32) => decide (a = b)
  | string => fun (a b : List Char) => decide (a = b)
  | vector t | list t | set t => fun (a b : List t.Val) => a.isEqv b t.beq
  | map t => fun (a b : List (List Char × t.Val)) => a.isEqv b (Container.pairEq (· == ·) t.beq)
  | unorderedSet t => Container.unorderedEq t.beq
  | unorderedMap t => Container.unorderedEq (Container.pairEq (· == ·) t.beq)

instance instBEqVal (t : ConfType) : BEq t.Val := ⟨t.beq⟩

/-- **The values the C++ types hold**: the elements of a `std::set` and the
keys of a `std::map` in increasing order, and no two equal elements or keys in
an unordered container. -/
def Valid : (t : ConfType) → t.Val → Prop
  | int | uint32 | string => fun _ => True
  | vector t | list t => fun (xs : List t.Val) => ∀ x ∈ xs, t.Valid x
  | set t => fun (xs : List t.Val) => xs.Pairwise (fun a b => t.lt a b = true) ∧ ∀ x ∈ xs, t.Valid x
  | unorderedSet t => fun (xs : List t.Val) =>
    xs.Pairwise (fun a b => t.beq a b = false) ∧ ∀ x ∈ xs, t.Valid x
  | map t => fun (es : List (List Char × t.Val)) =>
    es.Pairwise (fun a b => stringLt a.1 b.1 = true) ∧ ∀ e ∈ es, t.Valid e.2
  | unorderedMap t => fun (es : List (List Char × t.Val)) =>
    es.Pairwise (fun a b => a.1 ≠ b.1) ∧ ∀ e ∈ es, t.Valid e.2

/-- **`LexicalCast<std::string, T>`**, the `FromStr` of `ConfigVar<T>`. -/
def fromStr (y : Lib) (c : CastLib) : (t : ConfType) → List Char → Option t.Val
  | int => c.stringToInt
  | uint32 => c.stringToUint32
  | string => some
  | vector t => stringToVector y (fromStr y c t)
  | list t => stringToList y (fromStr y c t)
  | set t => stringToSet y t.lt (fromStr y c t)
  | unorderedSet t => stringToUnorderedSet y t.beq (fromStr y c t)
  | map t => stringToMap y (fromStr y c t)
  | unorderedMap t => stringToUnorderedMap y (fromStr y c t)

/-- **`LexicalCast<T, std::string>`**, the `ToStr` of `ConfigVar<T>`. -/
def toStr (y : Lib) (c : CastLib) : (t : ConfType) → t.Val → Option (List Char)
  | int => fun i => some (c.intToString i)
  | uint32 => fun u => some (c.uint32ToString u)
  | string => some
  | vector t => vectorToString y (toStr y c t)
  | list t => listToString y (toStr y c t)
  | set t => setToString y (toStr y c t)
  | unorderedSet t => unorderedSetToString y (toStr y c t)
  | map t => mapToString y (toStr y c t)
  | unorderedMap t => unorderedMapToString y (toStr y c t)

/-- Whether a type is a leaf. -/
def isLeaf : ConfType → Bool
  | int | uint32 | string => true
  | _ => false

/-- The type of the elements of a container, the values of a map (a leaf is
its own). -/
def elem : ConfType → ConfType
  | vector t | list t | set t | unorderedSet t | map t | unorderedMap t => t
  | int => int
  | uint32 => uint32
  | string => string

/-- The elements of a container, the values of a map; none for a leaf. -/
def items : (t : ConfType) → t.Val → List t.elem.Val
  | int, _ | uint32, _ | string, _ => []
  | vector _, xs | list _, xs | set _, xs | unorderedSet _, xs => xs
  | map t, es | unorderedMap t, es => List.map Prod.snd (es : List (List Char × t.Val))

/-- **The texts of the leaves of a value**, as their `LexicalCast` writes them. -/
def leafTexts (c : CastLib) : (t : ConfType) → t.Val → List (List Char)
  | int => fun i => [c.intToString i]
  | uint32 => fun u => [c.uint32ToString u]
  | string => fun s => [s]
  | vector t | list t | set t | unorderedSet t => fun (xs : List t.Val) => xs.flatMap (leafTexts c t)
  | map t | unorderedMap t => fun (es : List (List Char × t.Val)) =>
    es.flatMap fun e => leafTexts c t e.2

/-- **The texts of the leaves held inside containers**: none for a leaf on its
own. -/
def innerTexts (c : CastLib) (t : ConfType) (v : t.Val) : List (List Char) :=
  if t.isLeaf then [] else t.leafTexts c v

theorem lt_asymm : ∀ t : ConfType, Container.Asymm t.lt
  | int => fun a b h => by simp only [lt, decide_eq_true_eq, decide_eq_false_iff_not] at h ⊢; omega
  | uint32 => fun a b h => by simp only [lt, decide_eq_true_eq, decide_eq_false_iff_not] at h ⊢; omega
  | string => stringLt_asymm
  | vector t | list t | set t => Container.lexLt_asymm (lt_asymm t)
  | map t => Container.lexLt_asymm (Container.pairLt_asymm stringLt_asymm (lt_asymm t))
  | unorderedSet _ | unorderedMap _ => fun _ _ h => Bool.noConfusion h

theorem beq_refl : ∀ (t : ConfType) (v : t.Val), t.beq v v = true
  | int, (i : Int32) => decide_eq_true (rfl : i = i)
  | uint32, (u : UInt32) => decide_eq_true (rfl : u = u)
  | string, (s : List Char) => decide_eq_true (rfl : s = s)
  | vector t, xs | list t, xs | set t, xs => Container.isEqv_refl fun x _ => beq_refl t x
  | unorderedSet t, xs => Container.unorderedEq_refl fun x _ => beq_refl t x
  | map t, es => Container.isEqv_refl fun e _ => by simp [Container.pairEq, beq_refl t e.2]
  | unorderedMap t, es => Container.unorderedEq_refl fun e _ => by
    simp [Container.pairEq, beq_refl t e.2]

theorem valid_of_mem_items {t : ConfType} {v : t.Val} (hv : t.Valid v) :
    ∀ x ∈ t.items v, t.elem.Valid x := by
  cases t with
  | int | uint32 | string => intro x hx; cases hx
  | vector t | list t => exact hv
  | set t | unorderedSet t => exact hv.2
  | map t | unorderedMap t =>
    intro x hx
    obtain ⟨e, he, rfl⟩ := List.mem_map.mp hx
    exact hv.2 e he

theorem leafTexts_of_mem_items {c : CastLib} {t : ConfType} {v : t.Val} {x : t.elem.Val}
    (hx : x ∈ t.items v) : ∀ s ∈ t.elem.leafTexts c x, s ∈ t.leafTexts c v := by
  intro s hs
  cases t with
  | int | uint32 | string => cases hx
  | vector t | list t | set t | unorderedSet t => exact List.mem_flatMap.mpr ⟨x, hx, hs⟩
  | map t | unorderedMap t =>
    obtain ⟨e, he, rfl⟩ := List.mem_map.mp hx
    exact List.mem_flatMap.mpr ⟨e, he, hs⟩

/-! ## The round trip -/

section RoundTrip

variable {y : Lib} {c : CastLib}

/-- **A container round-trips when its items survive the container codecs.** -/
theorem roundTrips_of_items (hy : y.LoadsEmitted) :
    ∀ (t : ConfType) (v : t.Val), t.isLeaf = false → t.Valid v →
      (∀ x ∈ t.items v, ItemCodec y (t.elem.toStr y c) (t.elem.fromStr y c) x) →
      RoundTrips y (t.toStr y c) (t.fromStr y c) v
  | int, _, hl, _, _ | uint32, _, hl, _, _ | string, _, hl, _, _ => by cases hl
  | vector _, _, _, _, h => vector_roundTrips hy h
  | list _, _, _, _, h => list_roundTrips hy h
  | set t, _, _, hv, h => set_roundTrips hy (lt_asymm t) hv.1 h
  | unorderedSet _, _, _, hv, h => unorderedSet_roundTrips hy hv.1 h
  | map _, _, _, hv, h => map_roundTrips hy hv.1 fun e he => h e.2 (List.mem_map_of_mem he)
  | unorderedMap _, _, _, hv, h =>
    unorderedMap_roundTrips hy hv.1 fun e he => h e.2 (List.mem_map_of_mem he)

/-- **An item survives the container codecs when the texts of its leaves are
plain scalars**, by induction on its type. -/
theorem itemCodec_of_leafTexts (hy : y.LoadsEmitted) (hc : c.RoundTrips) :
    ∀ (t : ConfType) (x : t.Val), t.Valid x → (∀ s ∈ t.leafTexts c x, y.Plain s) →
      ItemCodec y (t.toStr y c) (t.fromStr y c) x
  | int, i, _, hp => itemCodec_of_plain rfl (hp _ List.mem_cons_self) (hc.int i)
  | uint32, u, _, hp => itemCodec_of_plain rfl (hp _ List.mem_cons_self) (hc.uint32 u)
  | string, _, _, hp => itemCodec_of_plain rfl (hp _ List.mem_cons_self) rfl
  | vector t, x, hv, hp | list t, x, hv, hp | set t, x, hv, hp | unorderedSet t, x, hv, hp
  | map t, x, hv, hp | unorderedMap t, x, hv, hp =>
    itemCodec_of_roundTrips hy (roundTrips_of_items hy _ x rfl hv fun z hz =>
      itemCodec_of_leafTexts hy hc t z (valid_of_mem_items hv z hz)
        fun s hs => hp s (leafTexts_of_mem_items hz s hs))

/-- **The text of a value decodes back to it** when the leaves inside its
containers are plain scalars. -/
theorem toStr_fromStr (hy : y.LoadsEmitted) (hc : c.RoundTrips) (t : ConfType) (v : t.Val)
    (hv : t.Valid v) (hp : ∀ s ∈ t.innerTexts c v, y.Plain s) :
    ∃ s, t.toStr y c v = some s ∧ t.fromStr y c s = some v := by
  cases hl : t.isLeaf with
  | true =>
    -- a leaf on its own goes through boost alone
    cases t with
    | int => exact ⟨_, rfl, hc.int v⟩
    | uint32 => exact ⟨_, rfl, hc.uint32 v⟩
    | string => exact ⟨v, rfl, rfl⟩
    | _ => cases hl
  | false =>
    have hp' : ∀ s ∈ t.leafTexts c v, y.Plain s := by simpa [innerTexts, hl] using hp
    obtain ⟨N, -, henc, hdec⟩ := roundTrips_of_items hy t v hl hv fun x hx =>
      itemCodec_of_leafTexts hy hc t.elem x (valid_of_mem_items hv x hx)
        fun s hs => hp' s (leafTexts_of_mem_items hx s hs)
    exact ⟨_, henc, hdec⟩

end RoundTrip

/-! ## A decimal cast -/

/-- **The decimal numeral of a natural number**, as `boost::lexical_cast`
writes one. -/
def decimal (n : Nat) : List Char :=
  if n = 0 then ['0'] else ((Nat.digits 10 n).map Nat.digitChar).reverse

/-- The value of a decimal numeral. -/
def ofDecimal (s : List Char) : Nat := Nat.ofDigits 10 (s.reverse.map fun ch => ch.toNat - 48)

/-- The decimal numeral of an integer, with a minus sign when it is negative. -/
def intDecimal (i : Int) : List Char := if i < 0 then '-' :: decimal i.natAbs else decimal i.natAbs

/-- The value of the decimal numeral of an integer. -/
def ofIntDecimal (s : List Char) : Int :=
  if s.head? = some '-' then -(ofDecimal s.tail : Int) else ofDecimal s

/-- **A decimal `boost::lexical_cast`** for the integer leaves.  It reads a
numeral out of range modulo the width, where boost throws; no round trip
meets one. -/
def decimalCast : CastLib where
  intToString i := intDecimal i.toInt
  stringToInt s := some (Int32.ofInt (ofIntDecimal s))
  uint32ToString u := decimal u.toNat
  stringToUint32 s := some (UInt32.ofNat (ofDecimal s))

theorem digitChar_toNat : ∀ d < 10, (Nat.digitChar d).toNat - 48 = d := by decide

theorem digitChar_ne_minus : ∀ d < 10, Nat.digitChar d ≠ '-' := by decide

theorem ofDecimal_decimal (n : Nat) : ofDecimal (decimal n) = n := by
  by_cases hn : n = 0
  · subst hn
    decide
  · have hdig : ∀ d ∈ Nat.digits 10 n, ((fun ch : Char => ch.toNat - 48) ∘ Nat.digitChar) d = id d :=
      fun d hd => digitChar_toNat d (Nat.digits_lt_base (by norm_num) hd)
    rw [decimal, if_neg hn, ofDecimal, List.reverse_reverse, List.map_map, List.map_congr_left hdig,
      List.map_id, Nat.ofDigits_digits]

theorem minus_not_mem_decimal (n : Nat) : '-' ∉ decimal n := by
  unfold decimal
  split
  · decide
  · simp only [List.mem_reverse, List.mem_map, not_exists, not_and]
    exact fun d hd => digitChar_ne_minus d (Nat.digits_lt_base (by norm_num) hd)

theorem ofIntDecimal_intDecimal (i : Int) : ofIntDecimal (intDecimal i) = i := by
  by_cases hi : i < 0
  · rw [intDecimal, if_pos hi, ofIntDecimal, List.head?_cons, if_pos rfl, List.tail_cons,
      ofDecimal_decimal]
    omega
  · have hhead : (decimal i.natAbs).head? ≠ some '-' :=
      fun h => minus_not_mem_decimal _ (List.mem_of_head? h)
    rw [intDecimal, if_neg hi, ofIntDecimal, if_neg hhead, ofDecimal_decimal]
    omega

theorem decimalCast_roundTrips : decimalCast.RoundTrips where
  int i := by simp only [decimalCast, ofIntDecimal_intDecimal, Int32.ofInt_toInt]
  uint32 u := by simp only [decimalCast, ofDecimal_decimal, UInt32.ofNat_toNat]

/-! ## The round trip of the config codecs -/

section ConfigRoundTrip

variable {y : Lib} {c : CastLib}

/-- **The config codecs round-trip on the values whose leaves inside
containers are plain scalars**, for every config type: the text of the value
decodes to an equal value, so `fromString(toString())` returns `true`, keeps
the variable as it is and tells no listener.  Assumed: the YAML parser reads
back what the emitter writes, and boost round-trips the integers. -/
theorem lexicalCast_roundTrip (hy : y.LoadsEmitted) (hc : c.RoundTrips) (t : ConfType) (v : t.Val)
    (hv : t.Valid v) (hp : ∀ s ∈ t.innerTexts c v, y.Plain s) :
    (∃ s v', t.toStr y c v = some s ∧ t.fromStr y c s = some v' ∧ (v' == v) = true) ∧
      ∀ {W ε : Type} (var : ConfigVar t.Val W ε) (w : W), var.val = v →
        var.fromString (t.fromStr y c) (var.toString (t.toStr y c)) w = (var, w, true) := by
  obtain ⟨s, henc, hdec⟩ := toStr_fromStr hy hc t v hv hp
  refine ⟨⟨s, v, henc, hdec, beq_refl t v⟩, fun var w hval => ?_⟩
  subst hval
  exact ConfigVar.fromString_toString_of_decodes var w henc hdec (beq_refl t var.val)

/-- A map of port lists. -/
def ports : (map (vector int)).Val := [("ports".toList, ([80, 8080] : List Int32))]

theorem lexicalCast_roundTrip_ports :
    (∃ s v', (map (vector int)).toStr codeLib decimalCast ports = some s ∧
        (map (vector int)).fromStr codeLib decimalCast s = some v' ∧ (v' == ports) = true) ∧
      ∀ {W ε : Type} (var : ConfigVar (map (vector int)).Val W ε) (w : W), var.val = ports →
        var.fromString ((map (vector int)).fromStr codeLib decimalCast)
          (var.toString ((map (vector int)).toStr codeLib decimalCast)) w = (var, w, true) := by
  have hv : (map (vector int)).Valid ports := ⟨List.pairwise_singleton _ _, fun _ _ _ _ => trivial⟩
  have hp : ∀ s ∈ (map (vector int)).innerTexts decimalCast ports, codeLib.Plain s := by
    have htexts : (map (vector int)).innerTexts decimalCast ports =
        [decimalCast.intToString 80, decimalCast.intToString 8080] := rfl
    intro s hs
    rw [htexts, List.mem_pair] at hs
    rcases hs with rfl | rfl
    · exact codeLib_plain (by simp [decimalCast, intDecimal, decimal, isNumeral])
    · exact codeLib_plain (by simp [decimalCast, intDecimal, decimal, isNumeral])
  exact lexicalCast_roundTrip codeLib_loadsEmitted decimalCast_roundTrips _ ports hv hp

/-- **An empty string in a vector comes back as `~`.**  The encoder loads
`""` as a YAML document, which is the null node, and the decoder emits that
node as `~`.  `codeLib` reads back all it writes, as the round trip assumes
of yaml-cpp, reads `""` as null and writes null as `~`, as yaml-cpp does; the
integer casts are decimal and round-trip. -/
theorem vector_empty_string_roundTrip :
    codeLib.LoadsEmitted ∧ decimalCast.RoundTrips ∧
      (vector string).toStr codeLib decimalCast [[]] = some (codeLib.emit (.sequence [.null])) ∧
      (vector string).fromStr codeLib decimalCast (codeLib.emit (.sequence [.null])) =
        some ["~".toList] ∧
      ((["~".toList] : (vector string).Val) == [[]]) = false := by
  refine ⟨codeLib_loadsEmitted, decimalCast_roundTrips, ?_, ?_, by decide⟩
  · -- `YAML::Load("")` is the null node, pushed onto the sequence
    show encodeItems codeLib some [[]] = _
    simp [encodeItems, codeLib_load_nil, Node.ofItems]
  · -- the decoder reads the sequence back and emits its one item, null
    have hload := codeLib_loadsEmitted (.sequence [.null]) rfl
    simp only [fromStr, stringToVector, decodeItems, hload, Option.bind_eq_bind, Option.bind_some]
    rfl

end ConfigRoundTrip

end ConfType

end Sylar
