/-
# YAML nodes

The nodes of a YAML document as the yaml-cpp library presents them, and the
node operations that code on top of it uses: the size of a node, the const
and the non-const `operator[]`, iterating over a node, `Scalar()`,
`push_back` and `node[key] = value`.  Reading text into a node, writing a node
out and reading a key as an index (`convert<std::size_t>::decode`) are the
library's; they are not modelled, but are the fields of `Lib`, and what is
known of them is stated as hypotheses where it is used.  The last section
builds one `Lib` whose parser reads back everything its emitter writes.

The const `operator[]` reads: a key or index the node lacks gives an invalid
node, the zombie.  The non-const one finds or makes the node it returns, which
an assignment then fills: `locateKey` and `locateItem` give that node together
with the node that holds another in its place, as a zipper gives a subtree
and its context.
-/
import Mathlib.Data.List.GetD
import Mathlib.Data.List.TakeWhile
import Mathlib.Logic.Equiv.List

namespace Yaml

/-- **A node.** `zombie` is the invalid node that the const `operator[]`
returns for a key or index a node lacks; `undefined` is a valid node with no
value, which the non-const `operator[]` makes for one.  yaml-cpp also has
sequences and maps that are not defined yet, made by reading through two
non-const `operator[]`s without assigning; the code never does that, and the
sequences and maps here are defined. -/
inductive Node
  | zombie
  | undefined
  | null
  | scalar (text : List Char)
  | sequence (items : List Node)
  | map (entries : List (Node × Node))
  deriving Repr

namespace Node

/-- **`Node::IsDefined`**: false for a zombie and for an undefined node. -/
def isDefined : Node → Bool
  | zombie | undefined => false
  | _ => true

/-- Whether a node is valid: every node but a zombie. -/
def isValid : Node → Bool
  | zombie => false
  | _ => true

/-- A defined node is valid. -/
theorem isValid_of_isDefined : ∀ {n : Node}, n.isDefined = true → n.isValid = true
  | zombie, h => absurd h Bool.false_ne_true
  | undefined, _ | null, _ | scalar _, _ | sequence _, _ | map _, _ => rfl

/-- **`Node::size`**: of a sequence, its items up to the first undefined one;
of a map, its entries whose key and value are defined; none otherwise.  A
zombie throws `InvalidNode` (`none`). -/
def size : Node → Option Nat
  | zombie => none
  | sequence items => some (items.takeWhile isDefined).length
  | map entries => some (entries.countP fun e => e.1.isDefined && e.2.isDefined)
  | _ => some 0

/-- The numeral of an index, `convert<std::size_t>::encode`: the key the
non-const `operator[]` writes for an index. -/
def indexKey (i : Nat) : List Char := (Nat.repr i).toList

/-- **The const `operator[]` with an index**: the item of a sequence; in a
map, the value of the first key that `decodeIndex` reads as the index; a
zombie where there is none.  A scalar throws `BadSubscript` and a zombie
`InvalidNode` (`none`). -/
def get (decodeIndex : Node → Option Nat) (n : Node) (i : Nat) : Option Node :=
  match n with
  | zombie | scalar _ => none
  | sequence items => some (items.getD i zombie)
  | map entries => some (((entries.find? fun e => decodeIndex e.1 == some i).map Prod.snd).getD zombie)
  | undefined | null => some zombie

/-- Whether a key node is the scalar `key`: `convert<std::string>::decode`,
then `==`, which is how yaml-cpp compares a key with a string. -/
def keyIs (key : List Char) : Node → Bool
  | scalar k => k = key
  | _ => false

/-- **The const `operator[]` with a string key**: in a map, the value of the
first key that is `key`; a zombie for a missing key and on the other nodes.  A
scalar throws `BadSubscript` and a zombie `InvalidNode` (`none`). -/
def lookup (n : Node) (key : List Char) : Option Node :=
  match n with
  | zombie | scalar _ => none
  | map entries => some (((entries.find? fun e => e.1.keyIs key).map Prod.snd).getD zombie)
  | undefined | null | sequence _ => some zombie

/-- **Find or insert in the entries of a map** (`node_data::get`, non-const):
the value of the first entry whose key `p` accepts, and the entries with
another value in its place; when there is none, an undefined value, and the
entries with a new entry of key `newKey` at the end. -/
def locateEntry (p : Node → Bool) (newKey : Node) :
    List (Node × Node) → Node × (Node → List (Node × Node))
  | [] => (undefined, fun v => [(newKey, v)])
  | e :: es =>
    if p e.1 then (e.2, fun v => (e.1, v) :: es)
    else ((locateEntry p newKey es).1, fun v => e :: (locateEntry p newKey es).2 v)

/-- **`convert_sequence_to_map`**: item `i` under the key `i`. -/
def seqEntries (items : List Node) : List (Node × Node) :=
  items.mapIdx fun i x => (scalar (indexKey i), x)

/-- A place in the entries of a map as a place in the map. -/
def inMap (r : Node × (Node → List (Node × Node))) : Node × (Node → Node) :=
  (r.1, fun v => map (r.2 v))

/-- **The non-const `operator[]` with a string key**: the node it returns,
and the node holding another in its place.  A map finds or inserts the key; a
sequence is made a map first, and a null or undefined node an empty one.  A
scalar throws `BadSubscript` and a zombie `InvalidNode` (`none`). -/
def locateKey (n : Node) (key : List Char) : Option (Node × (Node → Node)) :=
  match n with
  | zombie | scalar _ => none
  | map entries => some (inMap (locateEntry (keyIs key) (scalar key) entries))
  | sequence items => some (inMap (locateEntry (keyIs key) (scalar key) (seqEntries items)))
  | undefined | null => some (inMap (locateEntry (keyIs key) (scalar key) []))

/-- **Index `i` of the items of a sequence** (`get_idx`, non-const): an
item; a new undefined one pushed at the end when `i` is the length; and, when
`i` is past the length or the item before it is undefined, the place of the
key `i` in the sequence made a map. -/
def locateIndex (decodeIndex : Node → Option Nat) (i : Nat) (items : List Node) :
    Node × (Node → Node) :=
  if items.length < i ∨ (0 < i ∧ (items.getD (i - 1) zombie).isDefined = false) then
    inMap (locateEntry (fun k => decodeIndex k == some i) (scalar (indexKey i)) (seqEntries items))
  else if i = items.length then (undefined, fun v => sequence (items ++ [v]))
  else (items.getD i zombie, fun v => sequence (items.set i v))

/-- **The non-const `operator[]` with an index**: the node it returns, and
the node holding another in its place.  A map finds the first key that
`decodeIndex` reads as the index, or inserts the index's numeral; a null or
undefined node is an empty sequence.  A scalar throws `BadSubscript` and a
zombie `InvalidNode` (`none`). -/
def locateItem (decodeIndex : Node → Option Nat) (n : Node) (i : Nat) : Option (Node × (Node → Node)) :=
  match n with
  | zombie | scalar _ => none
  | map entries =>
    some (inMap (locateEntry (fun k => decodeIndex k == some i) (scalar (indexKey i)) entries))
  | sequence items => some (locateIndex decodeIndex i items)
  | undefined | null => some (locateIndex decodeIndex i [])

/-- **Reading `node[i]` through the non-const `operator[]`**: the node it
returns, and the node after, which may have gained it. -/
def index (decodeIndex : Node → Option Nat) (n : Node) (i : Nat) : Option (Node × Node) :=
  (locateItem decodeIndex n i).map fun r => (r.1, r.2 r.1)

/-- **`node[key] = value`**: `value` at the place the non-const `operator[]`
finds or makes.  Assigning a zombie throws `InvalidNode`. -/
def set (n : Node) (key : List Char) (v : Node) : Option Node :=
  if v.isValid then (locateKey n key).map fun r => r.2 v else none

/-- **`node[i][...] = ...`**: the item that the non-const `operator[]` finds
or makes, changed by `f`, in its place. -/
def modifyItem (decodeIndex : Node → Option Nat) (n : Node) (i : Nat) (f : Node → Option Node) :
    Option Node := do
  let r ← locateItem decodeIndex n i
  let x ← f r.1
  pure (r.2 x)

/-- **Iterating over a node**: a map gives its entries whose key and value
are defined; a sequence gives, for each item, a pair of zombies (its
iterator's `first` and `second`); other nodes give nothing. -/
def pairs : Node → List (Node × Node)
  | sequence items => items.map fun _ => (zombie, zombie)
  | map entries => entries.filter fun e => e.1.isDefined && e.2.isDefined
  | _ => []

/-- **`Node::Scalar()`**: the text of a scalar, empty for other valid nodes;
a zombie throws `InvalidNode` (`none`). -/
def scalarText : Node → Option (List Char)
  | zombie => none
  | scalar s => some s
  | _ => some []

/-- **`push_back` from a null node**: the sequence of the items, or null when
there is none. -/
def ofItems : List Node → Node
  | [] => null
  | items => sequence items

/-- The entries of a map after `node[key] = value`: the first entry of the key
takes the value, or a new entry goes at the end. -/
def setEntry (key : List Char) (v : Node) : List (Node × Node) → List (Node × Node)
  | [] => [(scalar key, v)]
  | e :: es => if e.1.keyIs key then (e.1, v) :: es else e :: setEntry key v es

/-- **The map that `node[key] = value` builds from a null node, with distinct
keys**: the entries, keys as scalars, or null when there is none. -/
def ofEntries : List (List Char × Node) → Node
  | [] => null
  | entries => map (entries.map fun e => (scalar e.1, e.2))

/-! ## The non-const `operator[]` -/

/-- **Putting a value at the place of a key** is `setEntry`. -/
@[simp] theorem locateEntry_keyIs (key : List Char) (v : Node) :
    ∀ es : List (Node × Node), (locateEntry (keyIs key) (scalar key) es).2 v = setEntry key v es
  | [] => rfl
  | e :: es => by
    by_cases he : e.1.keyIs key = true
    · simp [locateEntry, setEntry, he]
    · simp [locateEntry, setEntry, he, locateEntry_keyIs key v es]

/-- **A map finds or inserts no entry that `p` rejects.** -/
theorem locateEntry_of_none {p : Node → Bool} {newKey : Node} :
    ∀ {es : List (Node × Node)}, (∀ e ∈ es, p e.1 = false) →
      locateEntry p newKey es = (undefined, fun v => es ++ [(newKey, v)])
  | [], _ => rfl
  | e :: es, h => by
    rw [locateEntry, if_neg (by simp [h e List.mem_cons_self]),
      locateEntry_of_none fun e' he' => h e' (List.mem_cons_of_mem e he')]
    rfl

/-- The place of a value in the entries of a map: found after the entries
that `p` rejects. -/
theorem locateEntry_append_found {p : Node → Bool} {newKey : Node} {pre : List (Node × Node)}
    (hpre : ∀ e ∈ pre, p e.1 = false) {e : Node × Node} (he : p e.1 = true) (post : List (Node × Node)) :
    locateEntry p newKey (pre ++ e :: post) = (e.2, fun v => pre ++ (e.1, v) :: post) := by
  induction pre with
  | nil => simp [locateEntry, he]
  | cons x pre ih =>
    have hx : p x.1 = false := hpre x List.mem_cons_self
    rw [List.cons_append, locateEntry, if_neg (by simp [hx]),
      ih fun e' he' => hpre e' (List.mem_cons_of_mem x he')]
    rfl

/-- **Putting back the value read at a place** keeps the entries, or appends
the entry made with an undefined value. -/
theorem locateEntry_reread (p : Node → Bool) (newKey : Node) :
    ∀ es : List (Node × Node), (locateEntry p newKey es).2 (locateEntry p newKey es).1 = es ∨
      (locateEntry p newKey es).2 (locateEntry p newKey es).1 = es ++ [(newKey, undefined)]
  | [] => .inr rfl
  | e :: es => by
    by_cases he : p e.1 = true
    · exact .inl (by simp [locateEntry, he])
    · rcases locateEntry_reread p newKey es with h | h
      · exact .inl (by simp [locateEntry, he, h])
      · exact .inr (by simp [locateEntry, he, h])

section Index

variable {decodeIndex : Node → Option Nat} {items : List Node} {i : Nat}

/-- Defined items are defined at every index below the length. -/
theorem getD_isDefined (h : ∀ x ∈ items, x.isDefined = true) (j : Nat) (hj : j < items.length) :
    (items.getD j zombie).isDefined = true := by
  rw [List.getD_eq_getElem _ _ hj]
  exact h _ (List.getElem_mem _)

/-- An index up to the length, past defined items, keeps `get_idx` in the
sequence: it does not make the sequence a map. -/
theorem not_toMap (hi : i ≤ items.length) (hprev : ∀ j < i, (items.getD j zombie).isDefined = true) :
    ¬ (items.length < i ∨ (0 < i ∧ (items.getD (i - 1) zombie).isDefined = false)) := by
  rintro (h | ⟨h, h'⟩)
  · omega
  · rw [hprev (i - 1) (by omega)] at h'
    exact absurd h' (by decide)

/-- **`get_idx` below the length, past defined items**: the item, in place. -/
theorem locateIndex_of_lt (hi : i < items.length) (hprev : ∀ j < i, (items.getD j zombie).isDefined = true) :
    locateIndex decodeIndex i items = (items.getD i zombie, fun v => sequence (items.set i v)) := by
  rw [locateIndex, if_neg (not_toMap hi.le hprev), if_neg (Nat.ne_of_lt hi)]

/-- **`get_idx` at the length, past defined items**: an undefined item pushed
at the end. -/
theorem locateIndex_length (hprev : ∀ j < items.length, (items.getD j zombie).isDefined = true) :
    locateIndex decodeIndex items.length items = (undefined, fun v => sequence (items ++ [v])) := by
  rw [locateIndex, if_neg (not_toMap (le_refl _) hprev), if_pos rfl]

end Index

/-- **Reading item `i` of a sequence whose items up to `i` are defined**
returns the item and leaves the sequence as it is. -/
theorem index_sequence {decodeIndex : Node → Option Nat} {items : List Node} {i : Nat}
    (hi : i < items.length) (hdef : ∀ x ∈ items, x.isDefined = true) :
    (sequence items).index decodeIndex i = some (items.getD i zombie, sequence items) := by
  simp only [index, locateItem, locateIndex_of_lt hi fun j hj => getD_isDefined hdef j (by omega), Option.map_some]
  rw [List.getD_eq_getElem _ _ hi, List.set_getElem_self]

/-- **Reading a key that the map lacks through the non-const `operator[]`**
returns an undefined node and inserts it under the index's numeral. -/
theorem index_map_absent {decodeIndex : Node → Option Nat} {entries : List (Node × Node)} {i : Nat}
    (h : ∀ e ∈ entries, decodeIndex e.1 ≠ some i) :
    (map entries).index decodeIndex i =
      some (undefined, map (entries ++ [(scalar (indexKey i), undefined)])) := by
  rw [index, locateItem, locateEntry_of_none fun e he => by simpa using h e he]
  rfl

/-- **Reading a key that the map has through the non-const `operator[]`**
returns its value and leaves the map as it is. -/
theorem index_map_found {decodeIndex : Node → Option Nat} {pre post : List (Node × Node)} {i : Nat}
    (hpre : ∀ e ∈ pre, decodeIndex e.1 ≠ some i) {e : Node × Node} (he : decodeIndex e.1 = some i) :
    (map (pre ++ e :: post)).index decodeIndex i = some (e.2, map (pre ++ e :: post)) := by
  rw [index, locateItem, locateEntry_append_found (fun e' he' => by simpa using hpre e' he') (by simp [he])]
  rfl

/-- **Reading item `i` of a map or of a sequence below its size leaves the
size as it is**: a sequence is read in place, and the entry a map may gain
has an undefined value. -/
theorem size_index {decodeIndex : Node → Option Nat} {n n' item : Node} {i k : Nat} (hk : n.size = some k)
    (hi : i < k) (h : n.index decodeIndex i = some (item, n')) : n'.size = some k := by
  cases n with
  | zombie => simp [size] at hk
  | undefined | null | scalar _ =>
    simp only [size, Option.some.injEq] at hk
    omega
  | sequence items =>
    -- the items before `i` are defined, and `i` is among them
    have hlen : (items.takeWhile isDefined).length ≤ items.length := (List.takeWhile_prefix isDefined).length_le
    simp only [size, Option.some.injEq] at hk
    have hprefix := List.takeWhile_prefix (p := isDefined) (l := items)
    have hdef : ∀ j < k, (items.getD j zombie).isDefined = true := fun j hj => by
      subst hk
      have hj' : j < items.length := by omega
      rw [List.getD_eq_getElem _ _ hj', ← hprefix.getElem (by omega)]
      exact List.mem_takeWhile_imp (List.getElem_mem _)
    simp only [index, locateItem, locateIndex_of_lt (show i < items.length by omega) fun j hj => hdef j (by omega),
      Option.map_some, Option.some.injEq, Prod.mk.injEq] at h
    obtain ⟨rfl, rfl⟩ := h
    rw [List.getD_eq_getElem _ _ (by omega), List.set_getElem_self]
    simpa [size] using hk
  | map entries =>
    simp only [index, locateItem, inMap, Option.map_some, Option.some.injEq, Prod.mk.injEq] at h
    obtain ⟨-, rfl⟩ := h
    -- putting back what was read keeps the entries, or appends one with an undefined value
    rcases locateEntry_reread (fun k => decodeIndex k == some i) (scalar (indexKey i)) entries with he | he
    · rw [he]
      exact hk
    · rw [he]
      simpa [size, List.countP_append, isDefined] using hk

@[simp] theorem get_sequence (decodeIndex : Node → Option Nat) (items : List Node) (i : Nat) :
    (sequence items).get decodeIndex i = some (items.getD i zombie) := rfl

@[simp] theorem size_ofItems {items : List Node} (h : ∀ x ∈ items, x.isDefined = true) :
    (ofItems items).size = some items.length := by
  cases items with
  | nil => rfl
  | cons x xs => simp [ofItems, size, List.takeWhile_eq_self_iff.mpr h]

/-! ## Assignments -/

/-- Assigning a key that no entry has adds its entry at the end. -/
theorem setEntry_of_absent {key : List Char} {v : Node} :
    ∀ {es : List (Node × Node)}, (∀ e ∈ es, e.1.keyIs key = false) → setEntry key v es = es ++ [(scalar key, v)]
  | [], _ => rfl
  | e :: es, h => by
    rw [setEntry, if_neg (by simp [h e List.mem_cons_self]),
      setEntry_of_absent fun e' he' => h e' (List.mem_cons_of_mem e he')]
    rfl

/-- **`node[key] = value` on a map** sets the entry of the key. -/
@[simp] theorem set_map (entries : List (Node × Node)) (key : List Char) {v : Node} (hv : v.isValid = true) :
    (map entries).set key v = some (map (setEntry key v entries)) := by
  simp [set, hv, locateKey, inMap]

/-- **`node[key] = value` on a null node** makes the map of the one entry. -/
@[simp] theorem set_null (key : List Char) {v : Node} (hv : v.isValid = true) :
    null.set key v = some (map [(scalar key, v)]) := by
  simp [set, hv, locateKey, inMap, locateEntry]

/-- **`node[key] = value` on an undefined node** makes the map of the one
entry. -/
@[simp] theorem set_undefined (key : List Char) {v : Node} (hv : v.isValid = true) :
    undefined.set key v = some (map [(scalar key, v)]) := by
  simp [set, hv, locateKey, inMap, locateEntry]

/-- **Assigning a key that the map lacks** adds its entry at the end. -/
theorem set_map_absent {es : List (Node × Node)} {key : List Char} (h : ∀ e ∈ es, e.1.keyIs key = false)
    {v : Node} (hv : v.isValid = true) : (map es).set key v = some (map (es ++ [(scalar key, v)])) := by
  rw [set_map es key hv, setEntry_of_absent h]

theorem find?_setEntry_self (key : List Char) (v : Node) :
    ∀ es : List (Node × Node), ((setEntry key v es).find? fun e => e.1.keyIs key).map Prod.snd = some v
  | [] => by simp [setEntry, keyIs]
  | e :: es => by
    by_cases he : e.1.keyIs key = true
    · simp [setEntry, he]
    · simp [setEntry, he, find?_setEntry_self key v es]

/-- **Building a map of distinct keys from a null node** gives the map of
the entries. -/
theorem foldlM_set_null :
    ∀ (pre entries : List (List Char × Node)),
      (pre ++ entries).Pairwise (fun a b => a.1 ≠ b.1) → (∀ e ∈ pre ++ entries, e.2.isValid = true) →
      entries.foldlM (fun n e => n.set e.1 e.2) (ofEntries pre) = some (ofEntries (pre ++ entries))
  | _, [], _, _ => by simp
  | pre, e :: es, hd, hv => by
    -- the new key is none of the keys before it
    have habs : ∀ x ∈ pre.map (fun e => (scalar e.1, e.2)), x.1.keyIs e.1 = false := by
      intro x hx
      obtain ⟨p, hp, rfl⟩ := List.mem_map.mp hx
      have hne : p.1 ≠ e.1 := (List.pairwise_append.mp hd).2.2 p hp e List.mem_cons_self
      simpa [keyIs] using hne
    have hve : e.2.isValid = true := hv e (by simp)
    have hstep : (ofEntries pre).set e.1 e.2 = some (ofEntries (pre ++ [e])) := by
      cases pre with
      | nil => simp [ofEntries, hve]
      | cons p ps =>
        have h₁ : ofEntries (p :: ps) = map ((p :: ps).map fun e => (scalar e.1, e.2)) := rfl
        have h₂ : ofEntries ((p :: ps) ++ [e]) = map (((p :: ps) ++ [e]).map fun e => (scalar e.1, e.2)) := rfl
        rw [h₁, h₂, set_map _ _ hve, setEntry_of_absent habs, List.map_append]
        rfl
    have hsplit : pre ++ e :: es = (pre ++ [e]) ++ es := by simp
    rw [List.foldlM_cons, hstep, Option.bind_eq_bind, Option.bind_some, hsplit]
    exact foldlM_set_null (pre ++ [e]) es (hsplit ▸ hd) (hsplit ▸ hv)

@[simp] theorem pairs_ofEntries {entries : List (List Char × Node)} (h : ∀ e ∈ entries, e.2.isDefined = true) :
    (ofEntries entries).pairs = entries.map fun e => (scalar e.1, e.2) := by
  cases entries with
  | nil => rfl
  | cons e es =>
    simp only [ofEntries, pairs, List.filter_eq_self]
    intro x hx
    obtain ⟨p, hp, rfl⟩ := List.mem_map.mp hx
    rw [Bool.and_eq_true]
    exact ⟨rfl, h p hp⟩

@[simp] theorem scalarText_scalar (s : List Char) : (scalar s).scalarText = some s := rfl

/-! ## Building a sequence item by item -/

/-- **Writing item `i` of a sequence of `i` defined items** appends the item
that `f` makes of an undefined node. -/
theorem modifyItem_length {decodeIndex : Node → Option Nat} {items : List Node}
    (h : ∀ x ∈ items, x.isDefined = true) (f : Node → Option Node) :
    (ofItems items).modifyItem decodeIndex items.length f = (f undefined).map fun x => sequence (items ++ [x]) := by
  -- the item is pushed at the end, also when `push_back` left a null node
  have hloc : locateItem decodeIndex (ofItems items) items.length =
      some (undefined, fun v => sequence (items ++ [v])) := by
    cases items with
    | nil => simp [ofItems, locateItem, locateIndex]
    | cons x xs => exact congrArg some (locateIndex_length (getD_isDefined h))
  simp only [modifyItem, hloc, Option.bind_eq_bind, Option.bind_some, Option.pure_def]
  cases f undefined <;> rfl

/-- **Writing the last item of a sequence whose other items are defined**
changes that item by `f`. -/
theorem modifyItem_last {decodeIndex : Node → Option Nat} {items : List Node}
    (h : ∀ x ∈ items, x.isDefined = true) (x : Node) (f : Node → Option Node) :
    (sequence (items ++ [x])).modifyItem decodeIndex items.length f =
      (f x).map fun x' => sequence (items ++ [x']) := by
  have hprev : ∀ j < items.length, ((items ++ [x]).getD j zombie).isDefined = true := fun j hj => by
    rw [List.getD_append _ _ _ _ hj]
    exact getD_isDefined h j hj
  simp only [modifyItem, locateItem, locateIndex_of_lt (show items.length < (items ++ [x]).length by simp) hprev,
    Option.bind_eq_bind,
    Option.bind_some, Option.pure_def, List.getD_eq_getElem _ _ (by simp : items.length < (items ++ [x]).length),
    List.getElem_append_right (le_refl _), Nat.sub_self, List.getElem_singleton]
  cases f x with
  | none => rfl
  | some x' => simp [List.set_append_right _ _ (le_refl _)]

/-- **Assigning distinct keys in turn into the last item of a sequence**,
a map that has none of them, adds their entries to it. -/
theorem foldlM_modifyItem_last {decodeIndex : Node → Option Nat} {items : List Node}
    (h : ∀ x ∈ items, x.isDefined = true) :
    ∀ (es : List (Node × Node)) (ws : List (List Char × Node)), (∀ w ∈ ws, w.2.isValid = true) →
      (∀ w ∈ ws, ∀ e ∈ es, e.1.keyIs w.1 = false) → ws.Pairwise (fun a b => a.1 ≠ b.1) →
      ws.foldlM (fun n w => n.modifyItem decodeIndex items.length (·.set w.1 w.2)) (sequence (items ++ [map es])) =
        some (sequence (items ++ [map (es ++ ws.map fun w => (scalar w.1, w.2))]))
  | es, [], _, _, _ => by simp
  | es, w :: ws, hv, habs, hd => by
    -- the first key is added, and the others are none of the keys then present
    have habs' : ∀ w' ∈ ws, ∀ e ∈ es ++ [(scalar w.1, w.2)], e.1.keyIs w'.1 = false := by
      intro w' hw' e he
      rcases List.mem_append.mp he with he | he
      · exact habs w' (List.mem_cons_of_mem w hw') e he
      · rw [List.mem_singleton.mp he]
        simpa [keyIs] using List.rel_of_pairwise_cons hd hw'
    rw [List.foldlM_cons, modifyItem_last h, set_map_absent (habs w List.mem_cons_self) (hv w List.mem_cons_self),
      Option.map_some, Option.bind_eq_bind, Option.bind_some,
      foldlM_modifyItem_last h _ ws (fun w' hw' => hv w' (List.mem_cons_of_mem w hw')) habs' hd.of_cons]
    simp

/-- **Assigning distinct keys in turn into item `i` of a sequence of `i`
defined items** pushes the map of them. -/
theorem foldlM_modifyItem_ofItems {decodeIndex : Node → Option Nat} {items : List Node}
    (h : ∀ x ∈ items, x.isDefined = true) (w : List Char × Node) (ws : List (List Char × Node))
    (hv : ∀ x ∈ w :: ws, x.2.isValid = true) (hd : (w :: ws).Pairwise fun a b => a.1 ≠ b.1) :
    (w :: ws).foldlM (fun n w => n.modifyItem decodeIndex items.length (·.set w.1 w.2)) (ofItems items) =
      some (sequence (items ++ [map ((w :: ws).map fun w => (scalar w.1, w.2))])) := by
  -- the first key makes the item from an undefined node
  have hfirst := set_undefined w.1 (hv w List.mem_cons_self)
  have hrest := @foldlM_modifyItem_last decodeIndex items h [(scalar w.1, w.2)] ws
    (fun x hx => hv x (List.mem_cons_of_mem w hx))
    (fun w' hw' e he => by
      rw [List.mem_singleton.mp he]
      simpa [keyIs] using List.rel_of_pairwise_cons hd hw') hd.of_cons
  rw [List.foldlM_cons, modifyItem_length h, hfirst, Option.map_some, Option.bind_eq_bind, Option.bind_some, hrest]
  rfl

end Node

/-- **The library's parser, emitter and index reader**: `YAML::Load`, `none`
when it throws; the emitter behind `operator<<`; and
`convert<std::size_t>::decode`, which reads a key as an index, `none` when it
fails. -/
structure Lib where
  load : List Char → Option Node
  emit : Node → List Char
  decodeIndex : Node → Option Nat

namespace Lib

variable (y : Lib)

/-- **What the emitter writes of a defined node, the parser reads back.** -/
def LoadsEmitted : Prop := ∀ n, n.isDefined = true → y.load (y.emit n) = some n

/-- **A plain scalar**: text that the parser reads as the scalar of that text,
and that the emitter writes back unchanged. -/
def Plain (s : List Char) : Prop := y.load s = some (.scalar s) ∧ y.emit (.scalar s) = s

/-- Text that the emitter writes for its own scalar is plain. -/
theorem plain_of_emit {y : Lib} (h : y.LoadsEmitted) {s : List Char} (he : y.emit (.scalar s) = s) :
    y.Plain s := by
  refine ⟨?_, he⟩
  have hl := h (.scalar s) rfl
  rwa [he] at hl

end Lib

/-! ## A library that reads back what it writes -/

namespace Node

/-- A number for a text. -/
def codeText (s : List Char) : Nat := Encodable.encode (s.map Char.toNat)

theorem codeText_injective : Function.Injective codeText := by
  intro s t h
  have hmap := Encodable.encode_injective h
  exact List.map_injective_iff.mpr (fun a b hab => Char.ext (UInt32.toNat_inj.mp hab)) hmap

mutual
/-- **A number for every node**, different for different nodes: the
constructor and the numbers of the parts, paired. -/
def code : Node → Nat
  | zombie => Nat.pair 0 0
  | undefined => Nat.pair 1 0
  | null => Nat.pair 2 0
  | scalar s => Nat.pair 3 (codeText s)
  | sequence items => Nat.pair 4 (Encodable.encode (codeList items))
  | map entries => Nat.pair 5 (Encodable.encode (codeEntries entries))

/-- The numbers of the items of a sequence. -/
def codeList : List Node → List Nat
  | [] => []
  | n :: ns => code n :: codeList ns

/-- The numbers of the entries of a map. -/
def codeEntries : List (Node × Node) → List Nat
  | [] => []
  | (k, v) :: es => Nat.pair (code k) (code v) :: codeEntries es
end

/-- The first half of a node's number is its constructor. -/
theorem code_tag (n : Node) :
    (Nat.unpair (code n)).1 =
      match n with
      | zombie => 0 | undefined => 1 | null => 2 | scalar _ => 3 | sequence _ => 4 | map _ => 5 := by
  cases n <;> simp [code]

mutual
/-- **Different nodes have different numbers.** -/
theorem code_inj : ∀ {a b : Node}, code a = code b → a = b
  | zombie, b, h | undefined, b, h | null, b, h | scalar _, b, h | sequence _, b, h | map _, b, h => by
    -- the constructors agree, since the numbers start with them
    have ht := congrArg (fun n => (Nat.unpair n).1) h
    simp only [code_tag] at ht
    cases b <;> simp at ht
    simp only [code, Nat.pair_eq_pair] at h
    all_goals first
      | rfl
      | exact congrArg _ (codeText_injective h.2)
      | exact congrArg _ (codeList_inj (Encodable.encode_injective h.2))
      | exact congrArg _ (codeEntries_inj (Encodable.encode_injective h.2))

theorem codeList_inj : ∀ {xs ys : List Node}, codeList xs = codeList ys → xs = ys
  | [], [], _ => rfl
  | [], _ :: _, h => by simp [codeList] at h
  | _ :: _, [], h => by simp [codeList] at h
  | x :: xs, y :: ys, h => by
    simp only [codeList, List.cons.injEq] at h
    rw [code_inj h.1, codeList_inj h.2]

theorem codeEntries_inj : ∀ {xs ys : List (Node × Node)}, codeEntries xs = codeEntries ys → xs = ys
  | [], [], _ => rfl
  | [], _ :: _, h => by simp [codeEntries] at h
  | _ :: _, [], h => by simp [codeEntries] at h
  | (k, v) :: xs, (k', v') :: ys, h => by
    simp only [codeEntries, List.cons.injEq, Nat.pair_eq_pair] at h
    rw [code_inj h.1.1, code_inj h.1.2, codeEntries_inj h.2]
end

end Node

/-- Text the sample emitter writes as it is: not empty, and made of digits
and minus signs, as decimal numerals are. -/
def isNumeral (s : List Char) : Bool := !s.isEmpty && s.all fun ch => ch.isDigit || ch == '-'

/-- A text made from the number of a node. -/
def coded (n : Node) : List Char := 'x' :: List.replicate (Node.code n) 'a'

/-- **An emitter** that writes null as `~` and a numeral scalar as its text, as
yaml-cpp does, and every other node as the text made from its number. -/
def codeEmit : Node → List Char
  | .null => "~".toList
  | .scalar s => if isNumeral s then s else coded (.scalar s)
  | n => coded n

theorem coded_injective : Function.Injective coded := by
  intro a b h
  have hlen := congrArg List.length h
  simp only [coded, List.length_cons, List.length_replicate, Nat.add_right_cancel_iff] at hlen
  exact Node.code_inj hlen

theorem numeral_ne_tilde {s : List Char} (hs : isNumeral s = true) : s ≠ "~".toList := by
  rintro rfl
  exact absurd hs (by decide)

theorem numeral_ne_coded {s : List Char} (hs : isNumeral s = true) (n : Node) : s ≠ coded n := by
  rintro rfl
  exact absurd hs (by simp [isNumeral, coded, Char.isDigit])

theorem tilde_ne_coded (n : Node) : "~".toList ≠ coded n := by
  simp [coded]

/-- The three kinds of text `codeEmit` writes. -/
theorem codeEmit_cases (n : Node) :
    (n = .null ∧ codeEmit n = "~".toList) ∨
      (∃ s, n = .scalar s ∧ isNumeral s = true ∧ codeEmit n = s) ∨ codeEmit n = coded n := by
  cases n with
  | null => exact .inl ⟨rfl, rfl⟩
  | scalar s =>
    by_cases h : isNumeral s = true
    · exact .inr (.inl ⟨s, rfl, h, by simp [codeEmit, h]⟩)
    · exact .inr (.inr (by simp [codeEmit, h]))
  | zombie | undefined | sequence _ | map _ => exact .inr (.inr rfl)

theorem codeEmit_injective : Function.Injective codeEmit := by
  intro a b h
  rcases codeEmit_cases a with ⟨rfl, ha⟩ | ⟨s, rfl, hs, ha⟩ | ha <;>
    rcases codeEmit_cases b with ⟨rfl, hb⟩ | ⟨t, rfl, ht, hb⟩ | hb <;>
    simp only [ha, hb] at h
  · rfl
  · exact absurd h.symm (numeral_ne_tilde ht)
  · exact absurd h (tilde_ne_coded b)
  · exact absurd h (numeral_ne_tilde hs)
  · rw [h]
  · exact absurd h (numeral_ne_coded hs b)
  · exact absurd h.symm (tilde_ne_coded a)
  · exact absurd h.symm (numeral_ne_coded ht a)
  · exact coded_injective h

open Classical in
/-- **A parser that reads back what `codeEmit` writes**, and reads the empty
document as null, as yaml-cpp does. -/
noncomputable def codeLoad (s : List Char) : Option Node :=
  if h : ∃ n, codeEmit n = s then some (Classical.choose h)
  else if s = [] then some .null else none

/-- **Reading a key as an index the decimal way**: a scalar of decimal
digits. -/
def decimalIndex : Node → Option Nat
  | .scalar s =>
    if s ≠ [] ∧ s.all Char.isDigit then some (s.foldl (fun n c => 10 * n + (c.toNat - '0'.toNat)) 0)
    else none
  | _ => none

/-- **The library of `codeLoad`, `codeEmit` and `decimalIndex`.** -/
noncomputable def codeLib : Lib := ⟨codeLoad, codeEmit, decimalIndex⟩

theorem codeLib_loadsEmitted : codeLib.LoadsEmitted := by
  intro n _
  have h : ∃ m, codeEmit m = codeEmit n := ⟨n, rfl⟩
  show codeLoad (codeEmit n) = some n
  rw [codeLoad, dif_pos h]
  exact congrArg some (codeEmit_injective (Classical.choose_spec h))

/-- The empty document is null. -/
theorem codeLib_load_nil : codeLib.load [] = some .null := by
  have h : ¬ ∃ n, codeEmit n = [] := by
    rintro ⟨n, hn⟩
    rcases codeEmit_cases n with ⟨_, he⟩ | ⟨s, _, hs, he⟩ | he <;> rw [he] at hn
    · simp at hn
    · simp [hn, isNumeral] at hs
    · simp [coded] at hn
  show codeLoad [] = some .null
  rw [codeLoad, dif_neg h, if_pos rfl]

/-- A numeral is a plain scalar of `codeLib`. -/
theorem codeLib_plain {s : List Char} (hs : isNumeral s = true) : codeLib.Plain s :=
  Lib.plain_of_emit codeLib_loadsEmitted (by simp [codeLib, codeEmit, hs])

end Yaml
