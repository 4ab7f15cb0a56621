/-
# The registry of config variables

`Config` of `config.h` and `config.cc`: the registry `GetDatas()`, an
`std::unordered_map` from names to `ConfigVarBase::ptr`, and
`Config::LoadFromYaml`, which flattens a YAML document into dotted key paths
(`ListAllMember`) and hands each node to the variable that its lower-cased
path names.  A registered variable is a pointer of type `V`; what its virtual
`fromString` does through it is a parameter acting on the rest of the program,
of type `W`.

`ListAllMember` checks each path against the lower-case alphabet of names
before `LoadFromYaml` lower-cases it, and drops the subtree of a path that
fails.  The first section shows that this drop is a filter of the paths of the
document by the same check; the last compares the variables reached with the
chains of keys that name them.
-/
import Sylar.Yaml

namespace Sylar

open Yaml

namespace Config

/-! ## Names and paths -/

/-- The characters of `"abcdefghijklmnopqrstuvwxyz._0123456789"`, those of a
name. -/
def nameChars : List Char := "abcdefghijklmnopqrstuvwxyz._0123456789".toList

/-- **`name.find_first_not_of(nameChars) == npos`**: every character of the
name is one of `nameChars`. -/
def isValidName (name : List Char) : Bool := name.all fun ch => nameChars.contains ch

/-- **`YAML::Node::Scalar()`** of a key: the text of a scalar, empty
otherwise. -/
def keyText : Node → List Char
  | .scalar s => s
  | _ => []

@[simp] theorem keyText_scalar (s : List Char) : keyText (.scalar s) = s := rfl

/-- **The path of an entry under `prefix`**: the key alone under the empty
prefix, otherwise after a dot. -/
def joinKey (pre key : List Char) : List Char := if pre.isEmpty then key else pre ++ '.' :: key

mutual
/-- **`ListAllMember`**: nothing under a path with a character not in
`nameChars`; otherwise the path and its node, then, for a map, the members of
each entry in order. -/
def listAllMember (pre : List Char) : Node → List (List Char × Node)
  | .map entries => if isValidName pre then (pre, .map entries) :: listAllEntries pre entries else []
  | node => if isValidName pre then [(pre, node)] else []

/-- The loop of `ListAllMember` over the entries of a map. -/
def listAllEntries (pre : List Char) : List (Node × Node) → List (List Char × Node)
  | [] => []
  | (k, v) :: es => listAllMember (joinKey pre (keyText k)) v ++ listAllEntries pre es
end

/-! ## What `ListAllMember` lists -/

mutual
/-- **The members of a document under a path**, unchecked: the path and its
node, then, for a map, the members of each entry in order. -/
def allMembers (pre : List Char) : Node → List (List Char × Node)
  | .map entries => (pre, .map entries) :: allEntries pre entries
  | node => [(pre, node)]

/-- The members of the entries of a map. -/
def allEntries (pre : List Char) : List (Node × Node) → List (List Char × Node)
  | [] => []
  | (k, v) :: es => allMembers (joinKey pre (keyText k)) v ++ allEntries pre es
end

/-- A valid path has a valid prefix. -/
theorem isValidName_of_joinKey {pre key : List Char} (h : isValidName (joinKey pre key) = true) :
    isValidName pre = true := by
  unfold joinKey at h
  split at h
  · rename_i hpre
    rw [List.isEmpty_iff.mp hpre]
    rfl
  · simp only [isValidName, List.all_append, Bool.and_eq_true] at h
    exact h.1

mutual
/-- **Every path below a prefix extends it**, so a valid path lies under a
valid prefix. -/
theorem isValidName_of_mem_allMembers (pre : List Char) :
    ∀ (node : Node) (e : List Char × Node), e ∈ allMembers pre node → isValidName e.1 = true →
      isValidName pre = true
  | .map entries, e, he, hv => by
    simp only [allMembers, List.mem_cons] at he
    rcases he with rfl | he
    · exact hv
    · exact isValidName_of_mem_allEntries pre entries e he hv
  | .zombie, e, he, hv | .undefined, e, he, hv | .null, e, he, hv | .scalar _, e, he, hv
  | .sequence _, e, he, hv => by
    simp only [allMembers, List.mem_singleton] at he
    subst he
    exact hv

theorem isValidName_of_mem_allEntries (pre : List Char) :
    ∀ (es : List (Node × Node)) (e : List Char × Node), e ∈ allEntries pre es → isValidName e.1 = true →
      isValidName pre = true
  | [], _, he, _ => absurd he List.not_mem_nil
  | (k, v) :: es, e, he, hv => by
    rcases List.mem_append.mp he with he | he
    · exact isValidName_of_joinKey (isValidName_of_mem_allMembers _ v e he hv)
    · exact isValidName_of_mem_allEntries pre es e he hv
end

mutual
/-- **`ListAllMember` lists the members whose path is valid**: the subtree it
drops under an invalid path holds only invalid paths. -/
theorem listAllMember_eq_filter (pre : List Char) :
    ∀ node : Node, listAllMember pre node = (allMembers pre node).filter fun e => isValidName e.1
  | .map entries => by
    by_cases hpre : isValidName pre = true
    · simp only [listAllMember, allMembers, List.filter_cons, hpre, ↓reduceIte,
        listAllEntries_eq_filter pre entries]
    · -- every path below extends the invalid one
      simp only [listAllMember, hpre, Bool.false_eq_true, if_false]
      refine (List.filter_eq_nil_iff.mpr fun e he hv => hpre ?_).symm
      exact isValidName_of_mem_allMembers pre _ e he hv
  | .zombie | .undefined | .null | .scalar _ | .sequence _ => by
    by_cases hpre : isValidName pre = true <;> simp [listAllMember, allMembers, hpre]

theorem listAllEntries_eq_filter (pre : List Char) :
    ∀ es : List (Node × Node), listAllEntries pre es = (allEntries pre es).filter fun e => isValidName e.1
  | [] => rfl
  | (k, v) :: es => by
    rw [listAllEntries, allEntries, List.filter_append, listAllMember_eq_filter,
      listAllEntries_eq_filter pre es]
end

/-! ## Loading a document -/

section Load

variable {V W : Type}

/-- **`Config::LookupBase`**: the pointer registered under the name, `nullptr`
(`none`) when there is none. -/
def lookupBase (datas : List (List Char × V)) (name : List Char) : Option V :=
  (datas.find? fun e => e.1 == name).map Prod.snd

/-- The text `LoadFromYaml` hands to `fromString`: a scalar's text, any other
node emitted. -/
def nodeText (y : Lib) : Node → List Char
  | .scalar s => s
  | node => y.emit node

@[simp] theorem nodeText_scalar (y : Lib) (s : List Char) : nodeText y (.scalar s) = s := rfl

@[simp] theorem nodeText_sequence (y : Lib) (items : List Node) :
    nodeText y (.sequence items) = y.emit (.sequence items) := rfl

/-- **`Config::LoadFromYaml`**: for each member of the document with a
non-empty path, the variable registered under the lower-cased path, if any,
reads the node's text.  `fromString` is the variable's virtual
`fromString`, whose result `LoadFromYaml` ignores. -/
def loadFromYaml (datas : List (List Char × V)) (fromString : V → List Char → W → W × Bool)
    (y : Lib) (root : Node) (w : W) : W :=
  (listAllMember [] root).foldl (fun w i =>
    if i.1.isEmpty then w
    else
      match lookupBase datas (i.1.map Char.toLower) with
      | some var => (fromString var (nodeText y i.2) w).1
      | none => w) w

/-- **The calls `LoadFromYaml` makes**, in order: the variable and the text it
reads. -/
def deliveries (datas : List (List Char × V)) (y : Lib) (root : Node) : List (V × List Char) :=
  (listAllMember [] root).filterMap fun i =>
    if i.1.isEmpty then none
    else (lookupBase datas (i.1.map Char.toLower)).map fun var => (var, nodeText y i.2)

/-- **`LoadFromYaml` is its calls in turn.** -/
theorem loadFromYaml_eq_deliveries (datas : List (List Char × V))
    (fromString : V → List Char → W → W × Bool) (y : Lib) (root : Node) (w : W) :
    loadFromYaml datas fromString y root w =
      (deliveries datas y root).foldl (fun w d => (fromString d.1 d.2 w).1) w := by
  rw [deliveries, List.foldl_filterMap, loadFromYaml]
  congr 1
  funext w i
  -- a member with the empty path, or a path that names no variable, is skipped
  by_cases hi : i.1.isEmpty = true
  · simp [hi]
  · simp only [hi, Bool.false_eq_true, if_false]
    cases lookupBase datas (i.1.map Char.toLower) <;> rfl

end Load

/-! ## The chains of keys of a document -/

mutual
/-- **The chains of map entries of a document**, in pre-order: the keys from
the root and the node reached, the empty chain to the root first. -/
def chains : Node → List (List (List Char) × Node)
  | .map entries => ([], .map entries) :: entryChains entries
  | node => [([], node)]

/-- The chains through the entries of a map. -/
def entryChains : List (Node × Node) → List (List (List Char) × Node)
  | [] => []
  | (k, v) :: es => (chains v).map (fun c => (keyText k :: c.1, c.2)) ++ entryChains es
end

mutual
/-- **The members of a document are its chains**, each joined as
`ListAllMember` joins paths. -/
theorem allMembers_eq_chains (pre : List Char) :
    ∀ node : Node, allMembers pre node = (chains node).map fun c => (c.1.foldl joinKey pre, c.2)
  | .map entries => by
    rw [allMembers, chains, List.map_cons, allEntries_eq_chains pre entries]
    rfl
  | .zombie | .undefined | .null | .scalar _ | .sequence _ => rfl

theorem allEntries_eq_chains (pre : List Char) :
    ∀ es : List (Node × Node),
      allEntries pre es = (entryChains es).map fun c => (c.1.foldl joinKey pre, c.2)
  | [] => rfl
  | (k, v) :: es => by
    rw [allEntries, entryChains, List.map_append, List.map_map, allMembers_eq_chains,
      allEntries_eq_chains pre es]
    rfl
end

/-- Below a non-empty path, each key follows a dot. -/
theorem foldl_joinKey (ks : List (List Char)) :
    ∀ pre : List Char, pre ≠ [] → ks.foldl joinKey pre = pre ++ ks.flatMap ('.' :: ·) := by
  induction ks with
  | nil => intro pre _; simp
  | cons k ks ih =>
    intro pre hpre
    have hjoin : joinKey pre k = pre ++ '.' :: k := by simp [joinKey, hpre]
    rw [List.foldl_cons, hjoin, ih _ (by simp), List.flatMap_cons, List.append_assoc]

/-- `k1.k2...kj`, the keys joined with dots. -/
theorem intercalate_dot (k : List Char) :
    ∀ ks : List (List Char), ['.'].intercalate (k :: ks) = k ++ ks.flatMap ('.' :: ·)
  | [] => by simp
  | k' :: ks => by
    rw [List.intercalate_cons_cons, intercalate_dot k' ks, List.flatMap_cons]
    simp

/-- **`ListAllMember` joins a chain with dots** when its first key is not
empty; under an empty first key it drops the dot after it. -/
theorem foldl_joinKey_nil {k : List Char} (hk : k ≠ []) (ks : List (List Char)) :
    (k :: ks).foldl joinKey [] = ['.'].intercalate (k :: ks) := by
  rw [List.foldl_cons, show joinKey [] k = k from rfl, foldl_joinKey ks k hk, intercalate_dot]

/-! ## The variables a document reaches -/

section Spec

variable {V W : Type}

/-- **The calls a document should give**: for each chain of at least one key
whose keys, joined with dots and lower-cased, form a valid name, the variable
of that name reads the node's text. -/
def specDeliveries (datas : List (List Char × V)) (y : Lib) (root : Node) : List (V × List Char) :=
  (chains root).filterMap fun c =>
    if c.1 = [] then none
    else
      let key := (['.'].intercalate c.1).map Char.toLower
      if isValidName key then (lookupBase datas key).map fun var => (var, nodeText y c.2) else none

/-- Keys that lower-casing leaves as they are, joined with dots, stay so. -/
theorem map_toLower_intercalate {ks : List (List Char)} (h : ∀ k ∈ ks, k.map Char.toLower = k) :
    (['.'].intercalate ks).map Char.toLower = ['.'].intercalate ks := by
  cases ks with
  | nil => rfl
  | cons k ks =>
    have hdot : Char.toLower '.' = '.' := by decide
    rw [intercalate_dot, List.map_append, List.map_flatMap, h k List.mem_cons_self]
    congr 1
    refine List.flatMap_congr fun k' hk' => ?_
    rw [List.map_cons, hdot, h k' (List.mem_cons_of_mem k hk')]

/-- **On a document whose keys are lower-case, with no empty key at the
top, `LoadFromYaml` makes the calls its chains of keys ask for.** -/
theorem deliveries_eq_specDeliveries (datas : List (List Char × V)) (y : Lib) (root : Node)
    (hlower : ∀ c ∈ chains root, ∀ k ∈ c.1, k.map Char.toLower = k)
    (hhead : ∀ c ∈ chains root, ∀ k ∈ c.1.head?, k ≠ []) :
    deliveries datas y root = specDeliveries datas y root := by
  rw [deliveries, listAllMember_eq_filter, allMembers_eq_chains, List.filterMap_filter,
    List.filterMap_map, specDeliveries]
  refine List.filterMap_congr fun c hc => ?_
  obtain ⟨ks, n⟩ := c
  cases ks with
  | nil => rfl
  | cons k ks =>
    -- the path is the dotted chain, already lower-case and not empty
    have hk : k ≠ [] := hhead _ hc k rfl
    have hlow := map_toLower_intercalate (hlower _ hc)
    have hne : (['.'].intercalate (k :: ks)).isEmpty = false := by
      rw [intercalate_dot]
      cases k with
      | nil => exact absurd rfl hk
      | cons ch k => rfl
    simp only [Function.comp_apply, foldl_joinKey_nil hk, hlow, hne, reduceCtorEq, if_false,
      Bool.false_eq_true]

/-- A document with an upper-case key, `System: {port: 9900}`. -/
def upperRoot : Node :=
  .map [(.scalar "System".toList, .map [(.scalar "port".toList, .scalar "9900".toList)])]

/-- **A key with an upper-case letter reaches no variable.**  The chain
`System`, `port` names `system.port` once lower-cased, and so should reach the
variable of that name; but `ListAllMember` rejects the path `System` before
`LoadFromYaml` lower-cases anything, and drops its subtree. -/
theorem loadFromYaml_upper_case_key (var : V) (fromString : V → List Char → W → W × Bool) (y : Lib)
    (w : W) :
    specDeliveries [("system.port".toList, var)] y upperRoot = [(var, "9900".toList)] ∧
      deliveries [("system.port".toList, var)] y upperRoot = [] ∧
      loadFromYaml [("system.port".toList, var)] fromString y upperRoot w = w := by
  -- `System` fails the check before it is lower-cased: only the root is listed
  have hlist : listAllMember [] upperRoot = [([], upperRoot)] := rfl
  have hdeliv : deliveries [("system.port".toList, var)] y upperRoot = [] := by
    rw [deliveries, hlist]
    rfl
  refine ⟨rfl, hdeliv, ?_⟩
  rw [loadFromYaml_eq_deliveries, hdeliv]
  rfl

end Spec

end Config

end Sylar
