/-
# Standard containers as lists

The containers of the C++ standard library as the lists of their elements in
iteration order.  Insertion into a `std::set` or a `std::map` keeps the list
ordered by the comparison and inserts nothing when an equivalent element
(neither smaller nor larger) is there; insertion into a hashed container
inserts nothing when an equal element is there, and otherwise the element
joins at the end (the iteration order of a hashed container is unspecified,
and only its order-blind `==` is used of it).  The comparisons are the
lexicographic `<` of sequences and pairs, element-wise `==`, and the `==` of
unordered containers.

The main facts are what a codec needs: inserting, in order, the elements of a
list that is already ordered, or already free of duplicates, gives the list
back; and a loop over the indices of a list is a loop over its elements.
-/
import Mathlib.Data.List.Basic

namespace Container

universe u v

variable {α β : Type*}

/-! ## Insertion -/

/-- **`std::set::insert`** into a list ordered by `lt`: before the first larger
element, nothing when an equivalent one is there. -/
def insertSorted (lt : α → α → Bool) (x : α) : List α → List α
  | [] => [x]
  | a :: l => if lt x a then x :: a :: l else if lt a x then a :: insertSorted lt x l else a :: l

/-- **`insert` into a hashed container**: nothing when an equal element is
there; otherwise the element joins at the end. -/
def insertNew (eq : α → α → Bool) (x : α) (l : List α) : List α :=
  if l.any fun a => eq a x then l else l ++ [x]

/-- A comparison that never holds both ways. -/
def Asymm (lt : α → α → Bool) : Prop := ∀ a b, lt a b = true → lt b a = false

/-- An element larger than all goes at the end. -/
theorem insertSorted_of_lt {lt : α → α → Bool} (hlt : Asymm lt) {x : α} :
    ∀ {l : List α}, (∀ a ∈ l, lt a x = true) → insertSorted lt x l = l ++ [x]
  | [], _ => rfl
  | a :: l, h => by
    have hax : lt a x = true := h a List.mem_cons_self
    have hxa : lt x a = false := hlt a x hax
    rw [insertSorted, if_neg (by simp [hxa]), if_pos hax,
      insertSorted_of_lt hlt fun b hb => h b (List.mem_cons_of_mem a hb)]
    rfl

/-- An element equal to none goes at the end. -/
theorem insertNew_of_ne {eq : α → α → Bool} {x : α} {l : List α} (h : ∀ a ∈ l, eq a x = false) :
    insertNew eq x l = l ++ [x] := by
  rw [insertNew, if_neg]
  simpa using h

/-- **Inserting the elements of a list in order gives it back**, for an
insertion that puts at the end every element related by `R` to all before
it, and a list whose elements are so related pairwise. -/
theorem foldl_insert {R : α → α → Prop} (insert : α → List α → List α)
    (hins : ∀ x l, (∀ a ∈ l, R a x) → insert x l = l ++ [x]) :
    ∀ (acc l : List α), (acc ++ l).Pairwise R → l.foldl (fun acc x => insert x acc) acc = acc ++ l
  | acc, [], _ => by simp
  | acc, x :: l, h => by
    have hx : ∀ a ∈ acc, R a x :=
      fun a ha => (List.pairwise_append.mp h).2.2 a ha x List.mem_cons_self
    have h' : (acc ++ [x] ++ l).Pairwise R := by simpa using h
    rw [List.foldl_cons, hins x acc hx, foldl_insert insert hins (acc ++ [x]) l h']
    simp

theorem mem_insertSorted {lt : α → α → Bool} {x b : α} :
    ∀ {l : List α}, b ∈ insertSorted lt x l → b = x ∨ b ∈ l
  | [], h => by simpa [insertSorted] using h
  | a :: l, h => by
    unfold insertSorted at h
    split_ifs at h
    · simpa using h
    · rcases List.mem_cons.mp h with rfl | hb
      · exact .inr List.mem_cons_self
      · rcases mem_insertSorted hb with rfl | hb'
        · exact .inl rfl
        · exact .inr (List.mem_cons_of_mem a hb')
    · exact .inr h

/-- **`std::set::insert` keeps the list ordered**, for a transitive
comparison. -/
theorem insertSorted_pairwise {lt : α → α → Bool}
    (htrans : ∀ a b c, lt a b = true → lt b c = true → lt a c = true) {x : α} :
    ∀ {l : List α}, l.Pairwise (fun a b => lt a b = true) →
      (insertSorted lt x l).Pairwise (fun a b => lt a b = true)
  | [], _ => List.pairwise_singleton _ _
  | a :: l, hl => by
    rw [List.pairwise_cons] at hl
    unfold insertSorted
    split_ifs with hxa hax
    · -- before the first larger element, and so before all that follow it
      refine List.Pairwise.cons (fun b hb => ?_) (List.Pairwise.cons hl.1 hl.2)
      rcases List.mem_cons.mp hb with rfl | hb
      · exact hxa
      · exact htrans x a b hxa (hl.1 b hb)
    · refine List.Pairwise.cons (fun b hb => ?_) (insertSorted_pairwise htrans hl.2)
      rcases mem_insertSorted hb with rfl | hb
      · exact hax
      · exact hl.1 b hb
    · exact List.Pairwise.cons hl.1 hl.2

theorem foldl_insertSorted_pairwise {lt : α → α → Bool}
    (htrans : ∀ a b c, lt a b = true → lt b c = true → lt a c = true) :
    ∀ (xs acc : List α), acc.Pairwise (fun a b => lt a b = true) →
      (xs.foldl (fun acc x => insertSorted lt x acc) acc).Pairwise (fun a b => lt a b = true)
  | [], _, h => h
  | _ :: xs, _, h => foldl_insertSorted_pairwise htrans xs _ (insertSorted_pairwise htrans h)

/-- **A loop of insertions** inserts some elements in order. -/
theorem foldlM_of_inserts {γ : Type*} {insert : α → List α → List α} {f : List α → γ → Option (List α)}
    (hf : ∀ vec i l, f vec i = some l → ∃ x, l = insert x vec) :
    ∀ (is : List γ) (acc l : List α), is.foldlM f acc = some l →
      ∃ xs : List α, l = xs.foldl (fun acc x => insert x acc) acc
  | [], acc, l, h => ⟨[], by simpa using h.symm⟩
  | i :: is, acc, l, h => by
    rw [List.foldlM_cons] at h
    cases hfi : f acc i with
    | none => simp [hfi] at h
    | some l' =>
      obtain ⟨x, rfl⟩ := hf acc i l' hfi
      simp only [hfi, Option.bind_eq_bind, Option.bind_some] at h
      obtain ⟨xs, hxs⟩ := foldlM_of_inserts hf is _ l h
      exact ⟨x :: xs, hxs⟩

/-- **A loop keeps what each of its steps keeps.** -/
theorem foldlM_preserves {γ β : Type*} {P : β → Prop} {f : β → γ → Option β}
    (hf : ∀ b i b', f b i = some b' → P b → P b') :
    ∀ (is : List γ) (b r : β), is.foldlM f b = some r → P b → P r
  | [], b, r, h, hb => by
    rw [List.foldlM_nil] at h
    exact Option.some.inj h ▸ hb
  | i :: is, b, r, h, hb => by
    rw [List.foldlM_cons] at h
    obtain ⟨b', hb', h⟩ := Option.bind_eq_some_iff.mp h
    exact foldlM_preserves hf is b' r h (hf b i b' hb' hb)

/-! ## Comparison -/

/-- **`std::lexicographical_compare`**, the `<` of the sequence containers, of
`std::set`, `std::map` and `std::string`. -/
def lexLt (lt : α → α → Bool) : List α → List α → Bool
  | _, [] => false
  | [], _ :: _ => true
  | a :: as, b :: bs => lt a b || (!lt b a && lexLt lt as bs)

/-- **The `<` of `std::pair`.** -/
def pairLt (lt₁ : α → α → Bool) (lt₂ : β → β → Bool) (a b : α × β) : Bool :=
  lt₁ a.1 b.1 || (!lt₁ b.1 a.1 && lt₂ a.2 b.2)

/-- **The `==` of `std::pair`.** -/
def pairEq (eq₁ : α → α → Bool) (eq₂ : β → β → Bool) (a b : α × β) : Bool :=
  eq₁ a.1 b.1 && eq₂ a.2 b.2

/-- **The `==` of hashed containers with unique keys**: as many elements, and
each element of one equal to an element of the other. -/
def unorderedEq (eq : α → α → Bool) (xs ys : List α) : Bool :=
  xs.length == ys.length && xs.all fun x => ys.any fun y => eq x y

theorem lexLt_asymm {lt : α → α → Bool} (hlt : Asymm lt) : Asymm (lexLt lt) := by
  intro as
  induction as with
  | nil =>
    intro bs h
    cases bs with
    | nil => simp [lexLt] at h
    | cons b bs => rfl
  | cons a as ih =>
    intro bs h
    cases bs with
    | nil => simp [lexLt] at h
    | cons b bs =>
      simp only [lexLt] at h ⊢
      cases hab : lt a b with
      | true => simp [hlt a b hab]
      | false =>
        -- equivalent first elements: the tails decide
        simp only [hab, Bool.false_or, Bool.and_eq_true, Bool.not_eq_eq_eq_not, Bool.not_true] at h
        simp [h.1, ih bs h.2]

theorem pairLt_asymm {lt₁ : α → α → Bool} {lt₂ : β → β → Bool} (h₁ : Asymm lt₁) (h₂ : Asymm lt₂) :
    Asymm (pairLt lt₁ lt₂) := by
  intro a b h
  simp only [pairLt] at h ⊢
  cases hab : lt₁ a.1 b.1
  · have hba : lt₁ b.1 a.1 = false := by simp_all
    have h2 : lt₂ a.2 b.2 = true := by simp_all
    simp [hba, h₂ _ _ h2]
  · simp [h₁ _ _ hab]

theorem isEqv_refl {eq : α → α → Bool} : ∀ {xs : List α}, (∀ x ∈ xs, eq x x = true) → xs.isEqv xs eq = true
  | [], _ => rfl
  | x :: xs, h => by
    simp only [List.isEqv, Bool.and_eq_true]
    exact ⟨h x List.mem_cons_self, isEqv_refl fun y hy => h y (List.mem_cons_of_mem x hy)⟩

theorem unorderedEq_refl {eq : α → α → Bool} {xs : List α} (h : ∀ x ∈ xs, eq x x = true) :
    unorderedEq eq xs xs = true := by
  simp only [unorderedEq, beq_self_eq_true, Bool.true_and, List.all_eq_true, List.any_eq_true]
  exact fun x hx => ⟨x, hx, h x hx⟩

/-! ## Loops over indices -/

theorem foldlM_range'_getD {m : Type u → Type v} [Monad m] [LawfulMonad m] {γ : Type u}
    (f : γ → α → m γ) (d : α) :
    ∀ (pre l : List α) (b : γ),
      (List.range' pre.length l.length).foldlM (fun b i => f b ((pre ++ l).getD i d)) b = l.foldlM f b
  | _, [], _ => rfl
  | pre, x :: l, b => by
    have hx : (pre ++ x :: l).getD pre.length d = x := by simp
    have ih := foldlM_range'_getD f d (pre ++ [x]) l
    simp only [List.length_append, List.length_singleton, List.append_assoc, List.singleton_append] at ih
    rw [List.length_cons, List.range'_succ, List.foldlM_cons, List.foldlM_cons, hx]
    exact congrArg _ (funext ih)

/-- **A loop over the indices of a list is a loop over its elements.** -/
theorem foldlM_range_getD {m : Type u → Type v} [Monad m] [LawfulMonad m] {γ : Type u}
    (f : γ → α → m γ) (l : List α) (d : α) (b : γ) :
    (List.range l.length).foldlM (fun b i => f b (l.getD i d)) b = l.foldlM f b := by
  rw [List.range_eq_range']
  exact foldlM_range'_getD f d [] l b

end Container
