/-
# Transition systems

The reachable states of a step relation and the rule that proves a property
of all of them: it holds at the start and every step keeps it.  A step
relation is usually given by actions, each enabled in some states and each
computing the next state; `Steps` builds the relation from the two.

Nothing here is about a particular program; the models of the later modules
instantiate it with their own states and actions.
-/
import Mathlib.Logic.Relation

namespace Transition

open Relation

variable {σ α : Type*}

/-- **One step by an action**: some action enabled at `s` moves it to `t`. -/
def Steps (enabled : σ → α → Prop) (step : σ → α → σ) (s t : σ) : Prop :=
  ∃ a, enabled s a ∧ t = step s a

/-- **Inductive invariants.** `P` holds at `init` and every step keeps it. -/
structure Invariant (r : σ → σ → Prop) (init : σ) (P : σ → Prop) : Prop where
  holds_init : P init
  preserved : ∀ s t, P s → r s t → P t

/-- **An inductive invariant holds at every reachable state.** -/
theorem Invariant.reachable {r : σ → σ → Prop} {init : σ} {P : σ → Prop}
    (h : Invariant r init P) {s : σ} (hs : ReflTransGen r init s) : P s := by
  induction hs with
  | refl => exact h.holds_init
  | tail _ hst ih => exact h.preserved _ _ ih hst

/-- **Invariants of `Steps`**: each enabled action keeps `P`. -/
theorem Invariant.of_actions {enabled : σ → α → Prop} {step : σ → α → σ} {init : σ}
    {P : σ → Prop} (h0 : P init) (h : ∀ s a, P s → enabled s a → P (step s a)) :
    Invariant (Steps enabled step) init P := by
  refine ⟨h0, ?_⟩
  rintro s t hs ⟨a, ha, rfl⟩
  exact h s a hs ha

/-- **Every action of a list is enabled where it is taken**, from `s`. -/
def AllEnabled (enabled : σ → α → Prop) (step : σ → α → σ) : List α → σ → Prop
  | [], _ => True
  | a :: as, s => enabled s a ∧ AllEnabled enabled step as (step s a)

instance decidableAllEnabled {enabled : σ → α → Prop} {step : σ → α → σ}
    [∀ s a, Decidable (enabled s a)] : ∀ (as : List α) (s : σ), Decidable (AllEnabled enabled step as s)
  | [], _ => isTrue trivial
  | a :: as, s => @instDecidableAnd _ _ inferInstance (decidableAllEnabled as (step s a))

/-- **A run of enabled actions** reaches the state after them. -/
theorem steps_of_allEnabled {enabled : σ → α → Prop} {step : σ → α → σ} :
    ∀ (as : List α) (s : σ), AllEnabled enabled step as s →
      ReflTransGen (Steps enabled step) s (as.foldl step s)
  | [], _, _ => ReflTransGen.refl
  | a :: as, s, ⟨ha, has⟩ => ReflTransGen.head ⟨a, ha, rfl⟩ (steps_of_allEnabled as (step s a) has)

end Transition
