/-
  File:      ArenaB/Base/Chain.lean
  Subject:   Linked lists in a heap.

  `Chain next a l` -- following `next` from address `a` visits the addresses `l` in order and
  ends at the null address `0`. `next` is `none` where nothing is allocated, so every address of a
  chain is allocated (`Chain.alloc`). A change of the heap outside the chain leaves it alone
  (`Chain.frame`); `Chain.cons` pushes, `Chain.uncons` pops.
-/
import Mathlib.Data.List.Basic

namespace Base

/-- Following `next` from `a` visits `l` and ends at `0`. -/
inductive Chain (next : Nat → Option Nat) : Nat → List Nat → Prop where
  | nil : Chain next 0 []
  | cons {a b : Nat} {l : List Nat} :
      a ≠ 0 → next a = some b → Chain next b l → Chain next a (a :: l)

namespace Chain

variable {next next' : Nat → Option Nat} {a : Nat} {l : List Nat}

theorem frame (h : Chain next a l) (he : ∀ x ∈ l, next' x = next x) : Chain next' a l := by
  induction h with
  | nil => exact .nil
  | cons ha hn _ ih =>
      refine .cons ha ?_ (ih fun x hx => he x (List.mem_cons_of_mem _ hx))
      rw [he _ List.mem_cons_self, hn]

theorem alloc (h : Chain next a l) : ∀ x ∈ l, next x ≠ none := by
  induction h with
  | nil => exact fun _ hx => nomatch hx
  | cons _ hn _ ih =>
      intro x hx
      rcases List.mem_cons.mp hx with rfl | hx
      · rw [hn]
        exact Option.some_ne_none _
      · exact ih x hx

theorem eq_nil (h : Chain next 0 l) : l = [] := by
  cases h with
  | nil => rfl
  | cons ha _ _ => exact absurd rfl ha

/-- A chain from a non-null address has a first node. -/
theorem uncons (h : Chain next a l) (ha : a ≠ 0) :
    ∃ b l', next a = some b ∧ l = a :: l' ∧ Chain next b l' := by
  cases h with
  | nil => exact absurd rfl ha
  | cons _ hn hc => exact ⟨_, _, hn, rfl, hc⟩

end Chain

end Base
