/-
  File:      ArenaB/Base/Potential.lean
  Subject:   Counting along runs: what the steps of a run weigh together, and how a potential
             bounds it.

  * `System.Runs` -- a run from one state to another by a list of inputs;
  * `System.total w` -- the sum of the weights `w` of its steps, each taken in the state it is made
    in;
  * **`Runs.potential`** -- if every step that costs `c` and is paid `p` leaves a potential `m` that
    makes up for the difference, then so does every run. With a potential of the threads of a
    system this bounds the work of all of them by what happens between them. `Runs.spent` is the
    rule for what is paid by the potential alone, `Runs.tally` the one for any property that
    counts along;
  * `sum_map_set_le` -- a potential that is a sum over threads, when one of them moves and the
    others may each rise by `k`.
-/
import Mathlib.Algebra.Order.BigOperators.Group.List
import Mathlib.Algebra.Order.Ring.Nat
import ArenaB.Base.System

namespace Base

universe u v

namespace System

variable {S : Type u} {L : Type v} {M : System S L}

/-! ## 1. Runs -/

/-- The inputs lead from the first state to the second. -/
inductive Runs (M : System S L) : S → List L → S → Prop where
  | nil (s : S) : Runs M s [] s
  | cons {s s₁ s' : S} {l : L} {ls : List L} :
      M.ok s l → M.step s l = some s₁ → Runs M s₁ ls s' → Runs M s (l :: ls) s'

theorem Runs.of_replay [∀ s l, Decidable (M.ok s l)] :
    ∀ {s s' : S} {ls : List L}, M.replay s ls = some s' → M.Runs s ls s'
  | s, s', [], h => by
      cases h
      exact .nil s
  | s, s', l :: ls, h => by
      unfold System.replay at h
      split at h
      · rename_i hok
        obtain ⟨s₁, h₁, h₂⟩ := Option.bind_eq_some_iff.mp h
        exact .cons hok h₁ (of_replay h₂)
      · cases h

/-- A list of inputs, executed. -/
theorem exists_run_of_replay (M : System S L) [∀ s l, Decidable (M.ok s l)] (s : S) (ls : List L)
    {P : S → Prop} [DecidablePred P]
    (h : (M.replay s ls).any (fun s' => decide (P s')) = true) : ∃ s', M.Runs s ls s' ∧ P s' := by
  cases e : M.replay s ls with
  | none =>
      rw [e] at h
      cases h
  | some s' =>
      rw [e] at h
      exact ⟨s', .of_replay e, of_decide_eq_true h⟩

/-! ## 2. Weights -/

/-- What the steps weigh together. -/
def total (M : System S L) (w : S → L → Nat) : S → List L → Nat
  | _, [] => 0
  | s, l :: ls => w s l + ((M.step s l).map fun s' => total M w s' ls).getD 0

variable {w w₁ w₂ : S → L → Nat} {s s₁ s' : S} {l : L} {ls : List L}

theorem total_cons (e : M.step s l = some s₁) :
    M.total w s (l :: ls) = w s l + M.total w s₁ ls := by
  rw [total, e]
  rfl

theorem total_add (h : M.Runs s ls s') :
    M.total (fun s l => w₁ s l + w₂ s l) s ls = M.total w₁ s ls + M.total w₂ s ls := by
  induction h with
  | nil s => rfl
  | cons _ e _ ih =>
      rw [total_cons e, total_cons e, total_cons e, ih]
      omega

theorem total_mul (k : Nat) (h : M.Runs s ls s') :
    M.total (fun s l => k * w s l) s ls = k * M.total w s ls := by
  induction h with
  | nil s => rfl
  | cons _ e _ ih => rw [total_cons e, total_cons e, ih, Nat.mul_add]

theorem total_mono (hw : ∀ s l, w₁ s l ≤ w₂ s l) (h : M.Runs s ls s') :
    M.total w₁ s ls ≤ M.total w₂ s ls := by
  induction h with
  | nil s => exact Nat.le_refl _
  | cons _ e _ ih =>
      rw [total_cons e, total_cons e]
      exact Nat.add_le_add (hw _ _) ih

/-- **The potential rule**: what a run costs, and the potential it ends with, is covered by the
    potential it began with and what it was paid. -/
theorem Runs.potential {I : S → Prop} {m : S → Nat} {c p : S → L → Nat}
    (hinv : ∀ s l s', I s → M.ok s l → M.step s l = some s' → I s')
    (hstep : ∀ s l s', I s → M.ok s l → M.step s l = some s' → c s l + m s' ≤ m s + p s l)
    (h : M.Runs s ls s') (hs : I s) : M.total c s ls + m s' ≤ m s + M.total p s ls := by
  induction h with
  | nil s => exact Nat.le_of_eq (Nat.add_comm _ _)
  | cons hok e _ ih =>
      have h₁ := hstep _ _ _ hs hok e
      have h₂ := ih (hinv _ _ _ hs hok e)
      rw [total_cons e, total_cons e]
      omega

/-- The rule for a weight that nothing pays: it is used up. -/
theorem Runs.spent {I : S → Prop} {m : S → Nat} {c : S → L → Nat}
    (hinv : ∀ s l s', I s → M.ok s l → M.step s l = some s' → I s')
    (hstep : ∀ s l s', I s → M.ok s l → M.step s l = some s' → c s l + m s' ≤ m s)
    (h : M.Runs s ls s') (hs : I s) : M.total c s ls + m s' ≤ m s := by
  induction h with
  | nil s => exact Nat.le_of_eq (Nat.zero_add _)
  | cons hok e _ ih =>
      have h₁ := hstep _ _ _ hs hok e
      have h₂ := ih (hinv _ _ _ hs hok e)
      rw [total_cons e]
      omega

/-- **The rule for a property that counts**: if every step that weighs `w` takes it from `n` to
    `n + w`, a run takes it on by what its steps weigh together. -/
theorem Runs.tally {P : Nat → S → Prop}
    (hstep : ∀ n s l s', P n s → M.ok s l → M.step s l = some s' → P (n + w s l) s')
    (h : M.Runs s ls s') {n : Nat} (hs : P n s) : P (n + M.total w s ls) s' := by
  induction h generalizing n with
  | nil s => exact hs
  | cons hok e _ ih =>
      have h₁ := ih (hstep _ _ _ _ hs hok e)
      rwa [total_cons e, ← Nat.add_assoc]

end System

/-! ## 3. Sums over threads -/

section Sum

variable {α : Type u} {f g : α → Nat} {k : Nat} {l : List α}

theorem sum_map_le (h : ∀ x ∈ l, f x ≤ k) : (l.map f).sum ≤ l.length * k := by
  have hle : ∀ n ∈ l.map f, n ≤ k := by
    intro n hn
    obtain ⟨x, hx, rfl⟩ := List.mem_map.mp hn
    exact h x hx
  have := List.sum_le_card_nsmul _ k hle
  rwa [List.length_map] at this

/-- Each summand rises by `k` at most. -/
theorem sum_map_le_add (h : ∀ x ∈ l, g x ≤ f x + k) :
    (l.map g).sum ≤ (l.map f).sum + l.length * k := by
  have hsum : (l.map fun x => f x + k).sum = (l.map f).sum + l.length * k := by
    rw [List.sum_map_add, List.map_const', List.sum_replicate_nat]
  exact (List.sum_le_sum h).trans (Nat.le_of_eq hsum)

/-- An entry that is replaced by itself. -/
theorem set_self {t : Nat} {a : α} (ht : l[t]? = some a) : l.set t a = l := by
  obtain ⟨hlt, he⟩ := List.getElem?_eq_some_iff.mp ht
  rw [← he, List.set_getElem_self]

/-- One of the summands is replaced, and each of the others rises by `k` at most. -/
theorem sum_map_set_le {t : Nat} {a b : α} (ht : l[t]? = some a) (h : ∀ x ∈ l, g x ≤ f x + k) :
    ((l.set t b).map g).sum + f a ≤ (l.map f).sum + g b + (l.length - 1) * k := by
  induction l generalizing t with
  | nil => cases ht
  | cons c l ih =>
      have hl : ∀ x ∈ l, g x ≤ f x + k := fun x hx => h x (List.mem_cons_of_mem _ hx)
      simp only [List.length_cons, Nat.add_sub_cancel]
      cases t with
      | zero =>
          cases ht
          have := sum_map_le_add hl
          simp only [List.set_cons_zero, List.map_cons, List.sum_cons]
          omega
      | succ t =>
          have h₁ := h c List.mem_cons_self
          have h₂ := ih ht hl
          -- there is a summand behind the first, so its share of the rise is still open
          obtain ⟨n, hn⟩ : ∃ n, l.length = n + 1 := by
            cases l with
            | nil => cases ht
            | cons _ l => exact ⟨l.length, rfl⟩
          rw [hn, Nat.add_sub_cancel] at h₂
          simp only [List.set_cons_succ, List.map_cons, List.sum_cons, hn, Nat.succ_mul]
          omega

end Sum

end Base
