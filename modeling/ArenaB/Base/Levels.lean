/-
  File:      ArenaB/Base/Levels.lean
  Subject:   A row of vessels with fill levels, filled up to a top one, and cut back.

  Segmented stack storage in the abstract: vessels stand in a row, the one at the top index is
  being filled, all behind it are empty. `cut l i v` sets the level of vessel `i` to `v` and
  empties all behind it.

  * the algebra of `cut`: of an append (`cut_append`), of a cut further up (`cut_cut`), of a row
    changed at or behind the cut (`cut_set`), of a row at its own top (`cut_self`);
  * `Grown l i l'` -- cutting `l'` back to where `l` stands gives `l`, followed by empty vessels.
    Filling, adding a vessel and cutting no deeper than the top of `l` keep this (`Grown.set`,
    `.append`, `.cut`), and it composes (`Grown.trans`): whatever happens above a mark, the cut at
    the mark restores the row;
  * `total` -- the sum of the levels.
-/
import Mathlib.Data.List.Basic
import Mathlib.Algebra.BigOperators.Group.List.Basic
import Mathlib.Algebra.GroupWithZero.Nat

namespace Base

universe u

/-- How the level of a vessel is read and set. -/
structure Gauge (α : Type u) where
  level : α → Nat
  put : α → Nat → α
  level_put : ∀ a n, level (put a n) = n
  put_put : ∀ a m n, put (put a m) n = put a n
  put_level : ∀ a, put a (level a) = a

namespace Gauge

variable {α : Type u} (g : Gauge α)

/-- Sets vessel `i` to `v` and empties every vessel behind it. -/
def cut (l : List α) (i v : Nat) : List α :=
  l.mapIdx fun k a => if k < i then a else if k = i then g.put a v else g.put a 0

/-- Vessel `i` exists and every vessel behind it is empty. -/
structure Top (l : List α) (i : Nat) : Prop where
  lt : i < l.length
  empty : ∀ k a, i < k → l[k]? = some a → g.level a = 0

/-- The sum of the levels. -/
def total (l : List α) : Nat := (l.map g.level).sum

/-- Cutting `l'` back to the top of `l` gives `l` and empty vessels. -/
def Grown (l : List α) (i : Nat) (l' : List α) : Prop :=
  ∃ a e, l[i]? = some a ∧ g.cut l' i (g.level a) = l ++ e ∧ ∀ x ∈ e, g.level x = 0

variable {g} {l l' : List α} {i j v w : Nat}

theorem put_of_level {a : α} {n : Nat} (h : g.level a = n) : g.put a n = a := by
  rw [← h]
  exact g.put_level a

/-! ## 1. The algebra of `cut` -/

@[simp] theorem length_cut : (g.cut l i v).length = l.length := List.length_mapIdx

theorem getElem?_cut (k : Nat) : (g.cut l i v)[k]? = l[k]?.map fun a =>
    if k < i then a else if k = i then g.put a v else g.put a 0 := List.getElem?_mapIdx

theorem getElem?_cut_lt {k : Nat} (h : k < i) : (g.cut l i v)[k]? = l[k]? := by
  simp [getElem?_cut, h]

theorem getElem?_cut_self : (g.cut l i v)[i]? = l[i]?.map (g.put · v) := by
  simp [getElem?_cut]

theorem getElem?_cut_gt {k : Nat} (h : i < k) : (g.cut l i v)[k]? = l[k]?.map (g.put · 0) := by
  have h1 : ¬ k < i := by omega
  have h2 : k ≠ i := by omega
  simp [getElem?_cut, h1, h2]

theorem cut_append (h : i < l.length) (m : List α) :
    g.cut (l ++ m) i v = g.cut l i v ++ m.map (g.put · 0) := by
  unfold cut
  rw [List.mapIdx_append]
  congr 1
  refine List.ext_getElem? fun k => ?_
  have h1 : ¬ k + l.length < i := by omega
  have h2 : k + l.length ≠ i := by omega
  simp [h1, h2]

theorem cut_cut (h : i ≤ j) : g.cut (g.cut l j w) i v = g.cut l i v := by
  refine List.ext_getElem? fun k => ?_
  rcases Nat.lt_trichotomy k i with hk | hk | hk
  · rw [getElem?_cut_lt hk, getElem?_cut_lt hk, getElem?_cut_lt (by omega)]
  · subst hk
    rw [getElem?_cut_self, getElem?_cut_self, getElem?_cut, Option.map_map]
    congr 1
    funext a
    simp only [Function.comp_apply]
    split
    · rfl
    · split <;> exact g.put_put _ _ _
  · rw [getElem?_cut_gt hk, getElem?_cut_gt hk, getElem?_cut, Option.map_map]
    congr 1
    funext a
    simp only [Function.comp_apply]
    split
    · rfl
    · split <;> exact g.put_put _ _ _

/-- Changing a level at or behind the cut changes nothing. -/
theorem cut_set {a : α} (ha : l[j]? = some a) (h : i ≤ j) (n : Nat) :
    g.cut (l.set j (g.put a n)) i v = g.cut l i v := by
  refine List.ext_getElem? fun k => ?_
  rw [getElem?_cut, getElem?_cut, List.getElem?_set]
  by_cases hjk : j = k
  · subst hjk
    rw [if_pos rfl, if_pos (List.getElem?_eq_some_iff.mp ha).1, ha]
    have h1 : ¬ j < i := by omega
    simp only [Option.map_some, h1, if_false, g.put_put]
  · rw [if_neg hjk]

/-- A row cut at its own top is unchanged. -/
theorem cut_self (h : g.Top l i) {a : α} (ha : l[i]? = some a) : g.cut l i (g.level a) = l := by
  refine List.ext_getElem? fun k => ?_
  rcases Nat.lt_trichotomy k i with hk | hk | hk
  · exact getElem?_cut_lt hk
  · subst hk
    rw [getElem?_cut_self, ha, Option.map_some, g.put_level]
  · rw [getElem?_cut_gt hk]
    cases hb : l[k]? with
    | none => rfl
    | some b => rw [Option.map_some, put_of_level (h.empty k b hk hb)]

theorem top_cut (h : i < l.length) : g.Top (g.cut l i v) i := by
  refine ⟨by rwa [length_cut], fun k a hk ha => ?_⟩
  rw [getElem?_cut_gt hk, Option.map_eq_some_iff] at ha
  obtain ⟨b, _, rfl⟩ := ha
  exact g.level_put _ _

theorem Top.set (h : g.Top l i) (a : α) : g.Top (l.set i a) i := by
  refine ⟨by rw [List.length_set]; exact h.lt, fun k b hk hb => ?_⟩
  rw [List.getElem?_set_ne (by omega)] at hb
  exact h.empty k b hk hb

theorem top_append (m : List α) (a : α) : g.Top (m ++ [a]) m.length := by
  refine ⟨by simp, fun k b hk hb => ?_⟩
  rw [List.getElem?_eq_none (by simp; omega)] at hb
  cases hb

/-! ## 2. Growth above a mark -/

namespace Grown

theorem refl (h : g.Top l i) : g.Grown l i l := by
  obtain ⟨a, ha⟩ : ∃ a, l[i]? = some a := ⟨_, List.getElem?_eq_getElem h.lt⟩
  exact ⟨a, [], ha, by rw [cut_self h ha, List.append_nil], by simp⟩

theorem length_le (h : g.Grown l i l') : l.length ≤ l'.length := by
  obtain ⟨a, e, _, he, _⟩ := h
  have hl := congrArg List.length he
  rw [length_cut, List.length_append] at hl
  omega

theorem lt_length (h : g.Grown l i l') : i < l'.length := by
  have hl := h.length_le
  obtain ⟨a, _, ha, _⟩ := h
  exact Nat.lt_of_lt_of_le (List.getElem?_eq_some_iff.mp ha).1 hl

/-- Filling the top vessel or one behind it. -/
theorem set (h : g.Grown l i l') {a : α} (ha : l'[j]? = some a) (hij : i ≤ j) (n : Nat) :
    g.Grown l i (l'.set j (g.put a n)) := by
  obtain ⟨b, e, hb, he, hz⟩ := h
  exact ⟨b, e, hb, by rw [cut_set ha hij, he], hz⟩

/-- Adding vessels behind. -/
theorem append (h : g.Grown l i l') (m : List α) : g.Grown l i (l' ++ m) := by
  have hi := h.lt_length
  obtain ⟨b, e, hb, he, hz⟩ := h
  refine ⟨b, e ++ m.map (g.put · 0), hb, by rw [cut_append hi, he, List.append_assoc], ?_⟩
  intro x hx
  rcases List.mem_append.mp hx with hx | hx
  · exact hz x hx
  · obtain ⟨y, _, rfl⟩ := List.mem_map.mp hx
    exact g.level_put _ _

/-- Cutting at or behind the mark. -/
theorem cut (h : g.Grown l i l') (hij : i ≤ j) : g.Grown l i (g.cut l' j w) := by
  obtain ⟨b, e, hb, he, hz⟩ := h
  exact ⟨b, e, hb, by rw [cut_cut hij, he], hz⟩

/-- **Growth composes** as long as the tops rise. -/
theorem trans {l'' : List α} (h : g.Grown l i l') (h' : g.Grown l' j l'') (hij : i ≤ j) :
    g.Grown l i l'' := by
  obtain ⟨a', e', _, he', _⟩ := h'
  obtain ⟨a, e, ha, he, hz⟩ := h.append e'
  exact ⟨a, e, ha, by rw [← cut_cut hij, he', he], hz⟩

/-- The cut at the mark gives the row back, followed by empty vessels. -/
theorem restore (h : g.Grown l i l') {a : α} (ha : l[i]? = some a) :
    ∃ e, g.cut l' i (g.level a) = l ++ e ∧ ∀ x ∈ e, g.level x = 0 := by
  obtain ⟨b, e, hb, he, hz⟩ := h
  rw [ha] at hb
  cases hb
  exact ⟨e, he, hz⟩

end Grown

/-! ## 3. The sum of the levels -/

@[simp] theorem total_append (m : List α) : g.total (l ++ m) = g.total l + g.total m := by
  simp [total]

theorem total_of_empty {e : List α} (h : ∀ x ∈ e, g.level x = 0) : g.total e = 0 := by
  refine List.sum_eq_zero fun n hn => ?_
  obtain ⟨x, hx, rfl⟩ := List.mem_map.mp hn
  exact h x hx

theorem total_set {a : α} (ha : l[i]? = some a) (n : Nat) :
    g.total (l.set i (g.put a n)) + g.level a = g.total l + n := by
  induction l generalizing i with
  | nil => cases ha
  | cons b l ih =>
      cases i with
      | zero =>
          simp only [List.getElem?_cons_zero, Option.some.injEq] at ha
          subst ha
          simp only [total, List.set_cons_zero, List.map_cons, List.sum_cons, g.level_put]
          omega
      | succ i =>
          have h := ih ha
          simp only [total, List.set_cons_succ, List.map_cons, List.sum_cons] at h ⊢
          omega

/-- Behind the top there is nothing to count. -/
theorem total_take (h : g.Top l i) : g.total (l.take (i + 1)) = g.total l := by
  have hz : g.total (l.drop (i + 1)) = 0 := by
    refine total_of_empty fun x hx => ?_
    obtain ⟨k, hk⟩ := List.mem_iff_getElem?.mp hx
    rw [List.getElem?_drop] at hk
    exact h.empty _ x (by omega) hk
  conv_rhs => rw [← List.take_append_drop (i + 1) l, total_append, hz, Nat.add_zero]

end Gauge

end Base
