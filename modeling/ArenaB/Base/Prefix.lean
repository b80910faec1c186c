/-
  File:      ArenaB/Base/Prefix.lean
  Subject:   An array of which only a prefix is in use.

  The array is a list of fixed length, `take n` its used part; entries behind it are leftovers
  that no one may see. Three ways to change such an array, each told by what it does to the used
  part:

  * `take_set_last` -- writing behind the prefix and counting it adds an entry at the end;
  * `take_swapRemove` -- overwriting an entry with the last one and dropping the last removes that
    entry, up to order;
  * `take_shiftDown` -- the loop that copies everything from `k` on to the front drops the first
    `k` entries.
-/
import Mathlib.Data.List.Basic
import Mathlib.Data.List.Perm.Basic

namespace Base

universe u

variable {α : Type u}

/-- `l[n] = a; n += 1`. -/
theorem take_set_last {l : List α} {n : Nat} (h : n < l.length) (a : α) :
    (l.set n a).take (n + 1) = l.take n ++ [a] := by
  have hlen : n < (l.set n a).length := by rwa [List.length_set]
  rw [← List.take_append_getElem hlen, List.getElem_set_self, List.take_set_of_le (Nat.le_refl n)]

/-- Overwriting an entry with one that stood behind the list. -/
theorem perm_set {l : List α} {i : Nat} {a : α} (h : l[i]? = some a) (x : α) :
    (l ++ [x]).Perm (a :: l.set i x) := by
  induction l generalizing i with
  | nil => cases h
  | cons b l ih =>
      cases i with
      | zero =>
          cases h
          exact (List.perm_append_singleton x l).cons _
      | succ i => exact ((ih h).cons b).trans (.swap a b _)

/-- `l[i] = l[n - 1]`, for a used part of `n` entries. -/
def swapRemove (l : List α) (n i : Nat) (d : α) : List α := l.set i (l.getD (n - 1) d)

theorem length_swapRemove (l : List α) (n i : Nat) (d : α) :
    (swapRemove l n i d).length = l.length := List.length_set

/-- **Removing an entry by the last one.** -/
theorem take_swapRemove {l : List α} {n i : Nat} {a d : α} (hn : n ≤ l.length)
    (h : (l.take n)[i]? = some a) :
    (l.take n).Perm (a :: (swapRemove l n i d).take (n - 1)) := by
  have hi : i < n := by
    have := (List.getElem?_eq_some_iff.mp h).1
    rw [List.length_take] at this
    omega
  obtain ⟨m, rfl⟩ : ∃ m, n = m + 1 := ⟨n - 1, by omega⟩
  have hm : m < l.length := by omega
  have hlast : l.getD (m + 1 - 1) d = l[m] := by simp [hm]
  have hsplit : l.take (m + 1) = l.take m ++ [l[m]] := (List.take_append_getElem hm).symm
  rw [swapRemove, hlast, hsplit, Nat.add_sub_cancel]
  by_cases him : i = m
  · subst him
    rw [List.getElem?_take, if_pos hi, List.getElem?_eq_getElem hm] at h
    cases h
    rw [List.take_set_of_le (Nat.le_refl _)]
    exact List.perm_append_singleton _ _
  · rw [List.take_set]
    refine perm_set ?_ _
    rw [List.getElem?_take, if_pos hi] at h
    rw [List.getElem?_take, if_pos (by omega)]
    exact h

/-- `for i in k..k + m { l[i - k] = l[i] }`. -/
def shiftDown (k : Nat) (d : α) : Nat → List α → List α
  | 0, l => l
  | m + 1, l => (shiftDown k d m l).set m ((shiftDown k d m l).getD (m + k) d)

theorem length_shiftDown (k : Nat) (d : α) (m : Nat) (l : List α) :
    (shiftDown k d m l).length = l.length := by
  induction m with
  | zero => rfl
  | succ m ih => rw [shiftDown, List.length_set, ih]

/-- The loop has moved the entries below `m` and not yet touched the others. -/
theorem getElem?_shiftDown {k m : Nat} {l : List α} (d : α) (h : m + k ≤ l.length) (j : Nat) :
    (shiftDown k d m l)[j]? = if j < m then l[j + k]? else l[j]? := by
  induction m generalizing j with
  | zero => rfl
  | succ m ih =>
      have ih := ih (by omega)
      have hlt : m + k < l.length := by omega
      have hread : (shiftDown k d m l).getD (m + k) d = l[m + k] := by
        rw [List.getD_eq_getElem?_getD, ih, if_neg (by omega), List.getElem?_eq_getElem hlt]
        rfl
      rw [shiftDown, hread, List.getElem?_set, length_shiftDown]
      by_cases hj : m = j
      · subst hj
        rw [if_pos rfl, if_pos (by omega), if_pos (by omega), List.getElem?_eq_getElem hlt]
      · rw [if_neg hj, ih]
        by_cases hjm : j < m
        · rw [if_pos hjm, if_pos (by omega)]
        · rw [if_neg hjm, if_neg (by omega)]

/-- **Dropping the first entries by the loop.** -/
theorem take_shiftDown {k m : Nat} {l : List α} (d : α) (h : m + k ≤ l.length) :
    (shiftDown k d m l).take m = (l.take (m + k)).drop k := by
  refine List.ext_getElem? fun j => ?_
  rw [List.getElem?_take, List.getElem?_drop, List.getElem?_take, getElem?_shiftDown d h]
  by_cases hj : j < m
  · rw [if_pos hj, if_pos hj, if_pos (by omega), Nat.add_comm]
  · rw [if_neg hj, if_neg (by omega)]

end Base
