/-
  File:      ArenaB/Base/Pages.lean
  Subject:   Page states and a byte mark that bounds them.

  A page table says of every page whether it is accessible; page `p` starts at byte `p * ps`. One
  number `n` is compared with it in two ways:

  * `Full ps t n` -- every page that starts below `n` is accessible, so every byte below is
    (`Full.byte`);
  * `Clear ps t n` -- no page that starts at or behind `n` is, so what is accessible is no more
    than `n` bytes (`Clear.footprint`).

  `protect` changes the pages of a range. A range right behind the mark carries `Full` on to its
  end; `Clear` follows the end of every range made accessible, and may go back to the start of a
  range taken away if that range ended at the mark. `protect_bytes_iff` and `pages_below_iff` say
  what a range covers whose ends were rounded to whole pages.
-/
import Mathlib.Data.List.Nodup
import Mathlib.Data.List.Perm.Subperm

namespace Base

/-- Which pages are accessible. -/
abbrev Pages := Nat → Bool

namespace Pages

/-- No page is. -/
def none : Pages := fun _ => false

/-- Sets the pages of the `n` bytes from `o` on, `o` and `n` multiples of the page size `ps`. -/
def protect (ps : Nat) (t : Pages) (o n : Nat) (b : Bool) : Pages :=
  fun p => if o ≤ p * ps ∧ p * ps < o + n then b else t p

/-- Every page below byte `n` is accessible. -/
def Full (ps : Nat) (t : Pages) (n : Nat) : Prop := ∀ p, p * ps < n → t p = true

/-- No page at or behind byte `n` is accessible. -/
def Clear (ps : Nat) (t : Pages) (n : Nat) : Prop := ∀ p, n ≤ p * ps → t p = false

variable {ps : Nat} {t : Pages} {n : Nat}

theorem full_zero (ps : Nat) (t : Pages) : Full ps t 0 := fun _ h => absurd h (Nat.not_lt_zero _)

theorem clear_none (ps n : Nat) : Clear ps none n := fun _ _ => rfl

theorem Full.byte (h : Full ps t n) {x : Nat} (hx : x < n) : t (x / ps) = true :=
  h (x / ps) (Nat.lt_of_le_of_lt (Nat.div_mul_le_self x ps) hx)

theorem Full.protect (h : Full ps t n) (m : Nat) : Full ps (t.protect ps n m true) (n + m) := by
  intro p hp
  unfold Pages.protect
  split
  · rfl
  · rename_i hr
    exact h p (by omega)

theorem Clear.protect (h : Clear ps t n) (o m : Nat) :
    Clear ps (t.protect ps o m true) (max n (o + m)) := by
  intro p hp
  have hle : n ≤ p * ps := Nat.le_trans (Nat.le_max_left _ _) hp
  have hge : o + m ≤ p * ps := Nat.le_trans (Nat.le_max_right _ _) hp
  unfold Pages.protect
  rw [if_neg (by omega)]
  exact h p hle

theorem Clear.unprotect (h : Clear ps t n) (o m : Nat) : Clear ps (t.protect ps o m false) n := by
  intro p hp
  unfold Pages.protect
  split
  · rfl
  · exact h p hp

/-- The mark may go back over a range that is taken away. -/
theorem Clear.unprotect_tail {o m : Nat} (h : Clear ps t (o + m)) :
    Clear ps (t.protect ps o m false) o := by
  intro p hp
  unfold Pages.protect
  split
  · rfl
  · exact h p (by omega)

section Rounded

variable {o k m j : Nat}

/-- **A range whose start was rounded up**: its pages cover the bytes asked for exactly if the start
    was on a page border, or the page it fell into was accessible before. -/
theorem protect_bytes_iff (hps : 0 < ps) (hlo : o ≤ k * ps) (hhi : k * ps < o + ps) (hn : 0 < n)
    (hend : o + n ≤ k * ps + m) :
    (∀ x, o ≤ x → x < o + n → t.protect ps (k * ps) m true (x / ps) = true) ↔
      (o = k * ps ∨ t (o / ps) = true) := by
  have hfloor : ∀ x, x / ps * ps ≤ x := fun x => Nat.div_mul_le_self x ps
  constructor
  · intro hall
    by_cases ho : o = k * ps
    · exact Or.inl ho
    · have hfirst := hall o (Nat.le_refl o) (by omega)
      have hbelow := hfloor o
      rw [Pages.protect, if_neg (by omega)] at hfirst
      exact Or.inr hfirst
  · intro hstart x hox hxn
    have hx := hfloor x
    unfold Pages.protect
    split
    · rfl
    · -- The page of `x` starts before the rounded start: it is the page of `o`.
      rename_i hout
      have hlt : x / ps < k := Nat.lt_of_mul_lt_mul_right (a := ps) (by omega)
      rcases hstart with ho | ht
      · have hge : k ≤ x / ps := (Nat.le_div_iff_mul_le hps).mpr (by omega)
        omega
      · have hmono : o / ps ≤ x / ps := Nat.div_le_div_right hox
        have hk : k ≤ o / ps + 1 := by
          have hnext : o < (o / ps + 1) * ps := by
            rw [Nat.mul_comm]
            exact Nat.lt_mul_div_succ o hps
          have hlt' : k < o / ps + 2 := by
            refine Nat.lt_of_mul_lt_mul_right (a := ps) ?_
            rw [Nat.succ_mul]
            omega
          omega
        have heq : x / ps = o / ps := by omega
        rw [heq]
        exact ht

/-- **A range of whole pages**: each of them starts before byte `n` exactly if the last one does. -/
theorem pages_below_iff (hps : 0 < ps) (hk : k * ps < n + ps) :
    (∀ p, k * ps ≤ p * ps → p * ps < k * ps + j * ps → p * ps < n) ↔
      k * ps + j * ps < n + ps := by
  constructor
  · intro hall
    cases j with
    | zero => omega
    | succ j =>
        have hlast := hall (k + j) (Nat.mul_le_mul_right ps (Nat.le_add_right k j))
          (by rw [Nat.add_mul, Nat.succ_mul]; omega)
        rw [Nat.add_mul] at hlast
        rw [Nat.succ_mul]
        omega
  · intro hend p _ hp
    have hlt : p < k + j := Nat.lt_of_mul_lt_mul_right (a := ps) (by rwa [Nat.add_mul])
    have hle : (p + 1) * ps ≤ (k + j) * ps := Nat.mul_le_mul_right ps hlt
    rw [Nat.succ_mul, Nat.add_mul] at hle
    omega

end Rounded

/-- **What is accessible is no more than the mark says.** -/
theorem Clear.footprint (h : Clear ps t n) (hn : ps ∣ n) (k : Nat) :
    ps * (List.range k).countP t ≤ n := by
  obtain ⟨q, rfl⟩ := hn
  refine Nat.mul_le_mul_left ps ?_
  rw [List.countP_eq_length_filter]
  have hsub : (List.range k).filter t ⊆ List.range q := by
    intro p hp
    have htp := (List.mem_filter.mp hp).2
    by_contra hq
    have hle : q ≤ p := by simpa using hq
    have := h p (by rw [Nat.mul_comm ps q]; exact Nat.mul_le_mul_right ps hle)
    rw [this] at htp
    cases htp
  have hlen := (List.subperm_of_subset (List.nodup_range.filter _) hsub).length_le
  rwa [List.length_range] at hlen

end Pages

end Base
