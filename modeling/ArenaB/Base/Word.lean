/-
  File:      ArenaB/Base/Word.lean
  Subject:   64-bit words as natural numbers: wrapping addition and subtraction, complement, and
             the rounding of an offset up to an alignment by a bit mask.

  A word is a `Nat` below `wordMod`; an operation that wraps in a release build takes the
  remainder explicitly. `alignUp x a` is the mask computation `(x + a - 1) & !(a - 1)`:

  * `alignUp_add_and` -- without a wrap it is `x + a - 1` less its bits under the mask;
  * `le_alignUp`, `alignUp_lt` -- it lies in `[x, x + a)`, for EVERY `a > 0`;
  * `dvd_alignUp`, `alignUp_le` -- for a power of two it is the least multiple of `a` from `x` on;
  * `alignUp_wrapped` -- and 0 where the sum passes the word size;
  * `roundUp` -- the same rounding in exact arithmetic, of which a word keeps the remainder
    (`alignUp_eq_mod`).
-/
import Mathlib.Algebra.Order.Floor.Div
import Mathlib.Data.Nat.Bitwise
import Mathlib.Order.Bounds.Defs
import Mathlib.Tactic.Ring

namespace Base

/-- The number of values of a 64-bit word. -/
def wordMod : Nat := 2 ^ 64

/-- Addition of a release build: wraps silently. -/
def wadd (a b : Nat) : Nat := (a + b) % wordMod

/-- Subtraction of a release build: wraps silently. -/
def wsub (a b : Nat) : Nat := (wordMod + a - b) % wordMod

/-- Bitwise complement of a word. -/
def wnot (a : Nat) : Nat := wordMod - 1 - a

/-- `checked_add`: `none` on overflow. -/
def checkedAdd (a b : Nat) : Option Nat := if a + b < wordMod then some (a + b) else none

/-- `(value + align - 1) & !(align - 1)`. -/
def alignUp (value align : Nat) : Nat := wsub (wadd value align) 1 &&& wnot (wsub align 1)

theorem wadd_eq {a b : Nat} (h : a + b < wordMod) : wadd a b = a + b := Nat.mod_eq_of_lt h

theorem wsub_eq {a b : Nat} (hb : b ≤ a) (ha : a < wordMod) : wsub a b = a - b := by
  have e : wordMod + a - b = (a - b) + wordMod := by omega
  rw [wsub, e, Nat.add_mod_right]
  exact Nat.mod_eq_of_lt (by omega)

theorem wsub_one {a : Nat} (ha : 0 < a) (h : a ≤ wordMod) : wsub a 1 = a - 1 := by
  by_cases hw : a < wordMod
  · exact wsub_eq ha hw
  · have : a = wordMod := by omega
    subst this
    rfl

/-- Clearing the bits of `m` removes exactly the bits `x` shares with `m`. -/
theorem and_wnot_add_and {x m : Nat} (hx : x < wordMod) (hm : m < wordMod) :
    (x &&& wnot m) + (x &&& m) = x := by
  have ex : (BitVec.ofNat 64 x).toNat = x := Nat.mod_eq_of_lt hx
  have em : (BitVec.ofNat 64 m).toNat = m := Nat.mod_eq_of_lt hm
  generalize BitVec.ofNat 64 x = X at ex
  generalize BitVec.ofNat 64 m = M at em
  have hdisj : (X &&& ~~~M) &&& (X &&& M) = 0#64 := by
    ext i
    simp only [BitVec.getElem_and, BitVec.getElem_not]
    cases X[i] <;> cases M[i] <;> simp
  have hjoin : (X &&& ~~~M) ||| (X &&& M) = X := by
    ext i
    simp only [BitVec.getElem_or, BitVec.getElem_and, BitVec.getElem_not]
    cases X[i] <;> cases M[i] <;> rfl
  have hsum := BitVec.toNat_add_of_and_eq_zero hdisj
  rw [BitVec.add_eq_or_of_and_eq_zero _ _ hdisj, hjoin, BitVec.toNat_and, BitVec.toNat_and,
    BitVec.toNat_not, ex, em] at hsum
  exact hsum.symm

section Align

variable {x a : Nat}

/-- **What the mask computes**: as long as `x + a` does not pass the word size, `alignUp x a` is
    `x + a - 1` with the bits of `a - 1` taken away. -/
theorem alignUp_add_and (ha : 0 < a) (h : x + a ≤ wordMod) :
    alignUp x a + ((x + a - 1) &&& (a - 1)) = x + a - 1 := by
  have hlt : x + a - 1 < wordMod := by omega
  have hm : a - 1 < wordMod := by omega
  have e1 : wsub (wadd x a) 1 = x + a - 1 := by
    by_cases hw : x + a < wordMod
    · rw [wadd_eq hw, wsub_eq (by omega) hw]
    · have : x + a = wordMod := by omega
      rw [wadd, this]
      rfl
  rw [alignUp, e1, wsub_one ha (by omega)]
  exact and_wnot_add_and hlt hm

theorem le_alignUp (ha : 0 < a) (h : x + a ≤ wordMod) : x ≤ alignUp x a := by
  have h1 := alignUp_add_and ha h
  have h2 : (x + a - 1) &&& (a - 1) ≤ a - 1 := Nat.and_le_right
  omega

theorem alignUp_lt (ha : 0 < a) (h : x + a ≤ wordMod) : alignUp x a < x + a := by
  have h1 := alignUp_add_and ha h
  omega

/-- The start of an empty region is aligned for every alignment. -/
theorem alignUp_zero (ha : 0 < a) (h : a ≤ wordMod) : alignUp 0 a = 0 := by
  have h1 := alignUp_add_and (x := 0) ha (by omega)
  rw [Nat.zero_add, Nat.and_self] at h1
  omega

/-- For a power of two the result is a multiple of the alignment, also where the sum wraps. -/
theorem dvd_alignUp {k : Nat} (hk : a = 2 ^ k) (h : a ≤ wordMod) : a ∣ alignUp x a := by
  have ha : 0 < a := by subst hk; exact Nat.two_pow_pos k
  have hlt : wsub (wadd x a) 1 < wordMod := Nat.mod_lt _ (by decide)
  have h1 := and_wnot_add_and (m := a - 1) hlt (by omega)
  have h2 : wsub (wadd x a) 1 &&& (a - 1) = wsub (wadd x a) 1 % a := by
    subst hk
    exact Nat.and_two_pow_sub_one_eq_mod _ _
  have h3 := Nat.div_add_mod (wsub (wadd x a) 1) a
  rw [alignUp, wsub_one ha h]
  exact ⟨wsub (wadd x a) 1 / a, by omega⟩

/-- And it is the least one from `x` on. -/
theorem alignUp_le {k : Nat} (hk : a = 2 ^ k) (h : x + a ≤ wordMod) {o : Nat} (hx : x ≤ o)
    (ho : a ∣ o) : alignUp x a ≤ o := by
  have ha : 0 < a := by subst hk; exact Nat.two_pow_pos k
  have hlt := alignUp_lt ha h
  obtain ⟨m, hm⟩ := dvd_alignUp (x := x) hk (by omega)
  obtain ⟨n, rfl⟩ := ho
  rw [hm] at hlt ⊢
  have hmn : m < n + 1 := by
    refine Nat.lt_of_mul_lt_mul_left (a := a) ?_
    rw [Nat.mul_succ]
    omega
  exact Nat.mul_le_mul_left a (Nat.le_of_lt_succ hmn)

/-- Where the sum passes the word size, nothing is left of it. -/
theorem alignUp_wrapped {k : Nat} (hk : a = 2 ^ k) (ha : a ≤ wordMod) (hx : x < wordMod)
    (h : wordMod < x + a) : alignUp x a = 0 := by
  have hpos : 0 < a := by subst hk; exact Nat.two_pow_pos k
  have hadd : wadd x a = x + a - wordMod := by
    rw [wadd, Nat.mod_eq_sub_mod (Nat.le_of_lt h)]
    exact Nat.mod_eq_of_lt (by omega)
  have hsub : wsub (x + a - wordMod) 1 = x + a - wordMod - 1 := wsub_eq (by omega) (by omega)
  have hand : (x + a - wordMod - 1) &&& (a - 1) = x + a - wordMod - 1 := by
    subst hk
    rw [Nat.and_two_pow_sub_one_eq_mod]
    exact Nat.mod_eq_of_lt (by omega)
  have hsum := and_wnot_add_and (x := x + a - wordMod - 1) (m := a - 1) (by omega) (by omega)
  rw [alignUp, hadd, hsub, wsub_one hpos ha]
  omega

end Align

/-! ## The exact rounding -/

/-- The least multiple of `a` from `x` on, in exact arithmetic. -/
def roundUp (x a : Nat) : Nat := a * (x ⌈/⌉ a)

section Round

variable {x a k : Nat}

theorem isLeast_roundUp (ha : 0 < a) (x : Nat) : IsLeast {o | a ∣ o ∧ x ≤ o} (roundUp x a) := by
  refine ⟨⟨Nat.dvd_mul_right _ _, le_smul_ceilDiv ha⟩, ?_⟩
  rintro o ⟨⟨n, rfl⟩, hx⟩
  exact Nat.mul_le_mul_left a ((ceilDiv_le_iff_le_mul ha).mpr hx)

theorem roundUp_lt (ha : 0 < a) (x : Nat) : roundUp x a < x + a := by
  have h : roundUp x a ≤ x + a - 1 := Nat.mul_div_le (x + a - 1) a
  omega

/-- Where the sum stays within the word, the mask rounds exactly. -/
theorem alignUp_eq_roundUp (hk : a = 2 ^ k) (h : x + a ≤ wordMod) :
    alignUp x a = roundUp x a := by
  have ha : 0 < a := by subst hk; exact Nat.two_pow_pos k
  obtain ⟨⟨hdvd, hle⟩, hleast⟩ := isLeast_roundUp ha x
  refine Nat.le_antisymm (alignUp_le hk h hle hdvd) (hleast ⟨?_, le_alignUp ha h⟩)
  exact dvd_alignUp hk (by omega)

theorem dvd_wordMod (hk : a = 2 ^ k) (ha : a ≤ wordMod) : a ∣ wordMod := by
  subst hk
  exact Nat.pow_dvd_pow 2 ((Nat.pow_le_pow_iff_right (by decide)).mp ha)

/-- **What a word keeps of the exact rounding.** -/
theorem alignUp_eq_mod (hk : a = 2 ^ k) (ha : a ≤ wordMod) (hx : x < wordMod) :
    alignUp x a = roundUp x a % wordMod := by
  have hpos : 0 < a := by subst hk; exact Nat.two_pow_pos k
  have hlt := roundUp_lt hpos x
  by_cases h : x + a ≤ wordMod
  · rw [alignUp_eq_roundUp hk h]
    exact (Nat.mod_eq_of_lt (by omega)).symm
  · -- past the word the next multiple is the word size itself
    obtain ⟨⟨hdvd, hle⟩, hleast⟩ := isLeast_roundUp hpos x
    have hword := dvd_wordMod hk ha
    have htop : roundUp x a ≤ wordMod := hleast ⟨hword, Nat.le_of_lt hx⟩
    have hgap : wordMod - roundUp x a = 0 :=
      Nat.eq_zero_of_dvd_of_lt (Nat.dvd_sub hword hdvd) (by omega)
    have heq : roundUp x a = wordMod := by omega
    rw [alignUp_wrapped hk ha hx (Nat.not_le.mp h), heq, Nat.mod_self]

end Round

end Base
