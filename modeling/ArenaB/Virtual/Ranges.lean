/-
  File:      ArenaB/Virtual/Ranges.lean
  Subject:   Which bytes `commit` commits and which pages `decommit` discards
             (src/virtual_memory.rs), for ranges that do not start or end on a page border.

  Both functions round the offset UP and round the size up on its own. Every caller in the crate
  passes an offset on a page border; for any other offset the range that is handed to the OS starts
  behind the one asked for and may end behind it, too.

  * `Discards` -- the pages of the range `decommit` hands to the OS (`decommit_pages`);
  * `CommitsAll` -- no rounding wraps, and the offset is on a page border or its page is committed
    already. Exactly then a `commit` that returns Ok has committed what was asked for;
  * `DecommitsWithin` -- the two roundings together add less than a page (or the size wraps to 0
    and nothing is discarded). Exactly then a `decommit` that returns Ok stays within its range;
  * **`ranges_exact_iff`**, and `ranges_shifted` for a range inside one page.
-/
import ArenaB.Virtual.Region

namespace ArenaB

open Base

/-! ## 1. The ranges -/

/-- The pages of the range `decommit` hands to the OS. -/
def Discards (offset size p : Nat) : Prop :=
  pageUp offset ≤ p * pageSize ∧ p * pageSize < pageUp offset + pageUp size

instance (offset size p : Nat) : Decidable (Discards offset size p) :=
  inferInstanceAs (Decidable (_ ∧ _))

/-- Page `p` has a byte of `[offset, offset + size)`. -/
def Meets (offset size p : Nat) : Prop :=
  ∃ x, (offset ≤ x ∧ x < offset + size) ∧ x / pageSize = p

/-- When a `commit` that succeeds commits what was asked for. -/
def CommitsAll (r : VirtualMemoryRegion) (offset size : Nat) : Prop :=
  (offset + pageSize ≤ wordMod ∧ size + pageSize ≤ wordMod) ∧
    (pageSize ∣ offset ∨ r.pages (offset / pageSize) = true)

/-- When a `decommit` that succeeds discards only pages of its range. -/
def DecommitsWithin (offset size : Nat) : Prop :=
  offset % pageSize = 0 ∨ size % pageSize = 0 ∨
    pageSize < offset % pageSize + size % pageSize ∨ wordMod < size + pageSize

/-! ## 2. The roundings -/

/-- Rounding without a wrap: up to the next page border. -/
theorem pageUp_spec {x : Nat} (h : x + pageSize ≤ wordMod) :
    ∃ k, pageUp x = k * pageSize ∧ x ≤ k * pageSize ∧ k * pageSize < x + pageSize := by
  obtain ⟨k, hk⟩ := pageSize_dvd_pageUp x
  rw [Nat.mul_comm] at hk
  refine ⟨k, hk, ?_, ?_⟩
  · rw [← hk]
    exact le_pageUp h
  · rw [← hk]
    exact alignUp_lt (by decide) h

theorem pageUp_wrapped {x : Nat} (hx : x < wordMod) (h : wordMod < x + pageSize) :
    pageUp x = 0 :=
  alignUp_wrapped (k := 12) rfl (by decide) hx h

/-- What both roundings add, as one inequality. -/
theorem decommitsWithin_iff {offset size : Nat} (ho : offset + pageSize ≤ wordMod)
    (hs : size < wordMod) :
    DecommitsWithin offset size ↔ pageUp offset + pageUp size < offset + size + pageSize := by
  obtain ⟨k, hk, hk1, hk2⟩ := pageUp_spec ho
  unfold DecommitsWithin
  by_cases hw : size + pageSize ≤ wordMod
  · obtain ⟨j, hj, hj1, hj2⟩ := pageUp_spec hw
    rw [hk, hj]
    unfold pageSize at *
    omega
  · rw [hk, pageUp_wrapped hs (Nat.not_le.mp hw)]
    omega

/-! ## 3. The two calls -/

section Calls

variable {r : VirtualMemoryRegion} {offset size : Nat}

/-- A `commit` that returned Ok committed the pages of its rounded range. -/
theorem VirtualMemoryRegion.commit_ok (hpos : 0 < size)
    (h : (r.commit true offset size).1 = .ok ()) :
    pageUp offset + pageUp size ≤ r.reservedSize ∧ (r.commit true offset size).2.pages =
      r.pages.protect pageSize (pageUp offset) (pageUp size) true := by
  rcases r.commit_cases true offset size with hi | ⟨hle, he⟩
  · exact absurd (hi.2 h) (by omega)
  · exact ⟨hle, by rw [he]⟩

/-- A `decommit` that returned Ok discarded the pages of its rounded range. -/
theorem VirtualMemoryRegion.decommit_ok (hpos : 0 < size)
    (h : (r.decommit true offset size).1 = .ok ()) :
    offset < r.reservedSize ∧ ∀ p, (r.decommit true offset size).2.pages p =
      if Discards offset size p then false else r.pages p := by
  refine ⟨?_, fun p => ?_⟩
  · by_contra hge
    rw [VirtualMemoryRegion.decommit, if_neg (by omega), if_pos (by omega)] at h
    cases h
  · rcases r.decommit_cases true offset size with hi | ⟨_, he⟩
    · exact absurd (hi.2 h) (by omega)
    · rw [he]
      rfl

/-- **`commit`** commits what was asked for exactly under `CommitsAll`. -/
theorem VirtualMemoryRegion.Bounded.commit_exact_iff (hb : r.Bounded) (hpos : 0 < size)
    (h : (r.commit true offset size).1 = .ok ()) :
    (offset + size ≤ r.reservedSize ∧ ∀ x, offset ≤ x → x < offset + size →
        (r.commit true offset size).2.pages (x / pageSize) = true) ↔
      CommitsAll r offset size := by
  obtain ⟨hle, hpages⟩ := r.commit_ok hpos h
  have hres := hb.add_pageSize_le (Nat.le_refl r.reservedSize)
  -- A range inside the reservation is far from the word size.
  by_cases hw : offset + pageSize ≤ wordMod ∧ size + pageSize ≤ wordMod
  · obtain ⟨k, hk, hk1, hk2⟩ := pageUp_spec hw.1
    have hsize := le_pageUp hw.2
    have hbytes := Pages.protect_bytes_iff (t := r.pages) (m := pageUp size) (by decide) hk1 hk2
      hpos (by omega)
    have hborder : offset = k * pageSize ↔ pageSize ∣ offset := by
      unfold pageSize at *
      omega
    rw [hk] at hle hpages
    rw [hpages, hbytes, hborder]
    exact ⟨fun hr => ⟨hw, hr.2⟩, fun hr => ⟨by omega, hr.2⟩⟩
  · refine ⟨fun hr => absurd ⟨?_, ?_⟩ hw, fun hr => absurd hr.1 hw⟩
    · have := hr.1
      omega
    · have := hr.1
      omega

/-- A page at or behind the offset has a byte of the range exactly if it starts before its end. -/
theorem meets_iff {p : Nat} (hp : offset ≤ p * pageSize) :
    Meets offset size p ↔ p * pageSize < offset + size := by
  constructor
  · rintro ⟨x, hx, rfl⟩
    have := Nat.div_mul_le_self x pageSize
    omega
  · intro h
    exact ⟨p * pageSize, ⟨hp, h⟩, Nat.mul_div_cancel p (by decide)⟩

/-- **`decommit`** stays within its range exactly under `DecommitsWithin`. -/
theorem VirtualMemoryRegion.Bounded.decommit_exact_iff (hb : r.Bounded) (hpos : 0 < size)
    (hs : size < wordMod) (h : (r.decommit true offset size).1 = .ok ()) :
    (∀ p, Discards offset size p → Meets offset size p) ↔ DecommitsWithin offset size := by
  have hlt := (r.decommit_ok hpos h).1
  have ho : offset + pageSize ≤ wordMod := hb.add_pageSize_le (Nat.le_of_lt hlt)
  obtain ⟨k, hk, hk1, hk2⟩ := pageUp_spec ho
  obtain ⟨j, hj⟩ := pageSize_dvd_pageUp size
  rw [Nat.mul_comm] at hj
  rw [decommitsWithin_iff ho hs, hk, hj, ← Pages.pages_below_iff (by decide) (by omega)]
  unfold Discards
  rw [hk, hj]
  constructor
  · intro hall p hp hp'
    exact (meets_iff (hk1.trans hp)).mp (hall p ⟨hp, hp'⟩)
  · rintro hall p ⟨hp, hp'⟩
    exact (meets_iff (hk1.trans hp)).mpr (hall p hp hp')

end Calls

/-- **Ranges over all of `usize`.** In every state of a region, for every offset and every size
    above 0 and an OS that does not refuse: a `commit` that returns Ok has committed every byte of
    the range, which lies in the reservation, if and only if `CommitsAll`; a `decommit` that
    returns Ok has discarded the pages `Discards` names, and each has a byte of the range if and
    only if `DecommitsWithin`. -/
theorem ranges_exact_iff {r : VirtualMemoryRegion} (h : regions.Reach r) (offset size : Nat)
    (hs : size < wordMod) (hpos : 0 < size) :
    ((r.commit true offset size).1 = .ok () →
      ((offset + size ≤ r.reservedSize ∧ ∀ x, offset ≤ x → x < offset + size →
          (r.commit true offset size).2.pages (x / pageSize) = true) ↔
        CommitsAll r offset size)) ∧
    ((r.decommit true offset size).1 = .ok () →
      (∀ p, (r.decommit true offset size).2.pages p =
        if Discards offset size p then false else r.pages p) ∧
      ((∀ p, Discards offset size p → Meets offset size p) ↔ DecommitsWithin offset size)) := by
  have hb := reach_bounded h
  exact ⟨hb.commit_exact_iff hpos,
    fun hok => ⟨(r.decommit_ok hpos hok).2, hb.decommit_exact_iff hpos hs hok⟩⟩

/-- One page is committed; the next call starts inside it, and a decommit of 4000 bytes from 4000
    on discards one page, which it meets. -/
theorem ranges_exact_straddling : ∃ r, regions.Reach r ∧
    ((r.commit true 100 4000).1 = .ok () ∧ CommitsAll r 100 4000 ∧
      ∀ x, 100 ≤ x → x < 4100 → (r.commit true 100 4000).2.pages (x / pageSize) = true) ∧
    ((r.decommit true 4000 4000).1 = .ok () ∧ Discards 4000 4000 1 ∧
      ∀ p, Discards 4000 4000 p → Meets 4000 4000 p) := by
  obtain ⟨r, hr, hp⟩ := System.exists_reach_of_replay regions [.commit true 0 8192]
    (P := fun r => (r.pages 0 = true ∧ (r.commit true 100 4000).1.isOk = true) ∧
      (r.decommit true 4000 4000).1.isOk = true)
    (s := ⟨65536, 16384, 0, Pages.none⟩) ⟨65536, 16384, rfl⟩ (by decide)
  obtain ⟨⟨hpage, hcommit⟩, hdecommit⟩ := hp
  rw [VirtualMemoryRegion.isOk_iff] at hcommit hdecommit
  have hall : CommitsAll r 100 4000 := ⟨by decide, Or.inr hpage⟩
  have hin : DecommitsWithin 4000 4000 := Or.inr (Or.inr (Or.inl (by decide)))
  have hc := (ranges_exact_iff hr 100 4000 (by decide) (by decide)).1 hcommit
  have hd := (ranges_exact_iff hr 4000 4000 (by decide) (by decide)).2 hdecommit
  exact ⟨r, hr, ⟨hcommit, hall, (hc.mpr hall).2⟩, hdecommit, by decide, hd.2.mpr hin⟩

/-- A range inside page 0: `commit` commits page 1 and leaves page 0, `decommit` discards page 1
    and not page 0. And a size that wraps to 0 is granted. -/
theorem ranges_shifted :
    (∃ r, regions.Reach r ∧ (r.commit true 1 1).1 = .ok () ∧
      (r.commit true 1 1).2.pages (1 / pageSize) = false) ∧
    (∃ r, regions.Reach r ∧ (r.decommit true 1 1).1 = .ok () ∧
      Discards 1 1 1 ∧ ¬ Meets 1 1 1) ∧
    (∃ r, regions.Reach r ∧ (r.commit true 0 (2 ^ 64 - 1)).1 = .ok () ∧
      ¬ 0 + (2 ^ 64 - 1) ≤ r.reservedSize) := by
  have hinit : regions.init ⟨65536, 8192, 0, Pages.none⟩ := ⟨65536, 8192, rfl⟩
  have hmeets : ¬ Meets 1 1 1 := fun h => absurd ((meets_iff (by decide)).mp h) (by decide)
  refine ⟨?_, ?_, ?_⟩
  · exact System.exists_reach_of_replay regions []
      (P := fun r => (r.commit true 1 1).1 = .ok () ∧
        (r.commit true 1 1).2.pages (1 / pageSize) = false) hinit (by decide)
  · obtain ⟨r, hr, hok⟩ := System.exists_reach_of_replay regions [.commit true 0 8192]
      (P := fun r => (r.decommit true 1 1).1 = .ok ()) hinit (by decide)
    exact ⟨r, hr, hok, by decide, hmeets⟩
  · exact System.exists_reach_of_replay regions []
      (P := fun r => (r.commit true 0 (2 ^ 64 - 1)).1 = .ok () ∧
        ¬ 0 + (2 ^ 64 - 1) ≤ r.reservedSize) hinit (by decide)

end ArenaB
