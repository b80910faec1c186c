/-
  File:      ArenaB/Virtual/Region.lean
  Subject:   `VirtualMemoryRegion` (src/virtual_memory.rs): reserved address space whose pages are
             committed and decommitted on demand.

  The region keeps one number, `committed_size`, for what is committed; the pages themselves are
  state of the operating system and stand beside it. What an OS call answers is an argument of the
  operation; a call that fails leaves the pages alone. The model is the `cfg(unix)` code.

  * `commit`, `decommit`, `reset` -- with their error texts; the roundings wrap as in a release
    build, so a size near the word size rounds to 0;
  * `Bounded` -- the number is a multiple of the page size within the reservation, after any
    operation (`bounded_exec`);
  * `Settles` -- the condition on a step: a `reset` whose decommit is refused finds nothing
    committed. It is what keeps the number an upper bound (`clear_exec_iff`);
  * **`region_covers`**, and `region_leaks` for a reset that is refused.
-/
import ArenaB.Base.Pages
import ArenaB.Base.System
import ArenaB.Base.Word

namespace ArenaB

open Base

def pageSize : Nat := 4096
def defaultCommitSize : Nat := 64 * 1024
def maxReserveSize : Nat := 4 * 1024 * 1024 * 1024

/-! ## 1. The region -/

/-- `(x + PAGE_SIZE - 1) & !(PAGE_SIZE - 1)`. -/
def pageUp (x : Nat) : Nat := alignUp x pageSize

/-- `VirtualMemoryRegion`, with the pages of its reservation. -/
structure VirtualMemoryRegion where
  ptr : Nat
  reservedSize : Nat
  committedSize : Nat
  pages : Pages

namespace VirtualMemoryRegion

/-- `VirtualMemoryRegion::new`; `map` is what `mmap` returns, `none` for `MAP_FAILED`. -/
def new (map : Option Nat) (reserveSize : Nat) : Except String VirtualMemoryRegion :=
  if reserveSize = 0 then .error "Reserve size must be nonzero"
  else
    let reserveSize := pageUp (min (max reserveSize pageSize) maxReserveSize)
    match map with
    | none => .error "Failed to reserve virtual memory"
    | some ptr => .ok ⟨ptr, reserveSize, 0, Pages.none⟩

/-- `VirtualMemoryRegion::commit`; `os` says whether `mprotect` succeeds. -/
def commit (r : VirtualMemoryRegion) (os : Bool) (offset size : Nat) :
    Except String Unit × VirtualMemoryRegion :=
  if size = 0 then (.ok (), r)
  else
    let offset := pageUp offset
    let size := pageUp size
    match checkedAdd offset size with
    | none => (.error "Commit range overflow", r)
    | some fin =>
        if fin > r.reservedSize then (.error "Commit size exceeds reserved size", r)
        else if os = false then (.error "Failed to commit virtual memory", r)
        else
          (.ok (), { r with
            committedSize := max r.committedSize fin
            pages := r.pages.protect pageSize offset size true })

/-- `VirtualMemoryRegion::decommit`; `os` says whether `mprotect` succeeds. -/
def decommit (r : VirtualMemoryRegion) (os : Bool) (offset size : Nat) :
    Except String Unit × VirtualMemoryRegion :=
  if size = 0 then (.ok (), r)
  else if offset ≥ r.reservedSize then (.error "Offset exceeds reserved size", r)
  else
    let offset := pageUp offset
    let size := pageUp size
    match checkedAdd offset size with
    | none => (.error "Decommit range overflow", r)
    | some fin =>
        if fin > r.committedSize then (.error "Decommit size exceeds committed size", r)
        else if size % pageSize ≠ 0 then (.error "Size must be a multiple of page size", r)
        else if r.ptr + offset = 0 then (.error "Invalid pointer for decommit", r)
        else if os = false then (.error "Failed to decommit virtual memory", r)
        else
          (.ok (), { r with
            committedSize := if fin = r.committedSize then offset else r.committedSize
            pages := r.pages.protect pageSize offset size false })

/-- `VirtualMemoryRegion::reset`. -/
def reset (r : VirtualMemoryRegion) (os : Bool) : VirtualMemoryRegion :=
  if r.committedSize > 0 then { (r.decommit os 0 r.committedSize).2 with committedSize := 0 }
  else r

/-- `VirtualMemoryRegion::committed_bytes`. -/
def committedBytes (r : VirtualMemoryRegion) : Nat := r.committedSize

end VirtualMemoryRegion

/-- One operation, with what the OS answers. -/
inductive RegionOp where
  | commit (os : Bool) (offset size : Nat)
  | decommit (os : Bool) (offset size : Nat)
  | reset (os : Bool)
  deriving DecidableEq, Repr

/-- Performs an operation. -/
def VirtualMemoryRegion.exec (r : VirtualMemoryRegion) :
    RegionOp → Except String Unit × VirtualMemoryRegion
  | .commit os offset size => r.commit os offset size
  | .decommit os offset size => r.decommit os offset size
  | .reset os => (.ok (), r.reset os)

/-- Runs of one region, from every reserve size. -/
def regions : System VirtualMemoryRegion RegionOp where
  init r := ∃ ptr reserveSize, VirtualMemoryRegion.new (some ptr) reserveSize = .ok r
  ok _ _ := True
  step r l := some (r.exec l).2

instance (r : VirtualMemoryRegion) (l : RegionOp) : Decidable (regions.ok r l) := .isTrue trivial

/-! ## 2. Rounding -/

theorem pageSize_dvd_pageUp (x : Nat) : pageSize ∣ pageUp x := dvd_alignUp (k := 12) rfl (by decide)

theorem le_pageUp {x : Nat} (h : x + pageSize ≤ wordMod) : x ≤ pageUp x :=
  le_alignUp (by decide) h

/-- A multiple of the page size is rounded to itself. -/
theorem pageUp_eq {x : Nat} (h : x + pageSize ≤ wordMod) (hd : pageSize ∣ x) : pageUp x = x :=
  Nat.le_antisymm (alignUp_le (k := 12) rfl h (Nat.le_refl x) hd) (le_pageUp h)

/-! ## 3. What an operation does -/

namespace VirtualMemoryRegion

/-- The bounds of the number. -/
structure Bounded (r : VirtualMemoryRegion) : Prop where
  multiple : pageSize ∣ r.committedSize
  committed : r.committedSize ≤ r.reservedSize
  least : pageSize ≤ r.reservedSize
  reserved : r.reservedSize ≤ maxReserveSize

theorem new_ok {map : Option Nat} {n : Nat} {r : VirtualMemoryRegion} (h : new map n = .ok r) :
    r.Bounded ∧ map = some r.ptr ∧ r.committedSize = 0 ∧ r.pages = Pages.none := by
  unfold new at h
  split at h
  · cases h
  · cases map with
    | none => cases h
    | some ptr =>
        cases h
        have h1 : pageSize ≤ min (max n pageSize) maxReserveSize :=
          Nat.le_min.mpr ⟨Nat.le_max_right _ _, by decide⟩
        have h2 : min (max n pageSize) maxReserveSize ≤ maxReserveSize := Nat.min_le_right _ _
        have hw : min (max n pageSize) maxReserveSize + pageSize ≤ wordMod :=
          (Nat.add_le_add_right h2 _).trans (by decide)
        refine ⟨⟨Nat.dvd_zero _, Nat.zero_le _, h1.trans (le_pageUp hw), ?_⟩, rfl, rfl, rfl⟩
        exact alignUp_le (k := 12) rfl hw h2 (by decide)

/-- The outcome of a call that changed nothing; it is no success unless `size` is 0. -/
def Idle (r : VirtualMemoryRegion) (size : Nat) (x : Except String Unit × VirtualMemoryRegion) :
    Prop :=
  x.2 = r ∧ (x.1 = .ok () → size = 0)

section Cases

variable (r : VirtualMemoryRegion) (os : Bool) (offset size : Nat)

theorem idle_error (e : String) : r.Idle size (.error e, r) := ⟨rfl, fun h => by cases h⟩

/-- **The two outcomes of `commit`.** -/
theorem commit_cases :
    r.Idle size (r.commit os offset size) ∨
      pageUp offset + pageUp size ≤ r.reservedSize ∧ r.commit os offset size = (.ok (), { r with
        committedSize := max r.committedSize (pageUp offset + pageUp size)
        pages := r.pages.protect pageSize (pageUp offset) (pageUp size) true }) := by
  unfold commit
  split
  · rename_i h0
    exact Or.inl ⟨rfl, fun _ => h0⟩
  · simp only
    split
    · exact Or.inl (r.idle_error size _)
    · rename_i fin hfin
      unfold checkedAdd at hfin
      split at hfin
      · cases hfin
        split
        · exact Or.inl (r.idle_error size _)
        · rename_i hle
          split
          · exact Or.inl (r.idle_error size _)
          · exact Or.inr ⟨Nat.not_lt.mp hle, rfl⟩
      · cases hfin

/-- **The two outcomes of `decommit`.** -/
theorem decommit_cases :
    r.Idle size (r.decommit os offset size) ∨
      pageUp offset + pageUp size ≤ r.committedSize ∧
        r.decommit os offset size = (.ok (), { r with
          committedSize :=
            if pageUp offset + pageUp size = r.committedSize then pageUp offset
            else r.committedSize
          pages := r.pages.protect pageSize (pageUp offset) (pageUp size) false }) := by
  unfold decommit
  split
  · rename_i h0
    exact Or.inl ⟨rfl, fun _ => h0⟩
  · split
    · exact Or.inl (r.idle_error size _)
    · simp only
      split
      · exact Or.inl (r.idle_error size _)
      · rename_i fin hfin
        unfold checkedAdd at hfin
        split at hfin
        · cases hfin
          split
          · exact Or.inl (r.idle_error size _)
          · rename_i hle
            split
            · exact Or.inl (r.idle_error size _)
            · split
              · exact Or.inl (r.idle_error size _)
              · split
                · exact Or.inl (r.idle_error size _)
                · exact Or.inr ⟨Nat.not_lt.mp hle, rfl⟩
        · cases hfin

end Cases

section Exec

variable {r : VirtualMemoryRegion}

/-- A call that returns an error changes nothing. -/
theorem exec_error {l : RegionOp} {e : String} (h : (r.exec l).1 = .error e) :
    (r.exec l).2 = r := by
  cases l with
  | commit os offset size =>
      rcases r.commit_cases os offset size with hi | ⟨_, he⟩
      · exact hi.1
      · simp only [exec, he] at h
        cases h
  | decommit os offset size =>
      rcases r.decommit_cases os offset size with hi | ⟨_, he⟩
      · exact hi.1
      · simp only [exec, he] at h
        cases h
  | reset os => cases h

theorem Bounded.commit (h : r.Bounded) (os : Bool) (offset size : Nat) :
    (r.commit os offset size).2.Bounded := by
  rcases r.commit_cases os offset size with hi | ⟨hle, he⟩
  · rw [hi.1]
    exact h
  · rw [he]
    refine ⟨?_, Nat.max_le.mpr ⟨h.committed, hle⟩, h.least, h.reserved⟩
    show pageSize ∣ max r.committedSize (pageUp offset + pageUp size)
    rcases Nat.le_total r.committedSize (pageUp offset + pageUp size) with hm | hm
    · rw [Nat.max_eq_right hm]
      exact Nat.dvd_add (pageSize_dvd_pageUp _) (pageSize_dvd_pageUp _)
    · rw [Nat.max_eq_left hm]
      exact h.multiple

theorem Bounded.decommit (h : r.Bounded) (os : Bool) (offset size : Nat) :
    (r.decommit os offset size).2.Bounded := by
  rcases r.decommit_cases os offset size with hi | ⟨hle, he⟩
  · rw [hi.1]
    exact h
  · rw [he]
    by_cases hf : pageUp offset + pageUp size = r.committedSize
    · simp only [if_pos hf]
      have hoff : pageUp offset ≤ r.reservedSize :=
        (Nat.le_add_right _ _).trans (hle.trans h.committed)
      exact ⟨pageSize_dvd_pageUp _, hoff, h.least, h.reserved⟩
    · simp only [if_neg hf]
      exact ⟨h.multiple, h.committed, h.least, h.reserved⟩

theorem Bounded.reset (h : r.Bounded) (os : Bool) : (r.reset os).Bounded := by
  unfold VirtualMemoryRegion.reset
  split
  · have hd := h.decommit os 0 r.committedSize
    exact ⟨Nat.dvd_zero _, Nat.zero_le _, hd.least, hd.reserved⟩
  · exact h

theorem Bounded.exec (h : r.Bounded) (l : RegionOp) : (r.exec l).2.Bounded := by
  cases l with
  | commit os offset size => exact h.commit os offset size
  | decommit os offset size => exact h.decommit os offset size
  | reset os => exact h.reset os

/-- What lies in the reservation is far from the word size: rounding it does not wrap. -/
theorem Bounded.add_pageSize_le (h : r.Bounded) {x : Nat} (hx : x ≤ r.reservedSize) :
    x + pageSize ≤ wordMod :=
  (Nat.add_le_add_right (hx.trans h.reserved) _).trans (by decide)

/-- Rounding the number changes nothing. -/
theorem Bounded.pageUp_committed (h : r.Bounded) : pageUp r.committedSize = r.committedSize :=
  pageUp_eq (h.add_pageSize_le h.committed) h.multiple

/-- **`reset`**: the number is 0, and the pages are cleared if the decommit went through. -/
theorem Bounded.reset_cases (h : r.Bounded) (os : Bool) : (r.reset os).committedSize = 0 ∧
    (((r.decommit os 0 r.committedSize).1 = .ok () ∧
        (r.reset os).pages = r.pages.protect pageSize 0 r.committedSize false) ∨
      (r.decommit os 0 r.committedSize).1 ≠ .ok () ∧ (r.reset os).pages = r.pages) := by
  unfold VirtualMemoryRegion.reset
  by_cases hpos : r.committedSize > 0
  · rw [if_pos hpos]
    refine ⟨rfl, ?_⟩
    rcases r.decommit_cases os 0 r.committedSize with hi | ⟨_, he⟩
    · refine Or.inr ⟨fun hok => absurd (hi.2 hok) (by omega), ?_⟩
      show (r.decommit os 0 r.committedSize).2.pages = r.pages
      rw [hi.1]
    · rw [he, pageUp_eq (by decide) (Nat.dvd_zero _), h.pageUp_committed]
      exact Or.inl ⟨rfl, rfl⟩
  · have h0 : r.committedSize = 0 := by omega
    rw [if_neg hpos]
    refine ⟨h0, Or.inl ⟨by rw [h0]; rfl, ?_⟩⟩
    funext p
    rw [h0, Pages.protect, if_neg (by omega)]

end Exec

/-! ## 4. The number bounds what is committed -/

/-- The number is an upper bound: no page at or behind it is committed. -/
def Covers (r : VirtualMemoryRegion) : Prop := Pages.Clear pageSize r.pages r.committedSize

end VirtualMemoryRegion

/-- A reset whose decommit fails finds no page committed. -/
def Settles (r : VirtualMemoryRegion) : RegionOp → Prop
  | .reset os => (r.decommit os 0 r.committedSize).1.isOk = true ∨
      ∀ p < r.committedSize / pageSize, r.pages p = false
  | _ => True

instance (r : VirtualMemoryRegion) (l : RegionOp) : Decidable (Settles r l) := by
  unfold Settles
  split <;> infer_instance

namespace VirtualMemoryRegion

variable {r : VirtualMemoryRegion}

theorem isOk_iff {x : Except String Unit} : x.isOk = true ↔ x = .ok () := by
  cases x with
  | error e => exact ⟨(fun h => by cases h), (fun h => by cases h)⟩
  | ok u => exact ⟨fun _ => rfl, fun _ => rfl⟩

theorem Covers.commit (h : r.Covers) (os : Bool) (offset size : Nat) :
    (r.commit os offset size).2.Covers := by
  rcases r.commit_cases os offset size with hi | ⟨_, he⟩
  · rw [hi.1]
    exact h
  · rw [he]
    exact Pages.Clear.protect h _ _

theorem Covers.decommit (h : r.Covers) (os : Bool) (offset size : Nat) :
    (r.decommit os offset size).2.Covers := by
  rcases r.decommit_cases os offset size with hi | ⟨_, he⟩
  · rw [hi.1]
    exact h
  · rw [he]
    unfold Covers at h ⊢
    by_cases hf : pageUp offset + pageUp size = r.committedSize
    · simp only [if_pos hf]
      rw [← hf] at h
      exact h.unprotect_tail
    · simp only [if_neg hf]
      exact h.unprotect _ _

/-- A page behind the number or below it: one that is committed is below. -/
theorem Covers.none_iff (h : r.Covers) (hb : r.Bounded) :
    (∀ p < r.committedSize / pageSize, r.pages p = false) ↔ Pages.Clear pageSize r.pages 0 := by
  obtain ⟨q, hq⟩ := hb.multiple
  have hdiv : r.committedSize / pageSize = q := by
    rw [hq]
    exact Nat.mul_div_cancel_left q (by decide)
  rw [hdiv]
  constructor
  · intro hp p _
    by_cases hlt : p < q
    · exact hp p hlt
    · refine h p ?_
      rw [hq, Nat.mul_comm]
      exact Nat.mul_le_mul_right _ (Nat.not_lt.mp hlt)
  · exact fun hp p _ => hp p (Nat.zero_le _)

/-- **The condition is exact**: it is what a step needs to keep the bound. -/
theorem Covers.exec_iff (h : r.Covers) (hb : r.Bounded) (l : RegionOp) :
    (r.exec l).2.Covers ↔ Settles r l := by
  cases l with
  | commit os offset size => exact ⟨fun _ => trivial, fun _ => h.commit os offset size⟩
  | decommit os offset size => exact ⟨fun _ => trivial, fun _ => h.decommit os offset size⟩
  | reset os =>
      show (r.reset os).Covers ↔ _ ∨ _
      obtain ⟨h0, hcase⟩ := hb.reset_cases os
      unfold Covers
      rw [h0, isOk_iff, h.none_iff hb]
      rcases hcase with ⟨hok, hp⟩ | ⟨hne, hp⟩
      · rw [hp]
        refine ⟨fun _ => Or.inl hok, fun _ => ?_⟩
        refine Pages.Clear.unprotect_tail ?_
        rw [Nat.zero_add]
        exact h
      · rw [hp]
        exact ⟨Or.inr, fun hs => hs.resolve_left hne⟩

end VirtualMemoryRegion

theorem reach_bounded {r : VirtualMemoryRegion} (h : regions.Reach r) : r.Bounded := by
  refine h.inv (P := VirtualMemoryRegion.Bounded) (fun r hi => ?_) fun r l r' hr _ e => ?_
  · obtain ⟨ptr, n, hn⟩ := hi
    exact (VirtualMemoryRegion.new_ok hn).1
  · cases e
    exact hr.exec l

theorem reach_covers {r : VirtualMemoryRegion} (h : (regions.under Settles).Reach r) :
    r.Covers := by
  refine h.inv' (P := VirtualMemoryRegion.Covers) (fun r hi => ?_) fun r l r' hreach hr hok e => ?_
  · obtain ⟨ptr, n, hn⟩ := hi
    obtain ⟨_, _, _, hp⟩ := VirtualMemoryRegion.new_ok hn
    unfold VirtualMemoryRegion.Covers
    rw [hp]
    exact Pages.clear_none _ _
  · cases e
    exact (hr.exec_iff (reach_bounded hreach.of_under) l).mpr hok.2

/-- **The number of a region**: in every run it is a multiple of the page size within the
    reservation, and a call that returns an error leaves it alone. As long as every reset whose
    decommit was refused found no page committed, no page at or behind it is committed and
    `committed_bytes` is at least the committed footprint; the next step keeps this exactly if it
    meets that condition, too. -/
theorem region_covers {r : VirtualMemoryRegion} (h : regions.Reach r) :
    (pageSize ∣ r.committedSize ∧ r.committedSize ≤ r.reservedSize) ∧
    (∀ l e, (r.exec l).1 = .error e → (r.exec l).2.committedSize = r.committedSize) ∧
    ((regions.under Settles).Reach r →
      (∀ p, r.committedSize ≤ p * pageSize → r.pages p = false) ∧
      (∀ n, pageSize * (List.range n).countP r.pages ≤ r.committedBytes) ∧
      ∀ l, (∀ p, (r.exec l).2.committedSize ≤ p * pageSize → (r.exec l).2.pages p = false) ↔
        Settles r l) := by
  have hb := reach_bounded h
  refine ⟨⟨hb.multiple, hb.committed⟩, fun l e he => ?_, fun hu => ?_⟩
  · rw [VirtualMemoryRegion.exec_error he]
  · have hc := reach_covers hu
    exact ⟨hc, Pages.Clear.footprint hc hb.multiple, hc.exec_iff hb⟩

/-- A reset, pages committed with a gap, a commit that is refused, a decommit of the tail. -/
theorem region_covers_gap : ∃ r, (regions.under Settles).Reach r ∧
    (r.committedSize = 8192 ∧ r.pages 0 = true ∧ r.pages 1 = false) ∧
    ∀ p, r.committedSize ≤ p * pageSize → r.pages p = false := by
  obtain ⟨r, hr, hp⟩ := System.exists_reach_of_replay (regions.under Settles)
    [.commit true 4096 1, .reset true, .commit true 0 1, .commit true 8192 1,
      .commit false 4096 1, .decommit true 8192 1]
    (P := fun r => r.committedSize = 8192 ∧ r.pages 0 = true ∧ r.pages 1 = false)
    (s := ⟨65536, 16384, 0, Pages.none⟩) ⟨65536, 16384, rfl⟩ (by decide)
  exact ⟨r, hr, hp, ((region_covers hr.of_under).2.2 hr).1⟩

/-- A reset whose decommit the OS refuses: the page stays committed, the number is 0. -/
theorem region_leaks : ∃ r, regions.Reach r ∧ r.committedBytes = 0 ∧ r.pages 0 = true := by
  exact System.exists_reach_of_replay regions [.commit true 0 4096, .reset false]
    (P := fun r => r.committedBytes = 0 ∧ r.pages 0 = true)
    (s := ⟨65536, 4096, 0, Pages.none⟩) ⟨65536, 4096, rfl⟩ (by decide)

end ArenaB
