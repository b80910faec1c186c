/-
  File:      ArenaB/Core/Chunk.lean
  Subject:   `Layout` and `Chunk` (src/core.rs): one block of memory with a bump offset.

  * `Layout` -- a size and a power-of-two alignment whose rounded size fits `isize::MAX`, as
    `std::alloc::Layout` guarantees; the two facts are fields;
  * `Chunk.new`, `Chunk.allocate`, `Chunk.reset` -- the functions of core.rs. The system
    allocator's answer is an argument (`none` is the null pointer). `allocate` is the body of its
    loop run once: alone on a chunk the compare-exchange can fail only spuriously, and the retry
    recomputes the same values;
  * `Chunk.Ok` -- what every chunk of an arena satisfies, and `allocate_eq_some`: on such a chunk
    no addition of `allocate` wraps, and it succeeds exactly when the aligned request fits;
  * **`mask_exact`** -- the mask rounds exactly on the whole word range, and the bounds of a
    `Layout` alone keep the additions of `allocate` from wrapping.
-/
import ArenaB.Base.Word
import ArenaB.Base.Span

namespace ArenaB

open Base

/-! ## 1. Layouts -/

/-- `std::alloc::Layout`. -/
structure Layout where
  size : Nat
  align : Nat
  pow2 : ∃ k, align = 2 ^ k
  fits : size + align ≤ 2 ^ 63

namespace Layout

/-- The layout of a byte. -/
def byte : Layout := ⟨1, 1, ⟨0, rfl⟩, by decide⟩

/-- The layout of a 64-bit word. -/
def word : Layout := ⟨8, 8, ⟨3, rfl⟩, by decide⟩

/-- `Layout::from_size_align`. -/
def fromSizeAlign (size align : Nat) : Option Layout :=
  if h : align = 2 ^ align.log2 ∧ size + align ≤ 2 ^ 63 then some ⟨size, align, ⟨_, h.1⟩, h.2⟩
  else none

/-- `Layout::array::<T>(n)` for an element layout whose size is a multiple of its alignment. -/
def array (elem : Layout) (n : Nat) : Option Layout :=
  if h : elem.size * n + elem.align ≤ 2 ^ 63 then some ⟨elem.size * n, elem.align, elem.pow2, h⟩
  else none

theorem size_array {elem l : Layout} {n : Nat} (h : elem.array n = some l) :
    elem.size * n = l.size := by
  unfold array at h
  split at h <;> cases h
  rfl

theorem align_pos (l : Layout) : 0 < l.align := by
  obtain ⟨k, hk⟩ := l.pow2
  rw [hk]
  exact Nat.two_pow_pos k

theorem align_le (l : Layout) : l.align ≤ wordMod :=
  (Nat.le_add_left _ l.size).trans (l.fits.trans (by decide))

theorem dvd_alignUp (l : Layout) (x : Nat) : l.align ∣ alignUp x l.align := by
  obtain ⟨k, hk⟩ := l.pow2
  exact Base.dvd_alignUp hk l.align_le

end Layout

/-! ## 2. Chunks -/

/-- `Chunk` of core.rs: the block's address, its capacity, the bump offset. -/
structure Chunk where
  ptr : Nat
  capacity : Nat
  used : Nat
  deriving DecidableEq, Repr

namespace Chunk

/-- `(capacity + 63) & !63`. -/
def roundCapacity (capacity : Nat) : Nat := wadd capacity 63 &&& wnot 63

/-- `Chunk::new`; `sys` is what `alloc(layout)` returns. -/
def new (sys : Option Nat) (capacity : Nat) : Except String Chunk :=
  if capacity = 0 then .error "Capacity must be nonzero"
  else
    match Layout.fromSizeAlign (roundCapacity capacity) 64 with
    | none => .error "Invalid layout"
    | some layout =>
        match sys with
        | none => .error "Failed to allocate memory"
        | some ptr => .ok ⟨ptr, layout.size, 0⟩

/-- `Chunk::allocate`: the returned pointer and the chunk with its offset bumped. -/
def allocate (c : Chunk) (layout : Layout) : Option (Nat × Chunk) :=
  let start := alignUp c.used layout.align
  (checkedAdd start layout.size).bind fun fin =>
    if fin > c.capacity then none else some (c.ptr + start, { c with used := fin })

/-- `Chunk::set_used`. -/
def setUsed (c : Chunk) (value : Nat) : Chunk := { c with used := value }

/-- `Chunk::reset`. -/
def reset (c : Chunk) : Chunk := c.setUsed 0

/-- The block the chunk owns. -/
def span (c : Chunk) : Span := ⟨c.ptr, c.capacity⟩

@[simp] theorem setUsed_span (c : Chunk) (n : Nat) : (c.setUsed n).span = c.span := rfl

/-- What holds of every chunk of an arena: the offset is within the capacity, and the capacity is
    one a `Layout` of alignment 64 admits. -/
structure Ok (c : Chunk) : Prop where
  used : c.used ≤ c.capacity
  capacity : c.capacity + 64 ≤ 2 ^ 63

theorem Ok.setUsed {c : Chunk} (h : c.Ok) {n : Nat} (hn : n ≤ c.capacity) : (c.setUsed n).Ok :=
  ⟨hn, h.capacity⟩

/-- Rounding up to a multiple of 64, as long as it does not overflow. -/
theorem roundCapacity_add_mod {capacity : Nat} (h : capacity + 63 < wordMod) :
    roundCapacity capacity + (capacity + 63) % 64 = capacity + 63 := by
  have hm : (63 : Nat) < wordMod := by decide
  have hand : (capacity + 63) &&& 63 = (capacity + 63) % 64 := Nat.and_two_pow_sub_one_eq_mod _ 6
  rw [roundCapacity, wadd_eq h, ← hand]
  exact and_wnot_add_and h hm

/-- The mask of `Chunk::new` is that of an alignment to 64. -/
theorem roundCapacity_eq (capacity : Nat) : roundCapacity capacity = alignUp capacity 64 := by
  have hadd : wadd capacity 63 = wsub (wadd capacity 64) 1 := by
    unfold wadd wsub wordMod
    omega
  rw [roundCapacity, hadd]
  rfl

/-- Where the addition of a release build wraps, nothing is left. -/
theorem roundCapacity_wrapped {capacity : Nat} (h : wordMod ≤ capacity + 63)
    (hc : capacity < wordMod) : roundCapacity capacity = 0 := by
  rw [roundCapacity_eq]
  exact alignUp_wrapped (k := 6) rfl (by decide) hc (Nat.lt_succ_of_le h)

/-- **`Chunk::new`, when it succeeds**: the block the system allocator returned, empty, of the
    rounded capacity. -/
theorem new_ok {sys : Option Nat} {capacity : Nat} {c : Chunk} (h : new sys capacity = .ok c) :
    sys = some c.ptr ∧ c.capacity = roundCapacity capacity ∧ c.used = 0 ∧ c.Ok := by
  unfold new at h
  split at h
  · cases h
  · split at h
    · cases h
    · rename_i layout hl
      cases sys with
      | none => cases h
      | some ptr =>
          cases h
          unfold Layout.fromSizeAlign at hl
          split at hl
          · rename_i hf
            cases hl
            exact ⟨rfl, rfl, rfl, Nat.zero_le _, hf.2⟩
          · cases hl

section Allocate

variable {c : Chunk} {l : Layout}

/-- The sum that is masked does not pass the word size. -/
theorem Ok.start_le (h : c.Ok) (l : Layout) : c.used + l.align ≤ wordMod := by
  have h1 := h.used
  have h2 := h.capacity
  have h3 := l.fits
  unfold wordMod
  omega

/-- The aligned start is at or behind the offset and no more than an alignment away. -/
theorem Ok.start (h : c.Ok) (l : Layout) :
    c.used ≤ alignUp c.used l.align ∧ alignUp c.used l.align < c.used + l.align :=
  ⟨le_alignUp l.align_pos (h.start_le l), alignUp_lt l.align_pos (h.start_le l)⟩

/-- The end of the aligned request does not pass the word size. -/
theorem Ok.checkedAdd_start (h : c.Ok) (l : Layout) :
    checkedAdd (alignUp c.used l.align) l.size = some (alignUp c.used l.align + l.size) := by
  have h1 := h.used
  have h2 := h.capacity
  have h3 := l.fits
  have h4 := (h.start l).2
  refine if_pos ?_
  unfold wordMod
  omega

theorem allocate_eq (h : c.Ok) (l : Layout) : c.allocate l =
    if c.capacity < alignUp c.used l.align + l.size then none
    else some (c.ptr + alignUp c.used l.align, c.setUsed (alignUp c.used l.align + l.size)) := by
  simp only [allocate]
  rw [h.checkedAdd_start l, Option.bind_some]
  simp only [setUsed, gt_iff_lt]

/-- **`Chunk::allocate` on a chunk of an arena** succeeds exactly when the aligned request fits,
    and then bumps the offset to its end. -/
theorem allocate_eq_some (h : c.Ok) {p : Nat} {c' : Chunk} :
    c.allocate l = some (p, c') ↔ alignUp c.used l.align + l.size ≤ c.capacity ∧
      p = c.ptr + alignUp c.used l.align ∧ c' = c.setUsed (alignUp c.used l.align + l.size) := by
  rw [allocate_eq h]
  split
  · rename_i hf
    exact ⟨(fun h => nomatch h), fun h => absurd h.1 (Nat.not_le.mpr hf)⟩
  · rename_i hf
    simp only [Option.some.injEq, Prod.mk.injEq]
    exact ⟨fun h => ⟨Nat.not_lt.mp hf, h.1.symm, h.2.symm⟩, fun h => ⟨h.2.1.symm, h.2.2.symm⟩⟩

theorem allocate_eq_none (h : c.Ok) :
    c.allocate l = none ↔ c.capacity < alignUp c.used l.align + l.size := by
  rw [allocate_eq h]
  split
  · rename_i hf
    exact ⟨fun _ => hf, fun _ => rfl⟩
  · rename_i hf
    exact ⟨(fun h => nomatch h), fun h => absurd h hf⟩

/-- A served request ends at or behind the offset and within the capacity, also on a chunk whose
    offset is not. -/
theorem allocate_ge (hu : c.used ≤ 2 ^ 63) {p : Nat} {c' : Chunk}
    (e : c.allocate l = some (p, c')) :
    ∃ fin, fin = alignUp c.used l.align + l.size ∧ c' = c.setUsed fin ∧ c.used ≤ fin ∧
      fin ≤ c.capacity := by
  obtain ⟨fin, hfin, e⟩ := Option.bind_eq_some_iff.mp e
  have hle : c.used ≤ alignUp c.used l.align := by
    refine le_alignUp l.align_pos ?_
    have := l.fits
    unfold wordMod
    omega
  unfold checkedAdd at hfin
  split at hfin
  · cases hfin
    split at e
    · cases e
    · rename_i hcap
      cases e
      exact ⟨_, rfl, rfl, by omega, Nat.not_lt.mp hcap⟩
  · cases hfin

end Allocate

end Chunk

/-! ## 3. Exact arithmetic -/

/-- The bound of a `Layout` is the one Rust states: the size rounded up to the alignment fits
    `isize::MAX`. -/
theorem Layout.fits_iff {size align k : Nat} (hk : align = 2 ^ k) (hs : size ≠ 0) :
    size + align ≤ 2 ^ 63 ↔ roundUp size align ≤ 2 ^ 63 - 1 := by
  have ha : 0 < align := by subst hk; exact Nat.two_pow_pos k
  obtain ⟨⟨hdvd, hle⟩, _⟩ := isLeast_roundUp ha size
  constructor
  · intro h
    have := roundUp_lt ha size
    omega
  · intro h
    -- both the rounded size and 2 ^ 63 are multiples of the alignment, so a whole one fits between
    have hge : align ≤ roundUp size align := Nat.le_of_dvd (by omega) hdvd
    have hlt : k < 63 := (Nat.pow_lt_pow_iff_right (a := 2) (by decide)).mp (by omega)
    have hdvd' : align ∣ 2 ^ 63 - roundUp size align :=
      Nat.dvd_sub (hk ▸ Nat.pow_dvd_pow 2 (Nat.le_of_lt hlt)) hdvd
    have := Nat.le_of_dvd (by omega) hdvd'
    omega

/-- **`Chunk::allocate` on any chunk whose capacity fits `isize::MAX`**: neither sum wraps, and the
    request is placed as in exact arithmetic. -/
theorem Chunk.allocate_exact {c : Chunk} (l : Layout) (hu : c.used ≤ c.capacity)
    (hc : c.capacity ≤ 2 ^ 63 - 1) :
    c.used + l.align < wordMod ∧ alignUp c.used l.align + l.size < wordMod ∧
      c.allocate l =
        if c.capacity < roundUp c.used l.align + l.size then none
        else some (c.ptr + roundUp c.used l.align,
          c.setUsed (roundUp c.used l.align + l.size)) := by
  obtain ⟨k, hk⟩ := l.pow2
  have hfits := l.fits
  have h1 : c.used + l.align < wordMod := by
    unfold wordMod
    omega
  have heq := alignUp_eq_roundUp hk (Nat.le_of_lt h1)
  have hlt := roundUp_lt l.align_pos c.used
  have h2 : roundUp c.used l.align + l.size < wordMod := by
    unfold wordMod
    omega
  refine ⟨h1, heq ▸ h2, ?_⟩
  simp only [allocate, heq, checkedAdd, if_pos h2, Option.bind_some, setUsed, gt_iff_lt]

/-- **The mask computation.** For every word and every power of two whose sum, less one, is a word,
    the mask gives the least multiple from that word on. The layouts of nonzero size are those
    whose rounded size fits `isize::MAX`; for each of them, and for the empty ones, neither
    addition of `Chunk::allocate` wraps, whatever the offset within a capacity that fits, too. -/
theorem mask_exact :
    (∀ x k : Nat, x < wordMod → 2 ^ k < wordMod → x + 2 ^ k - 1 < wordMod →
      IsLeast {o | 2 ^ k ∣ o ∧ x ≤ o} (alignUp x (2 ^ k))) ∧
    (∀ size k : Nat, size ≠ 0 → ((∃ l : Layout, l.size = size ∧ l.align = 2 ^ k) ↔
      roundUp size (2 ^ k) ≤ 2 ^ 63 - 1)) ∧
    ∀ (l : Layout) (c : Chunk), c.used ≤ c.capacity → c.capacity ≤ 2 ^ 63 - 1 →
      c.used + l.align < wordMod ∧ alignUp c.used l.align + l.size < wordMod ∧
        c.allocate l =
          if c.capacity < roundUp c.used l.align + l.size then none
          else some (c.ptr + roundUp c.used l.align,
            c.setUsed (roundUp c.used l.align + l.size)) := by
  refine ⟨fun x k _ _ h => ?_, fun size k hs => ?_, fun l c hu hc => ?_⟩
  · have hpos := Nat.two_pow_pos k
    rw [alignUp_eq_roundUp rfl (by omega)]
    exact isLeast_roundUp hpos x
  · rw [← Layout.fits_iff rfl hs]
    constructor
    · rintro ⟨l, rfl, hl⟩
      exact hl ▸ l.fits
    · intro h
      exact ⟨⟨size, 2 ^ k, ⟨k, rfl⟩, h⟩, rfl, rfl⟩
  · exact Chunk.allocate_exact l hu hc

/-- The largest word that 16 can still round, and the largest request on the largest chunk. -/
theorem mask_exact_top :
    IsLeast {o | 2 ^ 4 ∣ o ∧ 2 ^ 64 - 16 ≤ o} (alignUp (2 ^ 64 - 16) (2 ^ 4)) ∧
    ∃ (l : Layout) (c : Chunk), l.size = 2 ^ 63 - 64 ∧ l.align = 2 ^ 6 ∧
      c.used = 2 ^ 63 - 1 ∧ c.capacity = 2 ^ 63 - 1 ∧
      alignUp c.used l.align + l.size < wordMod ∧ c.allocate l = none := by
  obtain ⟨h1, h2, h3⟩ := mask_exact
  refine ⟨h1 (2 ^ 64 - 16) 4 (by decide) (by decide) (by decide), ?_⟩
  obtain ⟨l, hsize, halign⟩ := (h2 (2 ^ 63 - 64) 6 (by decide)).mpr (by decide)
  obtain ⟨_, hsum, hal⟩ := h3 l ⟨0, 2 ^ 63 - 1, 2 ^ 63 - 1⟩ (Nat.le_refl _)
    (Nat.le_refl _)
  refine ⟨l, _, hsize, halign, rfl, rfl, hsum, hal.trans (if_pos ?_)⟩
  rw [hsize, halign]
  decide

end ArenaB
