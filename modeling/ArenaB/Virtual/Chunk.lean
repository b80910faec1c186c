/-
  File:      ArenaB/Virtual/Chunk.lean
  Subject:   `VirtualChunk` (src/virtual_memory.rs): a bump offset over a region that commits its
             pages as the offset reaches them.

  A call of `allocate` may have its `mprotect` refused, and its weak exchange may fail although no
  other thread runs; both are arguments. `granted` lists what was returned since the last reset.

  * `ensureCommitted` -- the part of `allocate` that extends the committed prefix. Whatever it
    returns, the pages below `committed_size` are committed (`Backed.ensure`);
  * `Backed` -- that fact with the bounds of the region. A `reset` whose decommit is refused keeps
    it: the number is 0 then, and the next commit starts over from there;
  * **`virtual_chunk_sound`** -- whatever was returned is committed, within the capacity, aligned
    and apart from the rest.
-/
import ArenaB.Core.Chunk
import ArenaB.Virtual.Region

namespace ArenaB

open Base

/-! ## 1. The chunk -/

/-- `VirtualChunk`. -/
structure VirtualChunk where
  region : VirtualMemoryRegion
  capacity : Nat
  used : Nat

namespace VirtualChunk

/-- `VirtualChunk::new`; `map` and `os` are the answers of `mmap` and `mprotect`. -/
def new (map : Option Nat) (os : Bool) (capacity : Nat) : Except String VirtualChunk :=
  match VirtualMemoryRegion.new map capacity with
  | .error e => .error e
  | .ok region =>
      let initialCommit := min capacity defaultCommitSize
      match region.commit os 0 initialCommit with
      | (.error e, _) => .error e
      | (.ok _, region) => .ok ⟨region, capacity, 0⟩

/-- Commits what is missing below `fin`; `false` if the commit returned an error. -/
def ensureCommitted (region : VirtualMemoryRegion) (os : Bool) (fin : Nat) :
    Bool × VirtualMemoryRegion :=
  if fin > region.committedSize then
    let r := region.commit os region.committedSize (fin - region.committedSize)
    (r.1.isOk, r.2)
  else (true, region)

/-- `VirtualChunk::allocate`; `os` answers the `mprotect` of the commit, `spurious` says that the
    exchange fails. -/
def allocate (c : VirtualChunk) (os spurious : Bool) (layout : Layout) :
    Option Nat × VirtualChunk :=
  let start := alignUp c.used layout.align
  let fin := wadd start layout.size
  if fin > c.capacity then (none, c)
  else
    match ensureCommitted c.region os fin with
    | (false, region) => (none, { c with region })
    | (true, region) =>
        if spurious then (none, { c with region })
        else (some (region.ptr + start), { c with region, used := fin })

/-- `VirtualChunk::reset`. -/
def reset (c : VirtualChunk) (os : Bool) : VirtualChunk :=
  { c with used := 0, region := c.region.reset os }

end VirtualChunk

/-- The chunk, and the pointers returned since the last reset with their layouts. -/
structure VirtualRun where
  chunk : VirtualChunk
  granted : List (Nat × Layout)

/-- One operation, with what the OS answers. -/
inductive VirtualOp where
  | allocate (os spurious : Bool) (layout : Layout)
  | reset (os : Bool)

/-- Performs an operation. -/
def VirtualRun.exec (s : VirtualRun) : VirtualOp → VirtualRun
  | .allocate os spurious layout =>
      let r := s.chunk.allocate os spurious layout
      ⟨r.2, s.granted ++ (r.1.map fun p => (p, layout)).toList⟩
  | .reset os => ⟨s.chunk.reset os, []⟩

/-- Runs of one chunk, from every capacity. -/
def virtualChunks : System VirtualRun VirtualOp where
  init s := (∃ map os capacity, VirtualChunk.new map os capacity = .ok s.chunk) ∧ s.granted = []
  ok _ _ := True
  step s l := some (s.exec l)

instance (s : VirtualRun) (l : VirtualOp) : Decidable (virtualChunks.ok s l) := .isTrue trivial

/-! ## 2. The committed prefix -/

/-- The region is bounded and every page below its number is committed. -/
structure VirtualMemoryRegion.Backed (r : VirtualMemoryRegion) : Prop extends r.Bounded where
  full : Pages.Full pageSize r.pages r.committedSize

namespace VirtualMemoryRegion

variable {r : VirtualMemoryRegion}

/-- A commit that starts at the number extends the committed prefix. -/
theorem Backed.commit (h : r.Backed) (os : Bool) (n : Nat) :
    (r.commit os r.committedSize n).2.Backed := by
  refine ⟨h.toBounded.commit os _ n, ?_⟩
  rcases r.commit_cases os r.committedSize n with hi | ⟨_, he⟩
  · rw [hi.1]
    exact h.full
  · rw [he, h.pageUp_committed]
    show Pages.Full pageSize _ (max r.committedSize (r.committedSize + pageUp n))
    rw [Nat.max_eq_right (Nat.le_add_right _ _)]
    exact h.full.protect _

theorem Backed.reset (h : r.Backed) (os : Bool) : (r.reset os).Backed := by
  refine ⟨h.toBounded.reset os, ?_⟩
  rw [(h.reset_cases os).1]
  exact Pages.full_zero _ _

/-- What `ensureCommitted` leaves. -/
structure Extends (r : VirtualMemoryRegion) (fin : Nat) (x : Bool × VirtualMemoryRegion) :
    Prop where
  backed : x.2.Backed
  ptr : x.2.ptr = r.ptr
  grown : r.committedSize ≤ x.2.committedSize
  enough : x.1 = true → fin ≤ x.2.committedSize

theorem Backed.ensure (h : r.Backed) (os : Bool) {fin : Nat} (hfin : fin + pageSize ≤ wordMod) :
    r.Extends fin (VirtualChunk.ensureCommitted r os fin) := by
  unfold VirtualChunk.ensureCommitted
  by_cases hlt : fin > r.committedSize
  · rw [if_pos hlt]
    have hbacked := h.commit os (fin - r.committedSize)
    rcases r.commit_cases os r.committedSize (fin - r.committedSize) with hi | ⟨_, he⟩
    · refine ⟨hbacked, congrArg ptr hi.1, Nat.le_of_eq (congrArg committedSize hi.1).symm, ?_⟩
      intro hok
      have := hi.2 (isOk_iff.mp hok)
      omega
    · have hle : fin - r.committedSize ≤ pageUp (fin - r.committedSize) := le_pageUp (by omega)
      have hcommitted : (r.commit os r.committedSize (fin - r.committedSize)).2.committedSize =
          max r.committedSize (r.committedSize + pageUp (fin - r.committedSize)) := by
        rw [he, h.pageUp_committed]
      refine ⟨hbacked, by rw [he], ?_, fun _ => ?_⟩
      · rw [hcommitted]
        exact Nat.le_max_left _ _
      · rw [hcommitted]
        omega
  · rw [if_neg hlt]
    exact ⟨h, rfl, Nat.le_refl _, fun _ => Nat.not_lt.mp hlt⟩

end VirtualMemoryRegion

/-! ## 3. Allocation -/

namespace VirtualChunk

variable {c : VirtualChunk}

/-- What holds of a chunk. -/
structure Ok (c : VirtualChunk) : Prop where
  region : c.region.Backed
  used : c.used ≤ c.region.committedSize
  within : c.used ≤ c.capacity

theorem new_ok {map : Option Nat} {os : Bool} {n : Nat} (h : new map os n = .ok c) : c.Ok := by
  unfold new at h
  split at h
  · cases h
  · rename_i region hr
    obtain ⟨hb, _, h0, _⟩ := VirtualMemoryRegion.new_ok hr
    have hback : region.Backed := ⟨hb, by rw [h0]; exact Pages.full_zero _ _⟩
    have hcommit := hback.commit os (min n defaultCommitSize)
    rw [h0] at hcommit
    simp only at h
    split at h
    · cases h
    · rename_i region' he
      cases h
      rw [he] at hcommit
      exact ⟨hcommit, Nat.zero_le _, Nat.zero_le _⟩

/-- The offsets are far below the word size, so no addition wraps. -/
theorem Ok.start (h : c.Ok) (l : Layout) :
    c.used ≤ alignUp c.used l.align ∧ alignUp c.used l.align + l.size + pageSize ≤ wordMod := by
  have h1 := h.used
  have h2 := h.region.committed
  have h3 := h.region.reserved
  have h4 := l.fits
  simp only [maxReserveSize, pageSize, wordMod] at *
  have hw : c.used + l.align ≤ 2 ^ 64 := by omega
  have h5 := alignUp_lt l.align_pos hw
  exact ⟨le_alignUp l.align_pos hw, by omega⟩

theorem Ok.fin_eq (h : c.Ok) (l : Layout) :
    wadd (alignUp c.used l.align) l.size = alignUp c.used l.align + l.size := by
  have hw := (h.start l).2
  exact wadd_eq (by unfold pageSize at hw; omega)

/-- What a call of `allocate` does: it keeps the chunk in order, and what it returns is aligned
    and lies between the old offset and the new one. -/
structure Serves (c : VirtualChunk) (l : Layout) (x : Option Nat × VirtualChunk) : Prop where
  ok : x.2.Ok
  ptr : x.2.region.ptr = c.region.ptr
  used : c.used ≤ x.2.used
  served : ∀ p ∈ x.1, ∃ start, p = c.region.ptr + start ∧ c.used ≤ start ∧ l.align ∣ start ∧
    start + l.size = x.2.used

/-- A call that returns nothing has at most extended the committed prefix. -/
theorem Ok.serves_none (h : c.Ok) {l : Layout} {fin : Nat} {x : Bool × VirtualMemoryRegion}
    (hx : c.region.Extends fin x) : c.Serves l (none, { c with region := x.2 }) :=
  ⟨⟨hx.backed, h.used.trans hx.grown, h.within⟩, hx.ptr, Nat.le_refl _,
    fun p hp => by cases hp⟩

theorem Ok.serves (h : c.Ok) (os spurious : Bool) (l : Layout) :
    c.Serves l (c.allocate os spurious l) := by
  obtain ⟨hstart, hw⟩ := h.start l
  have hx := h.region.ensure os hw
  unfold allocate
  simp only [h.fin_eq l]
  split
  · exact ⟨h, rfl, Nat.le_refl _, fun p hp => by cases hp⟩
  · rename_i hcap
    cases he : ensureCommitted c.region os (alignUp c.used l.align + l.size) with
    | mk done region =>
        rw [he] at hx
        cases done with
        | false => exact h.serves_none hx
        | true =>
            cases spurious with
            | true => exact h.serves_none hx
            | false =>
                refine ⟨⟨hx.backed, hx.enough rfl, Nat.not_lt.mp hcap⟩, hx.ptr, ?_, ?_⟩
                · show c.used ≤ alignUp c.used l.align + l.size
                  omega
                · intro p hp
                  cases hp
                  exact ⟨_, by rw [← hx.ptr], hstart, l.dvd_alignUp _, rfl⟩

theorem Ok.reset (h : c.Ok) (os : Bool) : (c.reset os).Ok :=
  ⟨h.region.reset os, Nat.zero_le _, Nat.zero_le _⟩

end VirtualChunk

/-! ## 4. Runs -/

/-- The range of a grant. -/
def grantSpan (g : Nat × Layout) : Span := ⟨g.1, g.2.size⟩

/-- A grant is aligned and lies below the offset. -/
def VirtualChunk.Holds (c : VirtualChunk) (g : Nat × Layout) : Prop :=
  ∃ start, g.1 = c.region.ptr + start ∧ g.2.align ∣ start ∧ start + g.2.size ≤ c.used

/-- What holds between the operations. -/
structure VirtualRun.Sound (s : VirtualRun) : Prop where
  ok : s.chunk.Ok
  holds : ∀ g ∈ s.granted, s.chunk.Holds g
  apart : s.granted.Pairwise fun g g' => (grantSpan g).Apart (grantSpan g')

/-- A call of `allocate` keeps what was granted, and adds at most one grant behind it. -/
theorem VirtualRun.Sound.allocate {s : VirtualRun} (h : s.Sound) (os spurious : Bool) (l : Layout) :
    (s.exec (.allocate os spurious l)).Sound := by
  have hs := h.ok.serves os spurious l
  have hkeep : ∀ g ∈ s.granted, (s.chunk.allocate os spurious l).2.Holds g := by
    intro g hg
    obtain ⟨start, hp, hd, hle⟩ := h.holds g hg
    exact ⟨start, by rw [hs.ptr]; exact hp, hd, hle.trans hs.used⟩
  cases hp : (s.chunk.allocate os spurious l).1 with
  | none =>
      have e : s.exec (.allocate os spurious l) =
          ⟨(s.chunk.allocate os spurious l).2, s.granted⟩ := by
        simp [VirtualRun.exec, hp]
      rw [e]
      exact ⟨hs.ok, hkeep, h.apart⟩
  | some p =>
      have e : s.exec (.allocate os spurious l) =
          ⟨(s.chunk.allocate os spurious l).2, s.granted ++ [(p, l)]⟩ := by
        simp [VirtualRun.exec, hp]
      obtain ⟨start, rfl, hstart, hd, hfin⟩ := hs.served p hp
      rw [e]
      refine ⟨hs.ok, fun g hg => ?_, List.pairwise_append.mpr ⟨h.apart, ?_, fun g hg g' hg' => ?_⟩⟩
      · rcases List.mem_append.mp hg with hg | hg
        · exact hkeep g hg
        · rw [List.mem_singleton.mp hg]
          exact ⟨start, by rw [hs.ptr], hd, Nat.le_of_eq hfin⟩
      · exact List.pairwise_singleton _ _
      · -- the new range starts at or behind the old offset, where the others have ended
        rw [List.mem_singleton.mp hg']
        obtain ⟨start', hp', _, hle'⟩ := h.holds g hg
        refine Or.inr (Or.inr (Or.inl ?_))
        simp only [grantSpan, Span.fin, hp']
        omega

theorem reach_virtual {s : VirtualRun} (h : virtualChunks.Reach s) : s.Sound := by
  refine h.inv (P := VirtualRun.Sound) (fun s hi => ?_) fun s l s' hs _ e => ?_
  · obtain ⟨⟨map, os, n, hn⟩, h0⟩ := hi
    refine ⟨VirtualChunk.new_ok hn, ?_, ?_⟩
    · rw [h0]
      exact fun g hg => by cases hg
    · rw [h0]
      exact .nil
  · cases e
    cases l with
    | allocate os spurious l => exact hs.allocate os spurious l
    | reset os => exact ⟨hs.ok.reset os, (fun g hg => by cases hg), .nil⟩

/-- **A virtual chunk**, whichever OS calls fail: every page below `committed_size` is committed,
    `used` is at most that, and every pointer returned since the last reset covers committed bytes
    within the capacity, at an aligned offset, apart from the others. -/
theorem virtual_chunk_sound {s : VirtualRun} (h : virtualChunks.Reach s) :
    (∀ p, p * pageSize < s.chunk.region.committedSize → s.chunk.region.pages p = true) ∧
    s.chunk.used ≤ s.chunk.region.committedSize ∧
    (∀ g ∈ s.granted, ∃ start, g.1 = s.chunk.region.ptr + start ∧ g.2.align ∣ start ∧
      start + g.2.size ≤ s.chunk.capacity ∧
      ∀ x, start ≤ x → x < start + g.2.size → s.chunk.region.pages (x / pageSize) = true) ∧
    s.granted.Pairwise fun g g' => (grantSpan g).Apart (grantSpan g') := by
  have hs := reach_virtual h
  refine ⟨hs.ok.region.full, hs.ok.used, fun g hg => ?_, hs.apart⟩
  obtain ⟨start, hp, hd, hle⟩ := hs.holds g hg
  refine ⟨start, hp, hd, hle.trans hs.ok.within, fun x _ hx => ?_⟩
  exact hs.ok.region.full.byte (Nat.lt_of_lt_of_le hx (hle.trans hs.ok.used))

/-- A grant, a reset whose decommit is refused, a commit that is refused, a grant over the edge of
    the first committed pages. -/
theorem virtual_chunk_sound_refused : ∃ s, virtualChunks.Reach s ∧
    (s.granted.map Prod.fst = [1048576, 1048584] ∧ s.chunk.region.committedSize = 8192) ∧
    ∀ p, p * pageSize < s.chunk.region.committedSize → s.chunk.region.pages p = true := by
  obtain ⟨s, hr, hs⟩ := System.exists_reach_of_replay virtualChunks
    [.allocate true false .word, .reset false,
      .allocate false false .word,
      .allocate true true .word,
      .allocate true false .word,
      .allocate true false ⟨5000, 4, ⟨2, rfl⟩, by decide⟩]
    (P := fun s => s.granted.map Prod.fst = [1048576, 1048584] ∧
      s.chunk.region.committedSize = 8192)
    (s := ⟨⟨⟨1048576, 12288, 12288, Pages.protect pageSize Pages.none 0 12288 true⟩, 10000, 0⟩, []⟩)
    ⟨⟨some 1048576, true, 10000, rfl⟩, rfl⟩ (by decide)
  exact ⟨s, hr, hs, (virtual_chunk_sound hr).1⟩

end ArenaB
