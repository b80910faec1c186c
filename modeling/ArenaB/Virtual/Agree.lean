/-
  File:      ArenaB/Virtual/Agree.lean
  Subject:   `Chunk` (src/core.rs) and `VirtualChunk` (src/virtual_memory.rs) given the same calls
             by one thread: where the two bump allocators agree and where not.

  Both are created with one capacity, a multiple of 64 of at most 4 GiB, and no call to the OS or
  to the system allocator fails. The weak exchange may fail on either side. `Chunk::allocate`
  retries; `VirtualChunk::allocate` gives up.

  * `Chunk.allocateAlone` -- a call of `Chunk::allocate`, step by step, whose first `n` exchanges
    fail: `n` does not matter (`allocateAlone_eq`, by induction on it);
  * `VirtualChunk.Whole` -- the reservation is a number of whole pages and as large as the
    capacity, so a commit below the capacity is never refused (`Whole.ensure`);
  * `ChunkPair`, `chunkPairs` -- the two side by side; `Persists` is the condition on a step: the
    exchange of the virtual chunk fails only on a request that does not fit, which never gets to it;
  * **`virtual_agrees`** -- as long as it is met, the two have the same offset; and a call agrees
    exactly if it meets it. `virtual_gives_up` is a call that does not.
-/
import ArenaB.Core.Bump
import ArenaB.Virtual.Chunk

namespace ArenaB

open Base

/-! ## 1. A call of `Chunk::allocate` alone on its chunk -/

/-- A call from the head of its loop on, with no other call between its steps: `n` rounds whose
    exchange fails, and one whose exchange does not. -/
def BumpCall.runAlone (c : Chunk) (k : BumpCall) : Nat → Chunk × BumpCall
  | 0 =>
      let r := k.run c false
      r.2.run r.1 false
  | n + 1 =>
      let r := k.run c false
      let r' := r.2.run r.1 true
      runAlone r'.1 r'.2 n

/-- What the call returned. -/
def BumpCall.returned (k : BumpCall) : Option Nat :=
  match k.pc with
  | .ret p => p
  | _ => none

/-- `Chunk::allocate` called by the only thread, its first `n` exchanges failing spuriously. -/
def Chunk.allocateAlone (c : Chunk) (n : Nat) (layout : Layout) : Option Nat × Chunk :=
  let r := BumpCall.runAlone c ⟨layout, .load, []⟩ n
  (r.2.returned, r.1)

namespace Chunk

variable {c : Chunk}

/-- A call that has returned stays as it is. -/
theorem runAlone_ret {l : Layout} {p : Option Nat} {reads : List Nat} (n : Nat) :
    BumpCall.runAlone c ⟨l, .ret p, reads⟩ n = (c, ⟨l, .ret p, reads⟩) := by
  induction n with
  | zero => rfl
  | succ n ih => exact ih

theorem runAlone_full (h : c.Ok) {l : Layout} (hf : c.capacity < alignUp c.used l.align + l.size)
    (reads : List Nat) (n : Nat) :
    ∃ reads', BumpCall.runAlone c ⟨l, .load, reads⟩ n = (c, ⟨l, .ret none, reads'⟩) := by
  have hres : c.reserve l = .ret none := by
    rcases h.reserve_cases l with ⟨he, _⟩ | ⟨_, hle⟩
    · exact he
    · omega
  have hload : BumpCall.run c ⟨l, .load, reads⟩ false = (c, ⟨l, .ret none, reads ++ [c.used]⟩) := by
    simp only [BumpCall.run, hres]
  refine ⟨reads ++ [c.used], ?_⟩
  cases n with
  | zero =>
      simp only [BumpCall.runAlone, hload]
      rfl
  | succ n =>
      simp only [BumpCall.runAlone, hload]
      exact runAlone_ret n

theorem runAlone_fits (h : c.Ok) {l : Layout} (hf : alignUp c.used l.align + l.size ≤ c.capacity)
    (n : Nat) (reads : List Nat) :
    ∃ reads', BumpCall.runAlone c ⟨l, .load, reads⟩ n =
      (c.setUsed (alignUp c.used l.align + l.size),
        ⟨l, .ret (some (c.ptr + alignUp c.used l.align)), reads'⟩) := by
  have hres : c.reserve l =
      .exchange c.used (alignUp c.used l.align) (alignUp c.used l.align + l.size) := by
    rcases h.reserve_cases l with ⟨_, hno⟩ | ⟨he, _⟩
    · exact absurd (hno _ (h.start l).1 (l.dvd_alignUp _)) (Nat.not_lt.mpr hf)
    · exact he
  -- A round that fails leaves the chunk and comes back to the head of the loop.
  induction n generalizing reads with
  | zero =>
      refine ⟨reads ++ [c.used], ?_⟩
      simp only [BumpCall.runAlone, BumpCall.run, hres, and_self, if_true]
  | succ n ih =>
      obtain ⟨reads', hr⟩ := ih (reads ++ [c.used])
      refine ⟨reads', ?_⟩
      rw [BumpCall.runAlone]
      simp only [BumpCall.run, hres, Bool.true_eq_false, and_false, if_false]
      exact hr

/-- **Retries do not show**: the call is `Chunk.allocate`, however often its exchange failed. -/
theorem allocateAlone_eq (h : c.Ok) (n : Nat) (l : Layout) : c.allocateAlone n l =
    if c.capacity < alignUp c.used l.align + l.size then (none, c)
    else (some (c.ptr + alignUp c.used l.align), c.setUsed (alignUp c.used l.align + l.size)) := by
  unfold allocateAlone
  split
  · rename_i hf
    obtain ⟨reads, hr⟩ := runAlone_full h hf [] n
    rw [hr]
    rfl
  · rename_i hf
    obtain ⟨reads, hr⟩ := runAlone_fits h (Nat.not_lt.mp hf) n []
    rw [hr]
    rfl

end Chunk

/-! ## 2. A virtual chunk whose commits are not refused -/

namespace VirtualMemoryRegion

variable {r : VirtualMemoryRegion}

theorem commit_reserved (r : VirtualMemoryRegion) (os : Bool) (offset size : Nat) :
    (r.commit os offset size).2.reservedSize = r.reservedSize := by
  rcases r.commit_cases os offset size with hi | ⟨_, he⟩
  · rw [hi.1]
  · rw [he]

theorem reset_reserved (r : VirtualMemoryRegion) (os : Bool) :
    (r.reset os).reservedSize = r.reservedSize ∧ (r.reset os).ptr = r.ptr := by
  unfold reset
  split
  · rcases r.decommit_cases os 0 r.committedSize with hi | ⟨_, he⟩
    · simp only [hi.1, and_self]
    · rw [he]
      exact ⟨rfl, rfl⟩
  · exact ⟨rfl, rfl⟩

/-- A range within the reservation is committed if the OS does not refuse. -/
theorem commit_granted {offset size : Nat} (hle : pageUp offset + pageUp size ≤ r.reservedSize)
    (hres : r.reservedSize < wordMod) : (r.commit true offset size).1 = .ok () := by
  have hadd : checkedAdd (pageUp offset) (pageUp size) = some (pageUp offset + pageUp size) :=
    if_pos (by omega)
  unfold commit
  split
  · rfl
  · simp only [hadd]
    rw [if_neg (Nat.not_lt.mpr hle), if_neg (by decide)]

theorem ensure_reserved (r : VirtualMemoryRegion) (os : Bool) (fin : Nat) :
    (VirtualChunk.ensureCommitted r os fin).2.reservedSize = r.reservedSize := by
  unfold VirtualChunk.ensureCommitted
  split
  · exact r.commit_reserved os _ _
  · rfl

/-- The pages below an end within the reservation can be committed: the reservation is a number of
    whole pages, so rounding the missing bytes up does not leave it. -/
theorem Backed.ensure_granted (h : r.Backed) (hm : pageSize ∣ r.reservedSize) {fin : Nat}
    (hfin : fin ≤ r.reservedSize) : (VirtualChunk.ensureCommitted r true fin).1 = true := by
  have hres := h.add_pageSize_le (Nat.le_refl r.reservedSize)
  unfold VirtualChunk.ensureCommitted
  split
  · rename_i hlt
    have hup : pageUp (fin - r.committedSize) ≤ r.reservedSize - r.committedSize :=
      alignUp_le (k := 12) rfl (by unfold pageSize at hres; omega) (by omega)
        (Nat.dvd_sub hm h.multiple)
    refine isOk_iff.mpr (commit_granted ?_ (by unfold pageSize at hres; omega))
    rw [h.pageUp_committed]
    have := h.committed
    omega
  · rfl

end VirtualMemoryRegion

namespace VirtualChunk

variable {c : VirtualChunk}

/-- What holds of a chunk of at most 4 GiB: its reservation is a number of whole pages and as
    large as the capacity. -/
structure Whole (c : VirtualChunk) : Prop extends c.Ok where
  pages : pageSize ∣ c.region.reservedSize
  room : c.capacity ≤ c.region.reservedSize

theorem new_whole {map : Option Nat} {os : Bool} {n : Nat} (hn : n ≤ maxReserveSize)
    (h : new map os n = .ok c) : c.Whole ∧ c.capacity = n ∧ c.used = 0 := by
  have hok := new_ok h
  unfold new at h
  split at h
  · cases h
  · rename_i region hr
    have hres : pageSize ∣ region.reservedSize ∧ n ≤ region.reservedSize := by
      unfold VirtualMemoryRegion.new at hr
      split at hr
      · cases hr
      · cases map with
        | none => cases hr
        | some ptr =>
            cases hr
            refine ⟨pageSize_dvd_pageUp _, ?_⟩
            have hle : n ≤ min (max n pageSize) maxReserveSize :=
              Nat.le_min.mpr ⟨Nat.le_max_left _ _, hn⟩
            have hw : min (max n pageSize) maxReserveSize + pageSize ≤ wordMod :=
              (Nat.add_le_add_right (Nat.min_le_right _ _) _).trans (by decide)
            exact hle.trans (le_pageUp hw)
    have hkeep := region.commit_reserved os 0 (min n defaultCommitSize)
    simp only at h
    split at h
    · cases h
    · rename_i region' he
      cases h
      rw [he] at hkeep
      refine ⟨⟨hok, ?_, ?_⟩, rfl, rfl⟩
      · show pageSize ∣ region'.reservedSize
        rw [hkeep]
        exact hres.1
      · show n ≤ region'.reservedSize
        rw [hkeep]
        exact hres.2

/-- **`VirtualChunk::allocate` with an OS that does not refuse**: a request that does not fit
    changes nothing; one that fits gets its range, unless the exchange fails. -/
theorem Whole.allocate_cases (h : c.Whole) (spurious : Bool) (l : Layout) :
    (c.capacity < alignUp c.used l.align + l.size ∧ c.allocate true spurious l = (none, c)) ∨
      alignUp c.used l.align + l.size ≤ c.capacity ∧
        ∃ region : VirtualMemoryRegion, region.reservedSize = c.region.reservedSize ∧
          region.ptr = c.region.ptr ∧ c.allocate true spurious l =
            if spurious then (none, { c with region })
            else (some (c.region.ptr + alignUp c.used l.align),
              { c with region, used := alignUp c.used l.align + l.size }) := by
  obtain ⟨_, hw⟩ := h.start l
  unfold allocate
  simp only [h.fin_eq l]
  by_cases hf : alignUp c.used l.align + l.size > c.capacity
  · rw [if_pos hf]
    exact Or.inl ⟨hf, rfl⟩
  · rw [if_neg hf]
    have hle := Nat.not_lt.mp hf
    have hdone := h.region.ensure_granted h.pages (hle.trans h.room)
    have hkeep := c.region.ensure_reserved true (alignUp c.used l.align + l.size)
    have hptr := (h.region.ensure true hw).ptr
    refine Or.inr ⟨hle, _, hkeep, hptr, ?_⟩
    generalize he : ensureCommitted c.region true (alignUp c.used l.align + l.size) = x at *
    obtain ⟨done, region⟩ := x
    obtain rfl : done = true := hdone
    rw [← hptr]

theorem Whole.allocate (h : c.Whole) (spurious : Bool) (l : Layout) :
    (c.allocate true spurious l).2.Whole ∧
      (c.allocate true spurious l).2.capacity = c.capacity := by
  have hok := (h.serves true spurious l).ok
  rcases h.allocate_cases spurious l with ⟨_, he⟩ | ⟨_, region, hkeep, _, he⟩
  · rw [he]
    exact ⟨h, rfl⟩
  · have hp : pageSize ∣ region.reservedSize := hkeep ▸ h.pages
    have hr : c.capacity ≤ region.reservedSize := hkeep ▸ h.room
    rw [he] at hok ⊢
    cases spurious with
    | true => exact ⟨⟨hok, hp, hr⟩, rfl⟩
    | false => exact ⟨⟨hok, hp, hr⟩, rfl⟩

theorem Whole.reset (h : c.Whole) (os : Bool) : (c.reset os).Whole := by
  have hkeep := (c.region.reset_reserved os).1
  refine ⟨h.toOk.reset os, ?_, ?_⟩
  · show pageSize ∣ (c.region.reset os).reservedSize
    rw [hkeep]
    exact h.pages
  · show c.capacity ≤ (c.region.reset os).reservedSize
    rw [hkeep]
    exact h.room

end VirtualChunk

/-! ## 3. The two side by side -/

/-- A chunk and a virtual chunk. -/
structure ChunkPair where
  chunk : Chunk
  virt : VirtualChunk

/-- A call made on both; `failures` and `spurious` are the failed exchanges of the two. -/
inductive ChunkPairOp where
  | allocate (failures : Nat) (spurious : Bool) (layout : Layout)
  | reset

/-- Performs the call on both. -/
def ChunkPair.exec (s : ChunkPair) : ChunkPairOp → ChunkPair
  | .allocate failures spurious layout =>
      ⟨(s.chunk.allocateAlone failures layout).2, (s.virt.allocate true spurious layout).2⟩
  | .reset => ⟨s.chunk.reset, s.virt.reset true⟩

/-- The offsets the two return. -/
def ChunkPair.offsets (s : ChunkPair) : ChunkPairOp → Option Nat × Option Nat
  | .allocate failures spurious layout =>
      ((s.chunk.allocateAlone failures layout).1.map (· - s.chunk.ptr),
        (s.virt.allocate true spurious layout).1.map (· - s.virt.region.ptr))
  | .reset => (none, none)

/-- Runs of both, from every capacity that is a multiple of 64 and at most 4 GiB; no call to the
    OS or to the system allocator fails. -/
def chunkPairs : System ChunkPair ChunkPairOp where
  init s := ∃ ptr map capacity, (64 ∣ capacity ∧ capacity ≤ maxReserveSize) ∧
    Chunk.new (some ptr) capacity = .ok s.chunk ∧
    VirtualChunk.new (some map) true capacity = .ok s.virt
  ok _ _ := True
  step s l := some (s.exec l)

instance (s : ChunkPair) (l : ChunkPairOp) : Decidable (chunkPairs.ok s l) := .isTrue trivial

/-- Both return the same and have the same offset afterwards. -/
def ChunkPair.Agree (s : ChunkPair) (l : ChunkPairOp) : Prop :=
  (s.offsets l).1 = (s.offsets l).2 ∧ (s.exec l).chunk.used = (s.exec l).virt.used

/-- The exchange of the virtual chunk fails only on a request that does not fit. -/
def ChunkPair.Persists (s : ChunkPair) : ChunkPairOp → Prop
  | .allocate _ spurious layout => spurious = true →
      s.virt.capacity < alignUp s.virt.used layout.align + layout.size
  | .reset => True

instance (s : ChunkPair) (l : ChunkPairOp) : Decidable (s.Persists l) := by
  unfold ChunkPair.Persists
  split <;> infer_instance

/-- What holds between the calls. -/
structure ChunkPair.Level (s : ChunkPair) : Prop where
  chunk : s.chunk.Ok
  virt : s.virt.Whole
  capacity : s.chunk.capacity = s.virt.capacity
  used : s.chunk.used = s.virt.used

section Steps

variable {s : ChunkPair}

/-- The condition is exact for `allocate`. -/
theorem ChunkPair.Level.allocate_iff (h : s.Level) (n : Nat) (spurious : Bool) (l : Layout) :
    s.Agree (.allocate n spurious l) ↔ s.Persists (.allocate n spurious l) := by
  have halone := Chunk.allocateAlone_eq h.chunk n l
  unfold ChunkPair.Agree ChunkPair.Persists
  simp only [ChunkPair.offsets, ChunkPair.exec]
  rw [h.used, h.capacity] at halone
  rcases h.virt.allocate_cases spurious l with ⟨hf, he⟩ | ⟨hle, region, _, _, he⟩
  · rw [if_pos hf] at halone
    rw [halone, he]
    exact ⟨fun _ _ => hf, fun _ => ⟨rfl, h.used⟩⟩
  · rw [if_neg (Nat.not_lt.mpr hle)] at halone
    rw [halone, he]
    cases spurious with
    | true => exact ⟨fun hr => absurd hr.1 (by simp), fun hr => absurd (hr rfl) (by omega)⟩
    | false =>
        refine ⟨fun _ hr => absurd hr Bool.noConfusion, fun _ => ⟨?_, rfl⟩⟩
        simp only [Bool.false_eq_true, if_false, Option.map_some, Nat.add_sub_cancel_left]

/-- **A call agrees exactly under the condition.** -/
theorem ChunkPair.Level.agree_iff (h : s.Level) (l : ChunkPairOp) : s.Agree l ↔ s.Persists l := by
  cases l with
  | allocate n spurious layout => exact h.allocate_iff n spurious layout
  | reset => exact ⟨fun _ => trivial, fun _ => ⟨rfl, rfl⟩⟩

theorem Chunk.Ok.allocateAlone {c : Chunk} (h : c.Ok) (n : Nat) (l : Layout) :
    (c.allocateAlone n l).2.Ok ∧ (c.allocateAlone n l).2.capacity = c.capacity := by
  rw [Chunk.allocateAlone_eq h]
  split
  · exact ⟨h, rfl⟩
  · rename_i hf
    exact ⟨h.setUsed (Nat.not_lt.mp hf), rfl⟩

theorem ChunkPair.Level.step (h : s.Level) {l : ChunkPairOp} (hp : s.Persists l) :
    (s.exec l).Level := by
  have hused := ((h.agree_iff l).mpr hp).2
  cases l with
  | allocate n spurious layout =>
      have hc := h.chunk.allocateAlone n layout
      have hv := h.virt.allocate spurious layout
      refine ⟨hc.1, hv.1, ?_, hused⟩
      show (s.chunk.allocateAlone n layout).2.capacity =
        (s.virt.allocate true spurious layout).2.capacity
      rw [hc.2, hv.2, h.capacity]
  | reset =>
      exact ⟨h.chunk.setUsed (Nat.zero_le _), h.virt.reset true, h.capacity, hused⟩

end Steps

theorem chunkPairs_init {s : ChunkPair} (h : chunkPairs.init s) : s.Level := by
  obtain ⟨ptr, map, n, ⟨hd, hn⟩, hc, hv⟩ := h
  obtain ⟨_, hcap, hused, hok⟩ := Chunk.new_ok hc
  obtain ⟨hwhole, hvcap, hvused⟩ := VirtualChunk.new_whole hn hv
  have hlt : n + 63 < wordMod := Nat.lt_of_le_of_lt (Nat.add_le_add_right hn 63) (by decide)
  have hround := Chunk.roundCapacity_add_mod hlt
  refine ⟨hok, hwhole, ?_, hused.trans hvused.symm⟩
  rw [hcap, hvcap]
  omega

theorem reach_level {s : ChunkPair} (h : (chunkPairs.under ChunkPair.Persists).Reach s) :
    s.Level := by
  refine h.inv (P := ChunkPair.Level) (fun s hi => ?_) fun s l s' hs hok e => ?_
  · exact chunkPairs_init hi
  · cases e
    exact hs.step hok.2

/-- **Chunk and virtual chunk.** In every run of both in which the exchange of the virtual chunk
    failed only on requests that do not fit, the two have the same offset; and the next call
    returns the same offset in both or None in both, and leaves the offsets equal, if and only if
    it meets that condition, too. How often the exchange of the chunk fails is irrelevant. -/
theorem virtual_agrees {s : ChunkPair} (h : (chunkPairs.under ChunkPair.Persists).Reach s) :
    s.chunk.used = s.virt.used ∧ ∀ l, s.Agree l ↔ s.Persists l :=
  ⟨(reach_level h).used, (reach_level h).agree_iff⟩

/-- Eight bytes, retried by the chunk; a commit behind the first 64 KiB; a request that does not
    fit; a reset. -/
theorem virtual_agrees_commits : ∃ s, (chunkPairs.under ChunkPair.Persists).Reach s ∧
    (s.chunk.used = 70008 ∧ s.virt.region.committedSize = 73728) ∧
    s.chunk.used = s.virt.used := by
  obtain ⟨s, hr, hs⟩ := System.exists_reach_of_replay (chunkPairs.under ChunkPair.Persists)
    [.allocate 0 false ⟨24, 8, ⟨3, rfl⟩, by decide⟩, .reset,
      .allocate 2 false .word,
      .allocate 0 false ⟨70000, 8, ⟨3, rfl⟩, by decide⟩,
      .allocate 1 true ⟨70000, 8, ⟨3, rfl⟩, by decide⟩]
    (P := fun s => s.chunk.used = 70008 ∧ s.virt.region.committedSize = 73728)
    (s := ⟨⟨1048576, 128000, 0⟩, ⟨⟨8388608, 131072, 65536,
      Pages.protect pageSize Pages.none 0 65536 true⟩, 128000, 0⟩⟩)
    ⟨1048576, 8388608, 128000, by decide, rfl, rfl⟩ (by decide)
  exact ⟨s, hr, hs, (virtual_agrees hr).1⟩

/-- One exchange that fails on each side: the chunk returns offset 0 and has used 8 bytes, the
    virtual chunk returns nothing. -/
theorem virtual_gives_up : ∃ s, chunkPairs.Reach s ∧
    s.offsets (.allocate 1 true .word) = (some 0, none) ∧
    (s.exec (.allocate 1 true .word)).chunk.used = 8 ∧
    (s.exec (.allocate 1 true .word)).virt.used = 0 := by
  exact System.exists_reach_of_replay chunkPairs []
    (P := fun s => s.offsets (.allocate 1 true .word) = (some 0, none) ∧
      (s.exec (.allocate 1 true .word)).chunk.used = 8 ∧
      (s.exec (.allocate 1 true .word)).virt.used = 0)
    (s := ⟨⟨1048576, 64, 0⟩, ⟨⟨8388608, 4096, 4096,
      Pages.protect pageSize Pages.none 0 4096 true⟩, 64, 0⟩⟩)
    ⟨1048576, 8388608, 64, by decide, rfl, rfl⟩ (by decide)

end ArenaB
