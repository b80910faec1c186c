/-
  File:      ArenaB/Arena/Ops.lean
  Subject:   The public operations of `Arena` and `Scope` (src/arena.rs).

  * An `Arena` here is the source's struct together with what its calls touch besides it: the
    slab of the calling thread, the memory, and the address at which the lock-free buffer's
    struct lives (the slab records it as its owner).
  * A call that panics or ends in `handle_alloc_error` is `none`. The answer of the system
    allocator to the one request a call may make is an argument.
  * Under the debug feature the pointer a caller gets is that of a guarded copy outside the
    arena; the model keeps the arena's own pointer, so with `debug` on it speaks about the
    arena's bookkeeping only.
-/
import ArenaB.Core.Inner

namespace ArenaB

open Base

def defaultChunkSize : Nat := 64 * 1024
def minChunkSize : Nat := 4096
def maxChunkSize : Nat := 16 * 1024 * 1024

/-! ## 1. Growth -/

/-- The `while` loop of `next_chunk_capacity`, with a bound on its rounds. -/
def growCapacity : Nat → Nat → Nat → Nat
  | 0, capacity, _ => capacity
  | fuel + 1, capacity, minSize =>
      if capacity < minSize ∧ capacity < maxChunkSize then growCapacity fuel (capacity * 2) minSize
      else capacity

/-- `next_chunk_capacity`. -/
def nextChunkCapacity (minSize : Nat) : Nat :=
  min (max (growCapacity 12 minChunkSize minSize) minSize) maxChunkSize

/-- The bound of twelve rounds is no bound: from 4096 on the loop has left by then. -/
theorem growCapacity_exit (minSize : Nat) :
    ¬ (growCapacity 12 minChunkSize minSize < minSize ∧
      growCapacity 12 minChunkSize minSize < maxChunkSize) := by
  have h : ∀ fuel c, maxChunkSize ≤ c * 2 ^ fuel →
      ¬ (growCapacity fuel c minSize < minSize ∧ growCapacity fuel c minSize < maxChunkSize) := by
    intro fuel
    induction fuel with
    | zero =>
        intro c hc
        simp only [growCapacity]
        omega
    | succ fuel ih =>
        intro c hc
        unfold growCapacity
        split
        · exact ih (c * 2) (by rwa [Nat.mul_assoc, ← Nat.pow_succ'])
        · assumption
  exact h 12 minChunkSize (by decide)

namespace ArenaInner

/-- The chunk path of `allocate_raw`: the current chunk, else a new one. -/
def allocateOrGrow (a : ArenaInner) (sys : Option Nat) (layout : Layout) :
    Option (Nat × ArenaInner) :=
  match a.allocate layout with
  | some r => some r
  | none =>
      match a.addChunk sys (nextChunkCapacity layout.size) with
      | .error _ => none
      | .ok r => r.2.allocate layout

end ArenaInner

/-! ## 2. The arena -/

/-- `Arena`, the calling thread's slab, the memory; `owner` is the address of the buffer struct. -/
structure Arena where
  inner : ArenaInner
  lockfreeStats : LockFreeStats
  owner : Nat
  slab : ThreadSlab
  mem : Mem

/-- A value of some type: its layout and its bytes. -/
structure Value where
  layout : Layout
  bytes : List UInt8
  length_eq : bytes.length = layout.size

/-- A slice `&[T]`: the layout of `T`, the length, the bytes of the elements. -/
structure Slice where
  elem : Layout
  len : Nat
  bytes : List UInt8
  length_eq : bytes.length = elem.size * len

namespace Arena

def withInner (w : Arena) (inner : ArenaInner) : Arena := { w with inner := inner }

def withMem (w : Arena) (mem : Mem) : Arena := { w with mem := mem }

/-- `Arena::with_capacity`: `sys` answers the first request, `sys'` that of the fallback. -/
def withCapacity (sys sys' : Option Nat) (lockfree : Option (Option Nat)) (owner : Nat)
    (slab : ThreadSlab) (mem : Mem) (capacity : Nat) : Option Arena :=
  match ArenaInner.new sys lockfree capacity with
  | .ok inner => some ⟨inner, LockFreeStats.new, owner, slab, mem⟩
  | .error _ =>
      match ArenaInner.new sys' lockfree defaultChunkSize with
      | .ok inner => some ⟨inner, LockFreeStats.new, owner, slab, mem⟩
      | .error _ => none

/-- The lock-free path of `allocate_raw`. -/
def tryLockfree (w : Arena) (layout : Layout) : Option Nat × Arena :=
  match w.inner.lockfreeBuffer with
  | none => (none, w)
  | some buffer =>
      if layout.size ≤ 1024 then
        match buffer.tryAlloc w.owner w.slab layout.size layout.align with
        | (some ptr, buffer, slab) =>
            (some ptr, { w with
              inner := { w.inner with
                lockfreeBuffer := some buffer
                stats := { w.inner.stats with
                  bytesUsed := w.inner.stats.bytesUsed + layout.size
                  allocationCount := w.inner.stats.allocationCount + 1 } }
              lockfreeStats := w.lockfreeStats.recordAllocation.recordCacheHit
              slab := slab })
        | (none, buffer, slab) =>
            (none, { w with
              inner := { w.inner with lockfreeBuffer := some buffer }
              lockfreeStats := w.lockfreeStats.recordCacheMiss.recordContention
              slab := slab })
      else (none, w)

/-- The zero-size path of `allocate_raw`: only the counter moves. -/
def countZeroSize (w : Arena) : Arena :=
  w.withInner { w.inner with
      stats := { w.inner.stats with allocationCount := w.inner.stats.allocationCount + 1 } }

/-- `Arena::allocate_raw`; the dangling pointer of a zero-size request is address 1. -/
def allocateRaw (w : Arena) (sys : Option Nat) (layout : Layout) : Option (Nat × Arena) :=
  if layout.size = 0 then some (1, w.countZeroSize)
  else
    match w.tryLockfree layout with
    | (some ptr, w') => some (ptr, w')
    | (none, w') =>
        (w'.inner.allocateOrGrow sys layout).map fun r => (r.1, w'.withInner r.2)

/-- `Arena::alloc`. -/
def alloc (w : Arena) (sys : Option Nat) (value : Value) : Option (Nat × Arena) :=
  (w.allocateRaw sys value.layout).map fun r =>
    (r.1, r.2.withMem (r.2.mem.write r.1 value.bytes))

/-- `Arena::alloc_slice_copy`; no address is the dangling empty slice, which the source returns
    for an empty input and for one whose layout overflows. -/
def allocSliceCopy (w : Arena) (sys : Option Nat) (slice : Slice) :
    Option (Option Nat × Arena) :=
  if slice.len = 0 then some (none, w)
  else
    match slice.elem.array slice.len with
    | none => some (none, w)
    | some layout =>
        (w.allocateRaw sys layout).map fun r =>
          (some r.1, r.2.withMem (r.2.mem.write r.1 slice.bytes))

/-- `Arena::checkpoint`, and `Scope::new`, which keeps it. -/
def checkpoint (w : Arena) : Option (ArenaCheckpoint × Arena) :=
  w.inner.checkpoint.map fun r => (r.1, w.withInner r.2)

/-- `Arena::push_checkpoint`. -/
def pushCheckpoint (w : Arena) : Option (ArenaCheckpoint × Arena) :=
  w.inner.pushCheckpoint.map fun r => (r.1, w.withInner r.2)

/-- The reset of the lock-free buffer at the end of a rewind or a reset. -/
def resetBuffer (w : Arena) : Arena :=
  let r := w.inner.resetBuffer w.slab w.mem
  { w with inner := r.1, slab := r.2.1, mem := r.2.2 }

/-- `Arena::rewind_to_checkpoint`, and `Scope::reset` and `Drop for Scope`, which call it with
    the scope's own checkpoint. -/
def rewindToCheckpoint (w : Arena) (debug : Bool) (cp : ArenaCheckpoint) : Option Arena :=
  (w.inner.rewindToCheckpoint debug cp).map fun inner => (w.withInner inner).resetBuffer

/-- `Arena::pop_and_rewind`. -/
def popAndRewind (w : Arena) (debug : Bool) : Option (ArenaCheckpoint × Arena) :=
  w.inner.checkpoints.getLast?.bind fun cp =>
    (w.withInner { w.inner with checkpoints := w.inner.checkpoints.dropLast }
      |>.rewindToCheckpoint debug cp).map fun w' => (cp, w')

/-- `Arena::clear_checkpoints`. -/
def clearCheckpoints (w : Arena) : Arena := w.withInner { w.inner with checkpoints := [] }

/-- `Arena::reset`. -/
def reset (w : Arena) : Arena :=
  (w.withInner { w.inner with
      chunks := w.inner.chunks.map Chunk.reset
      currentChunk := 0
      stats := { w.inner.stats with bytesUsed := 0, bytesAllocated := 0, allocationCount := 0 }
      checkpoints := [] }).resetBuffer

/-- `Arena::reset_and_shrink_to_fit`; it leaves the lock-free buffer alone. -/
def resetAndShrinkToFit (w : Arena) : Arena :=
  let chunks := (w.inner.chunks.take 1).map (Chunk.setUsed · 0)
  w.withInner { w.inner with
      chunks := chunks
      currentChunk := 0
      checkpoints := []
      stats := ⟨0, 0, 0, chunks.length⟩ }

/-- `Arena::stats` with the stats feature. -/
def stats (w : Arena) : ArenaStats := w.inner.stats

/-- `Arena::checkpoint_count`. -/
def checkpointCount (w : Arena) : Nat := w.inner.checkpoints.length

/-- A new arena, of the capacity asked for or of the default one. -/
theorem withCapacity_eq_some {sys sys' : Option Nat} {lockfree : Option (Option Nat)}
    {owner : Nat} {slab : ThreadSlab} {mem : Mem} {capacity : Nat} {w : Arena}
    (e : withCapacity sys sys' lockfree owner slab mem capacity = some w) :
    ∃ sys cap a, ArenaInner.new sys lockfree cap = .ok a ∧
      w = ⟨a, LockFreeStats.new, owner, slab, mem⟩ := by
  unfold withCapacity at e
  split at e
  · rename_i hn
    cases e
    exact ⟨_, _, _, hn, rfl⟩
  · split at e
    · rename_i hn
      cases e
      exact ⟨_, _, _, hn, rfl⟩
    · cases e

/-- A slice gets no memory if it is empty or has no layout, else the memory of its layout. -/
theorem allocSliceCopy_eq_some {w : Arena} {sys : Option Nat} {slice : Slice}
    {r : Option Nat × Arena} (e : w.allocSliceCopy sys slice = some r) :
    (slice.len = 0 ∨ slice.elem.array slice.len = none) ∧ r = (none, w) ∨
    ∃ l p w', slice.len ≠ 0 ∧ slice.elem.array slice.len = some l ∧
      w.allocateRaw sys l = some (p, w') ∧
      r = (some p, w'.withMem (w'.mem.write p slice.bytes)) := by
  unfold allocSliceCopy at e
  split at e
  · next h0 =>
    cases e
    exact Or.inl ⟨Or.inl h0, rfl⟩
  · next h0 =>
    split at e
    · next hl =>
      cases e
      exact Or.inl ⟨Or.inr hl, rfl⟩
    · next l hl =>
      obtain ⟨⟨p, w'⟩, hw, rfl⟩ := Option.map_eq_some_iff.mp e
      exact Or.inr ⟨l, p, w', h0, hl, hw, rfl⟩

end Arena

end ArenaB
