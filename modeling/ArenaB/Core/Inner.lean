/-
  File:      ArenaB/Core/Inner.lean
  Subject:   `ArenaInner` (src/core.rs): the chunks, the current index, the checkpoint stack and
             the statistics, and the functions that change them.

  * A panic (an index out of bounds, a failed `assert!`) is `none`; a `Result` is an `Except` with
    the source's message. What the system allocator returns is an argument.
  * The counters that only ever count calls (ids, `allocation_count`, `bytes_used`) are unbounded.
  * `rewindToCheckpoint` is the part of the source function that concerns the arena itself; the
    reset of the lock-free buffer, which also touches the calling thread's slab and the memory, is
    `ArenaInner.resetBuffer`, and `Arena.rewindToCheckpoint` does both.
  * `Shape` -- what every reachable arena satisfies; one lemma per function says what it does on
    such an arena (`allocate_eq_some`, `addChunk_ok`, `checkpoint_eq`, `rewind_eq_some`).
-/
import ArenaB.Base.Levels
import ArenaB.Core.Chunk
import ArenaB.LockFree.Buffer

namespace ArenaB

open Base

/-! ## 1. Data -/

/-- `ArenaCheckpoint`. -/
structure ArenaCheckpoint where
  chunkIndex : Nat
  chunkOffset : Nat
  checkpointId : Nat
  allocationCount : Nat
  deriving DecidableEq, Repr

/-- `ArenaStats`. -/
structure ArenaStats where
  bytesUsed : Nat
  bytesAllocated : Nat
  allocationCount : Nat
  chunkCount : Nat
  deriving DecidableEq, Repr

/-- `ArenaInner`; `lockfreeBuffer` is `none` in a build without the lockfree feature. -/
structure ArenaInner where
  chunks : List Chunk
  currentChunk : Nat
  checkpoints : List ArenaCheckpoint
  currentCheckpointId : Nat
  stats : ArenaStats
  lockfreeBuffer : Option LockFreeBuffer
  deriving DecidableEq, Repr

/-- A chunk as a vessel whose level is its bump offset. -/
def Chunk.gauge : Gauge Chunk := ⟨Chunk.used, Chunk.setUsed, fun _ _ => rfl, fun _ _ _ => rfl,
  fun _ => rfl⟩

namespace ArenaInner

/-! ## 2. The functions of core.rs -/

/-- `ArenaInner::new`; `lockfree` is `none` without the feature and otherwise what the system
    allocator returns for the buffer's block. -/
def new (sys : Option Nat) (lockfree : Option (Option Nat)) (initialCapacity : Nat) :
    Except String ArenaInner :=
  match Chunk.new sys initialCapacity with
  | .error e => .error e
  | .ok chunk => .ok {
      chunks := [chunk]
      currentChunk := 0
      checkpoints := []
      currentCheckpointId := 0
      stats := ⟨0, initialCapacity, 0, 1⟩
      lockfreeBuffer := lockfree.map LockFreeBuffer.new }

/-- The index `allocate` and `checkpoint` use: the current one, clamped to the last chunk. -/
def chunkIdx (a : ArenaInner) : Nat :=
  if a.currentChunk ≥ a.chunks.length then a.chunks.length - 1 else a.currentChunk

/-- `ArenaInner::allocate`. -/
def allocate (a : ArenaInner) (layout : Layout) : Option (Nat × ArenaInner) :=
  a.chunks[a.chunkIdx]?.bind fun chunk =>
    (chunk.allocate layout).map fun r =>
      (r.1, { a with
        chunks := a.chunks.set a.chunkIdx r.2
        stats := { a.stats with
          bytesUsed := a.stats.bytesUsed + layout.size
          allocationCount := a.stats.allocationCount + 1 } })

/-- `ArenaInner::add_chunk`. -/
def addChunk (a : ArenaInner) (sys : Option Nat) (capacity : Nat) :
    Except String (Nat × ArenaInner) :=
  match Chunk.new sys capacity with
  | .error e => .error e
  | .ok chunk =>
      .ok (a.chunks.length, { a with
        chunks := a.chunks ++ [chunk]
        currentChunk := a.chunks.length
        stats := { a.stats with
          chunkCount := a.chunks.length + 1
          bytesAllocated := a.stats.bytesAllocated + capacity } })

/-- `ArenaInner::checkpoint`. -/
def checkpoint (a : ArenaInner) : Option (ArenaCheckpoint × ArenaInner) :=
  a.chunks[a.chunkIdx]?.map fun chunk =>
    (⟨a.chunkIdx, chunk.used, a.currentCheckpointId, a.stats.allocationCount⟩,
      { a with currentCheckpointId := a.currentCheckpointId + 1 })

/-- The loop of `rewind_to_checkpoint` over the chunks. -/
def rewindChunks (chunks : List Chunk) (cp : ArenaCheckpoint) : List Chunk :=
  chunks.mapIdx fun idx chunk =>
    if idx < cp.chunkIndex then chunk
    else if idx = cp.chunkIndex then chunk.setUsed cp.chunkOffset
    else chunk.reset

/-- `ArenaInner::rewind_to_checkpoint`; `debug` says whether the debug feature is on, which moves
    the id counter back. -/
def rewindToCheckpoint (a : ArenaInner) (debug : Bool) (cp : ArenaCheckpoint) :
    Option ArenaInner :=
  a.chunks[cp.chunkIndex]?.bind fun chunk =>
    if cp.chunkOffset ≤ chunk.capacity then
      let chunks := rewindChunks a.chunks cp
      some { a with
        chunks := chunks
        currentChunk := cp.chunkIndex
        checkpoints := a.checkpoints.filter fun c => c.checkpointId < cp.checkpointId
        currentCheckpointId := if debug then cp.checkpointId + 1 else a.currentCheckpointId
        stats := { a.stats with
          bytesUsed := ((chunks.take (cp.chunkIndex + 1)).map Chunk.used).sum
          allocationCount := cp.allocationCount } }
    else none

/-- `ArenaInner::push_checkpoint`. -/
def pushCheckpoint (a : ArenaInner) : Option (ArenaCheckpoint × ArenaInner) :=
  a.checkpoint.map fun r => (r.1, { r.2 with checkpoints := r.2.checkpoints ++ [r.1] })

/-- `self.lockfree_buffer.reset()`, if there is a buffer. -/
def resetBuffer (a : ArenaInner) (slab : ThreadSlab) (mem : Mem) :
    ArenaInner × ThreadSlab × Mem :=
  match a.lockfreeBuffer with
  | none => (a, slab, mem)
  | some b =>
      let r := b.reset slab mem
      ({ a with lockfreeBuffer := some r.1 }, r.2.1, r.2.2)

/-! ## 3. The shape of a reachable arena -/

/-- The offset of the current chunk. -/
def bump (a : ArenaInner) : Nat := (a.chunks[a.currentChunk]?.map Chunk.used).getD 0

/-- The bump position. -/
def pos (a : ArenaInner) : Nat × Nat := (a.currentChunk, a.bump)

/-- The current chunk exists, every chunk is in bounds, every chunk after the current is empty. -/
structure Shape (a : ArenaInner) : Prop where
  top : Chunk.gauge.Top a.chunks a.currentChunk
  chunks : ∀ c ∈ a.chunks, c.Ok

section Spec

variable {a a' : ArenaInner}

theorem Shape.current_lt (h : a.Shape) : a.currentChunk < a.chunks.length := h.top.lt

theorem Shape.chunkIdx_eq (h : a.Shape) : a.chunkIdx = a.currentChunk :=
  if_neg (Nat.not_le.mpr h.current_lt)

/-- The current chunk of a well-shaped arena. -/
theorem Shape.exists_current (h : a.Shape) : ∃ c, a.chunks[a.currentChunk]? = some c ∧
    a.bump = c.used ∧ c.Ok := by
  have hc := List.getElem?_eq_getElem h.current_lt
  refine ⟨_, hc, ?_, h.chunks _ (List.mem_of_getElem? hc)⟩
  rw [bump, hc]
  rfl

theorem bump_eq {c : Chunk} (h : a.chunks[a.currentChunk]? = some c) : a.bump = c.used := by
  rw [bump, h]
  rfl

theorem rewindChunks_eq (cs : List Chunk) (cp : ArenaCheckpoint) :
    rewindChunks cs cp = Chunk.gauge.cut cs cp.chunkIndex cp.chunkOffset := rfl

theorem new_shape {sys : Option Nat} {lockfree : Option (Option Nat)} {cap : Nat}
    (h : new sys lockfree cap = .ok a) : a.Shape := by
  unfold new at h
  cases hc : Chunk.new sys cap with
  | error e =>
      rw [hc] at h
      cases h
  | ok c =>
      rw [hc] at h
      cases h
      refine ⟨Gauge.top_append [] c, fun d hd => ?_⟩
      rw [List.mem_singleton.mp hd]
      exact (Chunk.new_ok hc).2.2.2

/-- A new arena has no checkpoints, and a new buffer if any. -/
theorem new_eq_ok {sys : Option Nat} {lockfree : Option (Option Nat)} {cap : Nat}
    (h : new sys lockfree cap = .ok a) : a.checkpoints = [] ∧ a.currentCheckpointId = 0 ∧
      a.lockfreeBuffer = lockfree.map LockFreeBuffer.new := by
  unfold new at h
  split at h
  · cases h
  · cases h
    exact ⟨rfl, rfl, rfl⟩

/-- A new arena has one chunk, of the rounded capacity, and books the capacity asked for. -/
theorem new_stats {sys : Option Nat} {lockfree : Option (Option Nat)} {cap : Nat}
    (h : new sys lockfree cap = .ok a) :
    a.stats = ⟨0, cap, 0, 1⟩ ∧ ∃ c, a.chunks = [c] ∧ c.capacity = Chunk.roundCapacity cap := by
  unfold new at h
  cases hc : Chunk.new sys cap with
  | error _ =>
      rw [hc] at h
      cases h
  | ok c =>
      rw [hc] at h
      cases h
      exact ⟨rfl, c, rfl, (Chunk.new_ok hc).2.1⟩

/-- **What a successful `allocate` does**: it bumps the current chunk. -/
theorem allocate_eq_some (h : a.Shape) {l : Layout} {p : Nat} :
    a.allocate l = some (p, a') ↔ ∃ c, a.chunks[a.currentChunk]? = some c ∧
      alignUp c.used l.align + l.size ≤ c.capacity ∧ p = c.ptr + alignUp c.used l.align ∧
      a' = { a with
        chunks := a.chunks.set a.currentChunk (c.setUsed (alignUp c.used l.align + l.size))
        stats := { a.stats with
          bytesUsed := a.stats.bytesUsed + l.size
          allocationCount := a.stats.allocationCount + 1 } } := by
  unfold allocate
  rw [h.chunkIdx_eq]
  obtain ⟨c, hc, _, hok⟩ := h.exists_current
  rw [hc]
  simp only [Option.bind_some, Option.map_eq_some_iff, Prod.mk.injEq, Option.some.injEq]
  constructor
  · rintro ⟨⟨p', c'⟩, hal, rfl, rfl⟩
    obtain ⟨h1, h2, h3⟩ := (Chunk.allocate_eq_some hok).mp hal
    subst h3
    exact ⟨c, rfl, h1, h2, rfl⟩
  · rintro ⟨c', rfl, h1, h2, h3⟩
    exact ⟨_, (Chunk.allocate_eq_some hok).mpr ⟨h1, rfl, rfl⟩, h2.symm, h3.symm⟩

theorem allocate_eq_none (h : a.Shape) {l : Layout} {c : Chunk}
    (hc : a.chunks[a.currentChunk]? = some c) :
    a.allocate l = none ↔ c.capacity < alignUp c.used l.align + l.size := by
  unfold allocate
  rw [h.chunkIdx_eq, hc, Option.bind_some, Option.map_eq_none_iff]
  exact Chunk.allocate_eq_none (h.chunks c (List.mem_of_getElem? hc))

/-- **What a successful `add_chunk` does**: it appends an empty chunk and makes it current. -/
theorem addChunk_ok {sys : Option Nat} {cap n : Nat} (h : a.addChunk sys cap = .ok (n, a')) :
    ∃ c, sys = some c.ptr ∧ c.capacity = Chunk.roundCapacity cap ∧ c.used = 0 ∧ c.Ok ∧
      a' = { a with
        chunks := a.chunks ++ [c]
        currentChunk := a.chunks.length
        stats := { a.stats with
          chunkCount := a.chunks.length + 1
          bytesAllocated := a.stats.bytesAllocated + cap } } := by
  unfold addChunk at h
  cases hc : Chunk.new sys cap with
  | error e =>
      rw [hc] at h
      cases h
  | ok c =>
      rw [hc] at h
      cases h
      obtain ⟨h1, h2, h3, h4⟩ := Chunk.new_ok hc
      exact ⟨c, h1, h2, h3, h4, rfl⟩

/-- **`checkpoint` records the bump position** and hands out the next id. -/
theorem checkpoint_eq (h : a.Shape) : a.checkpoint =
    some (⟨a.currentChunk, a.bump, a.currentCheckpointId, a.stats.allocationCount⟩,
      { a with currentCheckpointId := a.currentCheckpointId + 1 }) := by
  obtain ⟨c, hc, hb, _⟩ := h.exists_current
  unfold checkpoint
  rw [h.chunkIdx_eq, hc, hb]
  rfl

/-- **What a successful rewind does**, and when it is one: the two asserts. -/
theorem rewind_eq_some {debug : Bool} {cp : ArenaCheckpoint} :
    a.rewindToCheckpoint debug cp = some a' ↔
      (∃ c, a.chunks[cp.chunkIndex]? = some c ∧ cp.chunkOffset ≤ c.capacity) ∧
      a' = { a with
        chunks := rewindChunks a.chunks cp
        currentChunk := cp.chunkIndex
        checkpoints := a.checkpoints.filter fun c => c.checkpointId < cp.checkpointId
        currentCheckpointId := if debug then cp.checkpointId + 1 else a.currentCheckpointId
        stats := { a.stats with
          bytesUsed := (((rewindChunks a.chunks cp).take (cp.chunkIndex + 1)).map Chunk.used).sum
          allocationCount := cp.allocationCount } } := by
  unfold rewindToCheckpoint
  rw [Option.bind_eq_some_iff]
  constructor
  · rintro ⟨c, hc, h⟩
    split at h
    · rename_i hle
      cases h
      exact ⟨⟨c, hc, hle⟩, rfl⟩
    · cases h
  · rintro ⟨⟨c, hc, hle⟩, rfl⟩
    exact ⟨c, hc, if_pos hle⟩

/-- A rewind takes `bytes_used` from the offsets and `allocation_count` from the checkpoint. -/
theorem rewind_stats {debug : Bool} {cp : ArenaCheckpoint}
    (e : a.rewindToCheckpoint debug cp = some a') :
    a'.stats.bytesUsed = Chunk.gauge.total a'.chunks ∧
      a'.stats.allocationCount = cp.allocationCount := by
  obtain ⟨⟨c, hc, _⟩, rfl⟩ := rewind_eq_some.mp e
  have htop : Chunk.gauge.Top (rewindChunks a.chunks cp) cp.chunkIndex :=
    Gauge.top_cut (List.getElem?_eq_some_iff.mp hc).1
  exact ⟨Gauge.total_take htop, rfl⟩

end Spec

end ArenaInner

end ArenaB
