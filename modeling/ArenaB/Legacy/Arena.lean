/-
  File:      ArenaB/Legacy/Arena.lean
  Subject:   The second `Arena` of the crate (src/legacy_arena.rs), over the same `ArenaInner`.

  It allocates, marks, rewinds and counts on its own: the counter is a field of the arena and not
  the one in `ArenaInner::stats`, a new chunk is tried before it is pushed, a rewind asserts
  nothing and neither restores the counter nor trims the stack of checkpoints.

  * `allocLayout` names the ways it panics; for every other function a panic (an index past the
    chunks) is `none`, as in the rest of the development;
  * **`allocLayout_eq_ok`** -- a served call is the one `ArenaInner::allocate` would make, on the
    arena as it is or with a chunk added, except for the statistics; `allocLayout_spec` is what
    follows for the chunks;
  * **`allocLayout_inNewChunk`** -- the panic in the new chunk is reached exactly by the sizes whose
    double overflows when it is rounded up.
-/
import ArenaB.Arena.Growth

namespace ArenaB.Legacy

open Base

/-! ## 1. The functions of legacy_arena.rs -/

/-- `Arena`, and the memory. -/
structure Arena where
  inner : ArenaInner
  allocationCounter : Nat
  mem : Mem

/-- The panics of `alloc_layout`. -/
inductive Panic where
  /-- An index past the chunks. -/
  | outOfBounds
  /-- "Failed to allocate new chunk", with the error of `Chunk::new`. -/
  | newChunk (error : String)
  /-- "Failed to allocate in new chunk". -/
  | inNewChunk
  deriving DecidableEq, Repr

/-- `layout.size().saturating_mul(2).max(MIN_CHUNK_SIZE)`. -/
def newCapacity (size : Nat) : Nat := max (min (size * 2) (wordMod - 1)) minChunkSize

theorem toOption_eq_some {α : Type} {x : Except Panic α} {r : α}
    (h : x.toOption = some r) : x = .ok r := by
  cases x with
  | error e => cases h
  | ok a =>
      cases h
      rfl

namespace Arena

def withChunks (w : Arena) (chunks : List Chunk) (currentChunk : Nat) : Arena :=
  { w with inner := { w.inner with chunks := chunks, currentChunk := currentChunk } }

/-- `Arena::with_capacity`. -/
def withCapacity (sys : Option Nat) (mem : Mem) (capacity : Nat) : Option Arena :=
  match ArenaInner.new sys none capacity with
  | .ok inner => some ⟨inner, 0, mem⟩
  | .error _ => none

/-- `Arena::alloc_layout`. -/
def allocLayout (w : Arena) (sys : Option Nat) (layout : Layout) : Except Panic (Nat × Arena) :=
  match w.inner.chunks[w.inner.chunkIdx]? with
  | none => .error .outOfBounds
  | some chunk =>
      match chunk.allocate layout with
      | some r =>
          .ok (r.1, w.withChunks (w.inner.chunks.set w.inner.chunkIdx r.2) w.inner.currentChunk)
      | none =>
          match Chunk.new sys (newCapacity layout.size) with
          | .error e => .error (.newChunk e)
          | .ok newChunk =>
              match newChunk.allocate layout with
              | some r =>
                  .ok (r.1, w.withChunks (w.inner.chunks ++ [r.2]) w.inner.chunks.length)
              | none => .error .inNewChunk

/-- `Arena::alloc`. -/
def alloc (w : Arena) (sys : Option Nat) (value : Value) : Option (Nat × Arena) :=
  (w.allocLayout sys value.layout).toOption.map fun r =>
    (r.1, { r.2 with
      allocationCounter := r.2.allocationCounter + 1
      mem := r.2.mem.write r.1 value.bytes })

/-- `Arena::alloc_slice_copy`; no address is the dangling empty slice. -/
def allocSliceCopy (w : Arena) (sys : Option Nat) (slice : Slice) :
    Option (Option Nat × Arena) :=
  match slice.elem.array slice.len with
  | none => some (none, w)
  | some layout =>
      (w.allocLayout sys layout).toOption.map fun r =>
        (some r.1, { r.2 with mem := r.2.mem.write r.1 slice.bytes })

/-- `Arena::checkpoint`. -/
def checkpoint (w : Arena) : Option ArenaCheckpoint :=
  w.inner.chunks[w.inner.currentChunk]?.map fun chunk =>
    ⟨w.inner.currentChunk, chunk.used, w.inner.currentCheckpointId, w.allocationCounter⟩

/-- `Arena::push_checkpoint`. -/
def pushCheckpoint (w : Arena) : Option (ArenaCheckpoint × Arena) :=
  w.checkpoint.map fun cp =>
    (cp, { w with inner := { w.inner with
      checkpoints := w.inner.checkpoints ++ [cp]
      currentCheckpointId := w.inner.currentCheckpointId + 1 } })

/-- `Arena::checkpoint_count`. -/
def checkpointCount (w : Arena) : Nat := w.inner.checkpoints.length

/-- `Arena::clear_checkpoints`. -/
def clearCheckpoints (w : Arena) : Arena :=
  { w with inner := { w.inner with checkpoints := [] } }

/-- `Arena::rewind_to_checkpoint`: the loop over the chunks behind, then the chunk itself. -/
def rewindToCheckpoint (w : Arena) (cp : ArenaCheckpoint) : Option Arena :=
  let chunks := w.inner.chunks.mapIdx fun idx chunk =>
    if cp.chunkIndex + 1 ≤ idx then chunk.reset else chunk
  chunks[cp.chunkIndex]?.map fun chunk =>
    w.withChunks (chunks.set cp.chunkIndex (chunk.setUsed cp.chunkOffset)) cp.chunkIndex

/-- The start of `Arena::scope`: the checkpoint and the count it comes back to. -/
def scopeEnter (w : Arena) : Option (ArenaCheckpoint × Nat) :=
  w.checkpoint.map fun cp => (cp, w.allocationCounter)

/-- The end of `Arena::scope`, after its closure has returned. -/
def scopeExit (w : Arena) (checkpoint : ArenaCheckpoint) (allocationCountBefore : Nat) :
    Option Arena :=
  (w.rewindToCheckpoint checkpoint).map fun w =>
    { w with allocationCounter := allocationCountBefore }

/-- `Arena::stats`. -/
def stats (w : Arena) : ArenaStats where
  bytesUsed := (w.inner.chunks.map Chunk.used).sum
  bytesAllocated := (w.inner.chunks.map Chunk.capacity).sum
  allocationCount := w.allocationCounter
  chunkCount := w.inner.chunks.length

/-- `Arena::reset`. -/
def reset (w : Arena) : Arena :=
  { w with
    inner := { w.inner with
      chunks := w.inner.chunks.map Chunk.reset
      currentChunk := 0
      checkpoints := [] }
    allocationCounter := 0 }

/-- `Arena::reset_and_shrink_to_fit`. -/
def resetAndShrinkToFit (w : Arena) : Arena :=
  { w with
    inner := { w.inner with
      chunks := (w.inner.chunks.map Chunk.reset).take 1
      currentChunk := 0
      checkpoints := [] }
    allocationCounter := 0 }

/-! ## 2. Allocation -/

section Allocate

variable {w w' : Arena} {sys : Option Nat} {l : Layout} {p : Nat}

/-- The new chunk is served before it is pushed in the source, after it by `add_chunk`. -/
theorem grown_eq {c : Chunk} {r : Nat × Chunk} (hnew : Chunk.new sys (newCapacity l.size) = .ok c)
    (hr : c.allocate l = some r) :
    ∃ n a₁ a', w.inner.addChunk sys (newCapacity l.size) = .ok (n, a₁) ∧
      a₁.allocate l = some (r.1, a') ∧
      w.withChunks (w.inner.chunks ++ [r.2]) w.inner.chunks.length =
        { w with inner := { a' with stats := w.inner.stats } } := by
  have hadd : ∃ a₁, w.inner.addChunk sys (newCapacity l.size) = .ok (w.inner.chunks.length, a₁) ∧
      a₁.chunks = w.inner.chunks ++ [c] ∧ a₁.currentChunk = w.inner.chunks.length ∧
      a₁.checkpoints = w.inner.checkpoints ∧
      a₁.currentCheckpointId = w.inner.currentCheckpointId ∧
      a₁.lockfreeBuffer = w.inner.lockfreeBuffer := by
    rw [ArenaInner.addChunk, hnew]
    exact ⟨_, rfl, rfl, rfl, rfl, rfl, rfl⟩
  obtain ⟨a₁, h₁, hcs, hcur, hcps, hid, hbuf⟩ := hadd
  have hidx : a₁.chunkIdx = w.inner.chunks.length := by
    rw [ArenaInner.chunkIdx, hcs, hcur, if_neg (by simp)]
  refine ⟨_, a₁, { a₁ with
    chunks := a₁.chunks.set a₁.chunkIdx r.2
    stats := { a₁.stats with
      bytesUsed := a₁.stats.bytesUsed + l.size
      allocationCount := a₁.stats.allocationCount + 1 } }, h₁, ?_, ?_⟩
  · rw [ArenaInner.allocate, hidx, hcs, List.getElem?_concat_length, Option.bind_some, hr]
    rfl
  · simp only [withChunks, hidx, hcs, hcur, hcps, hid, hbuf,
      List.set_append_right _ _ (Nat.le_refl _), Nat.sub_self, List.set_cons_zero]

/-- **A served call** is one of `ArenaInner::allocate`, on the arena as it is or with a chunk of
    the legacy capacity added; only the statistics stay behind. -/
theorem allocLayout_eq_ok (e : w.allocLayout sys l = .ok (p, w')) :
    ∃ a', (w.inner.allocate l = some (p, a') ∨
        ∃ n a₁, w.inner.addChunk sys (newCapacity l.size) = .ok (n, a₁) ∧
          a₁.allocate l = some (p, a')) ∧
      w' = { w with inner := { a' with stats := w.inner.stats } } := by
  unfold allocLayout at e
  split at e
  · cases e
  rename_i c hc
  split at e
  · rename_i r hr
    cases e
    refine ⟨{ w.inner with
      chunks := w.inner.chunks.set w.inner.chunkIdx r.2
      stats := { w.inner.stats with
        bytesUsed := w.inner.stats.bytesUsed + l.size
        allocationCount := w.inner.stats.allocationCount + 1 } }, Or.inl ?_, rfl⟩
    rw [ArenaInner.allocate, hc, Option.bind_some, hr]
    rfl
  split at e
  · cases e
  rename_i newChunk hnew
  split at e
  · rename_i r hr
    cases e
    obtain ⟨n, a₁, a', h₁, h₂, he⟩ := grown_eq (w := w) hnew hr
    exact ⟨a', Or.inr ⟨n, a₁, h₁, h₂⟩, he⟩
  · cases e

/-- What a served call does to the chunks. -/
theorem allocLayout_spec (h : w.inner.Shape) (e : w.allocLayout sys l = .ok (p, w')) :
    w'.inner.Shape ∧ w.inner.Grows w'.inner ∧ w.inner.Placed w'.inner p l.size ∧
      (w'.inner.spans = w.inner.spans ∨ ∃ ptr, sys = some ptr ∧
        w'.inner.spans = w.inner.spans ++ [⟨ptr, Chunk.roundCapacity (newCapacity l.size)⟩]) ∧
      w'.inner.lockfreeBuffer = w.inner.lockfreeBuffer := by
  obtain ⟨a', hcase, rfl⟩ := allocLayout_eq_ok e
  have hsame : a'.Same { a' with stats := w.inner.stats } := ⟨rfl, rfl, rfl, rfl⟩
  rcases hcase with ha | ⟨n, a₁, ha₁, ha⟩
  · obtain ⟨h1, h2, h3, h4⟩ := h.allocate ha
    obtain ⟨_, _, _, _, rfl⟩ := (ArenaInner.allocate_eq_some h).mp ha
    exact ⟨hsame.shape h1, h2.trans (hsame.grows h1), h3, Or.inl h4, rfl⟩
  · obtain ⟨h1, h2, h3, h4⟩ := h.grow ha₁ ha
    obtain ⟨_, _, _, _, rfl⟩ := (ArenaInner.allocate_eq_some (h.addChunk ha₁).1).mp ha
    obtain ⟨_, _, _, _, _, rfl⟩ := ArenaInner.addChunk_ok ha₁
    exact ⟨hsame.shape h1, h2.trans (hsame.grows h1), h3, Or.inr h4, rfl⟩

/-- Twice the size, as a `Layout` bounds it, does not saturate. -/
theorem newCapacity_eq (l : Layout) : newCapacity l.size = max (l.size * 2) minChunkSize := by
  have := l.fits
  have := l.align_pos
  unfold newCapacity wordMod
  omega

/-- A new chunk is large enough unless rounding its capacity overflows. -/
theorem le_roundCapacity_newCapacity (h : l.size * 2 + 63 < wordMod) :
    l.size ≤ Chunk.roundCapacity (newCapacity l.size) := by
  have hlt : newCapacity l.size + 63 < wordMod := by
    rw [newCapacity_eq]
    unfold wordMod minChunkSize at *
    omega
  have hround := Chunk.roundCapacity_add_mod hlt
  rw [newCapacity_eq] at hround ⊢
  omega

/-- Where rounding overflows, the new chunk has no room at all. -/
theorem new_wrapped (h : wordMod ≤ l.size * 2 + 63) (ptr : Nat) :
    Chunk.new (some ptr) (newCapacity l.size) = .ok ⟨ptr, 0, 0⟩ := by
  have hcap := newCapacity_eq l
  have hfits := l.fits
  have hpos := l.align_pos
  have hround : Chunk.roundCapacity (newCapacity l.size) = 0 := by
    refine Chunk.roundCapacity_wrapped ?_ ?_ <;> unfold wordMod minChunkSize at * <;> omega
  have hne : newCapacity l.size ≠ 0 := by
    unfold minChunkSize at hcap
    omega
  rw [Chunk.new, if_neg hne, hround]
  rfl

/-- **The panic in the new chunk** is reached exactly by the sizes whose double overflows when it
    is rounded up to a multiple of 64. -/
theorem allocLayout_inNewChunk (h : w.inner.Shape) :
    w.allocLayout sys l = .error .inNewChunk ↔ wordMod ≤ l.size * 2 + 63 ∧ sys.isSome := by
  obtain ⟨c, hc, _, hok⟩ := h.exists_current
  unfold allocLayout
  rw [h.chunkIdx_eq, hc]
  constructor
  · intro e
    dsimp only at e
    split at e
    · cases e
    split at e
    · cases e
    rename_i newChunk hnew
    split at e
    · cases e
    rename_i hnone
    obtain ⟨hsys, hcap, hused, hnok⟩ := Chunk.new_ok hnew
    have hlt := (Chunk.allocate_eq_none hnok).mp hnone
    rw [hused, alignUp_zero l.align_pos l.align_le, Nat.zero_add, hcap] at hlt
    refine ⟨Nat.not_lt.mp fun hfit => ?_, by rw [hsys]; rfl⟩
    exact absurd (le_roundCapacity_newCapacity hfit) (Nat.not_le.mpr hlt)
  · rintro ⟨hbig, hsys⟩
    obtain ⟨ptr, rfl⟩ := Option.isSome_iff_exists.mp hsys
    have hfits := l.fits
    -- no chunk is that large, least of all the new one
    have hnone : ∀ c : Chunk, c.Ok → c.allocate l = none := by
      intro c hok
      refine (Chunk.allocate_eq_none hok).mpr ?_
      have := hok.capacity
      unfold wordMod at hbig
      omega
    have hempty : (⟨ptr, 0, 0⟩ : Chunk).Ok := ⟨Nat.le_refl _, (by decide : 0 + 64 ≤ 2 ^ 63)⟩
    simp only [hnone c hok, new_wrapped hbig, hnone _ hempty]

end Allocate

/-! ## 3. Checkpoints and resets -/

section Rewind

variable {w w' : Arena} {cp : ArenaCheckpoint}

/-- `checkpoint` records the bump position and the counter. -/
theorem checkpoint_eq (h : w.inner.Shape) : w.checkpoint = some
    ⟨w.inner.currentChunk, w.inner.bump, w.inner.currentCheckpointId, w.allocationCounter⟩ := by
  obtain ⟨c, hc, hb, _⟩ := h.exists_current
  rw [checkpoint, hc, hb]
  rfl

/-- The loop and the assignment of the source, as one cut. -/
theorem rewindChunks_eq_set {cs : List Chunk} {c : Chunk} (hc : cs[cp.chunkIndex]? = some c) :
    ArenaInner.rewindChunks cs cp = (cs.mapIdx fun idx chunk =>
      if cp.chunkIndex + 1 ≤ idx then chunk.reset else chunk).set cp.chunkIndex
        ((if cp.chunkIndex + 1 ≤ cp.chunkIndex then c.reset else c).setUsed cp.chunkOffset) := by
  refine List.ext_getElem? fun k => ?_
  rw [ArenaInner.rewindChunks_eq, List.getElem?_set, List.length_mapIdx, List.getElem?_mapIdx]
  rcases Nat.lt_trichotomy k cp.chunkIndex with hk | hk | hk
  · have h1 : ¬ cp.chunkIndex + 1 ≤ k := by omega
    rw [Gauge.getElem?_cut_lt hk, if_neg (Nat.ne_of_gt hk)]
    simp only [h1, if_false, Option.map_id']
  · subst hk
    have h1 : ¬ cp.chunkIndex + 1 ≤ cp.chunkIndex := by omega
    rw [Gauge.getElem?_cut_self, hc, if_pos rfl, if_pos (List.getElem?_eq_some_iff.mp hc).1,
      if_neg h1]
    rfl
  · rw [Gauge.getElem?_cut_gt hk, if_neg (Nat.ne_of_lt hk)]
    simp only [Nat.succ_le_of_lt hk, if_true]
    rfl

/-- **A rewind** cuts the chunks back and needs only that the chunk exists. -/
theorem rewindToCheckpoint_eq_some : w.rewindToCheckpoint cp = some w' ↔
    cp.chunkIndex < w.inner.chunks.length ∧
      w' = w.withChunks (ArenaInner.rewindChunks w.inner.chunks cp) cp.chunkIndex := by
  unfold rewindToCheckpoint
  dsimp only
  rw [Option.map_eq_some_iff, List.getElem?_mapIdx]
  constructor
  · rintro ⟨d, hd, rfl⟩
    obtain ⟨c, hc, rfl⟩ := Option.map_eq_some_iff.mp hd
    exact ⟨(List.getElem?_eq_some_iff.mp hc).1, by rw [rewindChunks_eq_set hc]⟩
  · rintro ⟨hlt, rfl⟩
    have hc := List.getElem?_eq_getElem hlt
    exact ⟨_, by rw [hc]; rfl, by rw [rewindChunks_eq_set hc]⟩

end Rewind

end Arena

end ArenaB.Legacy
