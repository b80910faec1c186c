/-
  File:      ArenaB/Arena/Growth.lean
  Subject:   What allocations and rewinds do to the chunks of an arena.

  * `Grows a a'` -- `a'` is `a` with allocations and new chunks on top: blocks stay where they
    are, no offset shrinks, and rewinding to where `a` stood restores its chunks;
  * `Placed a a' p size` -- the request was put into the current chunk of `a'`, behind everything
    `a` had there;
  * **`allocateOrGrow_spec`** -- the chunk path of `allocate_raw` keeps the shape, grows the arena
    and places its request; at most the one block it asked for is added to `spans`;
  * `Within a cp` -- the checkpoint lies at or below the bump position, in its own chunk at or
    below the offset. Growth keeps it; **`Within.rewind`**: such a rewind trips no assert, keeps
    the shape, moves the bump position to the checkpoint and raises no offset.
-/
import Mathlib.Data.Prod.Lex
import ArenaB.Base.Ledger
import ArenaB.Arena.Ops

namespace ArenaB

open Base

namespace ArenaInner

/-- The blocks the arena owns. -/
def spans (a : ArenaInner) : List Span := a.chunks.map Chunk.span

/-- The arena `a` with allocations and new chunks on top. -/
structure Grows (a a' : ArenaInner) : Prop where
  current : a.currentChunk ≤ a'.currentChunk
  chunks : ∀ (k : Nat) (c : Chunk), a.chunks[k]? = some c →
    ∃ n, c.used ≤ n ∧ a'.chunks[k]? = some (c.setUsed n)
  grown : Chunk.gauge.Grown a.chunks a.currentChunk a'.chunks
  checkpoints : a'.checkpoints = a.checkpoints
  nextId : a'.currentCheckpointId = a.currentCheckpointId

/-- The request was put into the current chunk of `a'`, behind everything `a` had there. -/
def Placed (a a' : ArenaInner) (p size : Nat) : Prop :=
  ∃ (c : Chunk) (start : Nat), a'.chunks[a'.currentChunk]? = some c ∧ p = c.ptr + start ∧
    start + size = c.used ∧ ∀ c₀ : Chunk, a.chunks[a'.currentChunk]? = some c₀ → c₀.used ≤ start

/-- The two agree on the chunks and the checkpoints. -/
structure Same (a a' : ArenaInner) : Prop where
  chunks : a'.chunks = a.chunks
  currentChunk : a'.currentChunk = a.currentChunk
  checkpoints : a'.checkpoints = a.checkpoints
  nextId : a'.currentCheckpointId = a.currentCheckpointId

section Grows

variable {a a' a'' : ArenaInner}

theorem Same.shape (e : Same a a') (h : a.Shape) : a'.Shape :=
  ⟨by rw [e.chunks, e.currentChunk]; exact h.top, by rw [e.chunks]; exact h.chunks⟩

theorem Same.spans (e : Same a a') : a'.spans = a.spans := congrArg (List.map Chunk.span) e.chunks

theorem Same.grows (e : Same a a') (h : a.Shape) : Grows a a' :=
  ⟨Nat.le_of_eq e.currentChunk.symm,
    fun _ c hc => ⟨c.used, Nat.le_refl _, by rw [e.chunks]; exact hc⟩,
    by rw [e.chunks]; exact .refl h.top, e.checkpoints, e.nextId⟩

theorem Grows.refl (h : a.Shape) : Grows a a :=
  ⟨Nat.le_refl _, fun _ c hc => ⟨c.used, Nat.le_refl _, hc⟩, .refl h.top, rfl, rfl⟩

theorem Grows.trans (h : Grows a a') (h' : Grows a' a'') : Grows a a'' := by
  refine ⟨h.current.trans h'.current, fun k c hc => ?_, h.grown.trans h'.grown h.current,
    h'.checkpoints.trans h.checkpoints, h'.nextId.trans h.nextId⟩
  obtain ⟨n, hn, hc'⟩ := h.chunks k c hc
  obtain ⟨m, hm, hc''⟩ := h'.chunks k _ hc'
  exact ⟨m, hn.trans hm, hc''⟩

/-! ## 1. Allocation -/

theorem Shape.allocate (h : a.Shape) {l : Layout} {p : Nat} (e : a.allocate l = some (p, a')) :
    a'.Shape ∧ Grows a a' ∧ Placed a a' p l.size ∧ a'.spans = a.spans := by
  obtain ⟨c, hc, hfit, rfl, rfl⟩ := (allocate_eq_some h).mp e
  have hok := h.chunks c (List.mem_of_getElem? hc)
  have hs := hok.start l
  refine ⟨⟨h.top.set _, fun d hd => ?_⟩, ⟨Nat.le_refl _, fun k d hd => ?_,
    (Gauge.Grown.refl h.top).set hc (Nat.le_refl _) _, rfl, rfl⟩, ?_, ?_⟩
  · rcases List.mem_or_eq_of_mem_set hd with hd | rfl
    · exact h.chunks d hd
    · exact hok.setUsed hfit
  · by_cases hk : k = a.currentChunk
    · subst hk
      rw [hc] at hd
      cases hd
      refine ⟨_, hs.1.trans (Nat.le_add_right _ l.size), ?_⟩
      exact List.getElem?_set_self h.current_lt
    · refine ⟨d.used, Nat.le_refl _, ?_⟩
      show (a.chunks.set _ _)[k]? = some d
      rw [List.getElem?_set_ne (Ne.symm hk)]
      exact hd
  · refine ⟨_, alignUp c.used l.align, List.getElem?_set_self h.current_lt, rfl, rfl, ?_⟩
    intro c₀ h₀
    rw [hc] at h₀
    cases h₀
    exact hs.1
  · show (a.chunks.set _ _).map _ = a.chunks.map _
    exact map_set_self hc (Chunk.setUsed_span _ _)

theorem Shape.addChunk (h : a.Shape) {sys : Option Nat} {cap n : Nat}
    (e : a.addChunk sys cap = .ok (n, a')) :
    a'.Shape ∧ Grows a a' ∧ a'.currentChunk = a.chunks.length ∧
      ∃ ptr, sys = some ptr ∧ a'.spans = a.spans ++ [⟨ptr, Chunk.roundCapacity cap⟩] := by
  obtain ⟨c, hsys, hcap, _, hok, rfl⟩ := addChunk_ok e
  refine ⟨⟨Gauge.top_append _ _, fun d hd => ?_⟩, ⟨Nat.le_of_lt h.current_lt, fun k d hd => ?_,
    (Gauge.Grown.refl h.top).append _, rfl, rfl⟩, rfl, c.ptr, hsys, ?_⟩
  · rcases List.mem_append.mp hd with hd | hd
    · exact h.chunks d hd
    · rw [List.mem_singleton.mp hd]
      exact hok
  · refine ⟨d.used, Nat.le_refl _, ?_⟩
    show (a.chunks ++ [c])[k]? = some d
    rw [List.getElem?_append_left (List.getElem?_eq_some_iff.mp hd).1]
    exact hd
  · show (a.chunks ++ [c]).map _ = _
    rw [List.map_append, List.map_singleton, ← hcap]
    rfl

/-- The two ways through the chunk path. -/
theorem allocateOrGrow_cases {sys : Option Nat} {l : Layout} {p : Nat}
    (e : a.allocateOrGrow sys l = some (p, a')) :
    a.allocate l = some (p, a') ∨ a.allocate l = none ∧
      ∃ n a₁, a.addChunk sys (nextChunkCapacity l.size) = .ok (n, a₁) ∧
        a₁.allocate l = some (p, a') := by
  unfold allocateOrGrow at e
  cases h1 : a.allocate l with
  | some r =>
      rw [h1] at e
      exact Or.inl e
  | none =>
      rw [h1] at e
      cases h2 : a.addChunk sys (nextChunkCapacity l.size) with
      | error _ =>
          rw [h2] at e
          cases e
      | ok r =>
          rw [h2] at e
          exact Or.inr ⟨rfl, r.1, r.2, rfl, e⟩

/-- The chunk path leaves the lock-free buffer alone. -/
theorem allocateOrGrow_buffer (h : a.Shape) {sys : Option Nat} {l : Layout} {p : Nat}
    (e : a.allocateOrGrow sys l = some (p, a')) : a'.lockfreeBuffer = a.lockfreeBuffer := by
  rcases allocateOrGrow_cases e with e | ⟨_, n, a₁, e₁, e₂⟩
  · obtain ⟨_, _, _, _, rfl⟩ := (allocate_eq_some h).mp e
    rfl
  · obtain ⟨_, _, _, _, rfl⟩ := (allocate_eq_some (h.addChunk e₁).1).mp e₂
    obtain ⟨_, _, _, _, _, rfl⟩ := addChunk_ok e₁
    rfl

/-- A chunk added for a request that it then serves. -/
theorem Shape.grow (h : a.Shape) {sys : Option Nat} {cap n : Nat} {a₁ : ArenaInner} {l : Layout}
    {p : Nat} (e₁ : a.addChunk sys cap = .ok (n, a₁)) (e₂ : a₁.allocate l = some (p, a')) :
    a'.Shape ∧ Grows a a' ∧ Placed a a' p l.size ∧
      ∃ ptr, sys = some ptr ∧ a'.spans = a.spans ++ [⟨ptr, Chunk.roundCapacity cap⟩] := by
  obtain ⟨h1, h2, h3, ptr, hsys, h4⟩ := h.addChunk e₁
  obtain ⟨k1, k2, ⟨c, start, hc, hp, hu, _⟩, k4⟩ := h1.allocate e₂
  refine ⟨k1, h2.trans k2, ⟨c, start, hc, hp, hu, fun c₀ h₀ => ?_⟩, ptr, hsys, k4.trans h4⟩
  -- the chunk just added is behind every chunk `a` had
  have hlt := (List.getElem?_eq_some_iff.mp h₀).1
  have := k2.current
  omega

/-- **The chunk path of `allocate_raw`.** -/
theorem allocateOrGrow_spec (h : a.Shape) {sys : Option Nat} {l : Layout} {p : Nat}
    (e : a.allocateOrGrow sys l = some (p, a')) :
    a'.Shape ∧ Grows a a' ∧ Placed a a' p l.size ∧ (a'.spans = a.spans ∨ ∃ ptr, sys = some ptr ∧
      a'.spans = a.spans ++ [⟨ptr, Chunk.roundCapacity (nextChunkCapacity l.size)⟩]) := by
  rcases allocateOrGrow_cases e with e | ⟨_, n, a₁, e₁, e₂⟩
  · obtain ⟨h1, h2, h3, h4⟩ := h.allocate e
    exact ⟨h1, h2, h3, Or.inl h4⟩
  · obtain ⟨h1, h2, h3, h4⟩ := h.grow e₁ e₂
    exact ⟨h1, h2, h3, Or.inr h4⟩

end Grows

/-! ## 2. Rewinding -/

end ArenaInner

/-- The position a checkpoint records, ordered lexicographically. -/
def ArenaCheckpoint.pos (cp : ArenaCheckpoint) : ℕ ×ₗ ℕ := toLex (cp.chunkIndex, cp.chunkOffset)

theorem ArenaCheckpoint.pos_le {cp cp' : ArenaCheckpoint} : cp.pos ≤ cp'.pos ↔
    cp.chunkIndex < cp'.chunkIndex ∨
      cp.chunkIndex = cp'.chunkIndex ∧ cp.chunkOffset ≤ cp'.chunkOffset :=
  Prod.Lex.toLex_le_toLex

namespace ArenaInner

/-- The checkpoint lies at or below the bump position, in its own chunk at or below the offset. -/
structure Within (a : ArenaInner) (cp : ArenaCheckpoint) : Prop where
  index : cp.chunkIndex ≤ a.currentChunk
  offset : ∀ c : Chunk, a.chunks[cp.chunkIndex]? = some c → cp.chunkOffset ≤ c.used

section Rewind

variable {a a' : ArenaInner} {cp cp' : ArenaCheckpoint} {debug : Bool}

theorem Within.exists_chunk (h : a.Shape) (hw : a.Within cp) :
    ∃ c, a.chunks[cp.chunkIndex]? = some c ∧ cp.chunkOffset ≤ c.used ∧ c.Ok := by
  have hc := List.getElem?_eq_getElem (Nat.lt_of_le_of_lt hw.index h.current_lt)
  exact ⟨_, hc, hw.offset _ hc, h.chunks _ (List.mem_of_getElem? hc)⟩

theorem Within.pos_le (h : a.Shape) (hw : a.Within cp) : cp.pos ≤ toLex a.pos := by
  obtain ⟨c, hc, hoff, _⟩ := hw.exists_chunk h
  refine Prod.Lex.toLex_le_toLex.mpr ?_
  rcases Nat.lt_or_eq_of_le hw.index with hi | hi
  · exact Or.inl hi
  · refine Or.inr ⟨hi, ?_⟩
    rw [hi] at hc
    rw [pos, bump_eq hc]
    exact hoff

theorem within_checkpoint (h : a.Shape) {r : ArenaCheckpoint × ArenaInner}
    (e : a.checkpoint = some r) : a.Within r.1 := by
  rw [checkpoint_eq h] at e
  cases e
  refine ⟨Nat.le_refl _, fun c hc => ?_⟩
  have hc' : a.chunks[a.currentChunk]? = some c := hc
  show a.bump ≤ c.used
  rw [bump_eq hc']

theorem Within.grows (h : a.Shape) (hw : a.Within cp) (hg : Grows a a') : a'.Within cp := by
  obtain ⟨c, hc, hoff, _⟩ := hw.exists_chunk h
  obtain ⟨n, hn, hc'⟩ := hg.chunks _ c hc
  refine ⟨hw.index.trans hg.current, fun d hd => ?_⟩
  rw [hc'] at hd
  cases hd
  exact hoff.trans hn

/-- **A rewind to a position already passed** trips no assert. -/
theorem Within.rewind_isSome (h : a.Shape) (hw : a.Within cp) (debug : Bool) :
    ∃ a', a.rewindToCheckpoint debug cp = some a' := by
  obtain ⟨c, hc, hoff, hok⟩ := hw.exists_chunk h
  exact ⟨_, rewind_eq_some.mpr ⟨⟨c, hc, hoff.trans hok.used⟩, rfl⟩⟩

/-- Chunks cut back to a position within them keep the shape. -/
theorem Shape.rewindChunks (h : a.Shape) {c : Chunk} (hc : a.chunks[cp.chunkIndex]? = some c)
    (hcap : cp.chunkOffset ≤ c.capacity) (h1 : a'.chunks = ArenaInner.rewindChunks a.chunks cp)
    (h2 : a'.currentChunk = cp.chunkIndex) : a'.Shape := by
  refine ⟨?_, fun d hd => ?_⟩
  · rw [h1, h2]
    exact Gauge.top_cut (List.getElem?_eq_some_iff.mp hc).1
  rw [h1] at hd
  obtain ⟨k, hk⟩ := List.mem_iff_getElem?.mp hd
  have hk' : (Chunk.gauge.cut a.chunks cp.chunkIndex cp.chunkOffset)[k]? = some d := hk
  rcases Nat.lt_trichotomy k cp.chunkIndex with hlt | heq | hgt
  · rw [Gauge.getElem?_cut_lt hlt] at hk'
    exact h.chunks d (List.mem_of_getElem? hk')
  · subst heq
    rw [Gauge.getElem?_cut_self, hc] at hk'
    cases hk'
    exact (h.chunks c (List.mem_of_getElem? hc)).setUsed hcap
  · rw [Gauge.getElem?_cut_gt hgt, Option.map_eq_some_iff] at hk'
    obtain ⟨b, hb, rfl⟩ := hk'
    exact (h.chunks b (List.mem_of_getElem? hb)).setUsed (Nat.zero_le _)

theorem Shape.rewind (h : a.Shape) (e : a.rewindToCheckpoint debug cp = some a') : a'.Shape := by
  obtain ⟨⟨c, hc, hcap⟩, rfl⟩ := rewind_eq_some.mp e
  exact h.rewindChunks hc hcap rfl rfl

/-- A rewind to a position already passed raises no offset and moves no block. -/
theorem Within.rewind_chunks (hw : a.Within cp) (e : a.rewindToCheckpoint debug cp = some a')
    {k : Nat} {c : Chunk} (hc : a.chunks[k]? = some c) :
    ∃ n, n ≤ c.used ∧ a'.chunks[k]? = some (c.setUsed n) := by
  obtain ⟨_, rfl⟩ := rewind_eq_some.mp e
  show ∃ n, n ≤ c.used ∧ (Chunk.gauge.cut a.chunks _ _)[k]? = some (c.setUsed n)
  rcases Nat.lt_trichotomy k cp.chunkIndex with hlt | heq | hgt
  · exact ⟨c.used, Nat.le_refl _, by rw [Gauge.getElem?_cut_lt hlt, hc]; rfl⟩
  · subst heq
    exact ⟨_, hw.offset c hc, by rw [Gauge.getElem?_cut_self, hc]; rfl⟩
  · exact ⟨0, Nat.zero_le _, by rw [Gauge.getElem?_cut_gt hgt, hc]; rfl⟩

/-- Checkpoints at or below the target of a rewind stay in reach. -/
theorem Within.rewind (h : a.Shape) (hw : a.Within cp)
    (e : a.rewindToCheckpoint debug cp' = some a') (hle : cp.pos ≤ cp'.pos) : a'.Within cp := by
  obtain ⟨c, hc, hoff, _⟩ := hw.exists_chunk h
  obtain ⟨_, rfl⟩ := rewind_eq_some.mp e
  rcases ArenaCheckpoint.pos_le.mp hle with hlt | ⟨heq, ho⟩
  · refine ⟨Nat.le_of_lt hlt, fun d hd => ?_⟩
    have hd' : (Chunk.gauge.cut a.chunks _ _)[cp.chunkIndex]? = some d := hd
    rw [Gauge.getElem?_cut_lt hlt] at hd'
    exact hw.offset d hd'
  · refine ⟨Nat.le_of_eq heq, fun d hd => ?_⟩
    have hd' : (Chunk.gauge.cut a.chunks _ _)[cp.chunkIndex]? = some d := hd
    rw [heq, Gauge.getElem?_cut_self, ← heq, hc] at hd'
    cases hd'
    exact ho

/-- A rewind moves no block. -/
theorem map_span_rewindChunks (cs : List Chunk) (cp : ArenaCheckpoint) :
    (rewindChunks cs cp).map Chunk.span = cs.map Chunk.span := by
  refine List.ext_getElem? fun k => ?_
  rw [rewindChunks_eq, List.getElem?_map, List.getElem?_map, Gauge.getElem?_cut, Option.map_map]
  congr 1
  funext c
  simp only [Function.comp_apply]
  split
  · rfl
  · split <;> exact Chunk.setUsed_span _ _

/-- Some of the chunks, all emptied. -/
theorem Shape.emptied (h : a.Shape) {cs : List Chunk} (hcs : cs.Sublist a.chunks)
    (hpos : 0 < cs.length) (h1 : a'.chunks = cs.map Chunk.reset) (h2 : a'.currentChunk = 0) :
    a'.Shape := by
  refine ⟨⟨?_, fun k c _ hc => ?_⟩, fun c hc => ?_⟩
  · rw [h1, h2, List.length_map]
    exact hpos
  · rw [h1, List.getElem?_map, Option.map_eq_some_iff] at hc
    obtain ⟨d, _, rfl⟩ := hc
    rfl
  · rw [h1] at hc
    obtain ⟨d, hd, rfl⟩ := List.mem_map.mp hc
    exact (h.chunks d (hcs.subset hd)).setUsed (Nat.zero_le _)

theorem Shape.length_pos (h : a.Shape) : 0 < a.chunks.length :=
  Nat.lt_of_le_of_lt (Nat.zero_le _) h.current_lt

theorem Shape.length_take_pos (h : a.Shape) : 0 < (a.chunks.take 1).length := by
  rw [List.length_take]
  have := h.length_pos
  omega

end Rewind

end ArenaInner

/-! ## 3. The operations of the arena -/

namespace Arena

variable {w w' : Arena}

theorem same_resetBuffer (w : Arena) : w.inner.Same w.resetBuffer.inner := by
  unfold resetBuffer ArenaInner.resetBuffer
  split <;> exact ⟨rfl, rfl, rfl, rfl⟩

@[simp] theorem resetBuffer_stats : w.resetBuffer.inner.stats = w.inner.stats := by
  unfold resetBuffer ArenaInner.resetBuffer
  split <;> rfl

/-- Without a buffer there is nothing to reset. -/
theorem resetBuffer_noBuffer (h : w.inner.lockfreeBuffer = none) : w.resetBuffer = w := by
  unfold resetBuffer ArenaInner.resetBuffer
  rw [h]

/-- A rewind without a buffer is that of the `ArenaInner`. -/
theorem rewindToCheckpoint_noBuffer (h : w.inner.lockfreeBuffer = none) {debug : Bool}
    {cp : ArenaCheckpoint} {a' : ArenaInner}
    (e : w.inner.rewindToCheckpoint debug cp = some a') :
    w.rewindToCheckpoint debug cp = some (w.withInner a') ∧ a'.lockfreeBuffer = none := by
  have hb : (w.withInner a').inner.lockfreeBuffer = none := by
    obtain ⟨_, rfl⟩ := ArenaInner.rewind_eq_some.mp e
    exact h
  rw [rewindToCheckpoint, e, Option.map_some, resetBuffer_noBuffer hb]
  exact ⟨rfl, hb⟩

theorem reset_noBuffer (h : w.inner.lockfreeBuffer = none) :
    w.reset.inner.lockfreeBuffer = none := by
  unfold reset
  rw [resetBuffer_noBuffer] <;> exact h

/-- The lock-free path leaves the chunks and the memory alone. -/
theorem tryLockfree_same {l : Layout} {r : Option Nat × Arena} (e : w.tryLockfree l = r) :
    w.inner.Same r.2.inner ∧ r.2.owner = w.owner ∧ r.2.mem = w.mem := by
  unfold tryLockfree at e
  split at e
  · subst e
    exact ⟨⟨rfl, rfl, rfl, rfl⟩, rfl, rfl⟩
  · split at e
    · split at e <;> subst e <;> exact ⟨⟨rfl, rfl, rfl, rfl⟩, rfl, rfl⟩
    · subst e
      exact ⟨⟨rfl, rfl, rfl, rfl⟩, rfl, rfl⟩

/-- **The three paths of `allocate_raw`.** -/
theorem allocateRaw_cases {sys : Option Nat} {l : Layout} {p : Nat}
    (e : w.allocateRaw sys l = some (p, w')) :
    (l.size = 0 ∧ p = 1 ∧ w' = w.countZeroSize) ∨
      (l.size ≠ 0 ∧ w.tryLockfree l = (some p, w')) ∨
      (l.size ≠ 0 ∧ ∃ w₁ a', w.tryLockfree l = (none, w₁) ∧
        w₁.inner.allocateOrGrow sys l = some (p, a') ∧ w' = w₁.withInner a') := by
  unfold allocateRaw at e
  split at e
  · rename_i h0
    cases e
    exact Or.inl ⟨h0, rfl, rfl⟩
  · rename_i h0
    split at e
    · rename_i hl
      cases e
      exact Or.inr (Or.inl ⟨h0, hl⟩)
    · rename_i w₁ hl
      obtain ⟨⟨p', a'⟩, ha, e⟩ := Option.map_eq_some_iff.mp e
      cases e
      exact Or.inr (Or.inr ⟨h0, w₁, a', hl, ha, rfl⟩)

/-- Every path of `allocate_raw` keeps the shape and grows the arena. -/
theorem allocateRaw_grows (h : w.inner.Shape) {sys : Option Nat} {l : Layout} {p : Nat}
    (e : w.allocateRaw sys l = some (p, w')) : w'.inner.Shape ∧ w.inner.Grows w'.inner := by
  rcases allocateRaw_cases e with ⟨_, _, rfl⟩ | ⟨_, hl⟩ | ⟨_, w₁, a', hl, ha, rfl⟩
  · have hs : w.inner.Same w.countZeroSize.inner := ⟨rfl, rfl, rfl, rfl⟩
    exact ⟨hs.shape h, hs.grows h⟩
  · have hs := (tryLockfree_same hl).1
    exact ⟨hs.shape h, hs.grows h⟩
  · have hs := (tryLockfree_same hl).1
    obtain ⟨h1, h2, _⟩ := ArenaInner.allocateOrGrow_spec (hs.shape h) ha
    exact ⟨h1, (hs.grows h).trans h2⟩

/-- Without a buffer the lock-free path does nothing. -/
theorem tryLockfree_noBuffer (h : w.inner.lockfreeBuffer = none) (l : Layout) :
    w.tryLockfree l = (none, w) := by
  unfold tryLockfree
  rw [h]

/-- `allocate_raw` without a buffer: the counter or the chunk path. -/
theorem allocateRaw_chunk (h : w.inner.lockfreeBuffer = none) {sys : Option Nat} {l : Layout}
    {p : Nat} (e : w.allocateRaw sys l = some (p, w')) :
    (l.size = 0 ∧ p = 1 ∧ w' = w.countZeroSize) ∨ (l.size ≠ 0 ∧
      ∃ a', w.inner.allocateOrGrow sys l = some (p, a') ∧ w' = w.withInner a') := by
  rcases allocateRaw_cases e with h0 | ⟨_, hl⟩ | ⟨h0, w₁, a', hl, ha, rfl⟩
  · exact Or.inl h0
  · rw [tryLockfree_noBuffer h] at hl
    cases hl
  · rw [tryLockfree_noBuffer h] at hl
    cases hl
    exact Or.inr ⟨h0, a', ha, rfl⟩

theorem allocateRaw_noBuffer (hs : w.inner.Shape) (h : w.inner.lockfreeBuffer = none)
    {sys : Option Nat} {l : Layout} {p : Nat} (e : w.allocateRaw sys l = some (p, w')) :
    w'.inner.lockfreeBuffer = none := by
  rcases allocateRaw_chunk h e with ⟨_, _, rfl⟩ | ⟨_, a', ha, rfl⟩
  · exact h
  · exact (ArenaInner.allocateOrGrow_buffer hs ha).trans h

/-- A pop is a rewind to the top of the stack, which leaves it. -/
theorem popAndRewind_eq_some {debug : Bool} {cp : ArenaCheckpoint} :
    w.popAndRewind debug = some (cp, w') ↔ w.inner.checkpoints.getLast? = some cp ∧
      ∃ a', { w.inner with checkpoints := w.inner.checkpoints.dropLast }.rewindToCheckpoint
        debug cp = some a' ∧ w' = (w.withInner a').resetBuffer := by
  unfold popAndRewind rewindToCheckpoint
  simp only [Option.bind_eq_some_iff, Option.map_eq_some_iff, Prod.mk.injEq]
  constructor
  · rintro ⟨_, hcp, _, ⟨a', ha, rfl⟩, rfl, rfl⟩
    exact ⟨hcp, a', ha, rfl⟩
  · rintro ⟨hcp, a', ha, rfl⟩
    exact ⟨cp, hcp, _, ⟨a', ha, rfl⟩, rfl, rfl⟩

/-- Every chunk of a reset arena is empty. -/
theorem reset_shape (h : w.inner.Shape) : w.reset.inner.Shape :=
  (same_resetBuffer _).shape (h.emptied (List.Sublist.refl _) h.length_pos rfl rfl)

theorem resetAndShrinkToFit_shape (h : w.inner.Shape) : w.resetAndShrinkToFit.inner.Shape :=
  h.emptied (List.take_sublist 1 _) h.length_take_pos rfl rfl

/-- A reset keeps the blocks. -/
theorem reset_spans (w : Arena) : w.reset.inner.spans = w.inner.spans := by
  refine (same_resetBuffer _).spans.trans ?_
  show (w.inner.chunks.map Chunk.reset).map Chunk.span = _
  rw [List.map_map]
  rfl

/-- A shrinking reset keeps the first block. -/
theorem resetAndShrinkToFit_spans (w : Arena) :
    w.resetAndShrinkToFit.inner.spans = w.inner.spans.take 1 := by
  show ((w.inner.chunks.take 1).map (Chunk.setUsed · 0)).map Chunk.span = _
  rw [List.map_map, ArenaInner.spans, ← List.map_take]
  rfl

end Arena

end ArenaB
