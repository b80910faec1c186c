/-
  File:      ArenaB/Arena/Serve.lean
  Subject:   Which requests `allocate_raw` serves, and how the addresses it returns are aligned
             (default features).

  A request that does not fit the current chunk makes the arena open one of
  `next_chunk_capacity(size)` bytes, which is never more than 16 MiB. The offset inside a chunk is
  a multiple of the alignment; the address is, if the block's start is.

  * `nextChunkCapacity_spec` -- the capacity covers the request up to the maximum;
  * **`allocate_raw_served`** -- given a block from the system, a request is served exactly if it
    fits the current chunk or is no larger than the maximum; `allocate_raw_refused`: the next size;
  * `exec_spans` -- the blocks of an arena are those the system allocator returned;
  * **`allocate_raw_aligned`** -- with blocks at multiples of 64 a request of non-zero size and
    alignment at most 64 gets an aligned address. A larger alignment is met exactly if the block
    meets it, and an empty request gets address 1; `allocate_raw_misaligned` has both.
-/
import ArenaB.Arena.Counters

namespace ArenaB

open Base

/-! ## 1. The chunk a request opens -/

theorem nextChunkCapacity_spec (n : Nat) : nextChunkCapacity n ≤ maxChunkSize ∧
    (0 < n → 0 < nextChunkCapacity n) ∧ (n ≤ nextChunkCapacity n ↔ n ≤ maxChunkSize) := by
  have h1 : n ≤ max (growCapacity 12 minChunkSize n) n := Nat.le_max_right _ _
  unfold nextChunkCapacity
  unfold maxChunkSize at *
  omega

/-- The system allocator returned a block: the new chunk is empty and has that capacity. -/
theorem Chunk.new_nextChunkCapacity (ptr : Nat) {n : Nat} (hn : 0 < n) :
    Chunk.new (some ptr) (nextChunkCapacity n) = .ok ⟨ptr, nextChunkCapacity n, 0⟩ := by
  obtain ⟨hmax, hpos, _⟩ := nextChunkCapacity_spec n
  have hfits : nextChunkCapacity n + 64 ≤ 2 ^ 63 := by
    unfold maxChunkSize at hmax
    omega
  have hl : Layout.fromSizeAlign (nextChunkCapacity n) 64 =
      some ⟨nextChunkCapacity n, 64, ⟨6, rfl⟩, hfits⟩ := dif_pos ⟨by decide, hfits⟩
  simp only [Chunk.new, if_neg (Nat.ne_of_gt (hpos hn)), roundCapacity_nextChunkCapacity, hl]

namespace ArenaInner

/-- The current chunk has room for the request. -/
def Fits (a : ArenaInner) (l : Layout) : Prop :=
  ∃ c ∈ a.chunks[a.currentChunk]?, alignUp c.used l.align + l.size ≤ c.capacity

variable {a a' : ArenaInner} {l : Layout}

theorem Shape.fits_iff (h : a.Shape) : a.Fits l ↔ a.allocate l ≠ none := by
  obtain ⟨c, hc, _, _⟩ := h.exists_current
  rw [Ne, allocate_eq_none h hc, Nat.not_lt]
  constructor
  · intro hf
    obtain ⟨d, hd, hle⟩ := hf
    cases hc.symm.trans hd
    exact hle
  · exact fun hle => ⟨c, hc, hle⟩

/-- **The chunk path with a block at hand**: it fails only beyond the maximum. -/
theorem Shape.allocateOrGrow_iff (h : a.Shape) (hl : 0 < l.size) (ptr : Nat) :
    (∃ r, a.allocateOrGrow (some ptr) l = some r) ↔ a.Fits l ∨ l.size ≤ maxChunkSize := by
  rw [h.fits_iff]
  cases hal : a.allocate l with
  | some r =>
      exact ⟨fun _ => Or.inl (by simp), fun _ => ⟨r, by simp only [allocateOrGrow, hal]⟩⟩
  | none =>
      obtain ⟨_, _, hle⟩ := nextChunkCapacity_spec l.size
      obtain ⟨a₁, hadd⟩ : ∃ a₁, a.addChunk (some ptr) (nextChunkCapacity l.size) =
          .ok (a.chunks.length, a₁) := by
        simp only [ArenaInner.addChunk, Chunk.new_nextChunkCapacity ptr hl]
        exact ⟨_, rfl⟩
      obtain ⟨c, _, hcap, h0, _, ha₁⟩ := addChunk_ok hadd
      have hc : a₁.chunks[a₁.currentChunk]? = some c := by
        rw [ha₁]
        exact List.getElem?_concat_length
      have hroom : a₁.allocate l = none ↔ c.capacity < l.size := by
        rw [allocate_eq_none (h.addChunk hadd).1 hc, h0, alignUp_zero l.align_pos l.align_le,
          Nat.zero_add]
      rw [roundCapacity_nextChunkCapacity] at hcap
      simp only [allocateOrGrow, hal, hadd, ne_eq, not_true_eq_false, false_or]
      rw [← Option.ne_none_iff_exists', Ne, hroom, Nat.not_lt, hcap]
      exact hle

/-- The address the chunk path returns is an aligned offset behind a block's start. -/
theorem Shape.allocateOrGrow_dvd (h : a.Shape) {sys : Option Nat} {p : Nat}
    (e : a.allocateOrGrow sys l = some (p, a')) :
    ∃ c start, a'.chunks[a'.currentChunk]? = some c ∧ p = c.ptr + start ∧ l.align ∣ start := by
  have hallocate {b : ArenaInner} (hb : b.Shape) (e : b.allocate l = some (p, a')) :
      ∃ c start, a'.chunks[a'.currentChunk]? = some c ∧ p = c.ptr + start ∧ l.align ∣ start := by
    obtain ⟨c, hc, _, rfl, rfl⟩ := (allocate_eq_some hb).mp e
    exact ⟨c.setUsed _, _, List.getElem?_set_self hb.current_lt, rfl, l.dvd_alignUp _⟩
  rcases allocateOrGrow_cases e with e | ⟨_, n, a₁, e₁, e₂⟩
  · exact hallocate h e
  · exact hallocate (h.addChunk e₁).1 e₂

end ArenaInner

/-! ## 2. Serving -/

/-- **Which requests are served**: where the system allocator has a block, a request of non-zero
    size gets a pointer exactly if it fits the current chunk or is no larger than the maximum chunk
    size; the bytes behind any pointer returned lie in the used part of a chunk. -/
theorem allocate_raw_served {s : Sess} (h : (machine ⟨false, false⟩).Reach s) {l : Layout}
    (hl : l.size ≠ 0) :
    (∀ ptr, (∃ r, s.arena.allocateRaw (some ptr) l = some r) ↔
      s.arena.inner.Fits l ∨ l.size ≤ maxChunkSize) ∧
    ∀ sys p w', s.arena.allocateRaw sys l = some (p, w') → ∃ c ∈ w'.inner.chunks,
      Span.Inside ⟨p, l.size⟩ ⟨c.ptr, c.used⟩ ∧ c.used ≤ c.capacity := by
  have hs := (reach_stackOk h).shape
  have hb := reach_noBuffer h
  refine ⟨fun ptr => ?_, fun sys p w' e => ?_⟩
  · rw [← hs.allocateOrGrow_iff (Nat.pos_of_ne_zero hl) ptr]
    simp only [Arena.allocateRaw, if_neg hl, Arena.tryLockfree_noBuffer hb, Option.map_eq_some_iff]
    exact ⟨fun ⟨_, r, hr, _⟩ => ⟨r, hr⟩, fun ⟨r, hr⟩ => ⟨_, r, hr, rfl⟩⟩
  · rcases Arena.allocateRaw_chunk hb e with ⟨h0, _⟩ | ⟨_, a', ha, rfl⟩
    · exact absurd h0 hl
    · obtain ⟨hs', _, ⟨c, start, hc, rfl, hu, _⟩, _⟩ := ArenaInner.allocateOrGrow_spec hs ha
      have hmem := List.mem_of_getElem? hc
      refine ⟨c, hmem, ⟨Nat.le_add_right _ _, ?_⟩, (hs'.chunks c hmem).used⟩
      simp only [Span.fin]
      omega

/-- The largest request that is sure to be served, from a chunk of 64 bytes. -/
theorem allocate_raw_served_maximum :
    ∃ r, (Sess.small none).arena.allocateRaw (some 16384) ⟨16777216, 8, ⟨3, rfl⟩, by decide⟩ =
      some r :=
  ((allocate_raw_served (.init (Sess.init_small false))
    (l := ⟨16777216, 8, ⟨3, rfl⟩, by decide⟩) (by decide)).1 16384).mpr (Or.inr (by decide))

/-- One byte more, and the chunk opened for the request is too small for it. -/
theorem allocate_raw_refused : ∃ s, (machine ⟨false, false⟩).Reach s ∧
    s.arena.allocateRaw (some 16384) ⟨16777217, 1, ⟨0, rfl⟩, by decide⟩ = none := by
  refine ⟨_, .init (Sess.init_small false), ?_⟩
  have h : ((Sess.small none).arena.allocateRaw (some 16384)
      ⟨16777217, 1, ⟨0, rfl⟩, by decide⟩).isNone = true := by decide
  exact Option.isNone_iff_eq_none.mp h

/-! ## 3. Alignment -/

/-- The blocks `ts` became `ts'`: one more of `blk`, if it is there, or none. -/
def MoreSpans (blk : Option Span) (ts ts' : List Span) : Prop :=
  ts' = ts ∨ ∃ b ∈ blk, ts' = ts ++ [b]

theorem MoreSpans.mem {blk : Option Span} {ts ts' : List Span} (h : MoreSpans blk ts ts') {t : Span}
    (ht : t ∈ ts') : t ∈ ts ∨ t ∈ blk := by
  rcases h with rfl | ⟨b, hb, rfl⟩
  · exact Or.inl ht
  · rcases List.mem_append.mp ht with ht | ht
    · exact Or.inl ht
    · rw [List.mem_singleton.mp ht]
      exact Or.inr hb

/-- The blocks of before keep their places. -/
theorem MoreSpans.getElem? {blk : Option Span} {ts ts' : List Span} (h : MoreSpans blk ts ts')
    {k : Nat} {t : Span} (ht : ts[k]? = some t) : ts'[k]? = some t := by
  rcases h with rfl | ⟨b, _, rfl⟩
  · exact ht
  · rw [List.getElem?_append_left (List.getElem?_eq_some_iff.mp ht).1]
    exact ht

/-- The blocks of an arena after `allocate_raw`: those of before, and at most the one it asked
    for. -/
theorem Arena.allocateRaw_spans {w w' : Arena} (hs : w.inner.Shape) {sys : Option Nat} {l : Layout}
    {p : Nat} (e : w.allocateRaw sys l = some (p, w')) :
    MoreSpans (sys.map (growthBlock · l.size)) w.inner.spans w'.inner.spans := by
  rcases Arena.allocateRaw_cases e with ⟨_, _, rfl⟩ | ⟨_, hl⟩ | ⟨_, w₁, a', hl, ha, rfl⟩
  · exact Or.inl rfl
  · exact Or.inl (Arena.tryLockfree_same hl).1.spans
  · have hsame := (Arena.tryLockfree_same hl).1
    have hw : w₁.inner.spans = w.inner.spans := hsame.spans
    obtain ⟨_, _, _, hspans⟩ := ArenaInner.allocateOrGrow_spec (hsame.shape hs) ha
    rw [hw] at hspans
    rcases hspans with hsp | ⟨ptr, rfl, hsp⟩
    · exact Or.inl hsp
    · exact Or.inr ⟨_, rfl, hsp⟩

theorem Arena.rewind_spans (w : Arena) {a a' : ArenaInner} {debug : Bool} {cp : ArenaCheckpoint}
    (e : a.rewindToCheckpoint debug cp = some a') :
    (w.withInner a').resetBuffer.inner.spans = a.spans := by
  obtain ⟨_, rfl⟩ := ArenaInner.rewind_eq_some.mp e
  rw [(Arena.same_resetBuffer _).spans]
  exact ArenaInner.map_span_rewindChunks _ _

theorem ArenaInner.checkpoint_spans {a : ArenaInner} {r : ArenaCheckpoint × ArenaInner}
    (e : a.checkpoint = some r) : r.2.spans = a.spans := by
  obtain ⟨c, _, rfl⟩ := Option.map_eq_some_iff.mp e
  rfl

/-- **The blocks of an arena are those the system allocator returned**: an operation adds at most
    the one it was given, and only the shrinking reset gives blocks back. -/
theorem exec_spans {debug : Bool} {s s' : Sess} (hs : s.arena.inner.Shape) {op : Op}
    (e : s.exec debug op = some s') :
    MoreSpans op.block s.arena.inner.spans s'.arena.inner.spans ∨
      op = .resetAndShrinkToFit ∧ s'.arena.inner.spans = s.arena.inner.spans.take 1 := by
  have hkeep : s'.arena.inner.spans = s.arena.inner.spans →
      MoreSpans op.block s.arena.inner.spans s'.arena.inner.spans ∨
        op = .resetAndShrinkToFit ∧ s'.arena.inner.spans = s.arena.inner.spans.take 1 :=
    fun h => Or.inl (Or.inl h)
  cases s.exec_acts e with
  | take hask hw _ _ =>
      have hsp := Arena.allocateRaw_spans hs hw
      rw [hask.block]
      exact Or.inl hsp
  | skip _ => exact hkeep rfl
  | write _ _ => exact hkeep rfl
  | mark _ ha => exact hkeep (ArenaInner.checkpoint_spans ha)
  | push ha => exact hkeep (ArenaInner.checkpoint_spans ha)
  | rewind _ _ ha => exact hkeep (Arena.rewind_spans _ ha)
  | pop _ ha =>
      have hsp := Arena.rewind_spans s.arena ha
      exact hkeep hsp
  | clear => exact hkeep rfl
  | reset => exact hkeep s.arena.reset_spans
  | shrink => exact Or.inr ⟨rfl, Arena.resetAndShrinkToFit_spans _⟩

/-- The runs, default features, in which the system allocator returns blocks at multiples of 64. -/
def alignedMachine : System Sess Op where
  init s := (machine ⟨false, false⟩).init s ∧ ∀ t ∈ s.arena.inner.spans, 64 ∣ t.base
  ok s op := (machine ⟨false, false⟩).ok s op ∧ ∀ blk ∈ op.block, 64 ∣ blk.base
  step := (machine ⟨false, false⟩).step

theorem reach_of_aligned {s : Sess} (h : alignedMachine.Reach s) :
    (machine ⟨false, false⟩).Reach s := by
  induction h with
  | init hi => exact .init hi.1
  | step op _ hok e ih => exact .step op ih hok.1 e

theorem reach_aligned {s : Sess} (h : alignedMachine.Reach s) :
    ∀ t ∈ s.arena.inner.spans, 64 ∣ t.base := by
  refine h.inv' (P := fun s => ∀ t ∈ s.arena.inner.spans, 64 ∣ t.base) (fun s hi => ?_)
    fun s op s' hr hs hok e t ht => ?_
  · exact hi.2
  rcases exec_spans (reach_stackOk (reach_of_aligned hr)).shape e with hmore | ⟨_, htake⟩
  · rcases hmore.mem ht with ht | ht
    · exact hs t ht
    · exact hok.2 t ht
  · rw [htake] at ht
    exact hs t (List.mem_of_mem_take ht)

/-- An alignment of at most 64 divides 64. -/
theorem Layout.align_dvd (l : Layout) (h : l.align ≤ 64) : l.align ∣ 64 := by
  obtain ⟨k, hk⟩ := l.pow2
  rw [hk] at h ⊢
  have hk6 : k ≤ 6 := (Nat.pow_le_pow_iff_right (by decide : 1 < 2)).mp h
  exact Nat.pow_dvd_pow 2 hk6

/-- **How the address is aligned**, given blocks at multiples of 64: an empty request gets an
    aligned address exactly if its alignment is 1. A request of non-zero size gets one whenever its
    alignment is at most 64, and for any alignment exactly if the start of the block it was served
    from has that alignment. -/
theorem allocate_raw_aligned {s : Sess} (h : alignedMachine.Reach s) {sys : Option Nat}
    (hsys : ∀ ptr ∈ sys, 64 ∣ ptr) {l : Layout} {p : Nat} {w' : Arena}
    (e : s.arena.allocateRaw sys l = some (p, w')) :
    (l.size = 0 → (l.align ∣ p ↔ l.align = 1)) ∧
    (l.size ≠ 0 → (l.align ≤ 64 → l.align ∣ p) ∧
      ∃ c, w'.inner.chunks[w'.inner.currentChunk]? = some c ∧
        Span.Inside ⟨p, l.size⟩ c.span ∧ (l.align ∣ p ↔ l.align ∣ c.ptr)) := by
  have hr := reach_of_aligned h
  have hs := (reach_stackOk hr).shape
  rcases Arena.allocateRaw_chunk (reach_noBuffer hr) e with ⟨h0, rfl, _⟩ | ⟨h0, a', ha, rfl⟩
  · exact ⟨fun _ => Nat.dvd_one, fun hne => absurd h0 hne⟩
  · refine ⟨fun h0' => absurd h0' h0, fun _ => ?_⟩
    obtain ⟨hs', _, ⟨c, start, hc, hp, hu, _⟩, _⟩ := ArenaInner.allocateOrGrow_spec hs ha
    obtain ⟨d, start', hd, hp', hdvd⟩ := hs.allocateOrGrow_dvd ha
    cases hc.symm.trans hd
    have hmem := List.mem_of_getElem? hc
    have hiff : l.align ∣ p ↔ l.align ∣ c.ptr := by
      rw [hp']
      exact (Nat.dvd_add_iff_left hdvd).symm
    -- the block was there before, or is the one the system just returned
    have h64 : 64 ∣ c.ptr := by
      have hspan : c.span ∈ (s.arena.withInner a').inner.spans := List.mem_map_of_mem hmem
      rcases (Arena.allocateRaw_spans hs e).mem hspan with hold | hnew
      · exact reach_aligned h c.span hold
      · obtain ⟨ptr, hptr, hblk⟩ := Option.map_eq_some_iff.mp hnew
        have hbase : ptr = c.ptr := congrArg Span.base hblk
        exact hbase ▸ hsys ptr hptr
    refine ⟨fun hle => hiff.mpr ((l.align_dvd hle).trans h64), c, hc, ⟨?_, ?_⟩, hiff⟩
    · rw [hp]
      exact Nat.le_add_right _ _
    · have := (hs'.chunks c hmem).used
      simp only [Span.fin, Chunk.span, hp]
      omega

theorem aligned_init_small : alignedMachine.init (Sess.small none) :=
  ⟨Sess.init_small false, by decide⟩

/-- An alignment of 16 in a new chunk that starts at an odd multiple of 64. -/
theorem allocate_raw_aligned_grown : ∃ p w',
    (Sess.small none).arena.allocateRaw (some 16448) ⟨80, 16, ⟨4, rfl⟩, by decide⟩ = some (p, w') ∧
      16 ∣ p := by
  have hsome : ((Sess.small none).arena.allocateRaw (some 16448)
      ⟨80, 16, ⟨4, rfl⟩, by decide⟩).isSome = true := by decide
  obtain ⟨⟨p, w'⟩, e⟩ := Option.isSome_iff_exists.mp hsome
  have hsys : ∀ ptr ∈ some 16448, 64 ∣ ptr := by decide
  have := ((allocate_raw_aligned (.init aligned_init_small) hsys e).2 (by decide)).1 (by decide)
  exact ⟨p, w', e, this⟩

/-- An empty array of 8-byte words gets address 1. A value of alignment 128 gets the start of a
    block that is a multiple of 64 only. -/
theorem allocate_raw_misaligned : ∃ s, alignedMachine.Reach s ∧
    (∃ w', s.arena.allocateRaw none ⟨0, 8, ⟨3, rfl⟩, by decide⟩ = some (1, w') ∧ ¬ 8 ∣ 1) ∧
    ∃ p w', s.arena.allocateRaw (some 16448) ⟨128, 128, ⟨7, rfl⟩, by decide⟩ = some (p, w') ∧
      64 ∣ 16448 ∧ ¬ 128 ∣ p := by
  refine ⟨_, .init aligned_init_small, ⟨_, rfl, by decide⟩, ?_⟩
  have h : ((Sess.small none).arena.allocateRaw (some 16448)
      ⟨128, 128, ⟨7, rfl⟩, by decide⟩).any (fun r => decide (¬ 128 ∣ r.1)) = true := by decide
  obtain ⟨⟨p, w'⟩, e, hp⟩ := (Option.any_eq_true _ _).mp h
  exact ⟨p, w', e, by decide, of_decide_eq_true hp⟩

end ArenaB
