/-
  File:      ArenaB/Arena/Live.lean
  Subject:   Live allocations: where they are, that they are apart, that they keep their bytes.

  * `InChunk cs t` -- the range lies below the offset of some chunk; `InBuffer w t` -- it lies in
    the lock-free block at offsets no later call may hand out;
  * `Live s` -- the invariant. Its clause `covered` is the one a rewind lives on: an allocation
    made before a valid checkpoint lies in the chunks AS REWOUND to that checkpoint, unless it is
    in the lock-free block, which no rewind restores;
  * `Undisturbed s i` -- no live allocation older than the `i`th checkpoint is in the lock-free
    block. **`Acts.live`**: the invariant survives every step whose rewinds meet this.
  * **`arena_sound`** -- a default build has no such block, so there the invariant always holds.
-/
import ArenaB.Arena.Stack

namespace ArenaB

open Base

/-! ## 1. Places -/

/-- The range lies below the offset of one of the chunks. -/
def InChunk (cs : List Chunk) (t : Span) : Prop :=
  ∃ (k : Nat) (c : Chunk), cs[k]? = some c ∧ c.ptr ≤ t.base ∧ t.fin ≤ c.ptr + c.used

/-- The range lies in the lock-free block. -/
def OnBuffer (a : ArenaInner) (t : Span) : Prop := ∃ u ∈ a.block, t.Inside u

/-- The range lies in the lock-free block, and none of it may be handed out. -/
def InBuffer (w : Arena) (t : Span) : Prop :=
  ∃ b, w.inner.lockfreeBuffer = some b ∧ b.buffer ≠ 0 ∧ t.Inside b.span ∧
    ∀ x, t.Has (b.buffer + x) → ¬ b.Free w.owner w.slab x

/-- Offsets only grew between the two rows of chunks. -/
def Above (cs cs' : List Chunk) : Prop :=
  ∀ (k : Nat) (c : Chunk), cs[k]? = some c → ∃ n, c.used ≤ n ∧ cs'[k]? = some (c.setUsed n)

section Places

variable {cs cs' : List Chunk} {t u : Span} {w w' : Arena} {a : ArenaInner}

theorem ArenaInner.mem_block {b : LockFreeBuffer} (hb : a.lockfreeBuffer = some b)
    (hne : b.buffer ≠ 0) : b.span ∈ a.block := by
  rw [block, hb, Option.map_some]
  exact Option.mem_filter_iff.mpr ⟨rfl, decide_eq_true hne⟩

theorem InBuffer.onBuffer (h : InBuffer w t) : OnBuffer w.inner t := by
  obtain ⟨b, hb, hne, hin, _⟩ := h
  exact ⟨b.span, ArenaInner.mem_block hb hne, hin⟩

theorem InChunk.above (h : InChunk cs t) (hc : Above cs cs') : InChunk cs' t := by
  obtain ⟨k, c, hk, h1, h2⟩ := h
  obtain ⟨n, hn, hk'⟩ := hc k c hk
  refine ⟨k, _, hk', h1, h2.trans ?_⟩
  show c.ptr + c.used ≤ c.ptr + n
  omega

/-- Growth seen from a checkpoint: the rewound rows grow as well. -/
theorem Above.rewind (hc : Above cs cs') (cp : ArenaCheckpoint) :
    Above (ArenaInner.rewindChunks cs cp) (ArenaInner.rewindChunks cs' cp) := by
  intro k c hk
  rw [ArenaInner.rewindChunks_eq] at hk ⊢
  rcases Nat.lt_trichotomy k cp.chunkIndex with hlt | heq | hgt
  · rw [Gauge.getElem?_cut_lt hlt] at hk ⊢
    exact hc k c hk
  · subst heq
    rw [Gauge.getElem?_cut_self, Option.map_eq_some_iff] at hk
    obtain ⟨d, hd, rfl⟩ := hk
    obtain ⟨n, _, hd'⟩ := hc _ d hd
    exact ⟨_, Nat.le_refl _, by rw [Gauge.getElem?_cut_self, hd']; rfl⟩
  · rw [Gauge.getElem?_cut_gt hgt, Option.map_eq_some_iff] at hk
    obtain ⟨d, hd, rfl⟩ := hk
    obtain ⟨n, _, hd'⟩ := hc _ d hd
    exact ⟨_, Nat.le_refl _, by rw [Gauge.getElem?_cut_gt hgt, hd']; rfl⟩

theorem ArenaInner.getElem?_spans (a : ArenaInner) {k : Nat} {c : Chunk}
    (h : a.chunks[k]? = some c) : a.spans[k]? = some c.span := by
  rw [spans, List.getElem?_map, h]
  rfl

/-- A range below an offset lies in that chunk's block. -/
theorem InChunk.inside (h : InChunk a.chunks t) (hs : a.Shape) : ∃ s ∈ a.spans, t.Inside s := by
  obtain ⟨k, c, hk, h1, h2⟩ := h
  have hm := List.mem_of_getElem? hk
  refine ⟨c.span, List.mem_map_of_mem hm, h1, h2.trans ?_⟩
  have := (hs.chunks c hm).used
  show c.ptr + c.used ≤ c.ptr + c.capacity
  omega

/-- Chunks and the lock-free block do not meet. -/
theorem InChunk.apart_onBuffer (h : InChunk a.chunks t) (hu : OnBuffer a u) (hs : a.Shape)
    (hsep : a.Separate) : t.Apart u := by
  obtain ⟨s, hmem, hin⟩ := h.inside hs
  obtain ⟨v, hv, hin'⟩ := hu
  exact (hsep.2 v hv s hmem).mono hin hin'

/-- A request placed by the chunk path is apart from everything below an offset before. -/
theorem ArenaInner.Placed.apart {a' : ArenaInner} {p size : Nat} (hp : a.Placed a' p size)
    (hg : a.Grows a') (hs : a'.Shape) (hsep : a'.Separate) (h : InChunk a.chunks t) :
    t.Apart ⟨p, size⟩ := by
  obtain ⟨c, start, hc, rfl, hu, hold⟩ := hp
  obtain ⟨k, d, hk, h1, h2⟩ := h
  by_cases hkc : k = a'.currentChunk
  · -- the same chunk: the old range ends below the offset the new one starts from
    subst hkc
    obtain ⟨n, _, hd'⟩ := hg.chunks _ d hk
    rw [hc] at hd'
    cases hd'
    have h3 := hold d hk
    refine Or.inr (Or.inr (Or.inl (h2.trans ?_)))
    show d.ptr + d.used ≤ d.ptr + start
    omega
  · obtain ⟨n, hn, hd'⟩ := hg.chunks k d hk
    have hok := (hs.chunks _ (List.mem_of_getElem? hd')).used
    have hcok := (hs.chunks c (List.mem_of_getElem? hc)).used
    have hn' : n ≤ d.capacity := hok
    have hap : (d.setUsed n).span.Apart c.span :=
      pairwise_getElem?_ne (fun _ _ h => h.symm) hsep.1 hkc (a'.getElem?_spans hd')
        (a'.getElem?_spans hc)
    refine hap.mono ⟨h1, h2.trans ?_⟩ ⟨Nat.le_add_right _ _, ?_⟩
    · show d.ptr + d.used ≤ d.ptr + d.capacity
      omega
    · show c.ptr + start + size ≤ c.ptr + c.capacity
      omega

end Places

/-! ## 2. The invariant -/

/-- The buffer's bounds, and a slab that is its own if it matches. -/
def Arena.BufOk (w : Arena) : Prop :=
  ∀ b ∈ w.inner.lockfreeBuffer, b.Ok ∧ b.Owned w.owner w.slab

/-- Where an allocation made before the checkpoint is found after a rewind to it. -/
def Kept (a : ArenaInner) (cp : ArenaCheckpoint) (o : Obj) : Prop :=
  o.data ≠ [] → InChunk (ArenaInner.rewindChunks a.chunks cp) o.span ∨ OnBuffer a o.span

/-- **The invariant of live allocations.** -/
structure Live (s : Sess) : Prop where
  separate : s.arena.inner.Separate
  buffer : s.arena.BufOk
  placed : ∀ o ∈ s.ledger.log, o.data ≠ [] →
    InChunk s.arena.inner.chunks o.span ∨ InBuffer s.arena o.span
  apart : s.ledger.log.Pairwise fun o o' => o.span.Apart o'.span
  holds : ∀ o ∈ s.ledger.log, Holds s.arena.mem o.addr o.data
  covered : s.ledger.Covered (Kept s.arena.inner)

/-- No live allocation made before the `i`th valid checkpoint is in the lock-free block. -/
def Undisturbed (s : Sess) (i : Nat) : Prop :=
  ∀ o ∈ (s.ledger.rewind i).log, o.data ≠ [] → ¬ OnBuffer s.arena.inner o.span

instance (a : ArenaInner) (t : Span) : Decidable (OnBuffer a t) :=
  inferInstanceAs (Decidable (∃ u ∈ a.block, t.Inside u))

instance (s : Sess) (i : Nat) : Decidable (Undisturbed s i) :=
  inferInstanceAs (Decidable (∀ o ∈ (s.ledger.rewind i).log, o.data ≠ [] →
    ¬ OnBuffer s.arena.inner o.span))

/-- An empty object is apart from everything. -/
theorem apart_of_nil {o : Obj} (h : o.data = []) (t : Span) : t.Apart o.span :=
  Or.inr (Or.inl (by rw [Obj.span, h]; rfl))

/-! ## 3. Allocation -/

section Take

variable {w w' : Arena} {size p : Nat} {r : Option Nat}

/-- What a call does to the buffer: the block stays, nothing in use is freed, and what is handed
    out was free. -/
structure BufStep (w w' : Arena) (size : Nat) (r : Option Nat) : Prop where
  block : w'.inner.block = w.inner.block
  ok : w'.BufOk
  keeps : ∀ t, InBuffer w t → InBuffer w' t
  served : ∀ p, r = some p →
    InBuffer w' ⟨p, size⟩ ∧ ∀ t, InBuffer w t → t.Apart ⟨p, size⟩

theorem BufStep.refl (hb : w.BufOk) : BufStep w w size none :=
  ⟨rfl, hb, fun _ h => h, fun _ h => nomatch h⟩

/-- A served call of the buffer, seen from the arena. -/
theorem bufStep_of_serves {b b' : LockFreeBuffer} {slab : ThreadSlab}
    (hb : w.inner.lockfreeBuffer = some b)
    (h : b.Serves w.owner w.slab size (r, b', slab)) (h1 : w'.inner.lockfreeBuffer = some b')
    (h2 : w'.owner = w.owner) (h3 : w'.slab = slab) : BufStep w w' size r := by
  have hspan : b'.span = b.span := h.span
  have hbase : b'.buffer = b.buffer := h.buffer
  refine ⟨?_, fun d hd => ?_, fun t ht => ?_, fun p hp => ⟨?_, fun t ht => ?_⟩⟩
  · unfold ArenaInner.block
    rw [hb, h1, Option.map_some, Option.map_some, hspan]
  · rw [h1] at hd
    cases hd
    rw [h2, h3]
    exact ⟨h.ok, h.owned⟩
  · obtain ⟨d, hd, hne, hin, hfree⟩ := ht
    rw [hb] at hd
    cases hd
    refine ⟨b', h1, hbase ▸ hne, hspan ▸ hin, fun x hx hx' => ?_⟩
    rw [hbase] at hx
    rw [h2, h3] at hx'
    exact hfree x hx (h.free x hx')
  · refine ⟨b', h1, hbase ▸ (h.served p hp).1, hspan ▸ h.inside hp, fun x hx hx' => ?_⟩
    rw [hbase] at hx
    rw [h2, h3] at hx'
    obtain ⟨x', hx'', _, hnot⟩ := h.fresh hp hx
    obtain rfl := Nat.add_left_cancel hx''
    exact hnot hx'
  · -- an address in both would be free and not free
    obtain ⟨d, hd, _, _, hfree⟩ := ht
    rw [hb] at hd
    cases hd
    refine Span.apart_iff.mpr fun y hy hy' => ?_
    obtain ⟨x, rfl, hx, _⟩ := h.fresh hp hy'
    exact hfree x hy hx

/-- The lock-free path of `allocate_raw`. -/
theorem Arena.tryLockfree_bufStep {l : Layout} (hb : w.BufOk) (e : w.tryLockfree l = (r, w')) :
    BufStep w w' l.size r := by
  unfold tryLockfree at e
  split at e
  · cases e
    exact .refl hb
  · rename_i b hbuf
    split at e
    · obtain ⟨hok, hown⟩ := hb b hbuf
      have hal : l.align ≤ 2 ^ 63 := Nat.le_trans (Nat.le_add_left _ _) l.fits
      have h : b.Serves w.owner w.slab l.size _ :=
        LockFreeBuffer.tryAlloc_spec hok hown l.align_pos hal
      split at e <;> rename_i hr <;> rw [hr] at h <;> cases e <;>
        exact bufStep_of_serves hbuf h rfl rfl rfl
    · cases e
      exact .refl hb

theorem InBuffer.congr {t : Span} (h : InBuffer w t)
    (h1 : w'.inner.lockfreeBuffer = w.inner.lockfreeBuffer) (h2 : w'.owner = w.owner)
    (h3 : w'.slab = w.slab) : InBuffer w' t := by
  obtain ⟨b, hb, hne, hin, hfree⟩ := h
  exact ⟨b, h1.trans hb, hne, hin, by rw [h2, h3]; exact hfree⟩

/-- The arena `w'` has a place of `size` bytes at `p`, in a chunk or in the lock-free block, and
    what lay in a place of `w` lies there still. -/
structure Offers (w w' : Arena) (p size : Nat) : Prop where
  separate : w'.inner.Separate
  buffer : w'.BufOk
  mem : w'.mem = w.mem
  block : w'.inner.block = w.inner.block
  above : Above w.inner.chunks w'.inner.chunks
  keeps : ∀ t, InBuffer w t → InBuffer w' t
  placed : size ≠ 0 → InChunk w'.inner.chunks ⟨p, size⟩ ∨ InBuffer w' ⟨p, size⟩

/-- **What `allocate_raw` does**, on whichever path: the place is apart from all places of
    before. -/
structure Allocated (w w' : Arena) (p size : Nat) : Prop extends Offers w w' p size where
  apart : size ≠ 0 → ∀ t, InChunk w.inner.chunks t ∨ InBuffer w t → t.Apart ⟨p, size⟩

/-- Blocks may go. -/
theorem ArenaInner.Separate.sublist {a a' : ArenaInner} (h : a.Separate)
    (h1 : a'.spans.Sublist a.spans) (h2 : a'.block = a.block) : a'.Separate := by
  refine ⟨h.1.sublist h1, fun u hu t ht => ?_⟩
  rw [h2] at hu
  exact h.2 u hu t (h1.subset ht)

theorem ArenaInner.Separate.congr {a a' : ArenaInner} (h : a.Separate) (h1 : a'.spans = a.spans)
    (h2 : a'.block = a.block) : a'.Separate :=
  h.sublist (h1 ▸ List.Sublist.refl _) h2

/-- A fresh block may join. -/
theorem ArenaInner.Separate.append {a a' : ArenaInner} (h : a.Separate) {blk : Span}
    (hf : a.Fresh blk) (h1 : a'.spans = a.spans ++ [blk]) (h2 : a'.block = a.block) :
    a'.Separate := by
  unfold Separate
  rw [h1, h2]
  refine ⟨List.pairwise_append.mpr ⟨h.1, List.pairwise_singleton _ _, fun t ht u hu => ?_⟩,
    fun u hu t ht => ?_⟩
  · rw [List.mem_singleton.mp hu]
    exact hf.1 t ht
  · rcases List.mem_append.mp ht with ht | ht
    · exact h.2 u hu t ht
    · rw [List.mem_singleton.mp ht]
      exact hf.2 u hu

theorem ArenaInner.Placed.inChunk {a a' : ArenaInner} {p size : Nat} (h : a.Placed a' p size) :
    InChunk a'.chunks ⟨p, size⟩ := by
  obtain ⟨c, start, hc, rfl, hu, _⟩ := h
  refine ⟨_, c, hc, Nat.le_add_right _ _, ?_⟩
  show c.ptr + start + size ≤ c.ptr + c.used
  omega

theorem Arena.allocateRaw_allocated {sys : Option Nat} {l : Layout} (hs : w.inner.Shape)
    (hsep : w.inner.Separate) (hb : w.BufOk)
    (hf : ∀ ptr, sys = some ptr → w.inner.Fresh (growthBlock ptr l.size))
    (e : w.allocateRaw sys l = some (p, w')) : Allocated w w' p l.size := by
  have hid : ∀ cs, Above cs cs := fun _ _ c hc => ⟨c.used, Nat.le_refl _, hc⟩
  rcases allocateRaw_cases e with ⟨h0, _, rfl⟩ | ⟨_, hl⟩ | ⟨_, w₁, a', hl, ha, rfl⟩
  · exact ⟨⟨hsep.congr rfl rfl, hb, rfl, rfl, hid _, fun t ht => ht.congr rfl rfl rfl,
      fun h => absurd h0 h⟩, fun h => absurd h0 h⟩
  · obtain ⟨hsame, _, hmem⟩ := tryLockfree_same hl
    have hst := tryLockfree_bufStep hb hl
    obtain ⟨hin, hap⟩ := hst.served p rfl
    have hsep' := hsep.congr hsame.spans hst.block
    refine ⟨⟨hsep', hst.ok, hmem, hst.block, ?_, hst.keeps, fun _ => Or.inr hin⟩,
      fun _ t ht => ?_⟩
    · rw [hsame.chunks]
      exact hid _
    · rcases ht with ht | ht
      · rw [← hsame.chunks] at ht
        exact ht.apart_onBuffer hin.onBuffer (hsame.shape hs) hsep'
      · exact hap t ht
  · obtain ⟨hsame, _, hmem⟩ := tryLockfree_same hl
    have hst := tryLockfree_bufStep hb hl
    obtain ⟨hs', hg, hp, hspans⟩ := ArenaInner.allocateOrGrow_spec (hsame.shape hs) ha
    have hbuf := ArenaInner.allocateOrGrow_buffer (hsame.shape hs) ha
    have hblk : a'.block = w.inner.block := by
      rw [← hst.block]
      unfold ArenaInner.block
      rw [hbuf]
    have hsep' : a'.Separate := by
      rcases hspans with h | ⟨ptr, hptr, h⟩
      · exact hsep.congr (h.trans hsame.spans) hblk
      · exact hsep.append (hf ptr hptr) (by rw [h, hsame.spans]; rfl) hblk
    have hkeeps : ∀ t, InBuffer w t → InBuffer (w₁.withInner a') t :=
      fun t ht => (hst.keeps t ht).congr hbuf rfl rfl
    refine ⟨⟨hsep', fun b hbm => ?_, hmem, hblk, ?_, hkeeps, fun _ => Or.inl hp.inChunk⟩,
      fun _ t ht => ?_⟩
    · have hbm' : b ∈ a'.lockfreeBuffer := hbm
      rw [hbuf] at hbm'
      exact hst.ok b hbm'
    · rw [← hsame.chunks]
      exact hg.chunks
    · rcases ht with ht | ht
      · rw [← hsame.chunks] at ht
        exact hp.apart hg hs' hsep' ht
      · exact (hp.inChunk.apart_onBuffer (hkeeps t ht).onBuffer hs' hsep').symm

end Take

/-! ## 4. One lemma per effect -/

section Steps

variable {s : Sess} {debug : Bool}

theorem Kept.above {a a' : ArenaInner} {cp : ArenaCheckpoint} {o : Obj} (h : Kept a cp o)
    (hc : Above a.chunks a'.chunks) (hb : a'.block = a.block) : Kept a' cp o := by
  intro hne
  rcases h hne with h | h
  · exact Or.inl (h.above (hc.rewind cp))
  · refine Or.inr ?_
    unfold OnBuffer
    rw [hb]
    exact h

/-- A new place is apart from what is live. -/
theorem Allocated.apart_live {w' : Arena} {p size : Nat} (ha : Allocated s.arena w' p size)
    (h : Live s) : ∀ o ∈ s.ledger.log, o.span.Apart ⟨p, size⟩ := by
  intro o ho
  by_cases h1 : o.data = []
  · exact (apart_of_nil h1 _).symm
  · by_cases h2 : size = 0
    · exact Or.inr (Or.inl h2)
    · exact ha.apart h2 _ (h.placed o ho h1)

/-- A place apart from what is live may get a new object. -/
theorem Live.place (h : Live s) {w' : Arena} {p size : Nat} {m : Mem}
    {data : List (Option UInt8)} (ha : Offers s.arena w' p size)
    (hapart : ∀ o ∈ s.ledger.log, o.span.Apart ⟨p, size⟩) (hlen : data.length = size)
    (hm : Holds m p data) (hagree : ∀ t : Span, t.Apart ⟨p, size⟩ → Mem.Agree w'.mem m t) :
    Live ⟨w'.withMem m, s.ledger.record ⟨p, data⟩⟩ := by
  have hspan : (⟨p, data⟩ : Obj).span = ⟨p, size⟩ := by rw [← hlen]; rfl
  have hne : data ≠ [] → size ≠ 0 := fun h h0 => h (List.eq_nil_of_length_eq_zero (hlen.trans h0))
  refine ⟨ha.separate, ha.buffer, fun o ho hd => ?_, ?_, fun o ho => ?_, ?_⟩
  · rcases List.mem_append.mp ho with ho | ho
    · rcases h.placed o ho hd with hp | hp
      · exact Or.inl (hp.above ha.above)
      · exact Or.inr ((ha.keeps _ hp).congr rfl rfl rfl)
    · rw [List.mem_singleton.mp ho] at hd ⊢
      rw [hspan]
      exact (ha.placed (hne hd)).imp id fun hp => hp.congr rfl rfl rfl
  · refine List.pairwise_append.mpr ⟨h.apart, List.pairwise_singleton _ _, fun o ho o' ho' => ?_⟩
    rw [List.mem_singleton.mp ho', hspan]
    exact hapart o ho
  · rcases List.mem_append.mp ho with ho | ho
    · refine (h.holds o ho).frame ?_
      rw [← ha.mem]
      exact hagree _ (hapart o ho)
    · rw [List.mem_singleton.mp ho]
      exact hm
  · exact (h.covered.record _).imp fun _ _ _ hk => hk.above ha.above ha.block

theorem Live.take (h : Live s) {w' : Arena} {p size : Nat} {m : Mem}
    {data : List (Option UInt8)} (ha : Allocated s.arena w' p size) (hlen : data.length = size)
    (hm : Holds m p data) (hagree : ∀ t : Span, t.Apart ⟨p, size⟩ → Mem.Agree w'.mem m t) :
    Live ⟨w'.withMem m, s.ledger.record ⟨p, data⟩⟩ :=
  h.place ha.toOffers (ha.apart_live h) hlen hm hagree

/-- A write into one allocation changes its own bytes and no other's. -/
theorem Live.holds_write (h : Live s) {i j : Nat} {o : Obj} {b : UInt8}
    (ho : s.ledger.log[i]? = some o) (hj : j < o.data.length) :
    ∀ x ∈ (s.ledger.amend i (Obj.set j b)).log,
      Holds (s.arena.mem.write (o.addr + j) [b]) x.addr x.data := by
  intro x hx
  obtain ⟨k, hk⟩ := List.mem_iff_getElem?.mp hx
  obtain ⟨y, hy, rfl⟩ := Ledger.getElem?_amend hk
  by_cases hik : i = k
  · subst hik
    rw [ho] at hy
    cases hy
    rw [if_pos rfl]
    exact (h.holds o (List.mem_of_getElem? ho)).set j b
  · rw [if_neg hik]
    refine (h.holds y (List.mem_of_getElem? hy)).frame (Mem.agree_write ?_)
    have hyo := pairwise_getElem?_ne (R := fun o o' : Obj => o.span.Apart o'.span)
      (fun _ _ h => h.symm) h.apart (Ne.symm hik) hy ho
    refine hyo.mono (.refl _) ⟨Nat.le_add_right _ _, ?_⟩
    show o.addr + j + 1 ≤ o.addr + o.data.length
    omega

theorem Live.write (h : Live s) {i j : Nat} {o : Obj} {b : UInt8}
    (ho : s.ledger.log[i]? = some o) (hj : j < o.data.length) :
    Live ⟨s.arena.withMem (s.arena.mem.write (o.addr + j) [b]),
      s.ledger.amend i (Obj.set j b)⟩ := by
  -- a write moves nothing
  have hget : ∀ (k : Nat) (x : Obj), (s.ledger.amend i (Obj.set j b)).log[k]? = some x →
      ∃ y, s.ledger.log[k]? = some y ∧ x.span = y.span ∧ (x.data = [] ↔ y.data = []) := by
    intro k x hx
    obtain ⟨y, hy, rfl⟩ := Ledger.getElem?_amend hx
    refine ⟨y, hy, ?_⟩
    split <;> simp
  refine ⟨h.separate, h.buffer, fun x hx hd => ?_, ?_, h.holds_write ho hj, ?_⟩
  · obtain ⟨k, hk⟩ := List.mem_iff_getElem?.mp hx
    obtain ⟨y, hy, hsp, hyd⟩ := hget k x hk
    rw [hsp]
    exact (h.placed y (List.mem_of_getElem? hy) fun hn => hd (hyd.mpr hn)).imp id
      fun hp => hp.congr rfl rfl rfl
  · refine List.pairwise_iff_getElem.mpr fun k k' hk hk' hlt => ?_
    obtain ⟨y, hy, hsp, _⟩ := hget k _ (List.getElem?_eq_getElem hk)
    obtain ⟨y', hy', hsp', _⟩ := hget k' _ (List.getElem?_eq_getElem hk')
    rw [hsp, hsp']
    exact pairwise_getElem?_ne (fun _ _ h => h.symm) h.apart (Nat.ne_of_lt hlt) hy hy'
  · refine Ledger.Covered.amend h.covered (fun cp o hk hd => ?_) i
    rw [Obj.set_span]
    exact hk fun hn => hd ((Obj.set_data_nil j b o).mpr hn)

/-- A fresh checkpoint covers everything live: rewinding to it at once changes nothing. -/
theorem Live.mark (h : Live s) (hs : s.arena.inner.Shape) {cp : ArenaCheckpoint}
    {a' : ArenaInner} (e : s.arena.inner.checkpoint = some (cp, a')) {a'' : ArenaInner}
    (h1 : a''.chunks = s.arena.inner.chunks)
    (h2 : a''.lockfreeBuffer = s.arena.inner.lockfreeBuffer) :
    Live ⟨s.arena.withInner a'', s.ledger.mark cp⟩ := by
  have hspans : a''.spans = s.arena.inner.spans := congrArg (List.map Chunk.span) h1
  have hblk : a''.block = s.arena.inner.block := by
    unfold ArenaInner.block
    rw [h2]
  have hself : ArenaInner.rewindChunks s.arena.inner.chunks cp = s.arena.inner.chunks := by
    rw [ArenaInner.checkpoint_eq hs] at e
    cases e
    obtain ⟨c, hc, hb, _⟩ := hs.exists_current
    rw [ArenaInner.rewindChunks_eq, hb]
    exact Gauge.cut_self hs.top hc
  refine ⟨h.separate.congr hspans hblk, fun b hb => ?_, fun o ho hd => ?_, h.apart, h.holds, ?_⟩
  · have hb' : b ∈ a''.lockfreeBuffer := hb
    rw [h2] at hb'
    exact h.buffer b hb'
  · refine (h.placed o ho hd).imp (fun hp => ?_) fun hp => hp.congr h2 rfl rfl
    show InChunk a''.chunks _
    rw [h1]
    exact hp
  · refine Ledger.Covered.imp (P := Kept s.arena.inner) (h.covered.mark fun o ho hd => ?_)
      fun _ _ o hk => ?_
    · rw [hself]
      exact (h.placed o ho hd).imp id fun hp => hp.onBuffer
    · refine hk.above ?_ hblk
      show Above s.arena.inner.chunks a''.chunks
      rw [h1]
      exact fun _ c hc => ⟨c.used, Nat.le_refl _, hc⟩

/-- The reset of the buffer leaves the chunks alone and its own slab behind. -/
theorem bufOk_resetBuffer {w : Arena} (h : w.BufOk) :
    w.resetBuffer.BufOk ∧ w.resetBuffer.inner.block = w.inner.block := by
  unfold Arena.resetBuffer ArenaInner.resetBuffer
  cases hb : w.inner.lockfreeBuffer with
  | none => exact ⟨h, rfl⟩
  | some b =>
      refine ⟨fun d hd => ?_, ?_⟩
      · cases hd
        exact ⟨(h b hb).1.reset _ _, fun hm => absurd hm (w.slab.not_matches_invalidate _ _)⟩
      · unfold ArenaInner.block
        rw [hb]
        rfl

/-- The zero fill of a buffer reset spares every range apart from the block. -/
theorem agree_resetBuffer (w : Arena) (t : Span) (ht : ∀ u ∈ w.inner.block, t.Apart u) :
    Mem.Agree w.mem w.resetBuffer.mem t := by
  unfold Arena.resetBuffer ArenaInner.resetBuffer
  cases hb : w.inner.lockfreeBuffer with
  | none => exact Mem.agree_refl _ _
  | some b =>
      show Mem.Agree w.mem (if b.buffer = 0 then w.mem else w.mem.fill b.span 0) t
      split
      · exact Mem.agree_refl _ _
      · rename_i hne
        exact Mem.agree_fill (ht _ (ArenaInner.mem_block hb hne))

/-- What a rewind keeps of the log lies in the rewound chunks. -/
theorem Live.kept (h : Live s) {i : Nat} {m : ArenaCheckpoint × Nat}
    (hm : s.ledger.marks[i]? = some m) (hsafe : Undisturbed s i) {o : Obj}
    (ho : o ∈ (s.ledger.rewind i).log) (hd : o.data ≠ []) :
    InChunk (ArenaInner.rewindChunks s.arena.inner.chunks m.1) o.span :=
  (h.covered.kept hm o ho hd).resolve_right (hsafe o ho hd)

/-- The checkpoints that survive a rewind lie in chunks no later than its own. -/
theorem StackOk.chunkIndex_le {a : ArenaInner} (hk : StackOk a s.cps) {i : Nat}
    {m m' : ArenaCheckpoint × Nat} (hm : s.ledger.marks[i]? = some m)
    (hm' : m' ∈ s.ledger.marks.take (i + 1)) : m'.1.chunkIndex ≤ m.1.chunkIndex := by
  obtain ⟨j, hj, em⟩ := mem_take_getElem? hm'
  have hpos := pairwise_getElem? (R := fun c d : ArenaCheckpoint => c.pos ≤ d.pos)
    (fun _ => le_refl _) hk.order (Nat.le_of_lt_succ hj) (Sess.cps_getElem? em)
    (Sess.cps_getElem? hm)
  rcases ArenaCheckpoint.pos_le.mp hpos with hlt | ⟨heq, _⟩
  · exact Nat.le_of_lt hlt
  · exact Nat.le_of_eq heq

/-- **A rewind that disturbs nothing**: what it keeps lies in the rewound chunks, out of reach of
    the buffer reset. -/
theorem Live.rewind (h : Live s) (hk : StackOk s.arena.inner s.cps) {i : Nat}
    {m : ArenaCheckpoint × Nat} (hm : s.ledger.marks[i]? = some m) (hsafe : Undisturbed s i)
    {a' : ArenaInner} (hs' : a'.Shape)
    (h1 : a'.chunks = ArenaInner.rewindChunks s.arena.inner.chunks m.1)
    (h2 : a'.lockfreeBuffer = s.arena.inner.lockfreeBuffer) :
    Live ⟨(s.arena.withInner a').resetBuffer, s.ledger.rewind i⟩ := by
  have hsame := Arena.same_resetBuffer (s.arena.withInner a')
  have hchunks : (s.arena.withInner a').resetBuffer.inner.chunks = a'.chunks := hsame.chunks
  have hspans : a'.spans = s.arena.inner.spans := by
    unfold ArenaInner.spans
    rw [h1, ArenaInner.map_span_rewindChunks]
  have hblk : a'.block = s.arena.inner.block := by
    unfold ArenaInner.block
    rw [h2]
  have hbuf : (s.arena.withInner a').BufOk := by
    intro b hb
    have hb' : b ∈ a'.lockfreeBuffer := hb
    rw [h2] at hb'
    exact h.buffer b hb'
  obtain ⟨hok, hblk'⟩ := bufOk_resetBuffer hbuf
  have hsep : a'.Separate := h.separate.congr hspans hblk
  have hkept : ∀ o ∈ (s.ledger.rewind i).log, o.data ≠ [] → InChunk a'.chunks o.span :=
    fun o ho hd => h1 ▸ h.kept hm hsafe ho hd
  refine ⟨hsep.congr hsame.spans hblk', hok, fun o ho hd => ?_,
    h.apart.sublist (List.take_sublist _ _), fun o ho => ?_, ?_⟩
  · show InChunk (s.arena.withInner a').resetBuffer.inner.chunks _ ∨ _
    rw [hchunks]
    exact Or.inl (hkept o ho hd)
  · refine (h.holds o (List.mem_of_mem_take ho)).frame (agree_resetBuffer _ _ fun u hu => ?_)
    by_cases hd : o.data = []
    · exact (apart_of_nil hd u).symm
    · exact (hkept o ho hd).apart_onBuffer ⟨u, hu, .refl u⟩ hs' hsep
  · refine (h.covered.rewind i).imp fun m' hm' o hko hd => ?_
    have hle := hk.chunkIndex_le hm hm'
    refine (hko hd).imp (fun hp => ?_) fun hp => ?_
    · show InChunk (ArenaInner.rewindChunks (s.arena.withInner a').resetBuffer.inner.chunks _) _
      rw [hchunks, h1, ArenaInner.rewindChunks_eq, ArenaInner.rewindChunks_eq, Gauge.cut_cut hle]
      exact hp
    · show OnBuffer (s.arena.withInner a').resetBuffer.inner o.span
      unfold OnBuffer
      rw [hblk']
      show ∃ u ∈ a'.block, o.span.Inside u
      rw [hblk]
      exact hp

/-- With nothing live only the blocks and the buffer matter. -/
theorem live_empty {w : Arena} (h1 : w.inner.Separate) (h2 : w.BufOk) : Live ⟨w, .empty⟩ :=
  ⟨h1, h2, (fun _ h => nomatch h), .nil, (fun _ h => nomatch h), Ledger.covered_empty⟩

theorem Live.reset (h : Live s) : Live ⟨s.arena.reset, .empty⟩ := by
  have hsame := Arena.same_resetBuffer (s.arena.withInner { s.arena.inner with
    chunks := s.arena.inner.chunks.map Chunk.reset
    currentChunk := 0
    stats := { s.arena.inner.stats with bytesUsed := 0, bytesAllocated := 0, allocationCount := 0 }
    checkpoints := [] })
  obtain ⟨hok, hblk⟩ := bufOk_resetBuffer (w := s.arena.withInner { s.arena.inner with
    chunks := s.arena.inner.chunks.map Chunk.reset
    currentChunk := 0
    stats := { s.arena.inner.stats with bytesUsed := 0, bytesAllocated := 0, allocationCount := 0 }
    checkpoints := [] }) h.buffer
  refine live_empty (h.separate.congr (hsame.spans.trans ?_) hblk) hok
  show (s.arena.inner.chunks.map Chunk.reset).map Chunk.span = s.arena.inner.chunks.map Chunk.span
  rw [List.map_map]
  rfl

theorem ArenaInner.Separate.shrink {w : Arena} (h : w.inner.Separate) :
    w.resetAndShrinkToFit.inner.Separate :=
  h.sublist (w.resetAndShrinkToFit_spans ▸ List.take_sublist 1 _) rfl

theorem Live.shrink (h : Live s) : Live ⟨s.arena.resetAndShrinkToFit, .empty⟩ :=
  live_empty h.separate.shrink h.buffer

end Steps

/-! ## 5. Runs -/

/-- **One step keeps the invariant** if its rewinds disturb nothing. -/
theorem Acts.live {debug : Bool} {s s' : Sess} {op : Op} (hacts : Acts debug s op s')
    (hfresh : ∀ blk ∈ op.block, s.arena.inner.Fresh blk) (hmeet : RewindsMeet Undisturbed s op)
    (hk : StackOk s.arena.inner s.cps) (h : Live s) : Live s' := by
  cases hacts with
  | skip _ => exact h
  | take hask ha hm hagree =>
      have hal := Arena.allocateRaw_allocated hk.shape h.separate h.buffer (hask.fresh hfresh) ha
      exact h.take hal hask.length hm hagree
  | write ho hj => exact h.write ho hj
  | mark _ e =>
      have e' := e
      rw [ArenaInner.checkpoint_eq hk.shape] at e'
      cases e'
      exact h.mark hk.shape e rfl rfl
  | push e =>
      have e' := e
      rw [ArenaInner.checkpoint_eq hk.shape] at e'
      cases e'
      exact h.mark hk.shape e rfl rfl
  | rewind hop hm e =>
      have hs' := hk.shape.rewind e
      obtain ⟨_, rfl⟩ := ArenaInner.rewind_eq_some.mp e
      exact h.rewind hk hm (hmeet _ hop.target) hs' rfl rfl
  | pop hcp e =>
      obtain ⟨m, hm, rfl⟩ := Sess.popIndex_spec hk hcp
      have hs' := (hk.sub (List.dropLast_sublist _)).shape.rewind e
      obtain ⟨_, rfl⟩ := ArenaInner.rewind_eq_some.mp e
      exact h.rewind hk hm (hmeet _ rfl) hs' rfl rfl
  | clear => exact ⟨h.separate, h.buffer, h.placed, h.apart, h.holds, h.covered⟩
  | reset => exact h.reset
  | shrink => exact h.shrink

theorem Sess.Init.live {f : Features} {s : Sess} (h : s.Init f) : Live s := by
  obtain ⟨sys, sys', lf, owner, slab, mem, cap, _, e, hsep, hslab, hl⟩ := h
  obtain ⟨_, _, a, hn, hw⟩ := Arena.withCapacity_eq_some e
  obtain ⟨w, L⟩ := s
  subst hl
  refine live_empty hsep fun b hb => ?_
  have hw' : w = _ := hw
  subst hw'
  have hb' : b ∈ a.lockfreeBuffer := hb
  rw [(ArenaInner.new_eq_ok hn).2.2] at hb'
  obtain ⟨sysb, _, rfl⟩ := Option.map_eq_some_iff.mp hb'
  exact ⟨LockFreeBuffer.ok_new sysb, fun hm => absurd hm hslab⟩

/-- **Runs whose rewinds disturb nothing**, for every combination of features. -/
theorem reach_live {f : Features} {s : Sess}
    (h : ((machine f).under (RewindsMeet Undisturbed)).Reach s) : Live s := by
  refine h.inv' (P := Live) (fun s (hs : s.Init f) => hs.live) fun s op s' hr hs hok e => ?_
  exact (s.exec_acts e).live hok.1 hok.2 (reach_stackOk hr.of_under) hs

/-! ## 6. The default build -/

theorem reach_live_default {debug : Bool} {s : Sess} (h : (machine ⟨debug, false⟩).Reach s) :
    Live s := by
  refine reach_live (h.under fun s op hr _ i _ o _ _ hb => ?_)
  obtain ⟨u, hu, _⟩ := hb
  rw [ArenaInner.block, reach_noBuffer hr] at hu
  cases hu

/-- **The arena keeps its contract**: in every reachable state of a default build the chunks are
    in bounds and empty behind the current one, and the live allocations are pairwise apart, lie
    below the offset of an existing chunk and read back the bytes last written. -/
theorem arena_sound {s : Sess} (h : (machine ⟨false, false⟩).Reach s) :
    (∀ c ∈ s.arena.inner.chunks, c.used ≤ c.capacity) ∧
    s.arena.inner.currentChunk < s.arena.inner.chunks.length ∧
    (∀ (k : Nat) (c : Chunk), s.arena.inner.currentChunk < k →
      s.arena.inner.chunks[k]? = some c → c.used = 0) ∧
    (s.ledger.log.Pairwise fun o o' => o.span.Apart o'.span) ∧
    (∀ o ∈ s.ledger.log, o.data ≠ [] → ∃ c ∈ s.arena.inner.chunks,
      c.ptr ≤ o.addr ∧ o.addr + o.data.length ≤ c.ptr + c.used) ∧
    ∀ o ∈ s.ledger.log, Holds s.arena.mem o.addr o.data := by
  have hk := reach_stackOk h
  have hl := reach_live_default h
  refine ⟨fun c hc => (hk.shape.chunks c hc).used, hk.shape.current_lt, hk.shape.top.empty,
    hl.apart, fun o ho hd => ?_, hl.holds⟩
  rcases hl.placed o ho hd with ⟨_, c, hc, h1, h2⟩ | ⟨b, hb, _⟩
  · exact ⟨c, List.mem_of_getElem? hc, h1, h2⟩
  · rw [reach_noBuffer h] at hb
    cases hb

/-- An allocation, a checkpoint, one that needs a second chunk, a rewind, another allocation. -/
theorem arena_sound_rewound : ∃ s, (machine ⟨false, false⟩).Reach s ∧
    (s.ledger.log.map Obj.data = [[some 42], [some 7, some 8]] ∧
      s.arena.inner.chunks.length = 2) ∧
    (s.ledger.log.Pairwise fun o o' => o.span.Apart o'.span) ∧
    ∀ o ∈ s.ledger.log, Holds s.arena.mem o.addr o.data := by
  obtain ⟨s, hr, hs⟩ := System.exists_reach_of_replay (machine ⟨false, false⟩)
    [.alloc none ⟨.byte, [42], rfl⟩, .checkpoint,
      .allocateRaw (some 16384) ⟨100, 4, ⟨2, rfl⟩, by decide⟩, .rewindToCheckpoint 0,
      .alloc none ⟨⟨2, 2, ⟨1, rfl⟩, by decide⟩, [7, 8], rfl⟩]
    (P := fun s => s.ledger.log.map Obj.data = [[some 42], [some 7, some 8]] ∧
      s.arena.inner.chunks.length = 2) (Sess.init_small false) (by decide)
  obtain ⟨_, _, _, h4, _, h6⟩ := arena_sound hr
  exact ⟨s, hr, hs, h4, h6⟩

end ArenaB
