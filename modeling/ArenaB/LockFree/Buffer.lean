/-
  File:      ArenaB/LockFree/Buffer.lean
  Subject:   `LockFreeBuffer` and `ThreadSlab` (src/lockfree.rs), whole calls of one thread.

  A buffer owns one data block and hands out regions of it by advancing `offset`; the calling
  thread keeps the last region it took in its slab and serves small requests from there. A slab
  counts as the buffer's own when owner address and generation match.

  * The model is the `not(single_thread_fast)` code with no other thread in a call: the
    compare-exchange of the refill then succeeds at once, so the loop body runs once. `allocate`
    alone is of the other feature.
  * `Free b owner slab x` -- offset `x` of the block may still be handed out: it lies behind the
    buffer's offset, or in the rest of the matching slab.
  * **`tryAlloc_spec`** -- as long as a matching slab is the buffer's own region (`Owned`), a call
    takes its bytes out of the free offsets and frees none.
-/
import ArenaB.Base.Word
import ArenaB.Base.Span

namespace ArenaB

open Base

def lockfreeBufferSize : Nat := 4096
def lockfreeAlignment : Nat := 64
def maxLockfreeAllocation : Nat := 1024
def slabMinBlock : Nat := 256

/-! ## 1. Statistics -/

/-- `LockFreeStats`: four counters that wrap like the atomics they are. -/
structure LockFreeStats where
  allocations : Nat
  cacheHits : Nat
  cacheMisses : Nat
  contentionEvents : Nat
  deriving DecidableEq, Repr

namespace LockFreeStats

def new : LockFreeStats := ⟨0, 0, 0, 0⟩

def recordAllocation (s : LockFreeStats) : LockFreeStats :=
  { s with allocations := wadd s.allocations 1 }

def recordCacheHit (s : LockFreeStats) : LockFreeStats :=
  { s with cacheHits := wadd s.cacheHits 1 }

def recordCacheMiss (s : LockFreeStats) : LockFreeStats :=
  { s with cacheMisses := wadd s.cacheMisses 1 }

def recordContention (s : LockFreeStats) : LockFreeStats :=
  { s with contentionEvents := wadd s.contentionEvents 1 }

def recordDeallocation (s : LockFreeStats) : LockFreeStats :=
  { s with allocations := wsub s.allocations 1 }

/-- `LockFreeStats::get`. -/
def get (s : LockFreeStats) : Nat × Nat × Nat × Nat :=
  (s.allocations, s.cacheHits, s.cacheMisses, s.contentionEvents)

def reset (_ : LockFreeStats) : LockFreeStats := new

end LockFreeStats

/-! ## 2. The slab of a thread -/

/-- `ThreadSlab`; address `0` is the null pointer, `fin` is the source's `end`. -/
structure ThreadSlab where
  owner : Nat
  base : Nat
  start : Nat
  fin : Nat
  offset : Nat
  generation : Nat
  deriving DecidableEq, Repr

namespace ThreadSlab

def new : ThreadSlab := ⟨0, 0, 0, 0, 0, 0⟩

/-- `ThreadSlab::matches`. -/
def Matches (s : ThreadSlab) (owner generation : Nat) : Prop :=
  s.owner = owner ∧ s.generation = generation ∧ s.base ≠ 0

instance (s : ThreadSlab) (o g : Nat) : Decidable (s.Matches o g) := by
  unfold Matches
  infer_instance

/-- `ThreadSlab::set_region`. -/
def setRegion (_ : ThreadSlab) (owner base start fin generation : Nat) : ThreadSlab :=
  ⟨owner, base, start, fin, start, generation⟩

/-- `ThreadSlab::try_alloc`. -/
def tryAlloc (s : ThreadSlab) (size align : Nat) : Option Nat × ThreadSlab :=
  if s.base = 0 then (none, s)
  else
    let alignedOffset := alignUp s.offset align
    let newOffset := wadd alignedOffset size
    if newOffset ≤ s.fin then (some (s.base + alignedOffset), { s with offset := newOffset })
    else (none, s)

/-- `ThreadSlab::invalidate`. -/
def invalidate (_ : ThreadSlab) : ThreadSlab := new

/-- **The two outcomes of a slab allocation** within a block of the lock-free size: nothing
    changes, or the slab advances over an aligned range of its own rest. -/
theorem tryAlloc_cases (s : ThreadSlab) {size align : Nat} (ho : s.offset ≤ s.fin)
    (hf : s.fin ≤ lockfreeBufferSize) (hs : size ≤ maxLockfreeAllocation) (ha : 0 < align)
    (ha' : align ≤ 2 ^ 63) :
    s.tryAlloc size align = (none, s) ∨
      ∃ o, s.offset ≤ o ∧ o + size ≤ s.fin ∧ s.base ≠ 0 ∧
        s.tryAlloc size align = (some (s.base + o), { s with offset := o + size }) := by
  unfold lockfreeBufferSize at hf
  unfold maxLockfreeAllocation at hs
  have hw : s.offset + align ≤ wordMod := by
    unfold wordMod
    omega
  have h1 := le_alignUp ha hw
  have h2 := alignUp_lt ha hw
  have e : wadd (alignUp s.offset align) size = alignUp s.offset align + size := by
    apply wadd_eq
    unfold wordMod
    omega
  unfold tryAlloc
  simp only [e]
  split
  · exact Or.inl rfl
  · rename_i hb
    split
    · rename_i hle
      exact Or.inr ⟨_, h1, hle, hb, rfl⟩
    · exact Or.inl rfl

theorem not_matches_new (o g : Nat) : ¬ new.Matches o g := fun h => h.2.2 rfl

theorem not_matches_invalidate (s : ThreadSlab) (o g : Nat) : ¬ s.invalidate.Matches o g :=
  not_matches_new o g

end ThreadSlab

/-! ## 3. The buffer -/

/-- `LockFreeBuffer`. -/
structure LockFreeBuffer where
  buffer : Nat
  offset : Nat
  capacity : Nat
  stats : LockFreeStats
  generation : Nat
  deriving DecidableEq, Repr

namespace LockFreeBuffer

/-- `LockFreeBuffer::new`; `sys` is what `alloc(layout)` returns. The fallback layout of the
    source is never taken: 4096 bytes at alignment 64 is a valid layout. -/
def new (sys : Option Nat) : LockFreeBuffer :=
  ⟨sys.getD 0, 0, lockfreeBufferSize, LockFreeStats.new, 0⟩

/-- The data block. -/
def span (b : LockFreeBuffer) : Span := ⟨b.buffer, b.capacity⟩

/-- `LockFreeBuffer::allocate`, of the feature `single_thread_fast` only. -/
def allocate (b : LockFreeBuffer) (size align : Nat) : Option Nat × LockFreeBuffer :=
  let alignedOffset := alignUp b.offset align
  let newOffset := wadd alignedOffset size
  if newOffset ≤ b.capacity then
    (some (b.buffer + alignedOffset), { b with offset := newOffset })
  else (none, b)

/-- `LockFreeBuffer::try_thread_slab`. -/
def tryThreadSlab (b : LockFreeBuffer) (owner : Nat) (slab : ThreadSlab) (size align : Nat) :
    Option Nat × ThreadSlab :=
  if slab.Matches owner b.generation then slab.tryAlloc size align
  else (none, slab.invalidate)

/-- `LockFreeBuffer::refill_thread_slab_and_alloc`. -/
def refillThreadSlabAndAlloc (b : LockFreeBuffer) (owner : Nat) (slab : ThreadSlab)
    (size align : Nat) : Option Nat × LockFreeBuffer × ThreadSlab :=
  if b.buffer = 0 then (none, b, slab)
  else
    let blockSize := alignUp (max size slabMinBlock) lockfreeAlignment
    let start := alignUp b.offset lockfreeAlignment
    let fin := wadd start blockSize
    if fin > b.capacity then (none, { b with stats := b.stats.recordCacheMiss }, slab)
    else
      let r := (slab.setRegion owner b.buffer start fin b.generation).tryAlloc size align
      (r.1, { b with offset := fin, stats := b.stats.recordAllocation }, r.2)

/-- `LockFreeBuffer::try_alloc`. -/
def tryAlloc (b : LockFreeBuffer) (owner : Nat) (slab : ThreadSlab) (size align : Nat) :
    Option Nat × LockFreeBuffer × ThreadSlab :=
  if size > maxLockfreeAllocation then
    (none, { b with stats := b.stats.recordAllocation.recordCacheMiss }, slab)
  else
    match b.tryThreadSlab owner slab size align with
    | (some ptr, slab) =>
        (some ptr, { b with stats := b.stats.recordAllocation.recordCacheHit }, slab)
    | (none, slab) =>
        match b.refillThreadSlabAndAlloc owner slab size align with
        | (some ptr, b, slab) =>
            (some ptr, { b with stats := b.stats.recordAllocation.recordCacheHit }, slab)
        | (none, b, slab) => (none, { b with stats := b.stats.recordCacheMiss }, slab)

/-- `LockFreeBuffer::reset`: the buffer, the caller's slab, and the memory after the zero fill. -/
def reset (b : LockFreeBuffer) (slab : ThreadSlab) (mem : Mem) :
    LockFreeBuffer × ThreadSlab × Mem :=
  ({ b with offset := 0, generation := wadd b.generation 1, stats := b.stats.reset },
    slab.invalidate, if b.buffer = 0 then mem else mem.fill b.span 0)

/-! ## 4. What may still be handed out -/

/-- Offsets of the block a call may still hand out. -/
def Free (b : LockFreeBuffer) (owner : Nat) (slab : ThreadSlab) (x : Nat) : Prop :=
  (b.offset ≤ x ∧ x < b.capacity) ∨
    (slab.Matches owner b.generation ∧ slab.offset ≤ x ∧ x < slab.fin)

/-- The bounds of a buffer. -/
structure Ok (b : LockFreeBuffer) : Prop where
  offset : b.offset ≤ b.capacity
  capacity : b.capacity ≤ lockfreeBufferSize

/-- A matching slab is a region the buffer itself reserved. -/
def Owned (b : LockFreeBuffer) (owner : Nat) (slab : ThreadSlab) : Prop :=
  slab.Matches owner b.generation →
    slab.base = b.buffer ∧ slab.offset ≤ slab.fin ∧ slab.fin ≤ b.offset

theorem ok_new (sys : Option Nat) : (new sys).Ok := ⟨Nat.zero_le _, Nat.le_refl _⟩

theorem Ok.reset {b : LockFreeBuffer} (h : b.Ok) (slab : ThreadSlab) (mem : Mem) :
    (b.reset slab mem).1.Ok :=
  ⟨Nat.zero_le _, h.capacity⟩

/-- **What a call does**: it keeps the block, hands out free offsets only, and frees none. -/
structure Serves (b : LockFreeBuffer) (owner : Nat) (slab : ThreadSlab) (size : Nat)
    (r : Option Nat × LockFreeBuffer × ThreadSlab) : Prop where
  buffer : r.2.1.buffer = b.buffer
  capacity : r.2.1.capacity = b.capacity
  generation : r.2.1.generation = b.generation
  ok : r.2.1.Ok
  owned : r.2.1.Owned owner r.2.2
  free : ∀ x, r.2.1.Free owner r.2.2 x → b.Free owner slab x
  served : ∀ p, r.1 = some p → b.buffer ≠ 0 ∧ ∃ o, p = b.buffer + o ∧ o + size ≤ b.capacity ∧
    ∀ x, o ≤ x → x < o + size → b.Free owner slab x ∧ ¬ r.2.1.Free owner r.2.2 x

section Spec

variable {b : LockFreeBuffer} {owner size align : Nat} {slab : ThreadSlab}

theorem Serves.span {r : Option Nat × LockFreeBuffer × ThreadSlab}
    (h : b.Serves owner slab size r) : r.2.1.span = b.span := by
  simp only [LockFreeBuffer.span, h.buffer, h.capacity]

/-- What a call hands out lies in the block. -/
theorem Serves.inside {r : Option Nat × LockFreeBuffer × ThreadSlab}
    (h : b.Serves owner slab size r) {p : Nat} (hp : r.1 = some p) :
    Span.Inside ⟨p, size⟩ b.span := by
  obtain ⟨_, o, rfl, hle, _⟩ := h.served p hp
  refine ⟨Nat.le_add_right _ _, ?_⟩
  simp only [Span.fin, LockFreeBuffer.span]
  omega

/-- Each of its addresses was free before and is not free after. -/
theorem Serves.fresh {r : Option Nat × LockFreeBuffer × ThreadSlab}
    (h : b.Serves owner slab size r) {p y : Nat} (hp : r.1 = some p)
    (hy : Span.Has ⟨p, size⟩ y) :
    ∃ x, y = b.buffer + x ∧ b.Free owner slab x ∧ ¬ r.2.1.Free owner r.2.2 x := by
  obtain ⟨_, o, rfl, _, hfree⟩ := h.served p hp
  obtain ⟨x, rfl, h1, h2⟩ := hy.offset
  exact ⟨x, rfl, hfree x h1 h2⟩

/-- The statistics are no part of what a call does. -/
theorem Serves.stats {p : Option Nat} {b₁ : LockFreeBuffer} {slab₁ : ThreadSlab}
    (h : b.Serves owner slab size (p, b₁, slab₁)) (st : LockFreeStats) :
    b.Serves owner slab size (p, { b₁ with stats := st }, slab₁) :=
  ⟨h.buffer, h.capacity, h.generation, ⟨h.ok.offset, h.ok.capacity⟩, h.owned, h.free, h.served⟩

/-- A call that serves nothing and at most drops the slab. -/
theorem serves_none (hb : b.Ok) {slab' : ThreadSlab} (ho : b.Owned owner slab')
    (hf : ∀ x, b.Free owner slab' x → b.Free owner slab x) :
    b.Serves owner slab size (none, b, slab') :=
  ⟨rfl, rfl, rfl, hb, ho, hf, fun _ h => nomatch h⟩

/-- The slab path: a matching slab of the buffer's own serves from its rest. -/
theorem serves_slab (hb : b.Ok) (ho : b.Owned owner slab) (hm : slab.Matches owner b.generation)
    {o : Nat} (h1 : slab.offset ≤ o) (h2 : o + size ≤ slab.fin) :
    b.Serves owner slab size (some (slab.base + o), b, { slab with offset := o + size }) := by
  obtain ⟨hbase, _, hfin⟩ := ho hm
  have hcap := hb.offset
  refine ⟨rfl, rfl, rfl, hb, fun _ => ⟨hbase, h2, hfin⟩, fun x hx => ?_, fun p hp => ?_⟩
  · rcases hx with hx | ⟨_, hx1, hx2⟩
    · exact Or.inl hx
    · have hx1' : o + size ≤ x := hx1
      exact Or.inr ⟨hm, by omega, hx2⟩
  · simp only [Option.some.injEq] at hp
    refine ⟨hbase ▸ hm.2.2, o, by rw [← hp, hbase], by omega, fun x hx1 hx2 => ?_⟩
    refine ⟨Or.inr ⟨hm, by omega, by omega⟩, fun hx => ?_⟩
    rcases hx with ⟨hx3, _⟩ | ⟨_, hx3, _⟩
    · have hx3' : b.offset ≤ x := hx3
      omega
    · have hx3' : o + size ≤ x := hx3
      omega

/-- A call that first gives up the slab or reserves a region, then serves. -/
theorem Serves.trans {b₁ : LockFreeBuffer} {slab₁ : ThreadSlab}
    {r : Option Nat × LockFreeBuffer × ThreadSlab}
    (h : b.Serves owner slab size (none, b₁, slab₁)) (h' : b₁.Serves owner slab₁ size r) :
    b.Serves owner slab size r := by
  refine ⟨h'.buffer.trans h.buffer, h'.capacity.trans h.capacity,
    h'.generation.trans h.generation, h'.ok, h'.owned, fun x hx => h.free x (h'.free x hx),
    fun p hp => ?_⟩
  obtain ⟨hne, o, rfl, hcap, hx⟩ := h'.served p hp
  refine ⟨h.buffer ▸ hne, o, congrArg (· + o) h.buffer, h.capacity ▸ hcap, fun x h1 h2 => ?_⟩
  exact ⟨h.free x (hx x h1 h2).1, (hx x h1 h2).2⟩

/-- Reserving a region behind the offset makes it the slab. -/
theorem serves_setRegion (hb : b.Ok) {start fin : Nat} (h1 : b.offset ≤ start)
    (h2 : start ≤ fin) (h3 : fin ≤ b.capacity) :
    b.Serves owner slab size (none, { b with offset := fin },
      slab.setRegion owner b.buffer start fin b.generation) := by
  refine ⟨rfl, rfl, rfl, ⟨h3, hb.capacity⟩, fun _ => ⟨rfl, h2, Nat.le_refl _⟩, fun x hx => ?_,
    fun _ h => nomatch h⟩
  rcases hx with ⟨hx1, hx2⟩ | ⟨_, hx1, hx2⟩
  · have hx1' : fin ≤ x := hx1
    exact Or.inl ⟨by omega, hx2⟩
  · have hx1' : start ≤ x := hx1
    have hx2' : x < fin := hx2
    exact Or.inl ⟨by omega, by omega⟩

/-- Serving from a slab that is the buffer's own. -/
theorem serves_tryAlloc_slab (hb : b.Ok) (ho : b.Owned owner slab)
    (hm : slab.Matches owner b.generation) (hs : size ≤ maxLockfreeAllocation) (ha : 0 < align)
    (ha' : align ≤ 2 ^ 63) :
    b.Serves owner slab size
      ((slab.tryAlloc size align).1, b, (slab.tryAlloc size align).2) := by
  obtain ⟨_, h1, h2⟩ := ho hm
  have hf : slab.fin ≤ lockfreeBufferSize := h2.trans (hb.offset.trans hb.capacity)
  rcases slab.tryAlloc_cases h1 hf hs ha ha' with h | ⟨o, ho1, ho2, _, h⟩
  · rw [h]
    exact serves_none hb ho fun _ hx => hx
  · rw [h]
    exact serves_slab hb ho hm ho1 ho2

/-- The slab path of a call. -/
theorem serves_tryThreadSlab (hb : b.Ok) (ho : b.Owned owner slab)
    (hs : size ≤ maxLockfreeAllocation) (ha : 0 < align) (ha' : align ≤ 2 ^ 63) :
    b.Serves owner slab size ((b.tryThreadSlab owner slab size align).1, b,
      (b.tryThreadSlab owner slab size align).2) := by
  unfold tryThreadSlab
  split
  · rename_i hm
    exact serves_tryAlloc_slab hb ho hm hs ha ha'
  · refine serves_none hb (fun h => absurd h (slab.not_matches_invalidate _ _)) fun x hx => ?_
    exact hx.imp id fun h => absurd h.1 (slab.not_matches_invalidate _ _)

/-- The bounds of the region a refill reserves; none of its sums wraps. -/
theorem refill_bounds (hb : b.Ok) (hs : size ≤ maxLockfreeAllocation) :
    b.offset ≤ alignUp b.offset lockfreeAlignment ∧
      wadd (alignUp b.offset lockfreeAlignment)
          (alignUp (max size slabMinBlock) lockfreeAlignment) =
        alignUp b.offset lockfreeAlignment +
          alignUp (max size slabMinBlock) lockfreeAlignment := by
  obtain ⟨h1, h2⟩ := hb
  unfold lockfreeBufferSize at h2
  unfold maxLockfreeAllocation at hs
  have hm : max size slabMinBlock ≤ 1024 := by
    unfold slabMinBlock
    omega
  have hw : b.offset + lockfreeAlignment ≤ wordMod := by
    unfold lockfreeAlignment wordMod
    omega
  have hw' : max size slabMinBlock + lockfreeAlignment ≤ wordMod := by
    unfold lockfreeAlignment wordMod
    omega
  have hpos : 0 < lockfreeAlignment := by decide
  have h3 := alignUp_lt hpos hw
  have h4 := alignUp_lt hpos hw'
  refine ⟨le_alignUp hpos hw, wadd_eq ?_⟩
  have h5 : lockfreeAlignment = 64 := rfl
  rw [h5] at h3 h4 ⊢
  unfold wordMod
  omega

/-- The refill path of a call. -/
theorem serves_refill (hb : b.Ok) (ho : b.Owned owner slab) (hs : size ≤ maxLockfreeAllocation)
    (ha : 0 < align) (ha' : align ≤ 2 ^ 63) :
    b.Serves owner slab size (b.refillThreadSlabAndAlloc owner slab size align) := by
  obtain ⟨h1, e⟩ := refill_bounds hb hs
  have h2 := Nat.le.intro e.symm
  unfold refillThreadSlabAndAlloc
  dsimp only
  -- from here on only `b.offset ≤ start ≤ fin` matters, not how the words were computed
  generalize wadd (alignUp b.offset lockfreeAlignment)
    (alignUp (max size slabMinBlock) lockfreeAlignment) = fin at h2
  generalize alignUp b.offset lockfreeAlignment = start at h1 h2
  split
  · exact serves_none hb ho fun _ hx => hx
  · rename_i hne
    split
    · exact (serves_none hb ho fun _ hx => hx).stats _
    · rename_i hcap
      have h : b.Serves owner slab size _ := serves_setRegion hb h1 h2 (Nat.not_lt.mp hcap)
      exact (h.trans (serves_tryAlloc_slab h.ok h.owned ⟨rfl, rfl, hne⟩ hs ha ha')).stats _

/-- **A call of `try_alloc`** whose slab, if it matches, is the buffer's own region. -/
theorem tryAlloc_spec (hb : b.Ok) (ho : b.Owned owner slab) (ha : 0 < align)
    (ha' : align ≤ 2 ^ 63) : b.Serves owner slab size (b.tryAlloc owner slab size align) := by
  unfold tryAlloc
  split
  · exact (serves_none hb ho fun _ hx => hx).stats _
  · rename_i hs
    have h := serves_tryThreadSlab hb ho (Nat.not_lt.mp hs) ha ha'
    split
    · rename_i e
      rw [e] at h
      exact h.stats _
    · rename_i slab₁ e
      rw [e] at h
      have h' := h.trans (serves_refill h.ok h.owned (Nat.not_lt.mp hs) ha ha')
      split
      · rename_i e'
        rw [e'] at h'
        exact h'.stats _
      · rename_i e'
        rw [e'] at h'
        exact h'.stats _

end Spec

end LockFreeBuffer

end ArenaB
