/-
  File:      ArenaB/LockFree/Calls.lean
  Subject:   What single calls of `LockFreeBuffer` and `ThreadSlab` (src/lockfree.rs) compute and
             leave behind.

  * `bump_exact_iff` -- the two functions that bump an offset add without a check. They keep to
    exact arithmetic except where the sum passes the word size and what is left of it passes the
    limit (`Wraps`);
  * `Way`, `Goes` -- the six ways through `try_alloc`, with what each leaves; every call goes one of
    them (`tryAlloc_goes`);
  * **`failure_keeps_iff`** -- a call that returns nothing takes nothing from the buffer, unless it
    has reserved a region that its alignment does not fit (`Wastes`);
  * `bufferCalls` -- the runs of whole calls on one buffer. A call is given whatever slab the
    calling thread has then, so these are the runs of any threads on any buffers, seen from one of
    them.
-/
import ArenaB.Base.System
import ArenaB.LockFree.Buffer

namespace ArenaB

open Base

/-! ## 1. The bump in exact arithmetic -/

/-- The end of the aligned request passes the word size, and what is left of it is within the
    limit. -/
def Wraps (offset limit size align : Nat) : Prop :=
  wordMod ≤ roundUp offset align + size ∧ (roundUp offset align + size) % wordMod ≤ limit

section Bump

variable {offset limit size align k : Nat}

/-- The word both functions compare with their limit. -/
theorem newOffset_eq (hk : align = 2 ^ k) (ha : align < wordMod) (ho : offset < wordMod) :
    wadd (alignUp offset align) size = (roundUp offset align + size) % wordMod := by
  rw [alignUp_eq_mod hk (Nat.le_of_lt ha) ho, wadd, Nat.mod_add_mod]

/-- **The comparison is exact** unless the sum wraps below the limit; `served` and `after` are what
    a function makes of the comparison. -/
theorem bump_iff (ha : 0 < align) (hl : limit < wordMod) {served : Prop} {after : Nat}
    (hpass : (roundUp offset align + size) % wordMod ≤ limit →
      served ∧ after = (roundUp offset align + size) % wordMod)
    (hfail : limit < (roundUp offset align + size) % wordMod → ¬ served ∧ after = offset) :
    ((served → roundUp offset align + size ≤ limit) ∧ offset ≤ after) ↔
      ¬ Wraps offset limit size align := by
  have hle := (isLeast_roundUp ha offset).1.2
  constructor
  · rintro ⟨h, _⟩ ⟨hbig, hle'⟩
    have := h (hpass hle').1
    omega
  · intro h
    by_cases hc : (roundUp offset align + size) % wordMod ≤ limit
    · have hlt : roundUp offset align + size < wordMod := Nat.not_le.mp fun hbig => h ⟨hbig, hc⟩
      obtain ⟨_, hafter⟩ := hpass hc
      rw [Nat.mod_eq_of_lt hlt] at hc hafter
      exact ⟨fun _ => hc, by omega⟩
    · obtain ⟨hnone, rfl⟩ := hfail (Nat.not_le.mp hc)
      exact ⟨fun h => absurd h hnone, Nat.le_refl _⟩

end Bump

/-- **The bump arithmetic of the lock-free helpers**: for every offset within the limit, every size
    and every power of two, `ThreadSlab::try_alloc` and `LockFreeBuffer::allocate` return a pointer
    only if the request fits as exact integers, and never lower the offset, exactly if the sum does
    not wrap to a value within the limit. -/
theorem bump_exact_iff (size : Nat) {align k : Nat} (hk : align = 2 ^ k) (ha : align < wordMod) :
    (∀ s : ThreadSlab, s.offset ≤ s.fin → s.fin < wordMod →
      ((((s.tryAlloc size align).1.isSome → roundUp s.offset align + size ≤ s.fin) ∧
        s.offset ≤ (s.tryAlloc size align).2.offset) ↔
      (s.base ≠ 0 → ¬ Wraps s.offset s.fin size align))) ∧
    ∀ b : LockFreeBuffer, b.offset ≤ b.capacity → b.capacity < wordMod →
      ((((b.allocate size align).1.isSome → roundUp b.offset align + size ≤ b.capacity) ∧
        b.offset ≤ (b.allocate size align).2.offset) ↔
      ¬ Wraps b.offset b.capacity size align) := by
  have hpos : 0 < align := by subst hk; exact Nat.two_pow_pos k
  refine ⟨fun s ho hl => ?_, fun b ho hl => ?_⟩
  · have hnew : wadd (alignUp s.offset align) size = _ :=
      newOffset_eq hk ha (Nat.lt_of_le_of_lt ho hl)
    by_cases hb : s.base = 0
    · simp [ThreadSlab.tryAlloc, hb]
    · simp only [ThreadSlab.tryAlloc, if_neg hb, hnew]
      refine (bump_iff hpos hl (fun h => ?_) fun h => ?_).trans ⟨fun h _ => h, fun h => h hb⟩
      · simp [h]
      · simp [Nat.not_le.mpr h]
  · have hnew : wadd (alignUp b.offset align) size = _ :=
      newOffset_eq hk ha (Nat.lt_of_le_of_lt ho hl)
    simp only [LockFreeBuffer.allocate, hnew]
    refine bump_iff hpos hl (fun h => ?_) fun h => ?_
    · simp [h]
    · simp [Nat.not_le.mpr h]

/-- A slab that serves nothing stays as it is. -/
theorem ThreadSlab.eq_of_tryAlloc_none {s s' : ThreadSlab} {size align : Nat}
    (e : s.tryAlloc size align = (none, s')) : s' = s := by
  unfold tryAlloc at e
  split at e
  · cases e
    rfl
  dsimp only at e
  split at e <;> cases e
  rfl

theorem ThreadSlab.tryAlloc_eq_none {s : ThreadSlab} {size align : Nat} (hb : s.base ≠ 0) :
    (s.tryAlloc size align).1 = none ↔ s.fin < wadd (alignUp s.offset align) size := by
  unfold tryAlloc
  rw [if_neg hb]
  dsimp only
  split
  · rename_i hle
    exact ⟨(fun h => by cases h), fun h => absurd hle (Nat.not_le.mpr h)⟩
  · rename_i hle
    exact ⟨fun _ => Nat.not_le.mp hle, fun _ => rfl⟩

/-- A slab of 256 bytes and a buffer of 4096, each with 16 bytes in use. -/
def ThreadSlab.started : ThreadSlab := ((new.setRegion 64 8192 0 256 0).tryAlloc 16 8).2

def LockFreeBuffer.started : LockFreeBuffer := ((new (some 8192)).allocate 16 8).2

/-- A request that fits, and the largest one, which does not and is refused. -/
theorem bump_exact_started :
    (ThreadSlab.started.offset = 16 ∧ (ThreadSlab.started.tryAlloc 240 8).1 = some 8208 ∧
      ThreadSlab.started.offset ≤ (ThreadSlab.started.tryAlloc 240 8).2.offset) ∧
    (LockFreeBuffer.started.allocate (2 ^ 62) 64).1 = none ∧
      LockFreeBuffer.started.offset ≤ (LockFreeBuffer.started.allocate (2 ^ 62) 64).2.offset := by
  have h1 := (bump_exact_iff 240 (k := 3) rfl (by decide)).1 ThreadSlab.started (by decide)
    (by decide)
  have h2 := (bump_exact_iff (2 ^ 62) (k := 6) rfl (by decide)).2 LockFreeBuffer.started (by decide)
    (by decide)
  exact ⟨⟨by decide, by decide, (h1.mpr fun _ h => absurd h.1 (by decide)).2⟩, by decide,
    (h2.mpr fun h => absurd h.1 (by decide)).2⟩

/-- **A wrapped sum passes the check**: a request of `2 ^ 64 - 8` bytes is served at offset 16, and
    the offset goes back to 8, below what is in use. -/
theorem bump_wraps :
    ThreadSlab.started.tryAlloc (2 ^ 64 - 8) 8 =
      (some (8192 + 16), { ThreadSlab.started with offset := 8 }) ∧
    LockFreeBuffer.started.allocate (2 ^ 64 - 8) 8 =
      (some (8192 + 16), { LockFreeBuffer.started with offset := 8 }) ∧
    ThreadSlab.started.offset = 16 ∧ LockFreeBuffer.started.offset = 16 ∧
    256 < roundUp 16 8 + (2 ^ 64 - 8) := by
  decide

/-! ## 2. The ways through `try_alloc` -/

/-- Which way a call of `try_alloc` goes. -/
inductive Way where
  /-- Larger than `MAX_LOCKFREE_ALLOCATION`. -/
  | oversize
  | slab
  /-- The buffer has no block. -/
  | unbacked
  /-- No room for another region. -/
  | exhausted
  /-- A region is reserved, and the request does not fit into it. -/
  | wasted
  | refill
  deriving DecidableEq, Repr

namespace Way

/-- The call returns a pointer. -/
def served : Way → Bool
  | .slab => true
  | .refill => true
  | _ => false

/-- What the call records, in the order of the source. -/
def record : Way → LockFreeStats → LockFreeStats
  | .oversize, s => s.recordAllocation.recordCacheMiss
  | .slab, s => s.recordAllocation.recordCacheHit
  | .unbacked, s => s.recordCacheMiss
  | .exhausted, s => s.recordCacheMiss.recordCacheMiss
  | .wasted, s => s.recordAllocation.recordCacheMiss
  | .refill, s => s.recordAllocation.recordAllocation.recordCacheHit

end Way

namespace LockFreeBuffer

/-- The start of the region a refill reserves. -/
def regionStart (b : LockFreeBuffer) : Nat := alignUp b.offset lockfreeAlignment

/-- Its end. -/
def regionEnd (b : LockFreeBuffer) (size : Nat) : Nat :=
  wadd b.regionStart (alignUp (max size slabMinBlock) lockfreeAlignment)

/-- The slab on that region. -/
def region (b : LockFreeBuffer) (owner size : Nat) : ThreadSlab :=
  ⟨owner, b.buffer, b.regionStart, b.regionEnd size, b.regionStart, b.generation⟩

/-- The way a call goes. -/
def way (b : LockFreeBuffer) (owner : Nat) (slab : ThreadSlab) (size align : Nat) : Way :=
  if size > maxLockfreeAllocation then .oversize
  else if (b.tryThreadSlab owner slab size align).1.isSome then .slab
  else if b.buffer = 0 then .unbacked
  else if b.regionEnd size > b.capacity then .exhausted
  else if ((b.region owner size).tryAlloc size align).1.isSome then .refill
  else .wasted

/-- **What a call does on each way.** -/
inductive Goes (b : LockFreeBuffer) (owner : Nat) (slab : ThreadSlab) (size align : Nat) :
    Way → Option Nat × LockFreeBuffer × ThreadSlab → Prop where
  | oversize : maxLockfreeAllocation < size →
      Goes b owner slab size align .oversize
        (none, { b with stats := Way.oversize.record b.stats }, slab)
  | slab {p : Nat} {slab' : ThreadSlab} : size ≤ maxLockfreeAllocation →
      b.tryThreadSlab owner slab size align = (some p, slab') →
      Goes b owner slab size align .slab
        (some p, { b with stats := Way.slab.record b.stats }, slab')
  | unbacked {slab' : ThreadSlab} : size ≤ maxLockfreeAllocation →
      b.tryThreadSlab owner slab size align = (none, slab') → b.buffer = 0 →
      Goes b owner slab size align .unbacked
        (none, { b with stats := Way.unbacked.record b.stats }, slab')
  | exhausted {slab' : ThreadSlab} : size ≤ maxLockfreeAllocation →
      b.tryThreadSlab owner slab size align = (none, slab') → b.capacity < b.regionEnd size →
      Goes b owner slab size align .exhausted
        (none, { b with stats := Way.exhausted.record b.stats }, slab')
  | wasted {slab' : ThreadSlab} : size ≤ maxLockfreeAllocation → b.buffer ≠ 0 →
      b.regionEnd size ≤ b.capacity →
      (b.region owner size).tryAlloc size align = (none, slab') →
      Goes b owner slab size align .wasted
        (none, { b with offset := b.regionEnd size, stats := Way.wasted.record b.stats }, slab')
  | refill {p : Nat} {slab' : ThreadSlab} : size ≤ maxLockfreeAllocation →
      b.regionEnd size ≤ b.capacity →
      (b.region owner size).tryAlloc size align = (some p, slab') →
      Goes b owner slab size align .refill
        (some p, { b with offset := b.regionEnd size, stats := Way.refill.record b.stats }, slab')

section Goes

variable {b : LockFreeBuffer} {owner size align : Nat} {slab : ThreadSlab}

/-- **Every call goes one of these ways.** -/
theorem tryAlloc_goes (b : LockFreeBuffer) (owner : Nat) (slab : ThreadSlab) (size align : Nat) :
    Goes b owner slab size align (b.way owner slab size align)
      (b.tryAlloc owner slab size align) := by
  unfold way tryAlloc
  by_cases hs : size > maxLockfreeAllocation
  · rw [if_pos hs, if_pos hs]
    exact .oversize hs
  rw [if_neg hs, if_neg hs]
  replace hs := Nat.not_lt.mp hs
  cases hslab : b.tryThreadSlab owner slab size align with
  | mk p slab₁ =>
  cases p with
  | some p => exact .slab hs hslab
  | none =>
  have hnone : ¬ ((none : Option Nat), slab₁).1.isSome = true := by simp
  have hrefill : b.refillThreadSlabAndAlloc owner slab₁ size align =
      if b.buffer = 0 then (none, b, slab₁)
      else if b.regionEnd size > b.capacity then
        (none, { b with stats := b.stats.recordCacheMiss }, slab₁)
      else (((b.region owner size).tryAlloc size align).1,
        { b with offset := b.regionEnd size, stats := b.stats.recordAllocation },
        ((b.region owner size).tryAlloc size align).2) := rfl
  rw [if_neg hnone]
  dsimp only
  rw [hrefill]
  by_cases hb : b.buffer = 0
  · rw [if_pos hb, if_pos hb]
    exact .unbacked hs hslab hb
  rw [if_neg hb, if_neg hb]
  by_cases hend : b.regionEnd size > b.capacity
  · rw [if_pos hend, if_pos hend]
    exact .exhausted hs hslab hend
  rw [if_neg hend, if_neg hend]
  replace hend := Nat.not_lt.mp hend
  cases hreg : (b.region owner size).tryAlloc size align with
  | mk q slab₂ =>
  cases q with
  | some q => exact .refill hs hend hreg
  | none => exact .wasted hs hb hend hreg

end Goes

/-! ## 3. What a failed call leaves -/

/-- The call reserves a region, in exact arithmetic, and its aligned request ends behind it. -/
def Wastes (b : LockFreeBuffer) (size align : Nat) : Prop :=
  let start := roundUp b.offset lockfreeAlignment
  let fin := start + roundUp (max size slabMinBlock) lockfreeAlignment
  b.buffer ≠ 0 ∧ fin ≤ b.capacity ∧ fin < roundUp start align + size

instance (b : LockFreeBuffer) (size align : Nat) : Decidable (b.Wastes size align) :=
  inferInstanceAs (Decidable (_ ∧ _ ∧ _))

section Failure

variable {b : LockFreeBuffer} {owner size align k : Nat} {slab : ThreadSlab} {w : Way}
  {r : Option Nat × LockFreeBuffer × ThreadSlab}

/-- The region of a refill in exact arithmetic. -/
theorem region_exact (hb : b.Ok) (hs : size ≤ maxLockfreeAllocation) :
    b.regionStart = roundUp b.offset lockfreeAlignment ∧ b.regionEnd size =
      roundUp b.offset lockfreeAlignment + roundUp (max size slabMinBlock) lockfreeAlignment := by
  obtain ⟨_, hsum⟩ := refill_bounds hb hs
  obtain ⟨h1, h2⟩ := hb
  have hoff : b.offset + lockfreeAlignment ≤ wordMod := by
    unfold lockfreeBufferSize at h2
    unfold lockfreeAlignment wordMod
    omega
  have hmax : max size slabMinBlock + lockfreeAlignment ≤ wordMod := by
    unfold maxLockfreeAllocation at hs
    unfold slabMinBlock lockfreeAlignment wordMod
    omega
  have hk : lockfreeAlignment = 2 ^ 6 := rfl
  have e1 := alignUp_eq_roundUp hk hoff
  have e2 := alignUp_eq_roundUp hk hmax
  rw [e1, e2] at hsum
  refine ⟨e1, ?_⟩
  rw [regionEnd, regionStart, e1, e2]
  exact hsum

/-- A call keeps the offset within the capacity, whatever the slab. -/
theorem Goes.ok (h : Goes b owner slab size align w r) (hb : b.Ok) : r.2.1.Ok := by
  cases h with
  | oversize _ => exact ⟨hb.offset, hb.capacity⟩
  | slab _ _ => exact ⟨hb.offset, hb.capacity⟩
  | unbacked _ _ _ => exact ⟨hb.offset, hb.capacity⟩
  | exhausted _ _ _ => exact ⟨hb.offset, hb.capacity⟩
  | wasted _ _ hend _ => exact ⟨hend, hb.capacity⟩
  | refill _ hend _ => exact ⟨hend, hb.capacity⟩

theorem Goes.returns (h : Goes b owner slab size align w r) : r.1.isSome = w.served := by
  cases h <;> rfl

theorem Goes.stats (h : Goes b owner slab size align w r) : r.2.1.stats = w.record b.stats := by
  cases h <;> rfl

/-- The slab path, where it fails, leaves a matching slab alone. -/
theorem tryThreadSlab_none {slab' : ThreadSlab}
    (e : b.tryThreadSlab owner slab size align = (none, slab'))
    (hm : slab.Matches owner b.generation) : slab' = slab := by
  rw [tryThreadSlab, if_pos hm] at e
  exact ThreadSlab.eq_of_tryAlloc_none e

/-- A region that is reserved and does not serve is wasted. -/
theorem region_none_iff (hb : b.Ok) (hs : size ≤ maxLockfreeAllocation) (hk : align = 2 ^ k)
    (ha : align ≤ 2 ^ 63) (hne : b.buffer ≠ 0) (hend : b.regionEnd size ≤ b.capacity) :
    ((b.region owner size).tryAlloc size align).1 = none ↔ b.Wastes size align := by
  have hpos : 0 < align := by subst hk; exact Nat.two_pow_pos k
  obtain ⟨hstart, hfin⟩ := region_exact hb hs
  have hcap := hb.capacity
  unfold lockfreeBufferSize at hcap
  unfold maxLockfreeAllocation at hs
  have hsum : b.regionStart + align ≤ wordMod := by
    unfold wordMod
    omega
  have hup := alignUp_eq_roundUp hk hsum
  have hlt := roundUp_lt hpos b.regionStart
  have hnew : wadd (alignUp b.regionStart align) size = roundUp b.regionStart align + size := by
    rw [hup]
    refine wadd_eq ?_
    unfold wordMod
    omega
  have hiff : ((b.region owner size).tryAlloc size align).1 = none ↔
      b.regionEnd size < wadd (alignUp b.regionStart align) size :=
    ThreadSlab.tryAlloc_eq_none hne
  rw [hiff, hnew, hstart, hfin]
  rw [hfin] at hend
  exact ⟨fun h => ⟨hne, hend, h⟩, fun h => h.2.2⟩

/-- Up to the alignment of the regions nothing is wasted. -/
theorem not_wastes (b : LockFreeBuffer) (size : Nat) {k : Nat} (hk : k ≤ 6) :
    ¬ b.Wastes size (2 ^ k) := by
  rintro ⟨_, _, hlt⟩
  have hdvd : 2 ^ k ∣ roundUp b.offset lockfreeAlignment :=
    (Nat.pow_dvd_pow 2 hk).trans (isLeast_roundUp (by decide) b.offset).1.1
  have hstart := (isLeast_roundUp (Nat.two_pow_pos k) (roundUp b.offset lockfreeAlignment)).2
    ⟨hdvd, Nat.le_refl _⟩
  have hsize := (isLeast_roundUp (a := lockfreeAlignment) (by decide) (max size slabMinBlock)).1.2
  omega

end Failure

end LockFreeBuffer

/-! ## 4. Runs of whole calls -/

/-- A call on the buffer, by a thread with the given slab; `owner` is the address of the struct. -/
inductive BufferCall where
  | tryAlloc (owner : Nat) (slab : ThreadSlab) (size align : Nat)
  | reset (slab : ThreadSlab) (mem : Mem)

/-- One call. -/
def LockFreeBuffer.exec (b : LockFreeBuffer) : BufferCall → LockFreeBuffer
  | .tryAlloc owner slab size align => (b.tryAlloc owner slab size align).2.1
  | .reset slab mem => (b.reset slab mem).1

/-- The runs of a new buffer. -/
def bufferCalls : System LockFreeBuffer BufferCall where
  init b := ∃ sys, b = .new sys
  ok _ _ := True
  step b c := some (b.exec c)

instance (b : LockFreeBuffer) (c : BufferCall) : Decidable (bufferCalls.ok b c) := isTrue trivial

theorem bufferCalls_ok {b : LockFreeBuffer} (h : bufferCalls.Reach b) : b.Ok := by
  refine h.inv (P := LockFreeBuffer.Ok) (fun b hb => ?_) fun b c b' hb _ e => ?_
  · obtain ⟨sys, rfl⟩ := hb
    exact LockFreeBuffer.ok_new sys
  · cases e
    cases c with
    | tryAlloc owner slab size align => exact (b.tryAlloc_goes owner slab size align).ok hb
    | reset slab mem => exact hb.reset slab mem

/-- **A failed call takes nothing**, exactly if it has not reserved a region in vain: offset of the
    buffer and slab, if it matched, are as before. Up to an alignment of 64 this is always so. -/
theorem failure_keeps_iff {b : LockFreeBuffer} (h : bufferCalls.Reach b) (owner : Nat)
    (slab : ThreadSlab) {size k : Nat} (hs : size ≤ maxLockfreeAllocation) (hk : k < 64)
    (hnone : (b.tryAlloc owner slab size (2 ^ k)).1 = none) :
    (((b.tryAlloc owner slab size (2 ^ k)).2.1.offset = b.offset ∧
      (slab.Matches owner b.generation → (b.tryAlloc owner slab size (2 ^ k)).2.2 = slab)) ↔
      ¬ b.Wastes size (2 ^ k)) ∧ (k ≤ 6 → ¬ b.Wastes size (2 ^ k)) := by
  refine ⟨?_, b.not_wastes size⟩
  have hb := bufferCalls_ok h
  have ha : 2 ^ k ≤ 2 ^ 63 := Nat.pow_le_pow_right (by decide) (by omega)
  obtain ⟨_, hfin⟩ := LockFreeBuffer.region_exact hb hs
  have hg := b.tryAlloc_goes owner slab size (2 ^ k)
  generalize b.tryAlloc owner slab size (2 ^ k) = r at hg hnone
  generalize b.way owner slab size (2 ^ k) = w at hg
  cases hg with
  | oversize hbig => exact absurd hs (Nat.not_le.mpr hbig)
  | slab _ _ => cases hnone
  | refill _ _ _ => cases hnone
  | unbacked _ e h0 =>
      exact ⟨fun _ hw => hw.1 h0, fun _ => ⟨rfl, LockFreeBuffer.tryThreadSlab_none e⟩⟩
  | exhausted _ e hend =>
      rw [hfin] at hend
      exact ⟨fun _ hw => absurd hw.2.1 (Nat.not_le.mpr hend),
        fun _ => ⟨rfl, LockFreeBuffer.tryThreadSlab_none e⟩⟩
  | wasted _ hne hend e =>
      have hw : b.Wastes size (2 ^ k) :=
        (LockFreeBuffer.region_none_iff hb hs rfl ha hne hend).mp (congrArg Prod.fst e)
      refine ⟨fun hsame => ?_, fun hn => absurd hw hn⟩
      -- the offset has moved behind the region
      have hoff : b.regionEnd size = b.offset := hsame.1
      have h1 := (isLeast_roundUp (a := lockfreeAlignment) (by decide) b.offset).1.2
      have h2 := (isLeast_roundUp (a := lockfreeAlignment) (by decide) (max size slabMinBlock)).1.2
      have h3 : 0 < slabMinBlock := by decide
      omega

/-- Four calls have used the buffer up; the thread of the fourth, whose slab is full, asks again. -/
theorem failure_keeps_used_up : ∃ b slab, bufferCalls.Reach b ∧ slab.Matches 64 b.generation ∧
    (b.offset = 4096 ∧ b.buffer = 8192) ∧ (b.tryAlloc 64 slab 8 (2 ^ 3)).1 = none ∧
    (b.tryAlloc 64 slab 8 (2 ^ 3)).2.1.offset = b.offset ∧
    (b.tryAlloc 64 slab 8 (2 ^ 3)).2.2 = slab := by
  obtain ⟨b, hr, hm, hb, hnone⟩ := System.exists_reach_of_replay bufferCalls
    (List.replicate 4 (.tryAlloc 64 .new 1024 8)) (s := .new (some 8192))
    (P := fun b => (⟨64, 8192, 3072, 4096, 4096, 0⟩ : ThreadSlab).Matches 64 b.generation ∧
      (b.offset = 4096 ∧ b.buffer = 8192) ∧
      (b.tryAlloc 64 ⟨64, 8192, 3072, 4096, 4096, 0⟩ 8 (2 ^ 3)).1 = none)
    ⟨_, rfl⟩ (by decide)
  obtain ⟨hiff, hfine⟩ := failure_keeps_iff hr 64 _ (k := 3) (by decide) (by decide) hnone
  obtain ⟨hoff, hslab⟩ := hiff.mpr (hfine (by decide))
  exact ⟨b, _, hr, hm, hb, hnone, hoff, hslab hm⟩

/-- **Failed calls drain the buffer**: a new buffer, one call of 8 bytes, then calls of 1024 bytes
    at alignment 1024. Each of them returns nothing, takes 1024 bytes and replaces the slab. -/
theorem failure_drains : ∃ b slab, bufferCalls.Reach b ∧ slab.Matches 64 b.generation ∧
    b.offset = 256 ∧
    let r := b.tryAlloc 64 slab 1024 1024
    let r' := r.2.1.tryAlloc 64 r.2.2 1024 1024
    r.1 = none ∧ r.2.1.offset = 1280 ∧ r.2.2 ≠ slab ∧ r'.1 = none ∧ r'.2.1.offset = 2304 := by
  refine ⟨((LockFreeBuffer.new (some 8192)).tryAlloc 64 .new 8 8).2.1,
    ((LockFreeBuffer.new (some 8192)).tryAlloc 64 .new 8 8).2.2, ?_, by decide⟩
  exact .step (.tryAlloc 64 .new 8 8) (.init ⟨_, rfl⟩) trivial rfl

end ArenaB
