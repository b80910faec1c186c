/-
  File:      ArenaB/LockFree/Refills.lean
  Subject:   How long `LockFreeBuffer::try_alloc` and `reset` (src/lockfree.rs) can take among
             others.

  The refill loop goes round again whenever `offset` has changed between its load and its exchange.
  Another refill moves `offset` up by a block of at least 256 bytes, and a reset moves it back to 0;
  so between two resets it is moved sixteen times at most, and a thread goes round at most that
  often, whatever the others do. No condition on the interleaving is needed: these bounds also hold
  in the runs in which regions are handed out twice.

  * `works`, `begins`, `refills`, `resets` -- what a step counts for;
  * `BufPc.Fits` -- the block of an exchange lies between the loaded offset and the capacity;
  * `BufPc.Moves` -- what one step of a thread does to its place and the offset (`run_moves`);
  * **`buffer_wait_free`**.
-/
import ArenaB.Base.Potential
import ArenaB.LockFree.Race

namespace ArenaB

open Base

/-! ## 1. What is counted -/

namespace BufPc

/-- The thread is in a call. -/
def busy : BufPc → Bool
  | .idle => false
  | _ => true

/-- The exchange at this place finds the offset it expects. -/
def wins (offset : Nat) : BufPc → Bool
  | .exchange current _ _ _ _ => decide (offset = current)
  | _ => false

end BufPc

namespace AtomicBuffer

/-- Thread `t` makes a step of its call. -/
def works (t : Nat) (s : AtomicBuffer) : RaceStep → Nat
  | .run i => if i = t then (s.threads[t]?.any fun th => th.pc.busy).toNat else 0
  | _ => 0

/-- Thread `t` begins a call. -/
def begins (t : Nat) (_ : AtomicBuffer) : RaceStep → Nat
  | .tryAlloc i _ _ => if i = t then 1 else 0
  | .reset i => if i = t then 1 else 0
  | .run _ => 0

/-- A refill reserves its block. -/
def refills (s : AtomicBuffer) : RaceStep → Nat
  | .run i => (s.threads[i]?.any fun th => th.pc.wins s.buf.offset).toNat
  | _ => 0

/-- A reset begins: it stores offset 0. -/
def resets (_ : AtomicBuffer) : RaceStep → Nat
  | .reset _ => 1
  | _ => 0

end AtomicBuffer

/-! ## 2. One thread -/

namespace BufPc

/-- The steps a thread at the given place still needs on its own. An offset that is no longer the
    one loaded costs the way back to the load. -/
def cost (offset : Nat) : BufPc → Nat
  | .idle => 0
  | .refill _ _ => 4
  | .load _ _ => 3
  | .exchange current _ _ _ _ => if offset = current then 2 else 4
  | .tag _ _ _ _ => 1
  | .bump => 3
  | .opened _ => 2
  | .zero _ => 1

/-- The sizes that reach the refill, and where the block of an exchange lies. -/
def Fits (capacity : Nat) : BufPc → Prop
  | .refill size _ => size ≤ maxLockfreeAllocation
  | .load size _ => size ≤ maxLockfreeAllocation
  | .exchange current _ fin size _ =>
      size ≤ maxLockfreeAllocation ∧ current + slabMinBlock ≤ fin ∧ fin ≤ capacity
  | _ => True

theorem cost_le (offset : Nat) (pc : BufPc) : pc.cost offset ≤ 4 := by
  cases pc <;> simp only [cost] <;> first | omega | (split <;> omega)

/-- A move of the offset sends a thread at most once round its loop. -/
theorem cost_move (pc : BufPc) {offset offset' n : Nat} (h : offset' = offset ∨ 1 ≤ n) :
    pc.cost offset' ≤ pc.cost offset + 2 * n := by
  rcases h with rfl | h
  · exact Nat.le_add_right _ _
  · cases pc <;> simp only [cost] <;> first | omega | (split <;> split <;> omega)

/-- What one step of a thread does to its place and the buffer. -/
structure Moves (b b' : LockFreeBuffer) (pc pc' : BufPc) : Prop where
  capacity : b'.capacity = b.capacity
  pays : pc.busy.toNat + pc'.cost b'.offset ≤ pc.cost b.offset
  offset : b'.offset = b.offset ∧ pc.wins b.offset = false ∨
    pc.wins b.offset = true ∧ b.offset + slabMinBlock ≤ b'.offset ∧ b'.offset ≤ b.capacity
  fits : pc'.Fits b.capacity

/-- A step that leaves the offset alone. -/
theorem Moves.stay {b b' : LockFreeBuffer} {pc pc' : BufPc} (hc : b'.capacity = b.capacity)
    (ho : b'.offset = b.offset) (hw : pc.wins b.offset = false)
    (hp : pc.busy.toNat + pc'.cost b.offset ≤ pc.cost b.offset) (hf : pc'.Fits b.capacity) :
    Moves b b' pc pc' :=
  ⟨hc, ho ▸ hp, Or.inl ⟨ho, hw⟩, hf⟩

end BufPc

namespace AtomicBuffer

variable {s s' : AtomicBuffer} {t : Nat} {slab : ThreadSlab} {pc : BufPc} {l : RaceStep}

/-- The bounds of the buffer, and every thread's. -/
structure Fits (s : AtomicBuffer) : Prop where
  offset : s.buf.offset ≤ s.buf.capacity
  capacity : s.buf.capacity = lockfreeBufferSize
  threads : ∀ th ∈ s.threads, th.pc.Fits s.buf.capacity

theorem Fits.ok (h : s.Fits) : s.buf.Ok := ⟨h.offset, Nat.le_of_eq h.capacity⟩

/-- The block of a refill is at least the smallest one. -/
theorem Fits.block (h : s.Fits) {size : Nat} (hs : size ≤ maxLockfreeAllocation) :
    s.buf.offset + slabMinBlock ≤ wadd (alignUp s.buf.offset lockfreeAlignment)
      (alignUp (max size slabMinBlock) lockfreeAlignment) := by
  obtain ⟨h₁, e⟩ := LockFreeBuffer.refill_bounds h.ok hs
  have hw : max size slabMinBlock + lockfreeAlignment ≤ wordMod := by
    unfold maxLockfreeAllocation at hs
    unfold slabMinBlock lockfreeAlignment wordMod
    omega
  have h₂ := le_alignUp (by decide) hw
  rw [e]
  omega

/-- **One step of a thread**, place by place. -/
theorem run_moves (h : s.Fits) (ht : s.threads[t]? = some ⟨slab, pc⟩) :
    ∃ slab' pc', (s.run t slab pc).threads = s.threads.set t ⟨slab', pc'⟩ ∧
      BufPc.Moves s.buf (s.run t slab pc).buf pc pc' := by
  have hpc : pc.Fits s.buf.capacity := h.threads _ (List.mem_of_getElem? ht)
  cases pc with
  | idle =>
      exact ⟨slab, .idle, (set_self ht).symm, .stay rfl rfl rfl (Nat.le_refl _) trivial⟩
  | refill size align =>
      simp only [run]
      split
      · exact ⟨slab, .idle, rfl, .stay rfl rfl rfl (by simp [BufPc.busy, BufPc.cost]) trivial⟩
      · exact ⟨slab, .load size align, rfl,
          .stay rfl rfl rfl (by simp [BufPc.busy, BufPc.cost]) hpc⟩
  | load size align =>
      simp only [run]
      split
      · exact ⟨slab, .idle, rfl, .stay rfl rfl rfl (by simp [BufPc.busy, BufPc.cost]) trivial⟩
      · rename_i hfin
        refine ⟨slab, _, rfl, .stay rfl rfl rfl ?_ ⟨hpc, h.block hpc, Nat.not_lt.mp hfin⟩⟩
        simp [BufPc.busy, BufPc.cost]
  | exchange current start fin size align =>
      obtain ⟨hs, hlo, hhi⟩ := hpc
      simp only [run]
      split
      · rename_i he
        subst he
        refine ⟨slab, _, rfl, rfl, ?_, Or.inr ⟨decide_eq_true rfl, hlo, hhi⟩, trivial⟩
        simp [BufPc.busy, BufPc.cost]
      · rename_i he
        refine ⟨slab, _, rfl, .stay rfl rfl (decide_eq_false he) ?_ hs⟩
        simp [BufPc.busy, BufPc.cost, he]
  | tag start fin size align =>
      simp only [run]
      split
      · exact ⟨_, .idle, rfl, .stay rfl rfl rfl (by simp [BufPc.busy, BufPc.cost]) trivial⟩
      · exact ⟨_, .idle, rfl, .stay rfl rfl rfl (by simp [BufPc.busy, BufPc.cost]) trivial⟩
  | bump =>
      exact ⟨slab, .opened _, rfl, .stay rfl rfl rfl (by simp [BufPc.busy, BufPc.cost]) trivial⟩
  | opened g =>
      simp only [run]
      split
      · exact ⟨_, .idle, rfl, .stay rfl rfl rfl (by simp [BufPc.busy, BufPc.cost]) trivial⟩
      · exact ⟨slab, .zero g, rfl, .stay rfl rfl rfl (by simp [BufPc.busy, BufPc.cost]) trivial⟩
  | zero g => exact ⟨_, .idle, rfl, .stay rfl rfl rfl (by simp [BufPc.busy, BufPc.cost]) trivial⟩

/-- What a call of `try_alloc` does before its first step on the buffer: it is over, or the refill
    begins. -/
theorem tryAlloc_moves (size align : Nat) (ht : s.threads[t]? = some ⟨slab, .idle⟩) :
    ∃ slab' pc', (s.tryAlloc t slab size align).threads = s.threads.set t ⟨slab', pc'⟩ ∧
      (s.tryAlloc t slab size align).buf.offset = s.buf.offset ∧
      (s.tryAlloc t slab size align).buf.capacity = s.buf.capacity ∧ pc'.Fits s.buf.capacity := by
  unfold tryAlloc
  split
  · exact ⟨slab, .idle, (set_self ht).symm, rfl, rfl, trivial⟩
  · rename_i hs
    split
    · exact ⟨_, .idle, rfl, rfl, rfl, trivial⟩
    · exact ⟨_, .refill size align, rfl, rfl, rfl, Nat.not_lt.mp hs⟩

/-- What a step of the system does: thread `i` begins a call or goes on with its own, and the
    offset stays, is set back by a reset or moves up by a block. -/
structure Goes (s s' : AtomicBuffer) (l : RaceStep) (i : Nat) (th th' : BufThread) : Prop where
  thread : s.threads[i]? = some th
  threads : s'.threads = s.threads.set i th'
  capacity : s'.buf.capacity = s.buf.capacity
  fits : th'.pc.Fits s.buf.capacity
  pays : s.works i l + th'.pc.cost s'.buf.offset ≤ th.pc.cost s.buf.offset + 4 * s.begins i l
  others : ∀ t, t ≠ i → s.works t l = 0
  offset : s'.buf.offset = s.buf.offset ∧ s.refills l = 0 ∧ s.resets l = 0 ∨
    s'.buf.offset = 0 ∧ s.refills l = 0 ∧ s.resets l = 1 ∨
    s.buf.offset + slabMinBlock ≤ s'.buf.offset ∧ s'.buf.offset ≤ s.buf.capacity ∧
      s.refills l = 1 ∧ s.resets l = 0

/-- **Every step goes so.** -/
theorem Fits.goes (h : s.Fits) (e : s.exec l = some s') : ∃ i th th', s.Goes s' l i th th' := by
  cases l with
  | tryAlloc t size align =>
      simp only [exec] at e
      split at e
      · next slab ht =>
        cases e
        obtain ⟨slab', pc', hset, ho, hc, hf⟩ := tryAlloc_moves size align ht
        refine ⟨t, _, ⟨slab', pc'⟩, ht, hset, hc, hf, ?_, fun _ _ => rfl, Or.inl ⟨ho, rfl, rfl⟩⟩
        have := pc'.cost_le s.buf.offset
        simp only [works, begins, if_true, ho]
        omega
      · cases e
  | reset t =>
      simp only [exec] at e
      split at e
      · next slab ht =>
        cases e
        refine ⟨t, _, ⟨slab, .bump⟩, ht, rfl, rfl, trivial, ?_, fun _ _ => rfl,
          Or.inr (Or.inl ⟨rfl, rfl, rfl⟩)⟩
        simp [works, begins, BufPc.cost]
      · cases e
  | run t =>
      obtain ⟨⟨slab, pc⟩, ht, rfl⟩ := Option.map_eq_some_iff.mp e
      obtain ⟨slab', pc', hset, hm⟩ := run_moves h ht
      refine ⟨t, _, ⟨slab', pc'⟩, ht, hset, hm.capacity, hm.fits, ?_,
        fun i hi => if_neg (Ne.symm hi), ?_⟩
      · simpa [works, begins, ht] using hm.pays
      · have hr : s.refills (.run t) = (pc.wins s.buf.offset).toNat := by
          simp only [refills, ht, Option.any_some]
        rw [hr]
        rcases hm.offset with ⟨ho, hw⟩ | ⟨hw, hlo, hhi⟩
        · exact Or.inl ⟨ho, by rw [hw]; rfl, rfl⟩
        · exact Or.inr (Or.inr ⟨hlo, hhi, by rw [hw]; rfl, rfl⟩)

theorem Fits.step (h : s.Fits) (e : s.exec l = some s') : s'.Fits := by
  obtain ⟨i, th, th', hg⟩ := h.goes e
  refine ⟨?_, hg.capacity.trans h.capacity, ?_⟩
  · have := h.offset
    rw [hg.capacity]
    rcases hg.offset with ⟨ho, _⟩ | ⟨ho, _⟩ | ⟨_, hhi, _⟩
    · omega
    · omega
    · exact hhi
  · rw [hg.capacity, hg.threads]
    exact forall_set h.threads hg.fits

/-- What thread `t` still needs. -/
def cost (t : Nat) (s : AtomicBuffer) : Nat :=
  (s.threads[t]?.map fun th => th.pc.cost s.buf.offset).getD 0

theorem cost_le (t : Nat) (s : AtomicBuffer) : s.cost t ≤ 4 := by
  unfold cost
  cases s.threads[t]? with
  | none => exact Nat.zero_le _
  | some th => exact th.pc.cost_le _

/-- **The work of a thread is paid for**: by the calls it begins and by the moves of the offset. -/
theorem Fits.cost_step (h : s.Fits) (e : s.exec l = some s') (t : Nat) :
    s.works t l + s'.cost t ≤
      s.cost t + (4 * s.begins t l + (2 * s.refills l + 2 * s.resets l)) := by
  obtain ⟨i, th, th', hg⟩ := h.goes e
  by_cases hi : t = i
  · subst hi
    have hset : s'.threads[t]? = some th' := by
      rw [hg.threads]
      exact List.getElem?_set_self (List.getElem?_eq_some_iff.mp hg.thread).1
    have hpays := hg.pays
    simp only [cost, hg.thread, hset, Option.map_some, Option.getD_some]
    omega
  · have hset : s'.threads[t]? = s.threads[t]? := by
      rw [hg.threads]
      exact List.getElem?_set_ne (Ne.symm hi)
    have hmove : s'.buf.offset = s.buf.offset ∨ 1 ≤ s.refills l + s.resets l := by
      rcases hg.offset with ⟨ho, _⟩ | ⟨_, _, hr⟩ | ⟨_, _, hw, _⟩
      · exact Or.inl ho
      · exact Or.inr (by omega)
      · exact Or.inr (by omega)
    simp only [cost, hset, hg.others t hi]
    cases s.threads[t]? with
    | none => exact Nat.zero_le _
    | some th =>
        have := th.pc.cost_move hmove
        simp only [Option.map_some, Option.getD_some]
        omega

/-- The blocks that are left pay for the refills; a reset gives all of them back. -/
theorem Fits.refills_step (h : s.Fits) (e : s.exec l = some s') :
    s.refills l + (lockfreeBufferSize - s'.buf.offset) / slabMinBlock ≤
      (lockfreeBufferSize - s.buf.offset) / slabMinBlock + 16 * s.resets l := by
  obtain ⟨i, th, th', hg⟩ := h.goes e
  have hcap := h.capacity
  unfold lockfreeBufferSize at hcap ⊢
  have hoff := hg.offset
  unfold slabMinBlock at hoff ⊢
  rcases hoff with ⟨ho, hw, hr⟩ | ⟨ho, hw, hr⟩ | ⟨hlo, hhi, hw, hr⟩
  · omega
  · omega
  · omega

end AtomicBuffer

/-! ## 3. Runs -/

open AtomicBuffer

theorem reach_fits {s : AtomicBuffer} (h : atomicBuffers.Reach s) : s.Fits := by
  refine h.inv (P := AtomicBuffer.Fits) (fun s hi => ?_) fun s l s' hs _ e => hs.step e
  obtain ⟨owner, sys, slabs, _, rfl⟩ := hi
  refine ⟨Nat.zero_le _, rfl, fun th hth => ?_⟩
  obtain ⟨slab, _, rfl⟩ := List.mem_map.mp hth
  trivial

/-- **No thread waits for another.** Whatever the interleaving, from every state a buffer reaches
    on: the blocks reserved are at most sixteen, and sixteen more for each reset; and a thread
    makes at most four steps for the call it is in and for each it begins, and two for each block
    reserved and each reset by any thread. So between resets `k` calls of a thread take at most
    `4 * k + 36` steps, however many other threads compete with it. -/
theorem buffer_wait_free {s s' : AtomicBuffer} {ls : List RaceStep} (hr : atomicBuffers.Reach s)
    (h : atomicBuffers.Runs s ls s') (t : Nat) :
    atomicBuffers.total refills s ls ≤ 16 + 16 * atomicBuffers.total resets s ls ∧
    atomicBuffers.total (works t) s ls ≤ 4 + 4 * atomicBuffers.total (begins t) s ls +
      2 * (atomicBuffers.total refills s ls + atomicBuffers.total resets s ls) := by
  have hfits := reach_fits hr
  have hinv : ∀ s l s', s.Fits → atomicBuffers.ok s l → atomicBuffers.step s l = some s' →
      s'.Fits := fun s l s' hs _ e => hs.step e
  have hrefills := h.potential (c := refills) (p := fun s l => 16 * resets s l)
    (m := fun s => (lockfreeBufferSize - s.buf.offset) / slabMinBlock) hinv
    (fun s l s' hs _ e => hs.refills_step e) hfits
  have hcost := h.potential (m := cost t) (c := works t)
    (p := fun s l => 4 * begins t s l + (2 * refills s l + 2 * resets s l)) hinv
    (fun s l s' hs _ e => hs.cost_step e t) hfits
  rw [System.total_mul 16 h] at hrefills
  rw [System.total_add h, System.total_add h, System.total_mul 4 h, System.total_mul 2 h,
    System.total_mul 2 h] at hcost
  have hstart := s.cost_le t
  have hblocks : (lockfreeBufferSize - s.buf.offset) / slabMinBlock ≤ 16 := by
    unfold lockfreeBufferSize slabMinBlock
    omega
  refine ⟨?_, by omega⟩
  exact (Nat.le_add_right _ _).trans (hrefills.trans (Nat.add_le_add_right hblocks _))

/-- Two threads refill at the same time, and a third resets before the exchange of the one that
    loaded first: it goes round twice more. -/
theorem buffer_wait_free_contended : ∃ s s' ls, atomicBuffers.Reach s ∧
    atomicBuffers.Runs s ls s' ∧ atomicBuffers.total (works 0) s ls = 8 ∧
    atomicBuffers.total refills s ls = 2 ∧ atomicBuffers.total resets s ls = 1 ∧
    atomicBuffers.total (works 0) s ls ≤ 4 + 4 * atomicBuffers.total (begins 0) s ls +
      2 * (atomicBuffers.total refills s ls + atomicBuffers.total resets s ls) := by
  have hr : atomicBuffers.Reach (.start 1024 (some 8192) [.new, .new, .new]) :=
    .init ⟨1024, some 8192, [.new, .new, .new], by decide, rfl⟩
  obtain ⟨s', hrun, _⟩ := System.exists_run_of_replay atomicBuffers
    (.start 1024 (some 8192) [.new, .new, .new])
    [.tryAlloc 0 8 8, .tryAlloc 1 8 8, .run 0, .run 0, .run 1, .run 1, .run 1, .run 0, .run 0,
      .reset 2, .run 0, .run 0, .run 0, .run 0]
    (P := fun s => s.buf.offset = 256) (by decide)
  exact ⟨_, s', _, hr, hrun, by decide, by decide, by decide, (buffer_wait_free hr hrun 0).2⟩

end ArenaB
