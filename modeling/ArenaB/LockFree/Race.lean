/-
  File:      ArenaB/LockFree/Race.lean
  Subject:   `try_alloc` and `reset` on one `LockFreeBuffer`, atomic step by atomic step.

  A refill reserves its region by a compare-exchange on `offset` and tags it with the generation
  it loads after that; a reset stores offset 0, then bumps the generation, then zero-fills the
  block. Any number of threads run these in any interleaving. A step is one atomic load, store,
  exchange or the zero fill, with what the thread then does on its own (its slab is its own).

  * `BufPc` -- where a thread is; `AtomicBuffer.run` -- its next step. The counters of `stats` move
    with the step they follow; nothing reads them;
  * `Served` -- an allocation, the generation of the slab it came from, and whether the reset that
    opened this generation has overwritten it since;
  * `Orderly` -- the condition on a step: no region is reserved between the store and the bump of a
    reset, no generation is bumped between a reservation and its tag (nor wraps), nothing is served
    before the reset that opened the generation has zero-filled;
  * **`race_sound`** -- in runs whose steps all meet it, allocations of one generation are apart
    and not overwritten. `race_broken`: other runs fail, in three ways.
-/
import ArenaB.LockFree.Threads

namespace ArenaB

open Base

/-! ## 1. Steps -/

/-- Where a thread is; the arguments are its local variables. -/
inductive BufPc where
  | idle
  /-- `refill_thread_slab_and_alloc`: the load of `buffer`. -/
  | refill (size align : Nat)
  /-- The load of `offset`, at the head of the loop. -/
  | load (size align : Nat)
  | exchange (current start fin size align : Nat)
  /-- The load of `generation` for a region that is reserved. -/
  | tag (start fin size align : Nat)
  /-- `reset`: offset 0 is stored, the generation is to be bumped. -/
  | bump
  /-- The load of `buffer` by the reset that opened generation `g`. -/
  | opened (g : Nat)
  | zero (g : Nat)
  deriving DecidableEq, Repr

/-- A thread: its slab and where it is. -/
structure BufThread where
  slab : ThreadSlab
  pc : BufPc
  deriving DecidableEq, Repr

/-- An allocation handed out from a slab. -/
structure Served where
  generation : Nat
  span : Span
  wiped : Bool
  deriving DecidableEq, Repr

/-- The buffer at address `owner`, the threads, and what was handed out. -/
structure AtomicBuffer where
  owner : Nat
  buf : LockFreeBuffer
  threads : List BufThread
  served : List Served
  deriving DecidableEq, Repr

/-- The scheduler's choice: a call by an idle thread, or the next step of a thread. -/
inductive RaceStep where
  | tryAlloc (t size align : Nat)
  | reset (t : Nat)
  | run (t : Nat)
  deriving DecidableEq, Repr

namespace AtomicBuffer

/-- Thread `t` goes on as `th`. -/
def put (s : AtomicBuffer) (t : Nat) (th : BufThread) : AtomicBuffer :=
  { s with threads := s.threads.set t th }

/-- The counters move. -/
def count (s : AtomicBuffer) (f : LockFreeStats → LockFreeStats) : AtomicBuffer :=
  { s with buf := { s.buf with stats := f s.buf.stats } }

/-- The offset changes. -/
def setOffset (s : AtomicBuffer) (n : Nat) : AtomicBuffer :=
  { s with buf := { s.buf with offset := n } }

/-- The generation changes. -/
def setGeneration (s : AtomicBuffer) (g : Nat) : AtomicBuffer :=
  { s with buf := { s.buf with generation := g } }

/-- A pointer is handed out. -/
def book (s : AtomicBuffer) (g p size : Nat) : AtomicBuffer :=
  { s with served := s.served ++ [⟨g, ⟨p, size⟩, false⟩] }

/-- The zero fill of the reset that opened generation `g`. -/
def wipe (s : AtomicBuffer) (g : Nat) : AtomicBuffer :=
  { s with served := s.served.map fun a =>
      if a.generation = g ∧ ¬ a.span.Apart s.buf.span then { a with wiped := true } else a }

/-- `try_alloc` up to the load of `generation` and the slab path. -/
def tryAlloc (s : AtomicBuffer) (t : Nat) (slab : ThreadSlab) (size align : Nat) : AtomicBuffer :=
  if size > maxLockfreeAllocation then s.count (·.recordAllocation.recordCacheMiss)
  else
    match s.buf.tryThreadSlab s.owner slab size align with
    | (some p, slab) =>
        ((s.put t ⟨slab, .idle⟩).book slab.generation p size).count
          (·.recordAllocation.recordCacheHit)
    | (none, slab) => s.put t ⟨slab, .refill size align⟩

/-- The next step of thread `t`, which has the given slab and is at the given place. -/
def run (s : AtomicBuffer) (t : Nat) (slab : ThreadSlab) : BufPc → AtomicBuffer
  | .idle => s
  | .refill size align =>
      if s.buf.buffer = 0 then (s.put t ⟨slab, .idle⟩).count .recordCacheMiss
      else s.put t ⟨slab, .load size align⟩
  | .load size align =>
      let start := alignUp s.buf.offset lockfreeAlignment
      let fin := wadd start (alignUp (max size slabMinBlock) lockfreeAlignment)
      if fin > s.buf.capacity then
        (s.put t ⟨slab, .idle⟩).count (·.recordCacheMiss.recordCacheMiss)
      else s.put t ⟨slab, .exchange s.buf.offset start fin size align⟩
  | .exchange current start fin size align =>
      if s.buf.offset = current then (s.setOffset fin).put t ⟨slab, .tag start fin size align⟩
      else (s.put t ⟨slab, .load size align⟩).count .recordContention
  | .tag start fin size align =>
      match (slab.setRegion s.owner s.buf.buffer start fin s.buf.generation).tryAlloc size
        align with
      | (some p, slab) =>
          ((s.put t ⟨slab, .idle⟩).book slab.generation p size).count
            (·.recordAllocation.recordAllocation.recordCacheHit)
      | (none, slab) => (s.put t ⟨slab, .idle⟩).count (·.recordAllocation.recordCacheMiss)
  | .bump =>
      (s.setGeneration (wadd s.buf.generation 1)).put t ⟨slab, .opened (wadd s.buf.generation 1)⟩
  | .opened g =>
      if s.buf.buffer = 0 then (s.put t ⟨slab.invalidate, .idle⟩).count .reset
      else s.put t ⟨slab, .zero g⟩
  | .zero g => ((s.wipe g).put t ⟨slab.invalidate, .idle⟩).count .reset

/-- One step of the system. -/
def exec (s : AtomicBuffer) : RaceStep → Option AtomicBuffer
  | .tryAlloc t size align =>
      match s.threads[t]? with
      | some ⟨slab, .idle⟩ => some (s.tryAlloc t slab size align)
      | _ => none
  | .reset t =>
      match s.threads[t]? with
      | some ⟨slab, .idle⟩ => some ((s.setOffset 0).put t ⟨slab, .bump⟩)
      | _ => none
  | .run t => s.threads[t]?.map fun th => s.run t th.slab th.pc

/-- Alignments are those of layouts. -/
def Ok (_ : AtomicBuffer) : RaceStep → Prop
  | .tryAlloc _ _ align => 0 < align ∧ align ≤ 2 ^ 63
  | _ => True

instance (s : AtomicBuffer) : (st : RaceStep) → Decidable (s.Ok st)
  | .tryAlloc _ _ align => inferInstanceAs (Decidable (0 < align ∧ align ≤ 2 ^ 63))
  | .reset _ => isTrue trivial
  | .run _ => isTrue trivial

/-- A new buffer and idle threads, whose slabs may be on other buffers. -/
def start (owner : Nat) (sys : Option Nat) (slabs : List ThreadSlab) : AtomicBuffer :=
  ⟨owner, .new sys, slabs.map (⟨·, .idle⟩), []⟩

end AtomicBuffer

/-- The runs of any number of threads on a new buffer. -/
def atomicBuffers : System AtomicBuffer RaceStep where
  init s := ∃ owner sys slabs, (∀ slab ∈ slabs, slab.base ≠ 0 → slab.owner ≠ owner) ∧
    s = .start owner sys slabs
  ok := AtomicBuffer.Ok
  step := AtomicBuffer.exec

instance (s : AtomicBuffer) (st : RaceStep) : Decidable (atomicBuffers.ok s st) :=
  inferInstanceAs (Decidable (s.Ok st))

/-! ## 2. The condition -/

namespace BufPc

/-- The generation this thread has opened and not yet zero-filled. -/
def opening : BufPc → Option Nat
  | .opened g => some g
  | .zero g => some g
  | _ => none

/-- The region this thread has reserved and not yet tagged. -/
def pending (buffer : Nat) : BufPc → Span
  | .tag start fin _ _ => ⟨buffer + start, fin - start⟩
  | _ => ⟨0, 0⟩

/-- A region is reserved and not yet tagged. -/
def isTag : BufPc → Bool
  | .tag _ _ _ _ => true
  | _ => false

end BufPc

namespace AtomicBuffer

/-- The reset that opened the current generation has zero-filled. -/
def Zeroed (s : AtomicBuffer) : Prop := ∀ th ∈ s.threads, th.pc.opening ≠ some s.buf.generation

/-- No reset is between its store and its bump. -/
def Settled (s : AtomicBuffer) : Prop := ∀ th ∈ s.threads, th.pc ≠ .bump

/-- Every reserved region is tagged. -/
def Tagged (s : AtomicBuffer) : Prop := ∀ th ∈ s.threads, th.pc.isTag = false

instance (s : AtomicBuffer) : Decidable s.Zeroed :=
  inferInstanceAs (Decidable (∀ th ∈ s.threads, _))

instance (s : AtomicBuffer) : Decidable s.Settled :=
  inferInstanceAs (Decidable (∀ th ∈ s.threads, _))

instance (s : AtomicBuffer) : Decidable s.Tagged :=
  inferInstanceAs (Decidable (∀ th ∈ s.threads, _))

/-- The condition on the step of a thread that is at the given place. -/
def Calm (s : AtomicBuffer) : BufPc → Prop
  | .exchange current _ _ _ _ => s.buf.offset = current → s.Settled
  | .tag _ _ _ _ => s.Zeroed
  | .bump => s.Tagged ∧ s.buf.generation + 1 < wordMod
  | _ => True

instance (s : AtomicBuffer) : (pc : BufPc) → Decidable (s.Calm pc)
  | .exchange current _ _ _ _ => inferInstanceAs (Decidable (s.buf.offset = current → s.Settled))
  | .tag _ _ _ _ => inferInstanceAs (Decidable s.Zeroed)
  | .bump => inferInstanceAs (Decidable (s.Tagged ∧ s.buf.generation + 1 < wordMod))
  | .idle => isTrue trivial
  | .refill _ _ => isTrue trivial
  | .load _ _ => isTrue trivial
  | .opened _ => isTrue trivial
  | .zero _ => isTrue trivial

end AtomicBuffer

/-- Reservations and their tags do not meet the store and the bump of a reset, and nothing is
    served before the zero fill. -/
def Orderly (s : AtomicBuffer) : RaceStep → Prop
  | .tryAlloc t _ _ =>
      ∀ th ∈ s.threads[t]?, th.slab.Matches s.owner s.buf.generation → s.Zeroed
  | .reset _ => True
  | .run t => ∀ th ∈ s.threads[t]?, s.Calm th.pc

instance (s : AtomicBuffer) : (st : RaceStep) → Decidable (Orderly s st)
  | .tryAlloc t _ _ => inferInstanceAs (Decidable (∀ th ∈ s.threads[t]?, _ → s.Zeroed))
  | .reset _ => isTrue trivial
  | .run t => inferInstanceAs (Decidable (∀ th ∈ s.threads[t]?, s.Calm th.pc))

/-! ## 3. Who holds what -/

namespace BufPc

/-- What a thread relies on at each place. -/
def Good (b : LockFreeBuffer) : BufPc → Prop
  | .refill size align => size ≤ maxLockfreeAllocation ∧ 0 < align ∧ align ≤ 2 ^ 63
  | .load size align =>
      b.buffer ≠ 0 ∧ size ≤ maxLockfreeAllocation ∧ 0 < align ∧ align ≤ 2 ^ 63
  | .exchange current start fin size align =>
      b.buffer ≠ 0 ∧ size ≤ maxLockfreeAllocation ∧ (0 < align ∧ align ≤ 2 ^ 63) ∧
        current ≤ start ∧ start ≤ fin ∧ fin ≤ b.capacity
  | .tag start fin size align =>
      b.buffer ≠ 0 ∧ size ≤ maxLockfreeAllocation ∧ (0 < align ∧ align ≤ 2 ^ 63) ∧
        start ≤ fin ∧ fin ≤ b.capacity
  | _ => True

theorem pending_has {buffer y : Nat} {pc : BufPc} (h : (pc.pending buffer).Has y) :
    pc.isTag = true := by
  cases pc with
  | tag start fin size align => rfl
  | _ => simp [pending, Span.Has, Span.fin] at h

end BufPc

namespace ThreadSlab

variable {slab : ThreadSlab} {o size y : Nat}

/-- A range in the rest of the slab. -/
theorem rest_of_range (h1 : slab.offset ≤ o) (h2 : o + size ≤ slab.fin)
    (hy : Span.Has ⟨slab.base + o, size⟩ y) : slab.rest.Has y := by
  obtain ⟨x, rfl, hx1, hx2⟩ := hy.offset
  exact rest_has.mpr ⟨x, rfl, by omega, by omega⟩

/-- Behind a served range the slab has a part of its rest, and nothing of that range. -/
theorem rest_advance (h1 : slab.offset ≤ o)
    (hy : (rest { slab with offset := o + size }).Has y) :
    slab.rest.Has y ∧ ¬ Span.Has ⟨slab.base + o, size⟩ y := by
  obtain ⟨x, rfl, hx1, hx2⟩ := rest_has.mp hy
  simp only at hx1 hx2 ⊢
  refine ⟨rest_has.mpr ⟨x, rfl, by omega, hx2⟩, fun hs => ?_⟩
  simp only [Span.Has, Span.fin] at hs
  omega

end ThreadSlab

namespace BufThread

/-- A slab on the buffer is a region of its block, of this generation or an earlier one. -/
structure Good (b : LockFreeBuffer) (owner : Nat) (th : BufThread) : Prop where
  region : th.slab.base ≠ 0 → th.slab.owner = owner → th.slab.base = b.buffer ∧
    th.slab.offset ≤ th.slab.fin ∧ th.slab.fin ≤ b.capacity ∧ th.slab.generation ≤ b.generation
  pc : th.pc.Good b

theorem Good.congr {b b' : LockFreeBuffer} {owner : Nat} {th : BufThread} (h : th.Good b owner)
    (h1 : b'.buffer = b.buffer) (h2 : b'.capacity = b.capacity)
    (h3 : b.generation ≤ b'.generation) : th.Good b' owner := by
  refine ⟨fun h0 ho => ?_, ?_⟩
  · obtain ⟨hbase, hle, hfin, hgen⟩ := h.region h0 ho
    exact ⟨hbase.trans h1.symm, hle, h2 ▸ hfin, hgen.trans h3⟩
  · have hpc := h.pc
    generalize th.pc = pc at hpc ⊢
    cases pc <;> simp only [BufPc.Good, h1, h2] at hpc ⊢ <;> exact hpc

/-- What the thread holds of generation `g`: the rest of its slab, and a region that is reserved
    and will be tagged with the current generation. -/
def held (owner : Nat) (b : LockFreeBuffer) (g : Nat) (th : BufThread) : Bool → Span
  | false => if th.slab.Matches owner g then th.slab.rest else ⟨0, 0⟩
  | true => if g = b.generation then th.pc.pending b.buffer else ⟨0, 0⟩

variable {th : BufThread} {owner g y : Nat} {b : LockFreeBuffer}

theorem held_slab : (th.held owner b g false).Has y ↔
    th.slab.Matches owner g ∧ th.slab.rest.Has y := by
  simp only [held]
  split
  · rename_i hm
    simp [hm]
  · rename_i hm
    simp [hm, Span.Has, Span.fin]

theorem held_pending : (th.held owner b g true).Has y ↔
    g = b.generation ∧ (th.pc.pending b.buffer).Has y := by
  simp only [held]
  split
  · rename_i hg
    simp [hg]
  · rename_i hg
    simp [hg, Span.Has, Span.fin]

/-- Without a reserved region nothing is pending. -/
theorem not_held_pending (h : th.pc.isTag = false) : ¬ (th.held owner b g true).Has y := by
  intro hy
  have hp := BufPc.pending_has (held_pending.mp hy).2
  rw [h] at hp
  cases hp

/-- In another generation the thread holds of its slab what it held. -/
theorem Good.held_generation {n : Nat} {i : Bool} (h : th.Good b owner)
    (htag : th.pc.isTag = false) (hy : (th.held owner { b with generation := n } g i).Has y) :
    g ≤ b.generation ∧ (th.held owner b g i).Has y := by
  cases i with
  | true => exact absurd hy (not_held_pending htag)
  | false =>
      obtain ⟨hm, hr⟩ := held_slab.mp hy
      exact ⟨hm.2.1 ▸ (h.region hm.2.2 hm.1).2.2.2, held_slab.mpr ⟨hm, hr⟩⟩

end BufThread

namespace AtomicBuffer

/-- The threads as holders of ranges of generation `g`, and what was handed out in it. -/
def carve (s : AtomicBuffer) (g : Nat) : Carve (Nat × Bool) where
  held i := (s.threads[i.1]?.map (·.held s.owner s.buf g i.2)).getD ⟨0, 0⟩
  given := (s.served.filter (·.generation = g)).map Served.span

/-- **The invariant.** -/
structure Sound (s : AtomicBuffer) : Prop where
  ok : s.buf.Ok
  threads : ∀ th ∈ s.threads, th.Good s.buf s.owner
  carved : ∀ g, (s.carve g).Ok
  below : s.Settled → (s.carve s.buf.generation).Below (s.buf.buffer + s.buf.offset)
  tags : ∀ a ∈ s.served, a.generation ≤ s.buf.generation
  zeroed : ∀ a ∈ s.served, ∀ th ∈ s.threads, th.pc.opening ≠ some a.generation
  intact : ∀ a ∈ s.served, a.wiped = false

variable {s : AtomicBuffer} {t g : Nat} {th th' : BufThread}

theorem carve_held (ht : s.threads[t]? = some th) (b : Bool) :
    (s.carve g).held (t, b) = th.held s.owner s.buf g b := by
  simp [carve, ht]

/-- What a thread holds after it was replaced. -/
theorem carve_put (ht : s.threads[t]? = some th) (b : Bool) :
    ((s.put t th').carve g).held (t, b) = th'.held s.owner s.buf g b :=
  carve_held (List.getElem?_set_self (List.getElem?_eq_some_iff.mp ht).1) b

/-- The others hold what they held. -/
theorem carve_put_ne {i : Nat × Bool} (hi : i.1 ≠ t) :
    ((s.put t th').carve g).held i = (s.carve g).held i := by
  simp only [carve, put, List.getElem?_set_ne (Ne.symm hi)]

/-- If the replaced thread holds no more than it held, nobody does. -/
theorem carve_put_le (ht : s.threads[t]? = some th)
    (hheld : ∀ b y, (th'.held s.owner s.buf g b).Has y → (th.held s.owner s.buf g b).Has y)
    {i : Nat × Bool} {y : Nat} (hy : (((s.put t th').carve g).held i).Has y) :
    ((s.carve g).held i).Has y := by
  obtain ⟨u, b⟩ := i
  by_cases hu : u = t
  · subst hu
    rw [carve_put ht] at hy
    rw [carve_held ht]
    exact hheld b y hy
  · rwa [carve_put_ne hu] at hy

theorem carve_book (g₀ p size : Nat) : (s.book g₀ p size).carve g =
    ⟨(s.carve g).held, (s.carve g).given ++ (if g₀ = g then some ⟨p, size⟩ else none).toList⟩ := by
  simp only [carve, book, List.filter_append, List.map_append]
  split
  · rename_i hg
    simp [hg]
  · rename_i hg
    simp [hg]

section Held

variable {slab : ThreadSlab} {start fin size align y : Nat}

/-- After a reservation everything but the new region was held before. -/
theorem held_reserve_ne {pc : BufPc} (ht : s.threads[t]? = some ⟨slab, pc⟩) {i : Nat × Bool}
    (hi : i ≠ (t, true))
    (hy : ((((s.setOffset fin).put t ⟨slab, .tag start fin size align⟩).carve g).held i).Has y) :
    ((s.carve g).held i).Has y := by
  obtain ⟨u, b⟩ := i
  by_cases hu : u = t
  · subst hu
    cases b with
    | true => exact absurd rfl hi
    | false =>
        rw [carve_held ht]
        rw [carve_put (s := s.setOffset fin) ht] at hy
        exact hy
  · rwa [carve_put_ne hu] at hy

/-- The new region is one of the current generation. -/
theorem held_reserve {pc : BufPc} (ht : s.threads[t]? = some ⟨slab, pc⟩)
    (hy : ((((s.setOffset fin).put t ⟨slab, .tag start fin size align⟩).carve g).held
      (t, true)).Has y) :
    g = s.buf.generation ∧ s.buf.buffer + start ≤ y ∧ y < s.buf.buffer + fin := by
  rw [carve_put (s := s.setOffset fin) ht] at hy
  obtain ⟨hg, hp⟩ := BufThread.held_pending.mp hy
  simp only [BufPc.pending, setOffset, Span.Has, Span.fin] at hp
  exact ⟨hg, hp.1, by omega⟩

/-- The slab that is set to a region is what was pending. -/
theorem held_region (ht : s.threads[t]? = some ⟨slab, .tag start fin size align⟩)
    (hy : (((s.put t ⟨slab.setRegion s.owner s.buf.buffer start fin s.buf.generation,
      .idle⟩).carve g).held (t, false)).Has y) :
    ((s.carve g).held (t, true)).Has y := by
  rw [carve_put ht] at hy
  rw [carve_held ht]
  obtain ⟨hm, hr⟩ := BufThread.held_slab.mp hy
  have hg : s.buf.generation = g := hm.2.1
  exact BufThread.held_pending.mpr ⟨hg.symm, hr⟩

/-- When the generation is bumped, all that is held is of an earlier one. -/
theorem held_bump (ht : s.threads[t]? = some ⟨slab, .bump⟩)
    (hgood : ∀ th ∈ s.threads, th.Good s.buf s.owner) (htag : s.Tagged) {n : Nat}
    {i : Nat × Bool}
    (hy : ((((s.setGeneration n).put t ⟨slab, .opened n⟩).carve g).held i).Has y) :
    g ≤ s.buf.generation ∧ ((s.carve g).held i).Has y := by
  obtain ⟨u, b⟩ := i
  by_cases hu : u = t
  · subst hu
    rw [carve_put (s := s.setGeneration n) ht] at hy
    rw [carve_held ht]
    have hopened : BufThread.Good s.buf s.owner ⟨slab, .opened n⟩ :=
      ⟨(hgood _ (List.mem_of_getElem? ht)).region, trivial⟩
    cases b <;> exact hopened.held_generation rfl hy
  · rw [carve_put_ne hu] at hy
    cases hth : s.threads[u]? with
    | none =>
        have hnone : (s.setGeneration n).threads[u]? = none := hth
        simp [carve, hnone, Span.Has, Span.fin] at hy
    | some th =>
        have hm := List.mem_of_getElem? hth
        rw [carve_held (s := s.setGeneration n) hth] at hy
        rw [carve_held hth]
        exact (hgood th hm).held_generation (htag th hm) hy

end Held

theorem sound_start {owner : Nat} {sys : Option Nat} {slabs : List ThreadSlab}
    (h : ∀ slab ∈ slabs, slab.base ≠ 0 → slab.owner ≠ owner) : (start owner sys slabs).Sound := by
  have hth : ∀ th ∈ (start owner sys slabs).threads,
      (th.slab.base ≠ 0 → th.slab.owner ≠ owner) ∧ th.pc = .idle := by
    intro th hth
    obtain ⟨slab, hs, rfl⟩ := List.mem_map.mp hth
    exact ⟨h slab hs, rfl⟩
  have hno : ∀ g i y, ¬ (((start owner sys slabs).carve g).held i).Has y := by
    rintro g ⟨t, b⟩ y hy
    cases ht : (start owner sys slabs).threads[t]? with
    | none => simp [carve, ht, Span.Has, Span.fin] at hy
    | some th =>
        obtain ⟨h1, h2⟩ := hth th (List.mem_of_getElem? ht)
        rw [carve_held ht] at hy
        cases b with
        | false =>
            obtain ⟨hm, _⟩ := BufThread.held_slab.mp hy
            exact h1 hm.2.2 hm.1
        | true => exact BufThread.not_held_pending (by rw [h2]; rfl) hy
  refine ⟨LockFreeBuffer.ok_new sys, fun th hm => ⟨?_, ?_⟩, fun g => ?_, fun _ => ⟨?_, ?_⟩,
    (fun _ h => by cases h), (fun _ h => by cases h), (fun _ h => by cases h)⟩
  · exact fun h0 ho => absurd ho ((hth th hm).1 h0)
  · rw [(hth th hm).2]
    trivial
  · exact Carve.ok_empty (hno g) rfl
  · exact fun i y hy => absurd hy (hno _ i y)
  · exact fun _ h => by cases h

theorem Sound.count (h : s.Sound) (f : LockFreeStats → LockFreeStats) : (s.count f).Sound :=
  ⟨⟨h.ok.offset, h.ok.capacity⟩, fun th hm => (h.threads th hm).congr rfl rfl (Nat.le_refl _),
    h.carved, h.below, h.tags, h.zeroed, h.intact⟩

/-- A step after which the thread holds at most what it held. -/
theorem Sound.put (h : s.Sound) (ht : s.threads[t]? = some th) (hg : th'.Good s.buf s.owner)
    (hheld : ∀ g b y, (th'.held s.owner s.buf g b).Has y → (th.held s.owner s.buf g b).Has y)
    (hbump : th.pc ≠ .bump) (hopen : ∀ g, th'.pc.opening = some g → th.pc.opening = some g) :
    (s.put t th').Sound := by
  refine ⟨h.ok, ?_, fun g => (h.carved g).shrink (fun i y => carve_put_le ht (hheld g)) rfl,
    fun hset => ?_, h.tags, fun a ha => ?_, h.intact⟩
  · exact forall_set h.threads hg
  · have hb := h.below (forall_mem_of_set ht hbump hset)
    exact ⟨fun i y hy => hb.held i y (carve_put_le ht (hheld _) hy), hb.given⟩
  · refine forall_set (h.zeroed a ha) fun ho => ?_
    exact h.zeroed a ha th (List.mem_of_getElem? ht) (hopen _ ho)

/-- A step that leaves the slab alone and reserves nothing. -/
theorem Sound.goto (h : s.Sound) {slab : ThreadSlab} {pc pc' : BufPc}
    (ht : s.threads[t]? = some ⟨slab, pc⟩) (hg : pc'.Good s.buf) (htag : pc'.isTag = false)
    (hbump : pc ≠ .bump) (hopen : ∀ g, pc'.opening = some g → pc.opening = some g) :
    (s.put t ⟨slab, pc'⟩).Sound := by
  refine h.put ht ⟨(h.threads _ (List.mem_of_getElem? ht)).region, hg⟩ (fun g b y hy => ?_) hbump
    hopen
  cases b with
  | false => exact hy
  | true => exact absurd hy (BufThread.not_held_pending htag)

/-- A step that drops the slab. -/
theorem Sound.drop (h : s.Sound) {slab : ThreadSlab} {pc pc' : BufPc}
    (ht : s.threads[t]? = some ⟨slab, pc⟩) (hg : pc'.Good s.buf) (htag : pc'.isTag = false)
    (hbump : pc ≠ .bump) (hopen : ∀ g, pc'.opening = some g → pc.opening = some g) :
    (s.put t ⟨slab.invalidate, pc'⟩).Sound := by
  refine h.put ht ⟨fun h0 => absurd rfl h0, hg⟩ (fun g b y hy => ?_) hbump hopen
  cases b with
  | false =>
      have hm := (BufThread.held_slab.mp hy).1
      exact absurd hm (slab.not_matches_invalidate _ _)
  | true => exact absurd hy (BufThread.not_held_pending htag)

/-- **A slab of the current generation serves.** -/
theorem Sound.serve (h : s.Sound) {slab : ThreadSlab} {pc : BufPc}
    (ht : s.threads[t]? = some ⟨slab, pc⟩) (hbump : pc ≠ .bump)
    (hm : slab.Matches s.owner s.buf.generation) (hz : s.Zeroed) {o size : Nat}
    (h1 : slab.offset ≤ o) (h2 : o + size ≤ slab.fin) :
    ((s.put t ⟨{ slab with offset := o + size }, pc⟩).book slab.generation (slab.base + o)
      size).Sound := by
  have hth := h.threads _ (List.mem_of_getElem? ht)
  obtain ⟨hbase, _, hfin, hgen⟩ := hth.region hm.2.2 hm.1
  have hrest : ∀ g b y,
      (BufThread.held s.owner s.buf g ⟨{ slab with offset := o + size }, pc⟩ b).Has y →
      (BufThread.held s.owner s.buf g ⟨slab, pc⟩ b).Has y := by
    intro g b y hy
    cases b with
    | false =>
        obtain ⟨hm', hr⟩ := BufThread.held_slab.mp hy
        exact BufThread.held_slab.mpr ⟨hm', (ThreadSlab.rest_advance h1 hr).1⟩
    | true => exact hy
  have hput : (s.put t ⟨{ slab with offset := o + size }, pc⟩).Sound :=
    h.put ht ⟨fun _ _ => ⟨hbase, h2, hfin, hgen⟩, hth.pc⟩ hrest hbump fun _ h => h
  have hmem : ∀ a ∈ s.served ++ [⟨slab.generation, ⟨slab.base + o, size⟩, false⟩],
      a ∈ s.served ∨ a = ⟨slab.generation, ⟨slab.base + o, size⟩, false⟩ := fun a ha =>
    (List.mem_append.mp ha).imp_right List.mem_singleton.mp
  refine ⟨h.ok, hput.threads, fun g => ?_, fun hset => ?_, fun a ha => ?_, fun a ha => ?_,
    fun a ha => ?_⟩
  · have hF := (h.carved g).avoids_held (t, false)
    rw [carve_book]
    refine (h.carved g).renew (t, false) _ (fun i hi y hy => ?_) hF.given
      (fun y hy => carve_put_le ht (hrest g) hy) rfl fun r hr y hy => ?_
    · have hy' := carve_put_le ht (hrest g) hy
      exact ⟨hy', hF.held i hi y hy'⟩
    · split at hr
      · rename_i hg
        subst hg
        cases hr
        rw [carve_held ht, carve_put ht]
        refine ⟨BufThread.held_slab.mpr ⟨⟨hm.1, rfl, hm.2.2⟩, ThreadSlab.rest_of_range h1 h2 hy⟩,
          fun hy' => ?_⟩
        exact (ThreadSlab.rest_advance h1 (BufThread.held_slab.mp hy').2).2 hy
      · cases hr
  · have hb := hput.below hset
    rw [carve_book]
    refine ⟨hb.held, fun r hr y hy => ?_⟩
    rcases List.mem_append.mp hr with hr | hr
    · exact hb.given r hr y hy
    · have hb' := h.below (forall_mem_of_set ht hbump hset)
      refine hb'.held (t, false) y ?_
      rw [carve_held ht]
      split at hr
      · cases List.mem_singleton.mp hr
        exact BufThread.held_slab.mpr ⟨hm, ThreadSlab.rest_of_range h1 h2 hy⟩
      · cases hr
  · rcases hmem a ha with ha | rfl
    · exact h.tags a ha
    · exact hgen
  · rcases hmem a ha with ha | rfl
    · exact hput.zeroed a ha
    · have hall : ∀ th ∈ s.threads.set t ⟨{ slab with offset := o + size }, pc⟩,
          th.pc.opening ≠ some s.buf.generation :=
        forall_set hz (hz ⟨slab, pc⟩ (List.mem_of_getElem? ht))
      rw [← hm.2.1] at hall
      exact hall
  · rcases hmem a ha with ha | rfl
    · exact h.intact a ha
    · rfl

/-- **A region is reserved** behind the offset, while no reset is between store and bump. -/
theorem Sound.reserve (h : s.Sound) {slab : ThreadSlab} {start fin size align : Nat}
    (ht : s.threads[t]? = some ⟨slab, .exchange s.buf.offset start fin size align⟩)
    (hset : s.Settled) :
    ((s.setOffset fin).put t ⟨slab, .tag start fin size align⟩).Sound := by
  have hth := h.threads _ (List.mem_of_getElem? ht)
  obtain ⟨h0, hs, ha, h1, h2, h3⟩ := hth.pc
  have hbelow := h.below hset
  refine ⟨⟨h3, h.ok.capacity⟩, ?_, fun g => ?_, fun _ => ⟨fun i y hy => ?_, fun r hr y hy => ?_⟩,
    h.tags, fun a ha => ?_, h.intact⟩
  · refine forall_set (fun b hb => ?_) ⟨hth.region, h0, hs, ha, h2, h3⟩
    exact (h.threads b hb).congr rfl rfl (Nat.le_refl _)
  · by_cases hg : g = s.buf.generation
    · subst hg
      have hF := (h.carved s.buf.generation).avoids_above hbelow (t, true)
      refine (h.carved s.buf.generation).take (t, true) _ (fun i hi y hy => ?_) hF.given
        (fun y hy => Or.inr ?_) rfl
      · have hy' := held_reserve_ne ht hi hy
        exact ⟨hy', hF.held i hi y hy'⟩
      · exact (Nat.add_le_add_left h1 _).trans (held_reserve ht hy).2.1
    · refine (h.carved g).shrink (fun i y hy => ?_) rfl
      by_cases hi : i = (t, true)
      · subst hi
        exact absurd (held_reserve ht hy).1 hg
      · exact held_reserve_ne ht hi hy
  · show y < s.buf.buffer + fin
    by_cases hi : i = (t, true)
    · subst hi
      exact (held_reserve ht hy).2.2
    · have := hbelow.held i y (held_reserve_ne ht hi hy)
      omega
  · have := hbelow.given r hr y hy
    show y < s.buf.buffer + fin
    omega
  · exact forall_set (h.zeroed a ha) fun h => by cases h

/-- **The region is tagged** and is the thread's slab. -/
theorem Sound.region (h : s.Sound) {slab : ThreadSlab} {start fin size align : Nat}
    (ht : s.threads[t]? = some ⟨slab, .tag start fin size align⟩) :
    (s.put t ⟨slab.setRegion s.owner s.buf.buffer start fin s.buf.generation, .idle⟩).Sound := by
  have hth := h.threads _ (List.mem_of_getElem? ht)
  obtain ⟨_, _, _, h2, h3⟩ := hth.pc
  -- what was pending is in the slab, and nothing is pending any more
  have hpend : ∀ g y, ¬ (((s.put t ⟨slab.setRegion s.owner s.buf.buffer start fin
      s.buf.generation, .idle⟩).carve g).held (t, true)).Has y := by
    intro g y hy
    rw [carve_put ht] at hy
    exact BufThread.not_held_pending rfl hy
  refine ⟨h.ok, ?_, fun g => ?_, fun hset => ?_, h.tags, fun a ha => ?_, h.intact⟩
  · exact forall_set h.threads ⟨fun _ _ => ⟨rfl, h2, h3, Nat.le_refl _⟩, trivial⟩
  · have hF := (h.carved g).avoids_held (t, true)
    refine (h.carved g).take (t, false) _ (fun i hi y hy => ?_) hF.given
      (fun y hy => held_region ht hy) rfl
    by_cases hit : i = (t, true)
    · subst hit
      exact absurd hy (hpend g y)
    · have hi1 : i.1 ≠ t := by
        rintro rfl
        rcases i with ⟨u, _ | _⟩
        · exact hi rfl
        · exact hit rfl
      rw [carve_put_ne hi1] at hy
      exact ⟨hy, hF.held i hit y hy⟩
  · have hb := h.below (forall_mem_of_set ht (fun h => by cases h) hset)
    refine ⟨fun i y hy => ?_, hb.given⟩
    by_cases hi : i.1 = t
    · obtain ⟨u, b⟩ := i
      subst hi
      cases b with
      | false => exact hb.held _ y (held_region ht hy)
      | true => exact absurd hy (hpend _ y)
    · rw [carve_put_ne hi] at hy
      exact hb.held i y hy
  · exact forall_set (h.zeroed a ha) fun h => by cases h

/-- A reset stores offset 0. -/
theorem Sound.restart (h : s.Sound) {slab : ThreadSlab} (ht : s.threads[t]? = some ⟨slab, .idle⟩) :
    ((s.setOffset 0).put t ⟨slab, .bump⟩).Sound := by
  have hth := h.threads _ (List.mem_of_getElem? ht)
  have hlt := (List.getElem?_eq_some_iff.mp ht).1
  refine ⟨⟨Nat.zero_le _, h.ok.capacity⟩, ?_, fun g => ?_, fun hset => ?_, h.tags, fun a ha => ?_,
    h.intact⟩
  · refine forall_set (fun b hb => ?_) ⟨hth.region, trivial⟩
    exact (h.threads b hb).congr rfl rfl (Nat.le_refl _)
  · refine (h.carved g).shrink (fun i y hy => ?_) rfl
    refine carve_put_le (s := s.setOffset 0) ht (fun b y hy => ?_) hy
    cases b <;> exact hy
  · exact absurd rfl (hset ⟨slab, .bump⟩ (List.mem_set hlt _))
  · exact forall_set (h.zeroed a ha) fun h => by cases h

/-- **The generation is bumped**, while every reserved region is tagged: nobody holds anything of
    the new generation. -/
theorem Sound.bump (h : s.Sound) {slab : ThreadSlab} (ht : s.threads[t]? = some ⟨slab, .bump⟩)
    (htag : s.Tagged) (hg : s.buf.generation + 1 < wordMod) :
    ((s.setGeneration (wadd s.buf.generation 1)).put t
      ⟨slab, .opened (wadd s.buf.generation 1)⟩).Sound := by
  rw [wadd_eq hg]
  have hgood : ∀ th ∈ s.threads,
      th.Good (s.setGeneration (s.buf.generation + 1)).buf s.owner := fun th hm =>
    (h.threads th hm).congr rfl rfl (Nat.le_succ _)
  refine ⟨⟨h.ok.offset, h.ok.capacity⟩, ?_, fun g => ?_,
    fun _ => ⟨fun i y hy => ?_, fun r hr => ?_⟩, fun a ha => ?_, fun a ha => ?_, h.intact⟩
  · exact forall_set hgood ⟨(hgood _ (List.mem_of_getElem? ht)).region, trivial⟩
  · exact (h.carved g).shrink (fun i y hy => (held_bump ht h.threads htag hy).2) rfl
  · have hle : s.buf.generation + 1 ≤ s.buf.generation := (held_bump ht h.threads htag hy).1
    omega
  · obtain ⟨a, ha, rfl⟩ := List.mem_map.mp hr
    obtain ⟨ha, he⟩ := List.mem_filter.mp ha
    have hle := h.tags a ha
    have he' : a.generation = s.buf.generation + 1 := of_decide_eq_true he
    omega
  · exact (h.tags a ha).trans (Nat.le_succ _)
  · refine forall_set (h.zeroed a ha) fun ho => ?_
    have hle := h.tags a ha
    have he : s.buf.generation + 1 = a.generation := Option.some.inj ho
    omega

/-- The zero fill hits nothing of the generation it was for. -/
theorem Sound.wipe (h : s.Sound) {slab : ThreadSlab} (ht : s.threads[t]? = some ⟨slab, .zero g⟩) :
    s.wipe g = s := by
  have hmap : s.served.map (fun a =>
      if a.generation = g ∧ ¬ a.span.Apart s.buf.span then { a with wiped := true } else a) =
      s.served := by
    refine (List.map_congr_left fun a ha => if_neg ?_).trans (List.map_id _)
    rintro ⟨rfl, _⟩
    exact h.zeroed a ha _ (List.mem_of_getElem? ht) rfl
  simp only [AtomicBuffer.wipe, hmap]

/-! ## 4. Steps and runs -/

/-- A slab of the current generation serves or not. -/
theorem Sound.slab (h : s.Sound) {slab : ThreadSlab} {pc : BufPc}
    (ht : s.threads[t]? = some ⟨slab, pc⟩) (hbump : pc ≠ .bump)
    (hm : slab.Matches s.owner s.buf.generation) (hz : s.Zeroed) {size align : Nat}
    (hs : size ≤ maxLockfreeAllocation) (ha : 0 < align) (ha' : align ≤ 2 ^ 63) :
    slab.tryAlloc size align = (none, slab) ∨
      ∃ p slab', slab.tryAlloc size align = (some p, slab') ∧
        ((s.put t ⟨slab', pc⟩).book slab'.generation p size).Sound := by
  obtain ⟨_, h1, h2, _⟩ := (h.threads _ (List.mem_of_getElem? ht)).region hm.2.2 hm.1
  rcases slab.tryAlloc_cases h1 (h2.trans h.ok.capacity) hs ha ha' with hn | ⟨o, ho1, ho2, _, ho⟩
  · exact Or.inl hn
  · exact Or.inr ⟨_, _, ho, h.serve ht hbump hm hz ho1 ho2⟩

/-- The first step of `try_alloc`. -/
theorem Sound.tryAlloc (h : s.Sound) {slab : ThreadSlab} (ht : s.threads[t]? = some ⟨slab, .idle⟩)
    {size align : Nat} (ha : 0 < align) (ha' : align ≤ 2 ^ 63)
    (hz : slab.Matches s.owner s.buf.generation → s.Zeroed) :
    (s.tryAlloc t slab size align).Sound := by
  unfold AtomicBuffer.tryAlloc LockFreeBuffer.tryThreadSlab
  split
  · exact h.count _
  · rename_i hs
    have hs' := Nat.not_lt.mp hs
    by_cases hm : slab.Matches s.owner s.buf.generation
    · rw [if_pos hm]
      rcases h.slab ht (fun h => by cases h) hm (hz hm) hs' ha ha' with hn | ⟨p, slab', hp, hsd⟩
      · rw [hn]
        exact h.goto ht ⟨hs', ha, ha'⟩ rfl (fun h => by cases h) fun _ h => by cases h
      · rw [hp]
        exact hsd.count _
    · rw [if_neg hm]
      exact h.drop ht ⟨hs', ha, ha'⟩ rfl (fun h => by cases h) fun _ h => by cases h

/-- **The step of a thread.** -/
theorem Sound.run (h : s.Sound) {slab : ThreadSlab} {pc : BufPc}
    (ht : s.threads[t]? = some ⟨slab, pc⟩) (hc : s.Calm pc) : (s.run t slab pc).Sound := by
  have hg : pc.Good s.buf := (h.threads _ (List.mem_of_getElem? ht)).pc
  have hidle (hb : pc ≠ .bump) : (s.put t ⟨slab, .idle⟩).Sound :=
    h.goto ht trivial rfl hb fun _ h => by cases h
  have hdrop (hb : pc ≠ .bump) : (s.put t ⟨slab.invalidate, .idle⟩).Sound :=
    h.drop ht trivial rfl hb fun _ h => by cases h
  cases pc with
  | idle => exact h
  | refill size align =>
      simp only [AtomicBuffer.run]
      split
      · exact (hidle fun h => by cases h).count _
      · next h0 => exact h.goto ht ⟨h0, hg⟩ rfl (fun h => by cases h) fun _ h => by cases h
  | load size align =>
      obtain ⟨h0, hs, ha⟩ := hg
      obtain ⟨h1, e⟩ := LockFreeBuffer.refill_bounds h.ok hs
      simp only [AtomicBuffer.run]
      split
      · exact (hidle fun h => by cases h).count _
      · next hfin =>
        refine h.goto ht ⟨h0, hs, ha, h1, ?_, Nat.not_lt.mp hfin⟩ rfl (fun h => by cases h)
          fun _ h => by cases h
        exact Nat.le.intro e.symm
  | exchange current start fin size align =>
      simp only [AtomicBuffer.run]
      split
      · next he =>
        subst he
        exact h.reserve ht (hc rfl)
      · have hload : (s.put t ⟨slab, .load size align⟩).Sound :=
          h.goto ht ⟨hg.1, hg.2.1, hg.2.2.1⟩ rfl (fun h => by cases h) fun _ h => by cases h
        exact hload.count _
  | tag start fin size align =>
      obtain ⟨h0, hs, ⟨ha, ha'⟩, _⟩ := hg
      have hreg := h.region ht
      have ht' : (s.put t ⟨slab.setRegion s.owner s.buf.buffer start fin s.buf.generation,
          .idle⟩).threads[t]? = some ⟨slab.setRegion s.owner s.buf.buffer start fin
          s.buf.generation, .idle⟩ :=
        List.getElem?_set_self (List.getElem?_eq_some_iff.mp ht).1
      have hz : (s.put t ⟨slab.setRegion s.owner s.buf.buffer start fin s.buf.generation,
          .idle⟩).Zeroed :=
        forall_set hc fun h => by cases h
      simp only [AtomicBuffer.run]
      rcases hreg.slab ht' (fun h => by cases h) ⟨rfl, rfl, h0⟩ hz hs ha ha' with
        hn | ⟨p, slab', hp, hsd⟩
      · rw [hn]
        exact hreg.count _
      · rw [hp]
        have hset : (s.put t ⟨slab.setRegion s.owner s.buf.buffer start fin s.buf.generation,
            .idle⟩).put t ⟨slab', .idle⟩ = s.put t ⟨slab', .idle⟩ := by
          simp only [AtomicBuffer.put, List.set_set]
        rw [hset] at hsd
        exact hsd.count _
  | bump => exact h.bump ht hc.1 hc.2
  | opened g =>
      simp only [AtomicBuffer.run]
      split
      · exact (hdrop fun h => by cases h).count _
      · exact h.goto ht trivial rfl (fun h => by cases h) fun _ h => h
  | zero g =>
      simp only [AtomicBuffer.run, h.wipe ht]
      exact (hdrop fun h => by cases h).count _

/-- **One step keeps the buffer sound**, if it meets the condition. -/
theorem Sound.step (h : s.Sound) {s' : AtomicBuffer} {st : RaceStep} (hok : s.Ok st)
    (ho : Orderly s st) (e : s.exec st = some s') : s'.Sound := by
  cases st with
  | tryAlloc t size align =>
      simp only [exec] at e
      split at e
      · next slab ht =>
        cases e
        exact h.tryAlloc ht hok.1 hok.2 (ho _ ht)
      · cases e
  | reset t =>
      simp only [exec] at e
      split at e
      · next slab ht =>
        cases e
        exact h.restart ht
      · cases e
  | run t =>
      obtain ⟨⟨slab, pc⟩, ht, rfl⟩ := Option.map_eq_some_iff.mp e
      exact h.run ht (ho _ ht)

/-- Allocations of one generation are apart. -/
theorem Sound.apart (h : s.Sound) :
    s.served.Pairwise fun a b => a.generation = b.generation → a.span.Apart b.span := by
  have hpair (g : Nat) : s.served.Pairwise fun a b =>
      a.generation = g → b.generation = g → a.span.Apart b.span := by
    have hg := (h.carved g).given
    simp only [carve, List.pairwise_map, List.pairwise_filter, decide_eq_true_eq] at hg
    exact hg
  refine List.pairwise_iff_getElem.mpr fun i j hi hj hij hg => ?_
  exact List.pairwise_iff_getElem.mp (hpair s.served[j].generation) i j hi hj hij hg rfl

end AtomicBuffer

theorem reach_atomic {s : AtomicBuffer} (h : (atomicBuffers.under Orderly).Reach s) : s.Sound := by
  refine h.inv (P := AtomicBuffer.Sound) (fun s hi => ?_) fun s st s' hs hok e => ?_
  · obtain ⟨owner, sys, slabs, hslabs, rfl⟩ := hi
    exact AtomicBuffer.sound_start hslabs
  · exact hs.step hok.1 hok.2 e

/-- **Racing threads on one buffer**: in every run whose steps all meet the condition, allocations
    served from slabs of the same generation are pairwise apart, and none has been overwritten by
    the reset that opened its generation. -/
theorem race_sound {s : AtomicBuffer} (h : (atomicBuffers.under Orderly).Reach s) :
    (s.served.Pairwise fun a b => a.generation = b.generation → a.span.Apart b.span) ∧
      ∀ a ∈ s.served, a.wiped = false :=
  ⟨(reach_atomic h).apart, (reach_atomic h).intact⟩

/-- Two threads refill at the same time, one exchange fails; a third resets, and one refills
    again. -/
theorem race_sound_contended : ∃ s, (atomicBuffers.under Orderly).Reach s ∧
    s.served.map (fun a => (a.generation, a.span.base)) = [(0, 8192), (0, 8448), (1, 8192)] ∧
    ∀ a ∈ s.served, a.wiped = false := by
  obtain ⟨s, hr, hs⟩ := System.exists_reach_of_replay (atomicBuffers.under Orderly)
    [.tryAlloc 0 8 8, .run 0, .run 0, .tryAlloc 1 8 8, .run 1, .run 1,
      .run 0, .run 1, .run 1, .run 1, .run 0, .run 1,
      .reset 2, .run 2, .run 2, .run 2,
      .tryAlloc 1 8 8, .run 1, .run 1, .run 1, .run 1]
    (P := fun s =>
      s.served.map (fun a => (a.generation, a.span.base)) = [(0, 8192), (0, 8448), (1, 8192)])
    (s := .start 1024 (some 8192) [.new, .new, .new])
    ⟨1024, some 8192, [.new, .new, .new], by decide, rfl⟩ (by decide)
  exact ⟨s, hr, hs, (race_sound hr).2⟩

/-- A whole reset between the reservation of a region and its tag: the region has the new
    generation, whose first refill reserves it again. A refill between the store and the bump of a
    reset: the block's first region is reserved twice in the old generation. An allocation between
    the bump and the zero fill of a reset: it is overwritten. -/
theorem race_broken :
    (∃ s, atomicBuffers.Reach s ∧
      s.served = [⟨1, ⟨8192, 8⟩, false⟩, ⟨1, ⟨8192, 8⟩, false⟩]) ∧
    (∃ s, atomicBuffers.Reach s ∧
      s.served = [⟨0, ⟨8192, 8⟩, false⟩, ⟨0, ⟨8192, 8⟩, false⟩]) ∧
    ∃ s, atomicBuffers.Reach s ∧ s.served = [⟨1, ⟨8192, 8⟩, true⟩] := by
  have hinit : atomicBuffers.init (.start 1024 (some 8192) [.new, .new, .new]) :=
    ⟨1024, some 8192, [.new, .new, .new], by decide, rfl⟩
  refine ⟨?_, ?_, ?_⟩
  · exact System.exists_reach_of_replay atomicBuffers
      [.tryAlloc 0 8 8, .run 0, .run 0, .run 0,
        .reset 1, .run 1, .run 1, .run 1,
        .run 0, .tryAlloc 1 8 8, .run 1, .run 1, .run 1, .run 1] hinit (by decide)
  · exact System.exists_reach_of_replay atomicBuffers
      [.tryAlloc 0 8 8, .run 0, .run 0, .run 0, .run 0,
        .reset 1, .tryAlloc 2 8 8, .run 2, .run 2, .run 2, .run 2] hinit (by decide)
  · exact System.exists_reach_of_replay atomicBuffers
      [.reset 1, .run 1, .tryAlloc 0 8 8, .run 0, .run 0, .run 0, .run 0, .run 1, .run 1] hinit
      (by decide)

end ArenaB
