/-
  File:      ArenaB/LockFree/WeakBuffer.lean
  Subject:   `LockFreeBuffer` on weak memory: `try_alloc` and `reset` of any number of threads,
             whose loads may be old.

  On memory where a load returns the last value, it is enough that no call overlaps a reset in
  time. On weak memory it is not: a thread that does not know of a reset still reads the old
  generation, and serves from a slab that is no longer its own (`weak_buffer_needs`). The caller has
  to make the reset known to every thread before its next call, and every call known to the thread
  that resets -- as the exclusive borrow of `Arena::reset` does.

  Then the buffer behaves as on the other memory, WHATEVER the memory orders: a reservation is a
  compare-exchange, which never reads an old value, and an old offset only sends a thread round its
  loop once more. The proof is a simulation: a thread with an offset that it has loaded stands for
  one that is yet to load it.

  * `BufLoc`, `BufOrders`, `WeakBuffer` -- the state. The pointer `buffer` is written once, before
    the threads; the zero fill and what the callers write are not atomic, and race if the writer has
    not seen the other;
  * `Alone` -- no call overlaps a reset in time; `Synced` -- and each has seen the other;
  * `Sim`, **`reach_sim`** -- the steps of `AtomicBuffer`, in the same order;
  * **`weak_buffer_sound`**.
-/
import ArenaB.Base.Views
import ArenaB.LockFree.Race

namespace ArenaB

open Base

/-! ## 1. Steps -/

/-- What is written: the two atomics, the bytes of the block, and what each thread writes to its
    allocations. -/
inductive BufLoc where
  | offset
  | generation
  | block
  | uses (t : Nat)
  deriving DecidableEq, Repr

/-- The memory orders. -/
structure BufOrders where
  slabLoad : MemOrder
  offsetLoad : MemOrder
  exchange : MemOrder
  exchangeFail : MemOrder
  tagLoad : MemOrder
  resetStore : MemOrder
  resetBump : MemOrder

/-- Those of the source. -/
def BufOrders.source : BufOrders where
  slabLoad := .acquire
  offsetLoad := .acquire
  exchange := .acqRel
  exchangeFail := .acquire
  tagLoad := .acquire
  resetStore := .release
  resetBump := .acqRel

/-- A thread: its slab, where it is, what it has seen. -/
structure WeakBufThread where
  slab : ThreadSlab
  pc : BufPc
  view : View BufLoc

/-- The buffer at address `owner` and its threads. No step reads the last three fields: what was
    handed out since the last reset began, the place of its store to `offset`, and whether two
    accesses to the block raced. -/
structure WeakBuffer where
  owner : Nat
  buffer : Nat
  capacity : Nat
  mem : Messages BufLoc Nat
  threads : List WeakBufThread
  live : List Span
  since : Nat
  raced : Bool

/-- The scheduler's choice. A load reads message `choice` of its location. -/
inductive WeakBufStep where
  | tryAlloc (t size align choice : Nat)
  | reset (t : Nat)
  | run (t choice : Nat) (spurious : Bool)
  /-- The callers make what thread `t` has seen known to thread `u`. -/
  | sync (t u : Nat)

namespace WeakBuffer

/-- Thread `t` goes on. -/
def put (s : WeakBuffer) (t : Nat) (th : WeakBufThread) : WeakBuffer :=
  { s with threads := s.threads.set t th }

/-- A pointer is handed out and used. -/
def serve (s : WeakBuffer) (t : Nat) (slab : ThreadSlab) (p size : Nat) (v : View BufLoc) :
    WeakBuffer :=
  let r := s.mem.store .relaxed v (.uses t) 0
  { s with
    mem := r.1
    threads := s.threads.set t ⟨slab, .idle, r.2⟩
    live := s.live ++ [⟨p, size⟩]
    raced := s.raced || !decide (s.mem.Covers v .block) }

/-- The offset is exchanged for the end of a region. -/
def reserve (s : WeakBuffer) (t : Nat) (slab : ThreadSlab) (pc : BufPc)
    (r : Messages BufLoc Nat × View BufLoc) : WeakBuffer :=
  { s with mem := r.1, threads := s.threads.set t ⟨slab, pc, r.2⟩ }

/-- The view knows every write to the block. -/
def Clear (s : WeakBuffer) (v : View BufLoc) : Prop :=
  s.mem.Covers v .block ∧ ∀ i < s.threads.length, s.mem.Covers v (.uses i)

instance (s : WeakBuffer) (v : View BufLoc) : Decidable (s.Clear v) :=
  inferInstanceAs (Decidable (_ ∧ _))

/-- The zero fill, at the end of a reset. -/
def fill (s : WeakBuffer) (t : Nat) (slab : ThreadSlab) (v : View BufLoc) : WeakBuffer :=
  let r := s.mem.store .relaxed v .block 0
  { s with
    mem := r.1
    threads := s.threads.set t ⟨slab.invalidate, .idle, r.2⟩
    raced := s.raced || !decide (s.Clear v) }

/-- The first step of a reset. -/
def restart (o : BufOrders) (s : WeakBuffer) (t : Nat) (slab : ThreadSlab) (v : View BufLoc) :
    WeakBuffer :=
  let r := s.mem.store o.resetStore v .offset 0
  { s with
    mem := r.1
    threads := s.threads.set t ⟨slab, .bump, r.2⟩
    live := []
    since := (s.mem .offset).length }

/-- `try_alloc` up to the load of `generation` and the slab path. -/
def tryAlloc (o : BufOrders) (s : WeakBuffer) (t : Nat) (slab : ThreadSlab) (v : View BufLoc)
    (size align choice : Nat) : Option WeakBuffer :=
  if size > maxLockfreeAllocation then some s
  else
    (s.mem.load o.slabLoad v .generation choice).map fun r =>
      if slab.Matches s.owner r.1 then
        match slab.tryAlloc size align with
        | (some p, slab) => s.serve t slab p size r.2
        | (none, slab) => s.put t ⟨slab, .refill size align, r.2⟩
      else s.put t ⟨slab.invalidate, .refill size align, r.2⟩

/-- The region a refill asks for, given the offset. -/
def region (size current : Nat) : Nat × Nat :=
  let start := alignUp current lockfreeAlignment
  (start, wadd start (alignUp (max size slabMinBlock) lockfreeAlignment))

/-- The next step of thread `t`, which has the given slab and view and is at the given place. -/
def run (o : BufOrders) (s : WeakBuffer) (t choice : Nat) (spurious : Bool) (slab : ThreadSlab)
    (v : View BufLoc) : BufPc → Option WeakBuffer
  | .idle => none
  | .refill size align =>
      some (s.put t ⟨slab, if s.buffer = 0 then .idle else .load size align, v⟩)
  | .load size align =>
      (s.mem.load o.offsetLoad v .offset choice).map fun r =>
        let region := region size r.1
        if region.2 > s.capacity then s.put t ⟨slab, .idle, r.2⟩
        else s.put t ⟨slab, .exchange r.1 region.1 region.2 size align, r.2⟩
  | .exchange current start fin size align =>
      if s.mem.latest .offset = some current ∧ spurious = false then
        (s.mem.exchange o.exchange v .offset fin).map
          (s.reserve t slab (.tag start fin size align))
      else
        (s.mem.load o.exchangeFail v .offset choice).map fun r =>
          s.put t ⟨slab, .load size align, r.2⟩
  | .tag start fin size align =>
      (s.mem.load o.tagLoad v .generation choice).map fun r =>
        match (slab.setRegion s.owner s.buffer start fin r.1).tryAlloc size align with
        | (some p, slab) => s.serve t slab p size r.2
        | (none, slab) => s.put t ⟨slab, .idle, r.2⟩
  | .bump =>
      (s.mem.latest .generation).bind fun g =>
        (s.mem.exchange o.resetBump v .generation (wadd g 1)).map
          (s.reserve t slab (.opened (wadd g 1)))
  | .opened g =>
      some (if s.buffer = 0 then s.put t ⟨slab.invalidate, .idle, v⟩
        else s.put t ⟨slab, .zero g, v⟩)
  | .zero _ => some (s.fill t slab v)

/-- One step of the system. -/
def exec (o : BufOrders) (s : WeakBuffer) : WeakBufStep → Option WeakBuffer
  | .tryAlloc t size align choice =>
      match s.threads[t]? with
      | some ⟨slab, .idle, v⟩ => s.tryAlloc o t slab v size align choice
      | _ => none
  | .reset t =>
      match s.threads[t]? with
      | some ⟨slab, .idle, v⟩ => some (s.restart o t slab v)
      | _ => none
  | .run t choice spurious =>
      s.threads[t]?.bind fun th => s.run o t choice spurious th.slab th.view th.pc
  | .sync t u =>
      s.threads[t]?.bind fun a => s.threads[u]?.map fun b =>
        s.put u ⟨b.slab, b.pc, b.view ⊔ a.view⟩

/-- Alignments are those of layouts. -/
def Ok (_ : WeakBuffer) : WeakBufStep → Prop
  | .tryAlloc _ _ align _ => 0 < align ∧ align ≤ 2 ^ 63
  | _ => True

instance (s : WeakBuffer) : (st : WeakBufStep) → Decidable (s.Ok st)
  | .tryAlloc _ _ align _ => inferInstanceAs (Decidable (0 < align ∧ align ≤ 2 ^ 63))
  | .reset _ => isTrue trivial
  | .run _ _ _ => isTrue trivial
  | .sync _ _ => isTrue trivial

/-- A new buffer and idle threads, whose slabs may be on other buffers. -/
def start (owner : Nat) (sys : Option Nat) (slabs : List ThreadSlab) : WeakBuffer where
  owner := owner
  buffer := (LockFreeBuffer.new sys).buffer
  capacity := (LockFreeBuffer.new sys).capacity
  mem := fun _ => [⟨0, ⊥⟩]
  threads := slabs.map fun slab => ⟨slab, .idle, ⊥⟩
  live := []
  since := 0
  raced := false

end WeakBuffer

/-- The runs of any number of threads on a new buffer. -/
def weakBuffers (o : BufOrders) : System WeakBuffer WeakBufStep where
  init s := ∃ owner sys slabs, (∀ slab ∈ slabs, slab.base ≠ 0 → slab.owner ≠ owner) ∧
    s = .start owner sys slabs
  ok := WeakBuffer.Ok
  step := WeakBuffer.exec o

instance (o : BufOrders) (s : WeakBuffer) (st : WeakBufStep) :
    Decidable ((weakBuffers o).ok s st) :=
  inferInstanceAs (Decidable (s.Ok st))

/-! ## 2. What the callers see to -/

namespace BufPc

/-- The thread is in a reset. -/
def resetting : BufPc → Bool
  | .bump => true
  | .opened _ => true
  | .zero _ => true
  | _ => false

/-- The thread is in a refill. -/
def refilling : BufPc → Bool
  | .refill _ _ => true
  | .load _ _ => true
  | .exchange _ _ _ _ _ => true
  | .tag _ _ _ _ => true
  | _ => false

end BufPc

namespace WeakBuffer

/-- The view knows of the last reset: of its store, its generation and its zero fill. -/
def Knows (s : WeakBuffer) (v : View BufLoc) : Prop :=
  s.since ≤ v .offset ∧ s.mem.Covers v .generation ∧ s.mem.Covers v .block

instance (s : WeakBuffer) (v : View BufLoc) : Decidable (s.Knows v) :=
  inferInstanceAs (Decidable (_ ∧ _ ∧ _))

theorem Knows.mono {s : WeakBuffer} {v w : View BufLoc} (h : s.Knows v) (hv : v ≤ w) : s.Knows w :=
  ⟨h.1.trans (hv _), h.2.1.mono hv, h.2.2.mono hv⟩

/-- No call overlaps a reset in time, and no generation wraps. -/
def Alone (s : WeakBuffer) : WeakBufStep → Prop
  | .tryAlloc _ _ _ _ => ∀ th ∈ s.threads, th.pc.resetting = false
  | .reset _ => ∀ th ∈ s.threads, th.pc = .idle
  | .run t _ _ => ∀ th ∈ s.threads[t]?, th.pc = .bump →
      ∀ g ∈ s.mem.latest .generation, g + 1 < wordMod
  | .sync _ _ => True

instance (s : WeakBuffer) : (st : WeakBufStep) → Decidable (s.Alone st)
  | .tryAlloc _ _ _ _ => inferInstanceAs (Decidable (∀ th ∈ s.threads, _))
  | .reset _ => inferInstanceAs (Decidable (∀ th ∈ s.threads, _))
  | .run t _ _ => inferInstanceAs (Decidable (∀ th ∈ s.threads[t]?, _ → ∀ g ∈ _, _))
  | .sync _ _ => isTrue trivial

/-- A call knows of the last reset, a reset of all calls. -/
def Synced (s : WeakBuffer) : WeakBufStep → Prop
  | .tryAlloc t _ _ _ => ∀ th ∈ s.threads[t]?, s.Knows th.view
  | .reset t => ∀ th ∈ s.threads[t]?, s.mem.Covers th.view .offset ∧
      s.mem.Covers th.view .generation ∧ s.Clear th.view
  | _ => True

instance (s : WeakBuffer) : (st : WeakBufStep) → Decidable (s.Synced st)
  | .tryAlloc t _ _ _ => inferInstanceAs (Decidable (∀ th ∈ s.threads[t]?, _))
  | .reset t => inferInstanceAs (Decidable (∀ th ∈ s.threads[t]?, _))
  | .run _ _ _ => isTrue trivial
  | .sync _ _ => isTrue trivial

/-- Both. -/
def Exclusive (s : WeakBuffer) (st : WeakBufStep) : Prop := s.Alone st ∧ s.Synced st

instance (s : WeakBuffer) (st : WeakBufStep) : Decidable (s.Exclusive st) :=
  inferInstanceAs (Decidable (_ ∧ _))

end WeakBuffer

/-- With the orders of the source and no overlap in time: thread 0 has a slab and thread 1 resets;
    thread 0, which does not know, serves from its slab what thread 1 serves from a new region. -/
theorem weak_buffer_needs : ∃ s, ((weakBuffers .source).under WeakBuffer.Alone).Reach s ∧
    s.live = [⟨8192, 8⟩, ⟨8200, 8⟩, ⟨8200, 8⟩] := by
  refine System.exists_reach_of_replay ((weakBuffers .source).under WeakBuffer.Alone)
    [.tryAlloc 0 8 8 0, .run 0 0 false, .run 0 0 false, .run 0 0 false, .run 0 0 false,
      .sync 0 1, .reset 1, .run 1 0 false, .run 1 0 false, .run 1 0 false,
      .tryAlloc 1 8 8 1, .run 1 0 false, .run 1 2 false, .run 1 0 false, .run 1 1 false,
      .tryAlloc 1 8 8 1, .tryAlloc 0 8 8 0]
    (P := fun s => s.live = [⟨8192, 8⟩, ⟨8200, 8⟩, ⟨8200, 8⟩])
    (s := .start 1024 (some 8192) [.new, .new])
    ⟨1024, some 8192, [.new, .new], by decide, rfl⟩ (by decide)

/-! ## 3. The simulation -/

namespace BufPc

/-- A thread that has loaded the offset stands for one that is yet to load it. -/
def unloaded : BufPc → BufPc
  | .exchange _ _ _ size align => .load size align
  | pc => pc

/-- The region of an exchange is that of the offset it loaded. -/
def Planned (capacity : Nat) : BufPc → Prop
  | .exchange current start fin size _ =>
      WeakBuffer.region size current = (start, fin) ∧ fin ≤ capacity
  | _ => True

theorem unloaded_eq_bump {pc : BufPc} : pc.unloaded = .bump ↔ pc = .bump := by
  cases pc <;> simp [unloaded]

theorem unloaded_eq_idle {pc : BufPc} : pc.unloaded = .idle ↔ pc = .idle := by
  cases pc <;> simp [unloaded]

/-- Outside a reset nothing is opened. -/
theorem opening_unloaded {pc : BufPc} (h : pc.resetting = false) : pc.unloaded.opening = none := by
  cases pc <;> first | rfl | cases h

end BufPc

/-- The thread on the other memory. -/
def WeakBufThread.atomic (th : WeakBufThread) : BufThread := ⟨th.slab, th.pc.unloaded⟩

/-- **The simulation relation**: the same buffer, threads and allocations, where the offset has only
    risen since the last reset, a refill knows of that reset, and a reset is alone and knows all. -/
structure Sim (s : WeakBuffer) (a : AtomicBuffer) : Prop where
  owner : a.owner = s.owner
  buffer : a.buf.buffer = s.buffer
  capacity : a.buf.capacity = s.capacity
  offset : s.mem.latest .offset = some a.buf.offset
  generation : s.mem.latest .generation = some a.buf.generation
  threads : a.threads = s.threads.map WeakBufThread.atomic
  live : a.Settled → s.live = (a.carve a.buf.generation).given
  none : ¬ a.Settled → s.live = []
  inside : ∀ p ∈ s.live, p.Inside ⟨s.buffer, s.capacity⟩
  rising : ∀ (i j : Nat) (x y : Message BufLoc Nat), s.since ≤ i → i ≤ j →
    (s.mem .offset)[i]? = some x → (s.mem .offset)[j]? = some y → x.val ≤ y.val
  refills : ∀ (t : Nat) (th : WeakBufThread), s.threads[t]? = some th →
    th.pc.refilling = true → s.Knows th.view ∧ th.pc.Planned s.capacity
  resets : ∀ (t : Nat) (th : WeakBufThread), s.threads[t]? = some th →
    th.pc.resetting = true → s.mem.Covers th.view .generation ∧ s.Clear th.view
  alone : ∀ (t : Nat) (th : WeakBufThread), s.threads[t]? = some th → th.pc.resetting = true →
    ∀ (u : Nat) (th' : WeakBufThread), s.threads[u]? = some th' → u ≠ t → th'.pc = .idle
  raced : s.raced = false

namespace Sim

variable {s : WeakBuffer} {a : AtomicBuffer} {t : Nat} {th th' : WeakBufThread} {o : MemOrder}
  {v : View BufLoc} {choice : Nat} {r : Nat × View BufLoc}

theorem thread (h : Sim s a) (ht : s.threads[t]? = some th) : a.threads[t]? = some th.atomic := by
  rw [h.threads, List.getElem?_map, ht]
  rfl

theorem mem_threads (h : Sim s a) {b : BufThread} (hb : b ∈ a.threads) :
    ∃ (u : Nat) (th : WeakBufThread), s.threads[u]? = some th ∧ b = th.atomic := by
  rw [h.threads] at hb
  obtain ⟨th, hth, rfl⟩ := List.mem_map.mp hb
  obtain ⟨u, hu⟩ := List.mem_iff_getElem?.mp hth
  exact ⟨u, th, hu, rfl⟩

/-- The counters are not compared. -/
theorem count (h : Sim s a) (f : LockFreeStats → LockFreeStats) : Sim s (a.count f) :=
  ⟨h.owner, h.buffer, h.capacity, h.offset, h.generation, h.threads, h.live, h.none, h.inside,
    h.rising, h.refills, h.resets, h.alone, h.raced⟩

/-- A thread that knows of the last reset loads the current generation. -/
theorem load_generation (h : Sim s a) (hv : s.mem.Covers v .generation)
    (e : s.mem.load o v .generation choice = some r) : r.1 = a.buf.generation := by
  have hl := hv.load_latest e
  rw [h.generation] at hl
  exact (Option.some.inj hl).symm

/-- It loads an offset that was there since. -/
theorem load_offset (h : Sim s a) (hv : s.since ≤ v .offset)
    (e : s.mem.load o v .offset choice = some r) : r.1 ≤ a.buf.offset := by
  obtain ⟨y, hy, hr, hle, _⟩ := Messages.load_eq_some e
  have hoff := h.offset
  unfold Messages.latest at hoff
  obtain ⟨z, hz, hval⟩ := Option.map_eq_some_iff.mp hoff
  rw [List.getLast?_eq_getElem?] at hz
  have hlt := (List.getElem?_eq_some_iff.mp hy).1
  rw [hr, ← hval]
  exact h.rising choice _ y z (hv.trans hle) (by omega) hy hz

/-- A thread in a call is not beside a reset. -/
theorem others (h : Sim s a) (ht : s.threads[t]? = some th) (hpc : th.pc ≠ .idle) (u : Nat)
    (thu : WeakBufThread) (hu : u ≠ t) (hget : s.threads[u]? = some thu) :
    thu.pc.resetting = false := by
  by_contra hr
  exact hpc (h.alone u thu hget (by simpa using hr) t th ht (Ne.symm hu))

/-- Outside resets, nothing is between store and bump, and nothing is to be zero-filled. -/
theorem settled (h : Sim s a)
    (hno : ∀ (u : Nat) (thu : WeakBufThread), s.threads[u]? = some thu → thu.pc.resetting = false) :
    a.Settled ∧ a.Zeroed := by
  constructor
  · intro b hb
    obtain ⟨u, thu, hu, rfl⟩ := h.mem_threads hb
    intro e
    have hr := hno u thu hu
    rw [BufPc.unloaded_eq_bump.mp e] at hr
    cases hr
  · intro b hb
    obtain ⟨u, thu, hu, rfl⟩ := h.mem_threads hb
    rw [show thu.atomic.pc.opening = Option.none from BufPc.opening_unloaded (hno u thu hu)]
    exact fun e => by cases e

/-- The threads after one has moved. -/
theorem set_threads (h : Sim s a) (th' : WeakBufThread) :
    a.threads.set t th'.atomic = (s.threads.set t th').map WeakBufThread.atomic := by
  rw [h.threads, List.map_set]

/-- A reset is between store and bump as before. -/
theorem settled_set (h : Sim s a) (ht : s.threads[t]? = some th) (th' : WeakBufThread)
    (hb : th'.pc = .bump ↔ th.pc = .bump) : (a.put t th'.atomic).Settled ↔ a.Settled := by
  have hiff : th'.atomic.pc ≠ .bump ↔ th.atomic.pc ≠ .bump :=
    not_congr ((BufPc.unloaded_eq_bump.trans hb).trans BufPc.unloaded_eq_bump.symm)
  have hget := h.thread ht
  have hlt := (List.getElem?_eq_some_iff.mp hget).1
  constructor
  · exact fun hs => forall_mem_of_set hget (hiff.mp (hs _ (List.mem_set hlt _))) hs
  · exact fun hs => forall_set hs (hiff.mpr (hs _ (List.mem_of_getElem? hget)))

/-- A reset stays alone when a thread moves: it is the thread itself, or the thread is idle. -/
theorem alone_set (h : Sim s a) (ht : s.threads[t]? = some th)
    (hno : th'.pc = .idle ∨ ∀ (u : Nat) (thu : WeakBufThread), u ≠ t → s.threads[u]? = some thu →
      thu.pc.resetting = false)
    (hreset : th'.pc.resetting = true → th.pc.resetting = true) :
    ∀ (i : Nat) (b : WeakBufThread), (s.threads.set t th')[i]? = some b → b.pc.resetting = true →
      ∀ (u : Nat) (b' : WeakBufThread), (s.threads.set t th')[u]? = some b' → u ≠ i →
        b'.pc = .idle := by
  refine forall_getElem?_set (fun hr u b' hu hne => ?_) fun i b hi hb hr =>
    forall_getElem?_set (fun _ => ?_) fun u b' _ hu hne => h.alone i b hb hr u b' hu hne
  · rw [List.getElem?_set_ne (Ne.symm hne)] at hu
    exact h.alone t th ht (hreset hr) u b' hu hne
  · rcases hno with hidle | hno
    · exact hidle
    · rw [hno i b hi hb] at hr
      cases hr

/-- **A thread moves on its own**, and reads at most. -/
theorem put (h : Sim s a) (ht : s.threads[t]? = some th) (th' : WeakBufThread)
    (hb : th'.pc = .bump ↔ th.pc = .bump)
    (hno : th'.pc = .idle ∨ ∀ (u : Nat) (thu : WeakBufThread), u ≠ t → s.threads[u]? = some thu →
      thu.pc.resetting = false)
    (hrefill : th'.pc.refilling = true → s.Knows th'.view ∧ th'.pc.Planned s.capacity)
    (hreset : th'.pc.resetting = true → th.pc.resetting = true ∧ th.view ≤ th'.view) :
    Sim (s.put t th') (a.put t th'.atomic) := by
  have hset := h.settled_set ht th' hb
  have hlen : (s.put t th').threads.length = s.threads.length := List.length_set
  refine ⟨h.owner, h.buffer, h.capacity, h.offset, h.generation, h.set_threads th',
    fun hs => h.live (hset.mp hs), fun hs => h.none (mt hset.mpr hs), h.inside, h.rising,
    forall_getElem?_set hrefill fun u thu _ hu => h.refills u thu hu, ?_,
    h.alone_set ht hno fun hr => (hreset hr).1, h.raced⟩
  refine forall_getElem?_set (fun hr => ?_) fun u thu _ hu hr => ?_
  · obtain ⟨hr', hle⟩ := hreset hr
    obtain ⟨hg, hc⟩ := h.resets t th ht hr'
    refine ⟨hg.mono hle, hc.1.mono hle, fun i hi => (hc.2 i ?_).mono hle⟩
    rwa [hlen] at hi
  · obtain ⟨hg, hc⟩ := h.resets u thu hu hr
    exact ⟨hg, hc.1, fun i hi => hc.2 i (by rwa [hlen] at hi)⟩

/-- A thread that has not moved on the other memory. -/
theorem stay (h : Sim s a) (ht : s.threads[t]? = some th) (hat : th'.atomic = th.atomic)
    (hrefill : th'.pc.refilling = true → s.Knows th'.view ∧ th'.pc.Planned s.capacity)
    (hreset : th'.pc.resetting = true → th.pc.resetting = true ∧ th.view ≤ th'.view) :
    Sim (s.put t th') a := by
  have hpc : th'.pc.unloaded = th.pc.unloaded := congrArg BufThread.pc hat
  have hb : th'.pc = .bump ↔ th.pc = .bump := by
    rw [← BufPc.unloaded_eq_bump, hpc, BufPc.unloaded_eq_bump]
  have hput : a.put t th'.atomic = a := by
    have hmap := map_set_self (f := id) (h.thread ht) (congrArg id hat)
    rw [List.map_id, List.map_id] at hmap
    simp only [AtomicBuffer.put, hmap]
  rw [← hput]
  refine h.put ht th' hb ?_ hrefill hreset
  by_cases hidle : th.pc = .idle
  · exact Or.inl (BufPc.unloaded_eq_idle.mp (by rw [hpc, hidle]; rfl))
  · exact Or.inr fun u thu hu hget => h.others ht hidle u thu hu hget

/-- **A thread is served** from a slab of the current generation. -/
theorem serve (h : Sim s a) (ht : s.threads[t]? = some th)
    (hno : ∀ (u : Nat) (thu : WeakBufThread), s.threads[u]? = some thu → thu.pc.resetting = false)
    (hv : s.mem.Covers v .block) {slab : ThreadSlab} {p size : Nat}
    (hgen : slab.generation = a.buf.generation)
    (hin : Span.Inside ⟨p, size⟩ ⟨s.buffer, s.capacity⟩) :
    Sim (s.serve t slab p size v) ((a.put t ⟨slab, .idle⟩).book slab.generation p size) := by
  have hbump : th.pc ≠ .bump := by
    intro e
    have hr := hno t th ht
    rw [e] at hr
    cases hr
  have hne : ∀ l, l ≠ .uses t → (s.serve t slab p size v).mem l = s.mem l := fun l hl =>
    Messages.store_of_ne s.mem .relaxed v 0 hl
  have hoff := hne .offset (fun e => by cases e)
  have hg := hne .generation (fun e => by cases e)
  have hblk := hne .block (fun e => by cases e)
  have hset := (h.settled hno).1
  have hset' : ((a.put t ⟨slab, .idle⟩).book slab.generation p size).Settled :=
    forall_set hset fun e => by cases e
  refine ⟨h.owner, h.buffer, h.capacity, ?_, ?_, ?_, fun _ => ?_, fun hs => absurd hset' hs, ?_, ?_,
    ?_, ?_, ?_, ?_⟩
  · rw [Messages.latest, hoff]
    exact h.offset
  · rw [Messages.latest, hg]
    exact h.generation
  · exact h.set_threads ⟨slab, .idle, _⟩
  · have hlive := h.live hset
    show s.live ++ [⟨p, size⟩] = _
    rw [AtomicBuffer.carve_book]
    show s.live ++ [⟨p, size⟩] = (a.carve a.buf.generation).given ++
      (if slab.generation = a.buf.generation then some (⟨p, size⟩ : Span) else Option.none).toList
    rw [if_pos hgen, hlive]
    rfl
  · intro q hq
    rcases List.mem_append.mp hq with hq | hq
    · exact h.inside q hq
    · rw [List.mem_singleton.mp hq]
      exact hin
  · rw [hoff]
    exact h.rising
  · refine forall_getElem?_set (fun hr => by cases hr) fun u thu _ hu hr => ?_
    obtain ⟨⟨h1, h2, h3⟩, hplan⟩ := h.refills u thu hu hr
    exact ⟨⟨h1, h2.congr hg, h3.congr hblk⟩, hplan⟩
  · refine forall_getElem?_set (fun hr => by cases hr) fun u thu _ hu hr => ?_
    rw [hno u thu hu] at hr
    cases hr
  · exact h.alone_set ht (Or.inl rfl) fun hr => by cases hr
  · show (s.raced || !decide (s.mem.Covers v .block)) = false
    rw [h.raced, decide_eq_true hv]
    rfl

/-- **A region is reserved.** -/
theorem reserve (h : Sim s a) (ht : s.threads[t]? = some th)
    (hno : ∀ (u : Nat) (thu : WeakBufThread), s.threads[u]? = some thu → thu.pc.resetting = false)
    (hknows : s.Knows th.view) {fin : Nat} (hle : a.buf.offset ≤ fin) {o : MemOrder}
    {m : Messages BufLoc Nat × View BufLoc} (e : s.mem.exchange o th.view .offset fin = some m)
    (start size align : Nat) :
    Sim (s.reserve t th.slab (.tag start fin size align) m)
      ((a.setOffset fin).put t ⟨th.slab, .tag start fin size align⟩) := by
  obtain ⟨y, z, _, hm, hz, hv, _⟩ := Messages.exchange_eq_some e
  have hne : ∀ l, l ≠ .offset → m.1 l = s.mem l := fun l hl => by
    rw [hm]
    exact Messages.post_of_ne s.mem z hl
  have hoff : m.1 .offset = s.mem .offset ++ [z] := by
    rw [hm]
    exact Messages.post_self s.mem .offset z
  have hg := hne .generation (fun e => by cases e)
  have hblk := hne .block (fun e => by cases e)
  have hset := (h.settled hno).1
  have hset' : ((a.setOffset fin).put t ⟨th.slab, .tag start fin size align⟩).Settled :=
    forall_set hset fun e => by cases e
  have hlatest : m.1.latest .offset = some fin := by
    rw [hm, Messages.latest_post, hz]
  refine ⟨h.owner, h.buffer, h.capacity, hlatest, ?_,
    h.set_threads ⟨th.slab, .tag start fin size align, m.2⟩, fun _ => h.live hset,
    fun hs => absurd hset' hs, h.inside, ?_, ?_, ?_, ?_, h.raced⟩
  · show m.1.latest .generation = _
    rw [Messages.latest, hg]
    exact h.generation
  · -- the new offset is above all there were since
    intro i j x y' hi hij hx hy
    have hx' : (s.mem .offset ++ [z])[i]? = some x := hoff ▸ hx
    have hy' : (s.mem .offset ++ [z])[j]? = some y' := hoff ▸ hy
    have hoffset := h.offset
    unfold Messages.latest at hoffset
    obtain ⟨w, hw, hval⟩ := Option.map_eq_some_iff.mp hoffset
    rw [List.getLast?_eq_getElem?] at hw
    rw [getElem?_concat_iff] at hx' hy'
    rcases hy' with hy' | ⟨hj, rfl⟩
    · rcases hx' with hx' | ⟨hi', _⟩
      · exact h.rising i j x y' hi hij hx' hy'
      · have := (List.getElem?_eq_some_iff.mp hy').1
        omega
    · rcases hx' with hx' | ⟨_, rfl⟩
      · have hlt := (List.getElem?_eq_some_iff.mp hx').1
        have := h.rising i _ x w hi (by omega) hx' hw
        rw [hz]
        omega
      · exact Nat.le_refl _
  · refine forall_getElem?_set (fun _ => ⟨?_, trivial⟩) fun u thu _ hu hr => ?_
    · exact ⟨hknows.1.trans (hv .offset), (hknows.2.1.mono hv).congr hg,
        (hknows.2.2.mono hv).congr hblk⟩
    · obtain ⟨⟨h1, h2, h3⟩, hplan⟩ := h.refills u thu hu hr
      exact ⟨⟨h1, h2.congr hg, h3.congr hblk⟩, hplan⟩
  · refine forall_getElem?_set (fun hr => by cases hr) fun u thu _ hu hr => ?_
    rw [hno u thu hu] at hr
    cases hr
  · exact h.alone_set ht (Or.inr fun u thu _ hu => hno u thu hu) fun hr => by cases hr

/-- **A reset begins**, alone and knowing all. -/
theorem restart (h : Sim s a) {slab : ThreadSlab} (ht : s.threads[t]? = some ⟨slab, .idle, v⟩)
    (hidle : ∀ th ∈ s.threads, th.pc = .idle) (hg : s.mem.Covers v .generation)
    (hc : s.Clear v) (o : BufOrders) :
    Sim (s.restart o t slab v) ((a.setOffset 0).put t ⟨slab, .bump⟩) := by
  have hne : ∀ l, l ≠ .offset → (s.restart o t slab v).mem l = s.mem l := fun l hl =>
    Messages.store_of_ne s.mem o.resetStore v 0 hl
  have hlt : t < a.threads.length := (List.getElem?_eq_some_iff.mp (h.thread ht)).1
  refine ⟨h.owner, h.buffer, h.capacity, Messages.latest_store _ _ _ _ _, ?_,
    h.set_threads ⟨slab, .bump, _⟩, fun hs => ?_, fun _ => rfl, (fun p hp => by cases hp),
    ?_, ?_, ?_, ?_, h.raced⟩
  · rw [Messages.latest, hne .generation (fun e => by cases e)]
    exact h.generation
  · exact absurd rfl (hs ⟨slab, .bump⟩ (List.mem_set hlt _))
  · -- the only offset since is the one just stored
    intro i j x y hi hij hx hy
    have hoff : (s.restart o t slab v).mem .offset = s.mem .offset ++ [_] :=
      Messages.post_self s.mem .offset _
    rw [hoff, getElem?_concat_iff] at hx hy
    have hi' : (s.mem .offset).length ≤ i := hi
    rcases hx with hx | ⟨_, rfl⟩
    · have := (List.getElem?_eq_some_iff.mp hx).1
      omega
    · rcases hy with hy | ⟨_, rfl⟩
      · have := (List.getElem?_eq_some_iff.mp hy).1
        omega
      · exact Nat.le_refl _
  · refine forall_getElem?_set (fun hr => by cases hr) fun u thu _ hu hr => ?_
    rw [hidle thu (List.mem_of_getElem? hu)] at hr
    cases hr
  · refine forall_getElem?_set (fun _ => ⟨hg.store _ _ _, hc.1.store _ _ _, fun i hi => ?_⟩)
      fun u thu _ hu hr => ?_
    · refine (hc.2 i ?_).store _ _ _
      rwa [show (s.restart o t slab v).threads.length = s.threads.length from List.length_set] at hi
    · rw [hidle thu (List.mem_of_getElem? hu)] at hr
      cases hr
  · refine forall_getElem?_set (fun _ u thu hu hne' => ?_) fun u thu _ hu hr => ?_
    · have hu' : (s.threads.set t ⟨slab, .bump, _⟩)[u]? = some thu := hu
      rw [List.getElem?_set_ne (Ne.symm hne')] at hu'
      exact hidle thu (List.mem_of_getElem? hu')
    · rw [hidle thu (List.mem_of_getElem? hu)] at hr
      cases hr

/-- Beside a reset nobody refills. -/
theorem not_refilling (h : Sim s a) (ht : s.threads[t]? = some th) (hr : th.pc.resetting = true)
    (hr' : th'.pc.refilling = false) {P : WeakBufThread → Prop} :
    ∀ (u : Nat) (thu : WeakBufThread), (s.threads.set t th')[u]? = some thu →
      thu.pc.refilling = true → P thu := by
  refine forall_getElem?_set (fun hp => ?_) fun u thu hu hget hp => ?_
  · rw [hr'] at hp
    cases hp
  · rw [h.alone t th ht hr u thu hget hu] at hp
    cases hp

/-- Beside a reset nobody else resets. -/
theorem not_resetting (h : Sim s a) (ht : s.threads[t]? = some th) (hr : th.pc.resetting = true)
    {P : WeakBufThread → Prop} (hP : th'.pc.resetting = true → P th') :
    ∀ (u : Nat) (thu : WeakBufThread), (s.threads.set t th')[u]? = some thu →
      thu.pc.resetting = true → P thu := by
  refine forall_getElem?_set hP fun u thu hu hget hp => ?_
  rw [h.alone t th ht hr u thu hget hu] at hp
  cases hp

/-- **The generation is bumped.** -/
theorem bump (h : Sim s a) (ha : a.Sound) {slab : ThreadSlab}
    (ht : s.threads[t]? = some ⟨slab, .bump, v⟩) (hg : a.buf.generation + 1 < wordMod)
    {o : MemOrder} {m : Messages BufLoc Nat × View BufLoc}
    (e : s.mem.exchange o v .generation (wadd a.buf.generation 1) = some m) :
    Sim (s.reserve t slab (.opened (wadd a.buf.generation 1)) m)
      ((a.setGeneration (wadd a.buf.generation 1)).put t
        ⟨slab, .opened (wadd a.buf.generation 1)⟩) := by
  obtain ⟨y, z, _, hm, hz, hv, _, _, hlen⟩ := Messages.exchange_eq_some e
  obtain ⟨hcov, hclear⟩ := h.resets t _ ht rfl
  have hne : ∀ l, l ≠ .generation → m.1 l = s.mem l := fun l hl => by
    rw [hm]
    exact Messages.post_of_ne s.mem z hl
  have hlive : s.live = [] := h.none fun hs => hs _ (List.mem_of_getElem? (h.thread ht)) rfl
  refine ⟨h.owner, h.buffer, h.capacity, ?_, ?_,
    h.set_threads ⟨slab, .opened (wadd a.buf.generation 1), m.2⟩, fun _ => ?_,
    fun _ => hlive, h.inside, ?_, h.not_refilling ht rfl rfl, h.not_resetting ht rfl fun _ => ?_,
    h.alone_set ht (Or.inr fun u thu hu hget => h.others ht (fun e => by cases e) u thu hu hget)
      fun _ => rfl, h.raced⟩
  · show m.1.latest .offset = _
    rw [Messages.latest, hne .offset (fun e => by cases e)]
    exact h.offset
  · show m.1.latest .generation = _
    rw [hm, Messages.latest_post, hz]
    rfl
  · -- nothing was handed out with the new generation
    show s.live = (a.carve (wadd a.buf.generation 1)).given
    rw [hlive, wadd_eq hg, AtomicBuffer.carve, List.filter_eq_nil_iff.mpr]
    · rfl
    · intro b hb hgen
      have hle := ha.tags b hb
      have heq : b.generation = a.buf.generation + 1 := of_decide_eq_true hgen
      omega
  · rw [show (s.reserve t slab (.opened (wadd a.buf.generation 1)) m).mem .offset = s.mem .offset
      from hne .offset (fun e => by cases e)]
    exact h.rising
  · refine ⟨?_, (hclear.1.mono hv).congr (hne _ fun e => by cases e), fun i hi => ?_⟩
    · show (m.1 .generation).length ≤ m.2 .generation + 1
      rw [hm, Messages.post_self, List.length_append, List.length_singleton]
      exact Nat.succ_le_succ hlen
    · refine ((hclear.2 i ?_).mono hv).congr (hne _ fun e => by cases e)
      rwa [show (s.reserve t slab (.opened (wadd a.buf.generation 1)) m).threads.length =
        s.threads.length from List.length_set] at hi

/-- **The zero fill** races with nothing. -/
theorem fill (h : Sim s a) {slab : ThreadSlab} {g : Nat}
    (ht : s.threads[t]? = some ⟨slab, .zero g, v⟩) :
    Sim (s.fill t slab v) (a.put t ⟨slab.invalidate, .idle⟩) := by
  have hclear := (h.resets t _ ht rfl).2
  have hne : ∀ l, l ≠ .block → (s.fill t slab v).mem l = s.mem l := fun l hl =>
    Messages.store_of_ne s.mem .relaxed v 0 hl
  have hoff := hne .offset (fun e => by cases e)
  have hset := h.settled_set ht ⟨slab.invalidate, .idle, v⟩
    ⟨(fun e => by cases e), fun e => by cases e⟩
  refine ⟨h.owner, h.buffer, h.capacity, ?_, ?_,
    h.set_threads ⟨slab.invalidate, .idle, _⟩, fun hs => h.live (hset.mp hs),
    fun hs => h.none (mt hset.mpr hs), h.inside, ?_, h.not_refilling ht rfl rfl,
    h.not_resetting ht rfl (fun hr => by cases hr), h.alone_set ht (Or.inl rfl) fun _ => rfl, ?_⟩
  · rw [Messages.latest, hoff]
    exact h.offset
  · rw [Messages.latest, hne .generation (fun e => by cases e)]
    exact h.generation
  · rw [hoff]
    exact h.rising
  · show (s.raced || !decide (s.Clear v)) = false
    rw [h.raced, decide_eq_true hclear]
    rfl

end Sim

/-! ## 4. Steps and runs -/

/-- A higher offset asks for a higher region. -/
theorem WeakBuffer.region_mono {size x y : Nat} (hxy : x ≤ y) (hy : y ≤ lockfreeBufferSize)
    (hs : size ≤ maxLockfreeAllocation) :
    (WeakBuffer.region size x).2 ≤ (WeakBuffer.region size y).2 := by
  have hsum : ∀ z, z ≤ lockfreeBufferSize → (WeakBuffer.region size z).2 =
      alignUp z lockfreeAlignment + alignUp (max size slabMinBlock) lockfreeAlignment := fun z hz =>
    (LockFreeBuffer.refill_bounds (b := ⟨0, z, lockfreeBufferSize, .new, 0⟩)
      ⟨hz, Nat.le_refl _⟩ hs).2
  have hw : ∀ z, z ≤ lockfreeBufferSize → z + lockfreeAlignment ≤ wordMod := by
    intro z hz
    unfold lockfreeBufferSize at hz
    unfold lockfreeAlignment wordMod
    omega
  have hle : alignUp x lockfreeAlignment ≤ alignUp y lockfreeAlignment :=
    alignUp_le (k := 6) rfl (hw x (hxy.trans hy)) (hxy.trans (le_alignUp (by decide) (hw y hy)))
      (dvd_alignUp (k := 6) rfl (by decide))
  rw [hsum x (hxy.trans hy), hsum y hy]
  exact Nat.add_le_add_right hle _

/-- What a slab in the block serves lies in the block, and has the slab's generation. -/
theorem ThreadSlab.tryAlloc_inside {slab slab' : ThreadSlab} {b : LockFreeBuffer}
    {size align p : Nat} (hbase : slab.base = b.buffer) (h1 : slab.offset ≤ slab.fin)
    (h2 : slab.fin ≤ b.capacity) (hok : b.Ok) (hs : size ≤ maxLockfreeAllocation)
    (ha : 0 < align) (ha' : align ≤ 2 ^ 63) (e : slab.tryAlloc size align = (some p, slab')) :
    Span.Inside ⟨p, size⟩ ⟨b.buffer, b.capacity⟩ ∧ slab'.generation = slab.generation := by
  rcases slab.tryAlloc_cases h1 (h2.trans hok.capacity) hs ha ha' with hn | ⟨o, _, ho, _, he⟩
  · rw [hn] at e
    cases e
  · rw [he] at e
    cases e
    refine ⟨⟨?_, ?_⟩, rfl⟩
    · show b.buffer ≤ slab.base + o
      omega
    · show slab.base + o + size ≤ b.buffer + b.capacity
      omega

section Steps

variable {s s' : WeakBuffer} {a : AtomicBuffer} {t : Nat} {slab : ThreadSlab} {v : View BufLoc}

/-- The step of a thread on the other memory. -/
theorem reach_run (ha : (atomicBuffers.under Orderly).Reach a) {pc : BufPc}
    (ht : a.threads[t]? = some ⟨slab, pc⟩) (hc : a.Calm pc) :
    (atomicBuffers.under Orderly).Reach (a.run t slab pc) := by
  refine .step (.run t) ha ⟨trivial, fun th hth => ?_⟩ ?_
  · cases ht.symm.trans hth
    exact hc
  · show a.threads[t]?.map _ = _
    rw [ht]
    rfl

/-- A load of the offset and an exchange right behind it reserve a region. -/
theorem reach_reserve (ha : (atomicBuffers.under Orderly).Reach a) {start fin size align : Nat}
    (ht : a.threads[t]? = some ⟨slab, .load size align⟩) (hset : a.Settled)
    (hreg : WeakBuffer.region size a.buf.offset = (start, fin)) (hfin : fin ≤ a.buf.capacity) :
    (atomicBuffers.under Orderly).Reach
      ((a.setOffset fin).put t ⟨slab, .tag start fin size align⟩) := by
  have hrun : a.run t slab (.load size align) =
      a.put t ⟨slab, .exchange a.buf.offset start fin size align⟩ := by
    cases hreg
    exact if_neg (Nat.not_lt.mpr hfin)
  have hload := reach_run ha ht trivial
  rw [hrun] at hload
  have hget : (a.put t ⟨slab, .exchange a.buf.offset start fin size align⟩).threads[t]? = _ :=
    List.getElem?_set_self (List.getElem?_eq_some_iff.mp ht).1
  have hex := reach_run hload hget fun _ => forall_set hset fun e => by cases e
  simpa only [AtomicBuffer.run, AtomicBuffer.put, AtomicBuffer.setOffset, if_true, List.set_set]
    using hex

/-- The first step of `try_alloc`, outside resets. -/
theorem tryAlloc_sim (ha : (atomicBuffers.under Orderly).Reach a) (h : Sim s a)
    (ht : s.threads[t]? = some ⟨slab, .idle, v⟩) {size align choice : Nat} (hal : 0 < align)
    (hal' : align ≤ 2 ^ 63) (hno : ∀ th ∈ s.threads, th.pc.resetting = false) (hv : s.Knows v)
    {o : BufOrders} (e : s.tryAlloc o t slab v size align choice = some s') :
    ∃ a', (atomicBuffers.under Orderly).Reach a' ∧ Sim s' a' := by
  have hno' : ∀ (u : Nat) (thu : WeakBufThread), s.threads[u]? = some thu →
      thu.pc.resetting = false := fun u thu hu => hno thu (List.mem_of_getElem? hu)
  have hs := reach_atomic ha
  have hstep : (atomicBuffers.under Orderly).Reach (a.tryAlloc t slab size align) := by
    refine .step (.tryAlloc t size align) ha ⟨⟨hal, hal'⟩, fun _ _ _ => (h.settled hno').2⟩ ?_
    show a.exec (.tryAlloc t size align) = _
    simp only [AtomicBuffer.exec, h.thread ht]
    rfl
  refine ⟨_, hstep, ?_⟩
  unfold WeakBuffer.tryAlloc at e
  unfold AtomicBuffer.tryAlloc LockFreeBuffer.tryThreadSlab
  split at e
  · next hsize =>
    cases e
    rw [if_pos hsize]
    exact h.count _
  · next hsize =>
    rw [if_neg hsize]
    obtain ⟨r, hr, rfl⟩ := Option.map_eq_some_iff.mp e
    obtain ⟨_, _, _, _, hle, _⟩ := Messages.load_eq_some hr
    have hknows := hv.mono hle
    have hrefill : ∀ slab', Sim (s.put t ⟨slab', .refill size align, r.2⟩)
        (a.put t ⟨slab', .refill size align⟩) := fun slab' =>
      h.put ht ⟨slab', .refill size align, r.2⟩
        ⟨(fun e => by cases e), fun e => by cases e⟩ (Or.inr fun u thu _ hu => hno' u thu hu)
        (fun _ => ⟨hknows, trivial⟩) fun hr => by cases hr
    rw [h.load_generation hv.2.1 hr, ← h.owner]
    by_cases hm : slab.Matches a.owner a.buf.generation
    · rw [if_pos hm, if_pos hm]
      obtain ⟨hbase, h1, h2, _⟩ := (hs.threads _ (List.mem_of_getElem? (h.thread ht))).region
        hm.2.2 hm.1
      cases hp : slab.tryAlloc size align with
      | mk p slab' =>
          cases p with
          | none => exact hrefill slab'
          | some p =>
              obtain ⟨hin, hgen⟩ := ThreadSlab.tryAlloc_inside hbase h1 h2 hs.ok
                (Nat.not_lt.mp hsize) hal hal' hp
              rw [h.buffer, h.capacity] at hin
              exact (h.serve ht hno' hknows.2.2 (hgen.trans hm.2.1) hin).count _
    · rw [if_neg hm, if_neg hm]
      exact hrefill slab.invalidate

/-- **A step of a thread** is at most two steps on the other memory. -/
theorem run_sim (ha : (atomicBuffers.under Orderly).Reach a) (h : Sim s a) {pc : BufPc}
    (ht : s.threads[t]? = some ⟨slab, pc, v⟩)
    (hwrap : pc = .bump → a.buf.generation + 1 < wordMod) {o : BufOrders} {choice : Nat}
    {spurious : Bool} (e : s.run o t choice spurious slab v pc = some s') :
    ∃ a', (atomicBuffers.under Orderly).Reach a' ∧ Sim s' a' := by
  have hs := reach_atomic ha
  have hget := h.thread ht
  have hgood : pc.unloaded.Good a.buf := (hs.threads _ (List.mem_of_getElem? hget)).pc
  have hno (hr : pc.refilling = true) (u : Nat) (thu : WeakBufThread)
      (hu : s.threads[u]? = some thu) : thu.pc.resetting = false := by
    by_cases hut : u = t
    · subst hut
      cases ht.symm.trans hu
      cases pc <;> first | rfl | cases hr
    · refine h.others ht (fun hidle => ?_) u thu hut hu
      have hidle' : pc = .idle := hidle
      rw [hidle'] at hr
      cases hr
  have hidle (slab' : ThreadSlab) (w : View BufLoc) (hb : pc ≠ .bump) :
      Sim (s.put t ⟨slab', .idle, w⟩) (a.put t ⟨slab', .idle⟩) :=
    h.put ht ⟨slab', .idle, w⟩ ⟨(fun e => by cases e), fun e => absurd e hb⟩ (Or.inl rfl)
      (fun hr => by cases hr) fun hr => by cases hr
  cases pc with
  | idle => cases e
  | refill size align =>
      obtain ⟨hknows, _⟩ := h.refills t _ ht rfl
      cases e
      refine ⟨_, reach_run ha hget trivial, ?_⟩
      show Sim _ (if a.buf.buffer = 0 then _ else _)
      rw [h.buffer]
      split
      · exact (hidle slab v fun e => by cases e).count _
      · exact h.put ht ⟨slab, .load size align, v⟩
          ⟨(fun e => by cases e), fun e => by cases e⟩ (Or.inr fun u thu _ hu => hno rfl u thu hu)
          (fun _ => ⟨hknows, trivial⟩) fun hr => by cases hr
  | load size align =>
      obtain ⟨hknows, _⟩ := h.refills t _ ht rfl
      obtain ⟨r, hr, rfl⟩ := Option.map_eq_some_iff.mp e
      obtain ⟨_, _, _, _, hle, _⟩ := Messages.load_eq_some hr
      dsimp only
      split
      · -- an old offset that does not fit: nor does the offset itself
        next hfin =>
        have hfin' : (WeakBuffer.region size a.buf.offset).2 > a.buf.capacity := by
          rw [h.capacity]
          exact Nat.lt_of_lt_of_le hfin (WeakBuffer.region_mono (h.load_offset hknows.1 hr)
            (hs.ok.offset.trans hs.ok.capacity) hgood.2.1)
        have hrun : a.run t slab (.load size align) = _ := if_pos hfin'
        refine ⟨_, reach_run ha hget trivial, ?_⟩
        show Sim _ (a.run t slab (.load size align))
        rw [hrun]
        exact (hidle slab r.2 fun e => by cases e).count _
      · next hfin =>
        refine ⟨a, ha, h.stay ht rfl (fun _ => ⟨?_, rfl, Nat.not_lt.mp hfin⟩) fun hr => by cases hr⟩
        exact hknows.mono hle
  | exchange current start fin size align =>
      obtain ⟨hknows, hreg, hfin⟩ := h.refills t _ ht rfl
      simp only [WeakBuffer.run] at e
      split at e
      · -- the offset is as it was loaded: the other thread loads it now
        next hcur =>
        obtain ⟨m, hm, rfl⟩ := Option.map_eq_some_iff.mp e
        cases Option.some.inj (hcur.1.symm.trans h.offset)
        rw [← h.capacity] at hfin
        refine ⟨_, reach_reserve ha hget (h.settled (hno rfl)).1 hreg hfin, ?_⟩
        refine h.reserve ht (hno rfl) hknows ?_ hm start size align
        obtain ⟨h1, h2⟩ := LockFreeBuffer.refill_bounds hs.ok hgood.2.1
        cases hreg
        exact h1.trans (Nat.le.intro h2.symm)
      · obtain ⟨r, hr, rfl⟩ := Option.map_eq_some_iff.mp e
        obtain ⟨_, _, _, _, hle, _⟩ := Messages.load_eq_some hr
        exact ⟨a, ha, h.stay ht rfl (fun _ => ⟨hknows.mono hle, trivial⟩) fun hr => by cases hr⟩
  | tag start fin size align =>
      obtain ⟨hknows, _⟩ := h.refills t _ ht rfl
      obtain ⟨_, hsize, ⟨hal, hal'⟩, h1, h2⟩ := hgood
      obtain ⟨r, hr, rfl⟩ := Option.map_eq_some_iff.mp e
      obtain ⟨_, _, _, _, hle, _⟩ := Messages.load_eq_some hr
      refine ⟨_, reach_run ha hget (h.settled (hno rfl)).2, ?_⟩
      rw [h.load_generation hknows.2.1 hr, ← h.owner, ← h.buffer]
      show Sim _ (a.run t slab (.tag start fin size align))
      simp only [AtomicBuffer.run]
      cases hp : (slab.setRegion a.owner a.buf.buffer start fin a.buf.generation).tryAlloc size
        align with
      | mk p slab' =>
          cases p with
          | none => exact (hidle slab' r.2 fun e => by cases e).count _
          | some p =>
              obtain ⟨hin, hgen⟩ := ThreadSlab.tryAlloc_inside (b := a.buf) rfl h1 h2 hs.ok hsize
                hal hal' hp
              rw [h.buffer, h.capacity] at hin
              exact (h.serve ht (hno rfl) (hknows.2.2.mono hle) hgen hin).count _
  | bump =>
      obtain ⟨g, hg, e⟩ := Option.bind_eq_some_iff.mp e
      obtain ⟨m, hm, rfl⟩ := Option.map_eq_some_iff.mp e
      cases Option.some.inj (hg.symm.trans h.generation)
      refine ⟨_, reach_run ha hget ⟨fun b hb => ?_, hwrap rfl⟩, h.bump hs ht (hwrap rfl) hm⟩
      obtain ⟨u, thu, hu, rfl⟩ := h.mem_threads hb
      by_cases hut : u = t
      · subst hut
        cases ht.symm.trans hu
        rfl
      · show thu.pc.unloaded.isTag = false
        rw [h.alone t _ ht rfl u thu hu hut]
        rfl
  | opened g =>
      cases e
      refine ⟨_, reach_run ha hget trivial, ?_⟩
      show Sim _ (if a.buf.buffer = 0 then _ else _)
      rw [h.buffer]
      split
      · exact (hidle slab.invalidate v fun e => by cases e).count _
      · exact h.put ht ⟨slab, .zero g, v⟩ ⟨(fun e => by cases e), fun e => by cases e⟩
          (Or.inr fun u thu hu hget => h.others ht (fun e => by cases e) u thu hu hget)
          (fun hr => by cases hr) fun _ => ⟨rfl, le_refl v⟩
  | zero g =>
      cases e
      refine ⟨_, reach_run ha hget trivial, ?_⟩
      show Sim _ (((a.wipe g).put t _).count _)
      rw [hs.wipe hget]
      exact (h.fill ht).count _

/-- **One step**, if the callers keep resets alone and known. -/
theorem step_sim (ha : (atomicBuffers.under Orderly).Reach a) (h : Sim s a) {o : BufOrders}
    {st : WeakBufStep} (hok : s.Ok st) (hx : s.Exclusive st) (e : s.exec o st = some s') :
    ∃ a', (atomicBuffers.under Orderly).Reach a' ∧ Sim s' a' := by
  obtain ⟨halone, hsync⟩ := hx
  cases st with
  | tryAlloc t size align choice =>
      simp only [WeakBuffer.exec] at e
      split at e
      · next slab v ht => exact tryAlloc_sim ha h ht hok.1 hok.2 halone (hsync _ ht) e
      · cases e
  | reset t =>
      simp only [WeakBuffer.exec] at e
      split at e
      · next slab v ht =>
        cases e
        obtain ⟨_, hg, hc⟩ := hsync _ ht
        refine ⟨_, .step (.reset t) ha ⟨trivial, trivial⟩ ?_, h.restart ht halone hg hc o⟩
        show a.exec (.reset t) = _
        simp only [AtomicBuffer.exec, h.thread ht]
        rfl
      · cases e
  | run t choice spurious =>
      obtain ⟨⟨slab, pc, v⟩, ht, e⟩ := Option.bind_eq_some_iff.mp e
      exact run_sim ha h ht (fun hb => halone _ ht hb _ h.generation) e
  | sync t u =>
      obtain ⟨⟨slab, pc, v⟩, ht, e⟩ := Option.bind_eq_some_iff.mp e
      obtain ⟨⟨slab', pc', v'⟩, hu, rfl⟩ := Option.map_eq_some_iff.mp e
      refine ⟨a, ha, h.stay hu rfl (fun hr => ?_) fun hr => ⟨hr, le_sup_left⟩⟩
      obtain ⟨hknows, hplan⟩ := h.refills u _ hu hr
      exact ⟨hknows.mono le_sup_left, hplan⟩

end Steps

/-- A new buffer. -/
theorem sim_start (owner : Nat) (sys : Option Nat) (slabs : List ThreadSlab) :
    Sim (.start owner sys slabs) (.start owner sys slabs) := by
  have hidle : ∀ (t : Nat) (th : WeakBufThread),
      (WeakBuffer.start owner sys slabs).threads[t]? = some th → th.pc = .idle := by
    intro t th ht
    obtain ⟨slab, _, rfl⟩ := List.mem_map.mp (List.mem_of_getElem? ht)
    rfl
  have hlen : ∀ (i : Nat) (x : Message BufLoc Nat),
      ((WeakBuffer.start owner sys slabs).mem .offset)[i]? = some x → x = ⟨0, ⊥⟩ := by
    intro i x hx
    exact List.mem_singleton.mp (List.mem_of_getElem? hx)
  refine ⟨rfl, rfl, rfl, rfl, rfl, ?_, fun _ => rfl, fun _ => rfl, (fun p hp => by cases hp), ?_,
    fun t th ht hr => ?_, fun t th ht hr => ?_, fun t th ht hr => ?_, rfl⟩
  · show _ = (slabs.map fun slab => (⟨slab, .idle, ⊥⟩ : WeakBufThread)).map WeakBufThread.atomic
    rw [List.map_map]
    rfl
  · intro i j x y _ _ hx hy
    rw [hlen i x hx, hlen j y hy]
  all_goals
    rw [hidle t th ht] at hr
    cases hr

/-- **Whatever the memory orders**, a run in which resets are alone and known is a run on the other
    memory, whose steps meet the condition there. -/
theorem reach_sim {o : BufOrders} {s : WeakBuffer}
    (h : ((weakBuffers o).under WeakBuffer.Exclusive).Reach s) :
    ∃ a, (atomicBuffers.under Orderly).Reach a ∧ Sim s a := by
  refine h.inv (P := fun s => ∃ a, (atomicBuffers.under Orderly).Reach a ∧ Sim s a)
    (fun s hi => ?_) fun s st s' ih hok e => ?_
  · obtain ⟨owner, sys, slabs, hslabs, rfl⟩ := hi
    exact ⟨_, .init ⟨owner, sys, slabs, hslabs, rfl⟩, sim_start owner sys slabs⟩
  · obtain ⟨a, ha, hs⟩ := ih
    exact step_sim ha hs hok.1 hok.2 e

/-- **The buffer on weak memory**: in every run in which resets are alone and known, whatever the
    memory orders, no two accesses to the block race, what was handed out since the last reset is
    pairwise apart and lies in the block; and offset, generation and slabs are those of a run on
    memory where a load returns the last value. -/
theorem weak_buffer_sound {o : BufOrders} {s : WeakBuffer}
    (h : ((weakBuffers o).under WeakBuffer.Exclusive).Reach s) :
    s.raced = false ∧ s.live.Pairwise Span.Apart ∧
      (∀ p ∈ s.live, p.Inside ⟨s.buffer, s.capacity⟩) ∧
      ∃ a, (atomicBuffers.under Orderly).Reach a ∧
        s.mem.latest .offset = some a.buf.offset ∧
        s.mem.latest .generation = some a.buf.generation ∧
        s.threads.map WeakBufThread.slab = a.threads.map BufThread.slab := by
  obtain ⟨a, ha, hs⟩ := reach_sim h
  refine ⟨hs.raced, ?_, hs.inside, a, ha, hs.offset, hs.generation, ?_⟩
  · by_cases hset : a.Settled
    · rw [hs.live hset]
      exact ((reach_atomic ha).carved _).given
    · rw [hs.none hset]
      exact List.Pairwise.nil
  · rw [hs.threads, List.map_map]
    rfl

/-- Two threads refill at once, with relaxed orders only: thread 1 loads an old offset twice and
    goes round its loop. Then thread 0 learns of it and resets, thread 1 learns of the reset, and
    both are served again. -/
theorem weak_buffer_sound_relaxed : ∃ s,
    ((weakBuffers ⟨.relaxed, .relaxed, .relaxed, .relaxed, .relaxed, .relaxed, .relaxed⟩).under
      WeakBuffer.Exclusive).Reach s ∧
    s.live.map Span.base = [8192, 8448] ∧ s.raced = false ∧ s.live.Pairwise Span.Apart := by
  obtain ⟨s, hr, hs⟩ := System.exists_reach_of_replay
    ((weakBuffers ⟨.relaxed, .relaxed, .relaxed, .relaxed, .relaxed, .relaxed, .relaxed⟩).under
      WeakBuffer.Exclusive)
    [.tryAlloc 0 8 8 0, .run 0 0 false, .run 0 0 false, .tryAlloc 1 8 8 0, .run 1 0 false,
      .run 0 0 false, .run 1 0 false, .run 1 0 false, .run 1 0 false, .run 1 0 false,
      .run 1 1 false, .run 1 0 false, .run 1 0 false, .run 0 0 false,
      .sync 1 0, .reset 0, .run 0 0 false, .run 0 0 false, .run 0 0 false, .sync 0 1,
      .tryAlloc 1 8 8 1, .run 1 0 false, .run 1 3 false, .run 1 0 false, .run 1 1 false,
      .tryAlloc 0 8 8 1, .run 0 0 false, .run 0 4 false, .run 0 0 false, .run 0 1 false]
    (P := fun s => s.live.map Span.base = [8192, 8448])
    (s := .start 1024 (some 8192) [.new, .new])
    ⟨1024, some 8192, [.new, .new], by decide, rfl⟩ (by decide)
  exact ⟨s, hr, hs, (weak_buffer_sound hr).1, (weak_buffer_sound hr).2.1⟩

end ArenaB
