/-
  File:      ArenaB/LockFree/Lifetime.lean
  Subject:   Several `LockFreeBuffer`s of one thread, created, moved, dropped and reset.

  The thread has one slab. It names its buffer by the address of the struct and the generation,
  and it outlives the buffer: a new buffer at the same address starts with the same generation 0.

  * `Handle` -- a live buffer, where its struct is, and what it handed out since its creation or
    last reset; `lifetimes` -- the runs. A struct may be put where a dropped or moved one was, and
    the system allocator may return a freed block again;
  * `Genuine` -- the condition on a `try_alloc`: a slab that matches is a region of the buffer's
    own (and the alignment is one a layout can have);
  * **`lifetimes_sound`** -- in runs whose calls all meet it, every pointer lies in the block of
    its buffer, apart from the others. `stale_slab`: other runs break both.
-/
import ArenaB.Base.System
import ArenaB.Base.Ledger
import ArenaB.LockFree.Buffer

namespace ArenaB

open Base

/-! ## 1. Runs -/

/-- A live buffer: the address of its struct, the struct, and its allocations since then. -/
structure Handle where
  addr : Nat
  buf : LockFreeBuffer
  allocs : List Span
  deriving DecidableEq, Repr

/-- The live buffers, the slab of the thread, the memory. -/
structure Buffers where
  live : List Handle
  slab : ThreadSlab
  mem : Mem

/-- What the thread may do; a buffer is named by its position among the live ones. -/
inductive BufferOp where
  | create (addr : Nat) (sys : Option Nat)
  | move (i addr : Nat)
  | drop (i : Nat)
  | reset (i : Nat)
  | tryAlloc (i size align : Nat)
  deriving DecidableEq, Repr

namespace Handle

/-- `try_alloc`, and the record of what it returned. -/
def tryAlloc (h : Handle) (slab : ThreadSlab) (size align : Nat) : Handle × ThreadSlab :=
  let r := h.buf.tryAlloc h.addr slab size align
  (⟨h.addr, r.2.1, h.allocs ++ (r.1.map (Span.mk · size)).toList⟩, r.2.2)

end Handle

namespace Buffers

/-- One step of the thread. -/
def exec (w : Buffers) : BufferOp → Option Buffers
  | .create addr sys => some { w with live := w.live ++ [⟨addr, .new sys, []⟩] }
  | .move i addr =>
      w.live[i]?.map fun h => { w with live := w.live.set i { h with addr := addr } }
  | .drop i => w.live[i]?.map fun _ => { w with live := w.live.eraseIdx i }
  | .reset i =>
      w.live[i]?.map fun h =>
        let r := h.buf.reset w.slab w.mem
        ⟨w.live.set i ⟨h.addr, r.1, []⟩, r.2.1, r.2.2⟩
  | .tryAlloc i size align =>
      w.live[i]?.map fun h =>
        let r := h.tryAlloc w.slab size align
        ⟨w.live.set i r.1, r.2, w.mem⟩

/-- No live struct is at the address. -/
def Vacant (w : Buffers) (addr : Nat) : Prop := ∀ h ∈ w.live, h.addr ≠ addr

/-- The block is none of a live buffer. -/
def Fresh (w : Buffers) (blk : Span) : Prop :=
  blk.base ≠ 0 ∧ ∀ h ∈ w.live, h.buf.buffer ≠ 0 → h.buf.span.Apart blk

instance (w : Buffers) (addr : Nat) : Decidable (w.Vacant addr) :=
  inferInstanceAs (Decidable (∀ h ∈ w.live, h.addr ≠ addr))

instance (w : Buffers) (blk : Span) : Decidable (w.Fresh blk) :=
  inferInstanceAs (Decidable (blk.base ≠ 0 ∧ ∀ h ∈ w.live, h.buf.buffer ≠ 0 → _))

/-- What the environment may choose: a vacant address, a fresh block. -/
def Ok (w : Buffers) : BufferOp → Prop
  | .create addr sys => w.Vacant addr ∧ ∀ p ∈ sys, w.Fresh ⟨p, lockfreeBufferSize⟩
  | .move _ addr => w.Vacant addr
  | _ => True

instance (w : Buffers) : (op : BufferOp) → Decidable (w.Ok op)
  | .create addr sys => inferInstanceAs (Decidable (w.Vacant addr ∧ ∀ p ∈ sys, w.Fresh _))
  | .move _ addr => inferInstanceAs (Decidable (w.Vacant addr))
  | .drop _ => isTrue trivial
  | .reset _ => isTrue trivial
  | .tryAlloc _ _ _ => isTrue trivial

end Buffers

/-- The runs of one thread from no buffer on. -/
def lifetimes : System Buffers BufferOp where
  init w := w.live = [] ∧ w.slab = .new
  ok := Buffers.Ok
  step := Buffers.exec

instance (w : Buffers) (op : BufferOp) : Decidable (lifetimes.ok w op) :=
  inferInstanceAs (Decidable (w.Ok op))

/-! ## 2. The condition -/

/-- A matching slab is a region the buffer itself reserved, and the alignment is a layout's. -/
def Genuine (w : Buffers) : BufferOp → Prop
  | .tryAlloc i _ align =>
      0 < align ∧ align ≤ 2 ^ 63 ∧ ∀ h ∈ w.live[i]?, h.buf.Owned h.addr w.slab
  | _ => True

instance (b : LockFreeBuffer) (owner : Nat) (slab : ThreadSlab) : Decidable (b.Owned owner slab) :=
  inferInstanceAs (Decidable (slab.Matches owner b.generation → _ ∧ _ ∧ _))

instance (w : Buffers) : (op : BufferOp) → Decidable (Genuine w op)
  | .tryAlloc i _ align =>
      inferInstanceAs (Decidable (0 < align ∧ align ≤ 2 ^ 63 ∧ ∀ h ∈ w.live[i]?, _))
  | .create _ _ => isTrue trivial
  | .move _ _ => isTrue trivial
  | .drop _ => isTrue trivial
  | .reset _ => isTrue trivial

/-! ## 3. One buffer and the slab -/

namespace Handle

/-- The allocations lie in the block below the offset, pairwise apart. -/
structure Ok (h : Handle) : Prop where
  ok : h.buf.Ok
  capacity : h.buf.capacity = lockfreeBufferSize
  inside : ∀ s ∈ h.allocs, s.Inside h.buf.span
  below : ∀ s ∈ h.allocs, ∀ x, s.Has (h.buf.buffer + x) → x < h.buf.offset
  apart : h.allocs.Pairwise Span.Apart

/-- A slab on the buffer's block, matching or not, has none of its allocations in its rest. -/
def Clear (h : Handle) (slab : ThreadSlab) : Prop :=
  slab.base ≠ 0 → slab.base = h.buf.buffer → ∀ s ∈ h.allocs, ∀ x,
    s.Has (h.buf.buffer + x) → slab.offset ≤ x → ¬ x < slab.fin

theorem clear_of_base {h : Handle} {slab : ThreadSlab} (hb : slab.base = 0) : h.Clear slab :=
  fun hne => absurd hb hne

theorem clear_nil (addr : Nat) (b : LockFreeBuffer) (slab : ThreadSlab) :
    Clear ⟨addr, b, []⟩ slab :=
  fun _ _ _ hs => nomatch hs

variable {h : Handle} {slab : ThreadSlab} {size align : Nat}

/-- Nothing handed out is free, as long as a matching slab is genuine. -/
theorem Ok.not_free (hok : h.Ok) (hc : h.Clear slab) (ho : h.buf.Owned h.addr slab) {s : Span}
    (hs : s ∈ h.allocs) {x : Nat} (hx : s.Has (h.buf.buffer + x)) :
    ¬ h.buf.Free h.addr slab x := by
  rintro (⟨h1, _⟩ | ⟨hm, h1, h2⟩)
  · exact absurd (hok.below s hs x hx) (Nat.not_lt.mpr h1)
  · exact hc hm.2.2 (ho hm).1 s hs x hx h1 h2

end Handle

namespace ThreadSlab

theorem tryAlloc_matches {s : ThreadSlab} {owner generation : Nat} (h : s.Matches owner generation)
    (size align : Nat) : (s.tryAlloc size align).2.Matches owner generation := by
  unfold tryAlloc
  split
  · exact h
  · simp only
    split <;> exact h

end ThreadSlab

namespace LockFreeBuffer

variable (b : LockFreeBuffer) (owner : Nat) (slab : ThreadSlab) (size align : Nat)

/-- A refill leaves the slab alone or makes it the buffer's. -/
theorem refill_slab : (b.refillThreadSlabAndAlloc owner slab size align).2.2 = slab ∨
    (b.refillThreadSlabAndAlloc owner slab size align).2.2.Matches owner b.generation := by
  unfold refillThreadSlabAndAlloc
  split
  · exact Or.inl rfl
  · rename_i hne
    simp only
    split
    · exact Or.inl rfl
    · exact Or.inr (ThreadSlab.tryAlloc_matches ⟨rfl, rfl, hne⟩ _ _)

/-- **The slab after a call**: untouched with nothing served, dropped, or the buffer's. -/
theorem tryAlloc_slab :
    ((b.tryAlloc owner slab size align).1 = none ∧
      (b.tryAlloc owner slab size align).2.2 = slab) ∨
    (b.tryAlloc owner slab size align).2.2.base = 0 ∨
    (b.tryAlloc owner slab size align).2.2.Matches owner b.generation := by
  unfold tryAlloc
  split
  · exact Or.inl ⟨rfl, rfl⟩
  · have hslab : (b.tryThreadSlab owner slab size align).2.base = 0 ∨
        (b.tryThreadSlab owner slab size align).2.Matches owner b.generation := by
      unfold tryThreadSlab
      split
      · rename_i hm
        exact Or.inr (ThreadSlab.tryAlloc_matches hm _ _)
      · exact Or.inl rfl
    refine Or.inr ?_
    split
    · rename_i heq
      rw [heq] at hslab
      exact hslab
    · rename_i slab₁ heq
      rw [heq] at hslab
      have hrefill := b.refill_slab owner slab₁ size align
      split <;> rename_i heq' <;> rw [heq'] at hrefill
      · rcases hrefill with hr | hr
        · rw [hr]
          exact hslab
        · exact Or.inr hr
      · rcases hrefill with hr | hr
        · rw [hr]
          exact hslab
        · exact Or.inr hr

end LockFreeBuffer

namespace Handle

variable {h : Handle} {slab slab' : ThreadSlab} {size align : Nat} {r : Option Nat}
  {b' : LockFreeBuffer}

theorem mem_served {s : Span} (hs : s ∈ h.allocs ++ (r.map (Span.mk · size)).toList) :
    s ∈ h.allocs ∨ ∃ p, r = some p ∧ s = ⟨p, size⟩ := by
  rcases List.mem_append.mp hs with hs | hs
  · exact Or.inl hs
  · obtain ⟨p, hp, rfl⟩ := Option.map_eq_some_iff.mp (Option.mem_toList.mp hs)
    exact Or.inr ⟨p, hp, rfl⟩

/-- After a call nothing handed out is free. -/
theorem served_not_free (hok : h.Ok) (hc : h.Clear slab) (ho : h.buf.Owned h.addr slab)
    (hsv : h.buf.Serves h.addr slab size (r, b', slab')) {s : Span}
    (hs : s ∈ h.allocs ++ (r.map (Span.mk · size)).toList) {x : Nat}
    (hx : s.Has (h.buf.buffer + x)) : ¬ b'.Free h.addr slab' x := by
  intro hf
  rcases mem_served hs with hs | ⟨p, hp, rfl⟩
  · exact hok.not_free hc ho hs hx (hsv.free x hf)
  · obtain ⟨y, hy, _, hnot⟩ := hsv.fresh hp hx
    obtain rfl := Nat.add_left_cancel hy
    exact hnot hf

theorem lt_of_inside {s : Span} {base cap x : Nat} (hs : s.Inside ⟨base, cap⟩)
    (hx : s.Has (base + x)) : x < cap := by
  have := (hs.has hx).2
  unfold Span.fin at this
  simp only at this
  omega

/-- **A call keeps the buffer's allocations in place.** -/
theorem Ok.served (hok : h.Ok) (hc : h.Clear slab) (ho : h.buf.Owned h.addr slab)
    (hsv : h.buf.Serves h.addr slab size (r, b', slab')) :
    Ok ⟨h.addr, b', h.allocs ++ (r.map (Span.mk · size)).toList⟩ := by
  have hbuf : b'.buffer = h.buf.buffer := hsv.buffer
  have hcap : b'.capacity = h.buf.capacity := hsv.capacity
  have hspan : b'.span = h.buf.span := hsv.span
  have hin : ∀ s ∈ h.allocs ++ (r.map (Span.mk · size)).toList, s.Inside h.buf.span := by
    intro s hs
    rcases mem_served hs with hs | ⟨p, hp, rfl⟩
    · exact hok.inside s hs
    · exact hsv.inside hp
  refine ⟨hsv.ok, hcap.trans hok.capacity, fun s hs => ?_, fun s hs x hx => ?_, ?_⟩
  · show s.Inside b'.span
    rw [hspan]
    exact hin s hs
  · have hx' : s.Has (h.buf.buffer + x) := hbuf ▸ hx
    have hlt : x < b'.capacity := hcap ▸ lt_of_inside (hin s hs) hx'
    refine Nat.lt_of_not_le fun hge => served_not_free hok hc ho hsv hs hx' (Or.inl ⟨hge, hlt⟩)
  · refine List.pairwise_append.mpr ⟨hok.apart, ?_, fun s hs t ht => ?_⟩
    · cases r with
      | none => exact .nil
      | some p => exact List.pairwise_singleton _ _
    · -- the new range was free, the old ones were not
      obtain ⟨p, hp, rfl⟩ := Option.map_eq_some_iff.mp (Option.mem_toList.mp ht)
      refine Span.apart_iff.mpr fun y hy hy' => ?_
      obtain ⟨x, rfl, hfree, _⟩ := hsv.fresh hp hy'
      exact hok.not_free hc ho hs hy hfree

/-- The slab a call leaves is clear of what the buffer handed out. -/
theorem clear_served (hok : h.Ok) (hc : h.Clear slab) (ho : h.buf.Owned h.addr slab)
    (hsv : h.buf.Serves h.addr slab size (r, b', slab'))
    (hslab : (r = none ∧ slab' = slab) ∨ slab'.base = 0 ∨
      slab'.Matches h.addr h.buf.generation) :
    Clear ⟨h.addr, b', h.allocs ++ (r.map (Span.mk · size)).toList⟩ slab' := by
  have hbuf : b'.buffer = h.buf.buffer := hsv.buffer
  rcases hslab with ⟨rfl, rfl⟩ | h0 | hm
  · intro hne hb s hs x hx
    rcases mem_served hs with hs | ⟨_, hp, _⟩
    · exact hc hne (hb.trans hbuf) s hs x (hbuf ▸ hx)
    · cases hp
  · exact clear_of_base h0
  · intro _ _ s hs x hx h1 h2
    have hgen : b'.generation = h.buf.generation := hsv.generation
    exact served_not_free hok hc ho hsv hs (hbuf ▸ hx) (Or.inr ⟨hgen ▸ hm, h1, h2⟩)

/-- It is also clear of what the others handed out: their blocks are not its block. -/
theorem clear_served_other {k : Handle} (hk : k.Clear slab)
    (hne : h.buf.buffer = k.buf.buffer → h.buf.buffer = 0)
    (hsv : h.buf.Serves h.addr slab size (r, b', slab'))
    (hslab : (r = none ∧ slab' = slab) ∨ slab'.base = 0 ∨
      slab'.Matches h.addr h.buf.generation) : k.Clear slab' := by
  rcases hslab with ⟨_, rfl⟩ | h0 | hm
  · exact hk
  · exact clear_of_base h0
  · intro h0 hb
    have hgen : b'.generation = h.buf.generation := hsv.generation
    have hbase : slab'.base = h.buf.buffer := ((hsv.owned (hgen ▸ hm)).1).trans hsv.buffer
    exact absurd (hbase.trans (hne (hbase.symm.trans hb))) h0

end Handle

/-! ## 4. All buffers -/

namespace Buffers

/-- The invariant of the guarded runs. -/
structure Sound (w : Buffers) : Prop where
  handles : ∀ h ∈ w.live, h.Ok
  blocks : (w.live.map fun h => h.buf.buffer).Pairwise fun p q => p = q → p = 0
  clear : ∀ h ∈ w.live, h.Clear w.slab

variable {w : Buffers} {h h' : Handle} {i : Nat}

/-- A handle may be replaced by one on the same block. -/
theorem Sound.blocks_set (hs : w.Sound) (hi : w.live[i]? = some h)
    (he : h'.buf.buffer = h.buf.buffer) :
    ((w.live.set i h').map fun h => h.buf.buffer).Pairwise fun p q => p = q → p = 0 := by
  rw [map_set_self hi he]
  exact hs.blocks

theorem Sound.create (hs : w.Sound) {addr : Nat} {sys : Option Nat}
    (hf : ∀ p ∈ sys, w.Fresh ⟨p, lockfreeBufferSize⟩) :
    Sound { w with live := w.live ++ [⟨addr, .new sys, []⟩] } := by
  have hok : Handle.Ok ⟨addr, .new sys, []⟩ :=
    ⟨LockFreeBuffer.ok_new sys, rfl, (fun _ h => nomatch h), (fun _ h => nomatch h), .nil⟩
  refine ⟨fun k hk => ?_, ?_, fun k hk => ?_⟩
  · rcases List.mem_append.mp hk with hk | hk
    · exact hs.handles k hk
    · rw [List.mem_singleton.mp hk]
      exact hok
  · show ((w.live ++ [_]).map _).Pairwise _
    rw [List.map_append]
    refine List.pairwise_append.mpr ⟨hs.blocks, List.pairwise_singleton _ _, ?_⟩
    intro p hp q hq
    obtain ⟨k, hk, rfl⟩ := List.mem_map.mp hp
    obtain rfl : q = sys.getD 0 := List.mem_singleton.mp hq
    intro he
    cases sys with
    | none => exact he
    | some ptr =>
        -- a fresh block does not start where a live one does
        refine Decidable.byContradiction fun h0 => ?_
        have hap := (hf ptr rfl).2 k hk h0
        have hcap := (hs.handles k hk).capacity
        have he' : k.buf.buffer = ptr := he
        unfold Span.Apart Span.fin LockFreeBuffer.span at hap
        unfold lockfreeBufferSize at hap hcap
        simp only at hap
        omega
  · rcases List.mem_append.mp hk with hk | hk
    · exact hs.clear k hk
    · rw [List.mem_singleton.mp hk]
      exact Handle.clear_nil _ _ _

theorem Sound.move (hs : w.Sound) (hi : w.live[i]? = some h) (addr : Nat) :
    Sound { w with live := w.live.set i { h with addr := addr } } := by
  have hm := List.mem_of_getElem? hi
  have hok := hs.handles h hm
  refine ⟨?_, ?_, ?_⟩
  · exact forall_set hs.handles ⟨hok.ok, hok.capacity, hok.inside, hok.below, hok.apart⟩
  · exact hs.blocks_set hi rfl
  · exact forall_set hs.clear (hs.clear h hm)

theorem Sound.drop (hs : w.Sound) (i : Nat) :
    Sound { w with live := w.live.eraseIdx i } := by
  have hsub := List.eraseIdx_sublist w.live i
  exact ⟨fun k hk => hs.handles k (hsub.subset hk), hs.blocks.sublist (hsub.map _),
    fun k hk => hs.clear k (hsub.subset hk)⟩

theorem Sound.reset (hs : w.Sound) (hi : w.live[i]? = some h) :
    Sound ⟨w.live.set i ⟨h.addr, (h.buf.reset w.slab w.mem).1, []⟩,
      (h.buf.reset w.slab w.mem).2.1, (h.buf.reset w.slab w.mem).2.2⟩ := by
  have hok := hs.handles h (List.mem_of_getElem? hi)
  refine ⟨?_, ?_, fun k _ => Handle.clear_of_base rfl⟩
  · refine forall_set hs.handles ?_
    exact ⟨hok.ok.reset w.slab w.mem, hok.capacity, (fun _ h => nomatch h),
      (fun _ h => nomatch h), .nil⟩
  · exact hs.blocks_set hi rfl

theorem Sound.tryAlloc (hs : w.Sound) (hi : w.live[i]? = some h)
    (ho : h.buf.Owned h.addr w.slab) {size align : Nat} (ha : 0 < align) (ha' : align ≤ 2 ^ 63) :
    Sound ⟨w.live.set i (h.tryAlloc w.slab size align).1, (h.tryAlloc w.slab size align).2,
      w.mem⟩ := by
  have hm := List.mem_of_getElem? hi
  have hok := hs.handles h hm
  have hsv : h.buf.Serves h.addr w.slab size (h.buf.tryAlloc h.addr w.slab size align) :=
    LockFreeBuffer.tryAlloc_spec hok.ok ho ha ha'
  have hslab := h.buf.tryAlloc_slab h.addr w.slab size align
  unfold Handle.tryAlloc
  generalize h.buf.tryAlloc h.addr w.slab size align = t at hsv hslab ⊢
  obtain ⟨r, b', slab'⟩ := t
  refine ⟨?_, ?_, ?_⟩
  · exact forall_set hs.handles (hok.served (hs.clear h hm) ho hsv)
  · exact hs.blocks_set hi hsv.buffer
  · refine forall_mem_set hi (Handle.clear_served hok (hs.clear h hm) ho hsv hslab)
      fun j k hji hk => ?_
    refine Handle.clear_served_other (hs.clear k (List.mem_of_getElem? hk)) ?_ hsv hslab
    refine pairwise_getElem?_ne ?_ hs.blocks (Ne.symm hji) (by rw [List.getElem?_map, hi]; rfl)
      (by rw [List.getElem?_map, hk]; rfl)
    exact fun p q hpq e => e ▸ hpq e.symm

/-- **One step keeps the buffers sound**, if its `try_alloc` is genuine. -/
theorem Sound.step (hs : w.Sound) {w' : Buffers} {op : BufferOp} (hok : w.Ok op)
    (hg : Genuine w op) (e : w.exec op = some w') : w'.Sound := by
  cases op with
  | create addr sys =>
      cases e
      exact hs.create hok.2
  | move i addr =>
      obtain ⟨h, hi, rfl⟩ := Option.map_eq_some_iff.mp e
      exact hs.move hi addr
  | drop i =>
      obtain ⟨h, _, rfl⟩ := Option.map_eq_some_iff.mp e
      exact hs.drop i
  | reset i =>
      obtain ⟨h, hi, rfl⟩ := Option.map_eq_some_iff.mp e
      exact hs.reset hi
  | tryAlloc i size align =>
      obtain ⟨h, hi, rfl⟩ := Option.map_eq_some_iff.mp e
      exact hs.tryAlloc hi (hg.2.2 h hi) hg.1 hg.2.1

end Buffers

/-- **Lifetimes of buffers**: in every run whose `try_alloc`s find no foreign or outdated slab that
    matches, every pointer handed out since the creation or last reset of its buffer lies in the
    block that buffer owns, apart from the buffer's other allocations. -/
theorem lifetimes_sound {w : Buffers} (h : (lifetimes.under Genuine).Reach w) :
    ∀ k ∈ w.live, (∀ s ∈ k.allocs, s.Inside k.buf.span) ∧ k.allocs.Pairwise Span.Apart := by
  have hs : w.Sound := by
    refine h.inv (P := Buffers.Sound) (fun w hi => ?_) fun w op w' hs hok e => ?_
    · obtain ⟨hl, _⟩ := hi
      refine ⟨?_, ?_, ?_⟩ <;> rw [hl]
      · exact fun _ h => nomatch h
      · exact .nil
      · exact fun _ h => nomatch h
    · exact hs.step hok.1 hok.2 e
  exact fun k hk => ⟨(hs.handles k hk).inside, (hs.handles k hk).apart⟩

/-- Two buffers used in turn; one is moved, served, reset and served again. -/
theorem lifetimes_sound_moved : ∃ w, (lifetimes.under Genuine).Reach w ∧
    w.live.map (fun k => k.allocs.map Span.base) = [[8192], [16384, 16640]] ∧
    ∀ k ∈ w.live, (∀ s ∈ k.allocs, s.Inside k.buf.span) ∧ k.allocs.Pairwise Span.Apart := by
  obtain ⟨w, hr, hw⟩ := System.exists_reach_of_replay (lifetimes.under Genuine)
    [.create 1024 (some 8192), .create 2048 (some 16384), .tryAlloc 0 8 8, .tryAlloc 0 8 8,
      .tryAlloc 1 8 8, .move 0 3072, .tryAlloc 0 8 8, .reset 0, .tryAlloc 0 8 8, .tryAlloc 1 8 8]
    (P := fun w => w.live.map (fun k => k.allocs.map Span.base) = [[8192], [16384, 16640]])
    (s := ⟨[], .new, fun _ => 0⟩) ⟨rfl, rfl⟩ (by decide)
  exact ⟨w, hr, hw, lifetimes_sound hr⟩

/-- A buffer at the address of a dropped one: the slab of the dead buffer serves from the freed
    block; and if the system allocator returned that block again, a refill then overlaps it. -/
theorem stale_slab :
    (∃ w, lifetimes.Reach w ∧ ∃ k ∈ w.live, ∃ s ∈ k.allocs, ¬ s.Inside k.buf.span) ∧
    ∃ w, lifetimes.Reach w ∧ ∃ k ∈ w.live, ¬ k.allocs.Pairwise Span.Apart := by
  refine ⟨?_, ?_⟩
  · exact System.exists_reach_of_replay lifetimes
      [.create 1024 (some 8192), .tryAlloc 0 8 8, .drop 0, .create 1024 (some 16384),
        .tryAlloc 0 8 8] (s := ⟨[], .new, fun _ => 0⟩) ⟨rfl, rfl⟩ (by decide)
  · exact System.exists_reach_of_replay lifetimes
      [.create 1024 (some 8192), .tryAlloc 0 8 8, .drop 0, .create 1024 (some 8192),
        .tryAlloc 0 200 8, .tryAlloc 0 100 8] (s := ⟨[], .new, fun _ => 0⟩) ⟨rfl, rfl⟩ (by decide)

end ArenaB
