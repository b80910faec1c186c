/-
  File:      ArenaB/ThreadLocal/Arena.lean
  Subject:   An arena and the cache of its thread (src/arena.rs with the feature `thread_local`).

  `allocate_raw` asks the cache of the calling thread before the chunks: a block that was handed to
  `thread_local_dealloc` is given out again. Rewinds and `reset` empty the cache, since its blocks
  may lie behind the position they go back to; `reset_and_shrink_to_fit`, which frees chunks, does
  not. The cache is one for all arenas of the thread, and without the debug feature all of them use
  it under the id 0; here the thread has one arena.

  * `Arena.allocateRawCached` -- `allocate_raw` of such a build; `Cached` -- an arena, what its
    caller holds, the cache; `.giveBack i` -- the caller gives up an allocation;
  * `Shelf` -- what may lie in the cache: blocks in the arena's memory, apart from each other and
    from everything that is live;
  * `Heeds` -- chunks are freed with an empty cache only;
  * **`cached_sound`** -- with that, live allocations stay apart and keep their bytes, those in
    memory that was handed out before included; without it they do not (`cached_shrink_dangles`).
-/
import ArenaB.Arena.Lockfree
import ArenaB.ThreadLocal.Match

namespace ArenaB

open Base

/-! ## 1. The arena of such a build -/

/-- `Arena::allocate_raw` with the feature `thread_local`, and without `debug`: the cache is asked
    behind the lock-free buffer and before the chunks, for up to 512 bytes. A hit moves the counter
    of allocations only, as the zero-size path does. -/
def Arena.allocateRawCached (w : Arena) (cache : ThreadCache) (sys : Option Nat)
    (layout : Layout) : Option (Nat × Arena × ThreadCache) :=
  if layout.size = 0 then some (1, w.countZeroSize, cache)
  else
    match w.tryLockfree layout with
    | (some ptr, w') => some (ptr, w', cache)
    | (none, w') =>
        if layout.size ≤ 512 then
          match cache.alloc layout.size 0 with
          | (some ptr, cache') => some (ptr, w'.countZeroSize, cache')
          | (none, cache') =>
              (w'.inner.allocateOrGrow sys layout).map fun r => (r.1, w'.withInner r.2, cache')
        else (w'.inner.allocateOrGrow sys layout).map fun r => (r.1, w'.withInner r.2, cache)

/-- An arena with what its caller holds, and the cache of the thread. -/
structure Cached where
  sess : Sess
  cache : ThreadCache

/-- What the caller may do. -/
inductive CachedOp where
  | op (op : Op)
  /-- `thread_local_dealloc` of the `i`th allocation, which the caller gives up. -/
  | giveBack (i : Nat)
  /-- `reset_thread_cache`, `clear_thread_cache`. -/
  | clear

/-- The operations that end with `reset_thread_cache`. -/
def Op.clearsCache : Op → Bool
  | .rewindToCheckpoint _ => true
  | .scopeReset _ => true
  | .scopeDrop _ => true
  | .popAndRewind => true
  | .reset => true
  | _ => false

/-- The operation that frees chunks. -/
def Op.freesChunks : Op → Bool
  | .resetAndShrinkToFit => true
  | _ => false

/-- The operations that go through `allocate_raw`. -/
def Op.allocates : Op → Bool
  | .allocateRaw _ _ => true
  | .alloc _ _ => true
  | .allocSliceCopy _ _ => true
  | _ => false

/-- An allocation the caller no longer holds: nothing is left of it to read or write. -/
def Obj.gone (o : Obj) : Obj := { o with data := [] }

namespace Cached

/-- The caller now holds `data` at the place it was given, and has written `bytes` there. -/
def record (s : Cached) (r : Nat × Arena × ThreadCache) (bytes : List UInt8)
    (data : List (Option UInt8)) : Cached :=
  ⟨⟨r.2.1.withMem (r.2.1.mem.write r.1 bytes), s.sess.ledger.record ⟨r.1, data⟩⟩, r.2.2⟩

/-- One operation of the caller. -/
def exec (s : Cached) : CachedOp → Option Cached
  | .op (.allocateRaw sys layout) =>
      (s.sess.arena.allocateRawCached s.cache sys layout).map fun r =>
        s.record r [] (List.replicate layout.size none)
  | .op (.alloc sys value) =>
      (s.sess.arena.allocateRawCached s.cache sys value.layout).map fun r =>
        s.record r value.bytes (value.bytes.map some)
  | .op (.allocSliceCopy sys slice) =>
      if slice.len = 0 then some s
      else
        match slice.elem.array slice.len with
        | none => some s
        | some layout =>
            (s.sess.arena.allocateRawCached s.cache sys layout).map fun r =>
              s.record r slice.bytes (slice.bytes.map some)
  | .op op =>
      (s.sess.exec false op).map fun sess =>
        ⟨sess, if op.clearsCache then s.cache.clear else s.cache⟩
  | .giveBack i =>
      s.sess.ledger.log[i]?.map fun o =>
        ⟨{ s.sess with ledger := s.sess.ledger.amend i Obj.gone },
          s.cache.dealloc o.addr o.data.length 0⟩
  | .clear => some { s with cache := s.cache.clear }

/-- The system allocator returns free blocks. -/
def Ok (s : Cached) : CachedOp → Prop
  | .op op => ∀ blk ∈ op.block, s.sess.arena.inner.Fresh blk
  | _ => True

instance (s : Cached) : (l : CachedOp) → Decidable (s.Ok l)
  | .op op => inferInstanceAs (Decidable (∀ blk ∈ op.block, s.sess.arena.inner.Fresh blk))
  | .giveBack _ => isTrue trivial
  | .clear => isTrue trivial

/-- What the caller heeds: chunks are freed with an empty cache only; and with a lock-free buffer,
    no rewind finds an older live allocation in it. -/
def Heeds (lockfree : Bool) (s : Cached) : CachedOp → Prop
  | .op op => (op.freesChunks = true → s.cache.held = []) ∧
      (lockfree = true → RewindsMeet Undisturbed s.sess op)
  | _ => True

instance (lockfree : Bool) (s : Cached) : (l : CachedOp) → Decidable (s.Heeds lockfree l)
  | .op _ => inferInstanceAs (Decidable ((_ → _) ∧ (_ → _)))
  | .giveBack _ => isTrue trivial
  | .clear => isTrue trivial

/-- The other operations are those of an arena without a cache. -/
theorem exec_other {op : Op} (h : op.allocates = false) (s : Cached) :
    s.exec (.op op) = (s.sess.exec false op).map fun sess =>
      ⟨sess, if op.clearsCache then s.cache.clear else s.cache⟩ := by
  cases op with
  | allocateRaw sys l => cases h
  | alloc sys v => cases h
  | allocSliceCopy sys sl => cases h
  | _ => rfl

end Cached

/-- The runs of an arena and the cache of its thread, which is empty at first. -/
def cachedArenas (lockfree : Bool) : System Cached CachedOp where
  init s := s.sess.Init ⟨false, lockfree⟩ ∧ s.cache = .new
  ok := Cached.Ok
  step := Cached.exec

instance (lockfree : Bool) (s : Cached) (l : CachedOp) :
    Decidable ((cachedArenas lockfree).ok s l) :=
  inferInstanceAs (Decidable (s.Ok l))

/-! ## 2. What lies in the cache -/

/-- The block of an entry. -/
def CacheEntry.span (e : CacheEntry) : Span := ⟨e.ptr, e.size⟩

/-- The range lies in memory of the arena that no later call of it hands out. -/
def Rests (w : Arena) (t : Span) : Prop := InChunk w.inner.chunks t ∨ InBuffer w t

/-- The blocks `es` may be handed out again: they rest, apart from each other and from everything
    that is live. -/
structure Shelf (s : Sess) (es : List CacheEntry) : Prop where
  rests : ∀ e ∈ es, e.size ≠ 0 → Rests s.arena e.span
  apart : es.Pairwise fun e e' => e.span.Apart e'.span
  dead : ∀ e ∈ es, ∀ o ∈ s.ledger.log, e.span.Apart o.span

section Shelf

variable {s s' : Sess} {es es' : List CacheEntry} {e : CacheEntry}

theorem Shelf.nil (s : Sess) : Shelf s [] :=
  ⟨(fun _ h => by cases h), .nil, (fun _ h => by cases h)⟩

/-- Entries may go, and change their order. -/
theorem Shelf.subperm (h : Shelf s es) (hs : es'.Subperm es) : Shelf s es' := by
  obtain ⟨l, hperm, hsub⟩ := hs
  refine ⟨fun e he => h.rests e (hsub.subset (hperm.mem_iff.mpr he)), ?_,
    fun e he => h.dead e (hsub.subset (hperm.mem_iff.mpr he))⟩
  exact (hperm.pairwise_iff fun hab => hab.symm).mp (h.apart.sublist hsub)

/-- What rested still does, and what is live now was so before, or is apart from the shelf. -/
theorem Shelf.step (h : Shelf s es) (hr : ∀ t, Rests s.arena t → Rests s'.arena t)
    (hl : ∀ o ∈ s'.ledger.log, (∃ o₀ ∈ s.ledger.log, o.span = o₀.span) ∨
      ∀ e ∈ es, e.size ≠ 0 → e.span.Apart o.span) : Shelf s' es := by
  refine ⟨fun e he h0 => hr _ (h.rests e he h0), h.apart, fun e he o ho => ?_⟩
  rcases hl o ho with ⟨o₀, ho₀, hspan⟩ | hnew
  · rw [hspan]
    exact h.dead e he o₀ ho₀
  · by_cases h0 : e.size = 0
    · exact Or.inl h0
    · exact hnew e he h0

/-- **An allocation by the arena** is apart from the shelf. -/
theorem Shelf.take (h : Shelf s es) {w' : Arena} {p size : Nat} {m : Mem}
    {data : List (Option UInt8)} (ha : Allocated s.arena w' p size) (hlen : data.length = size) :
    Shelf ⟨w'.withMem m, s.ledger.record ⟨p, data⟩⟩ es := by
  refine h.step (fun t ht => ?_) fun o ho => ?_
  · exact ht.imp (fun hc => hc.above ha.above) fun hb => (ha.keeps t hb).congr rfl rfl rfl
  · rcases List.mem_append.mp ho with ho | ho
    · exact Or.inl ⟨o, ho, rfl⟩
    · rw [List.mem_singleton.mp ho]
      refine Or.inr fun e he h0 => ?_
      have hspan : (⟨p, data⟩ : Obj).span = ⟨p, size⟩ := by rw [← hlen]; rfl
      rw [hspan]
      by_cases hz : size = 0
      · exact Or.inr (Or.inl hz)
      · exact ha.apart hz _ (h.rests e he h0)

/-- **A block from the shelf** is a place for a new object of no more than its size, apart from what
    is live. -/
theorem Shelf.offers (h : Shelf s (e :: es)) (hl : Live s) {w₁ : Arena} {l : Layout}
    (hmiss : s.arena.tryLockfree l = (none, w₁)) (hsize : l.size ≤ e.size) (h0 : l.size ≠ 0) :
    Offers s.arena w₁.countZeroSize e.ptr l.size ∧
      ∀ o ∈ s.ledger.log, o.span.Apart ⟨e.ptr, l.size⟩ := by
  obtain ⟨hsame, _, hmem⟩ := Arena.tryLockfree_same hmiss
  have hst := Arena.tryLockfree_bufStep hl.buffer hmiss
  have hin : Span.Inside ⟨e.ptr, l.size⟩ e.span := by
    refine ⟨Nat.le_refl _, ?_⟩
    show e.ptr + l.size ≤ e.ptr + e.size
    omega
  have habove : Above s.arena.inner.chunks w₁.inner.chunks := by
    rw [hsame.chunks]
    exact fun _ c hc => ⟨c.used, Nat.le_refl _, hc⟩
  refine ⟨⟨hl.separate.congr hsame.spans hst.block, hst.ok, hmem, hst.block, habove,
    fun t ht => (hst.keeps t ht).congr rfl rfl rfl, fun _ => ?_⟩, fun o ho => ?_⟩
  · have he0 : e.size ≠ 0 := fun he => h0 (Nat.le_zero.mp (he ▸ hsize))
    rcases h.rests e List.mem_cons_self he0 with ⟨k, c, hk, h1, h2⟩ | hb
    · refine Or.inl (InChunk.above ⟨k, c, hk, h1.trans hin.1, hin.2.trans h2⟩ habove)
    · obtain ⟨b, hb, hne, hib, hfree⟩ := hst.keeps _ hb
      exact Or.inr ⟨b, hb, hne, ⟨hib.1.trans hin.1, hin.2.trans hib.2⟩,
        fun x hx => hfree x (hin.has hx)⟩
  · exact ((h.dead e List.mem_cons_self o ho).mono hin (.refl _)).symm

/-- What is left on the shelf when its first block has gone to a new object. -/
theorem Shelf.hit (h : Shelf s (e :: es)) {w' : Arena} {size : Nat} {m : Mem}
    {data : List (Option UInt8)} (ha : Offers s.arena w' e.ptr size) (hsize : size ≤ e.size)
    (hlen : data.length = size) :
    Shelf ⟨w'.withMem m, s.ledger.record ⟨e.ptr, data⟩⟩ es := by
  have hes : Shelf s es := h.subperm (List.sublist_cons_self e es).subperm
  refine hes.step (fun t ht => ?_) fun o ho => ?_
  · exact ht.imp (fun hc => hc.above ha.above) fun hb => (ha.keeps t hb).congr rfl rfl rfl
  · rcases List.mem_append.mp ho with ho | ho
    · exact Or.inl ⟨o, ho, rfl⟩
    · rw [List.mem_singleton.mp ho]
      refine Or.inr fun e' he' _ => ?_
      have hap := (List.pairwise_cons.mp h.apart).1 e' he'
      refine (hap.mono (s := ⟨e.ptr, data.length⟩) ⟨Nat.le_refl _, ?_⟩ (.refl _)).symm
      show e.ptr + data.length ≤ e.ptr + e.size
      omega

end Shelf

/-! ## 3. The invariant -/

section Give

variable {s : Sess} {i : Nat} {o : Obj}

theorem gone_cases {x : Obj} (hx : x ∈ (s.ledger.amend i Obj.gone).log) :
    x.data = [] ∨ ∃ k, k ≠ i ∧ s.ledger.log[k]? = some x := by
  obtain ⟨k, hk⟩ := List.mem_iff_getElem?.mp hx
  obtain ⟨y, hy, rfl⟩ := Ledger.getElem?_amend hk
  by_cases hik : i = k
  · rw [if_pos hik]
    exact Or.inl rfl
  · rw [if_neg hik]
    exact Or.inr ⟨k, Ne.symm hik, hy⟩

/-- The caller gives up an allocation. -/
theorem Live.gone (h : Live s) (i : Nat) :
    Live { s with ledger := s.ledger.amend i Obj.gone } := by
  have hsub : ∀ x ∈ (s.ledger.amend i Obj.gone).log, x.data ≠ [] → x ∈ s.ledger.log := by
    intro x hx hd
    rcases gone_cases hx with hnil | ⟨k, _, hk⟩
    · exact absurd hnil hd
    · exact List.mem_of_getElem? hk
  refine ⟨h.separate, h.buffer, fun x hx hd => h.placed x (hsub x hx hd) hd, ?_, fun x hx => ?_, ?_⟩
  · refine List.pairwise_iff_getElem.mpr fun k k' hk hk' hlt => ?_
    obtain ⟨y, hy, hxy⟩ := Ledger.getElem?_amend (List.getElem?_eq_getElem hk)
    obtain ⟨y', hy', hxy'⟩ := Ledger.getElem?_amend (List.getElem?_eq_getElem hk')
    have hap := pairwise_getElem?_ne (fun _ _ h => h.symm) h.apart (Nat.ne_of_lt hlt) hy hy'
    rw [hxy, hxy']
    split
    · exact (apart_of_nil rfl _).symm
    · split
      · exact apart_of_nil rfl _
      · exact hap
  · rcases gone_cases hx with hnil | ⟨k, _, hk⟩
    · intro j b hj
      rw [hnil] at hj
      cases hj
    · exact h.holds x (List.mem_of_getElem? hk)
  · exact Ledger.Covered.amend h.covered (fun cp o _ hd => absurd rfl hd) i

/-- What the caller gave up may go to the shelf. -/
theorem Shelf.gone {es : List CacheEntry} (h : Shelf s es) (hl : Live s)
    (ho : s.ledger.log[i]? = some o) :
    Shelf { s with ledger := s.ledger.amend i Obj.gone } (es ++ [⟨o.addr, o.data.length, 0⟩]) := by
  have hmem := List.mem_of_getElem? ho
  refine ⟨fun e he h0 => ?_, ?_, fun e he x hx => ?_⟩
  · rcases List.mem_append.mp he with he | he
    · exact h.rests e he h0
    · rw [List.mem_singleton.mp he] at h0 ⊢
      exact hl.placed o hmem fun hn => h0 (by rw [hn]; rfl)
  · refine List.pairwise_append.mpr ⟨h.apart, List.pairwise_singleton _ _, fun e he e' he' => ?_⟩
    rw [List.mem_singleton.mp he']
    exact h.dead e he o hmem
  · rcases gone_cases hx with hnil | ⟨k, hki, hk⟩
    · exact apart_of_nil hnil _
    · rcases List.mem_append.mp he with he | he
      · exact h.dead e he x (List.mem_of_getElem? hk)
      · rw [List.mem_singleton.mp he]
        exact pairwise_getElem?_ne (R := fun o o' : Obj => o.span.Apart o'.span)
          (fun _ _ h => h.symm) hl.apart (Ne.symm hki) ho hk

end Give

/-- **What holds between the operations.** -/
structure Cached.Inv (lockfree : Bool) (s : Cached) : Prop where
  stack : StackOk s.sess.arena.inner s.sess.cps
  live : Live s.sess
  bare : lockfree = false → s.sess.arena.inner.lockfreeBuffer = none
  fits : s.cache.Fits
  shelf : Shelf s.sess s.cache.held

/-- **The two ways of a request**: the arena serves it and the cache loses entries at most, or an
    entry of the cache that is large enough does. -/
theorem Arena.allocateRawCached_cases {w w' : Arena} {c c' : ThreadCache} {sys : Option Nat}
    {l : Layout} {p : Nat} (hc : c.Fits) (e : w.allocateRawCached c sys l = some (p, w', c')) :
    (w.allocateRaw sys l = some (p, w') ∧ c'.Fits ∧ c'.held.Subperm c.held) ∨
    l.size ≠ 0 ∧ ∃ w₁ x, w.tryLockfree l = (none, w₁) ∧ l.size ≤ x.size ∧ p = x.ptr ∧
      w' = w₁.countZeroSize ∧ c'.Fits ∧ (x :: c'.held).Subperm c.held := by
  unfold Arena.allocateRawCached at e
  unfold Arena.allocateRaw
  split at e
  · rename_i h0
    cases e
    exact Or.inl ⟨if_pos h0, hc, .refl _⟩
  · rename_i h0
    rw [if_neg h0]
    cases hl : w.tryLockfree l with
    | mk r w₁ =>
        cases r with
        | some q =>
            simp only [hl] at e
            cases e
            exact Or.inl ⟨rfl, hc, .refl _⟩
        | none =>
            simp only [hl] at e
            split at e
            · have hturns := ThreadCache.turns_alloc hc l.size 0
              have hfits := hc.alloc l.size 0
              rcases c.alloc_cases l.size 0 with ⟨_, ha⟩ | ⟨i, x, _, hx, hsize, _, ha⟩
              · rw [ha] at e hfits
                obtain ⟨r, hr, he⟩ := Option.map_eq_some_iff.mp e
                cases he
                exact Or.inl ⟨by simp only [hr, Option.map_some], hfits, hturns.sub⟩
              · rw [ha] at e hfits
                cases e
                refine Or.inr ⟨h0, w₁, x, rfl, hsize, rfl, rfl, hfits, ?_⟩
                exact ((hc.enter 0).held_remove hx l.size).symm.subperm.trans hturns.sub
            · obtain ⟨r, hr, he⟩ := Option.map_eq_some_iff.mp e
              cases he
              exact Or.inl ⟨by simp only [hr, Option.map_some], hc, .refl _⟩

section Inv

variable {lockfree : Bool} {s s' : Cached}

/-- **An allocation**, from the arena or from the cache. -/
theorem Cached.Inv.alloc (h : s.Inv lockfree) {sys : Option Nat} {l : Layout}
    (hf : ∀ ptr, sys = some ptr → s.sess.arena.inner.Fresh (growthBlock ptr l.size))
    {r : Nat × Arena × ThreadCache} (e : s.sess.arena.allocateRawCached s.cache sys l = some r)
    {bytes : List UInt8} {data : List (Option UInt8)} (hlen : data.length = l.size)
    (hb : bytes = [] ∨ bytes.length = l.size)
    (hm : ∀ m : Mem, Holds (m.write r.1 bytes) r.1 data) :
    (s.record r bytes data).Inv lockfree := by
  obtain ⟨p, w', c'⟩ := r
  have hagree : ∀ t : Span, t.Apart ⟨p, l.size⟩ → Mem.Agree w'.mem (w'.mem.write p bytes) t := by
    intro t ht
    rcases hb with rfl | hb
    · exact Mem.agree_write (Or.inr (Or.inl rfl))
    · exact agree_write_alloc hb t ht
  rcases Arena.allocateRawCached_cases h.fits e with ⟨hw, hfits, hsub⟩ |
    ⟨h0, w₁, x, hmiss, hsize, rfl, rfl, hfits, hsub⟩
  · have ha := Arena.allocateRaw_allocated h.stack.shape h.live.separate h.live.buffer hf hw
    obtain ⟨hshape, hgrows⟩ := Arena.allocateRaw_grows h.stack.shape hw
    refine ⟨h.stack.grows hshape hgrows, h.live.take ha hlen (hm _) hagree, fun hb => ?_, hfits,
      (h.shelf.take ha hlen).subperm hsub⟩
    have hnone := Arena.allocateRaw_noBuffer h.stack.shape (h.bare hb) hw
    exact hnone
  · have hshelf := h.shelf.subperm hsub
    obtain ⟨hoffers, hapart⟩ := hshelf.offers h.live hmiss hsize h0
    have hsame := (Arena.tryLockfree_same hmiss).1
    refine ⟨h.stack.same ⟨hsame.chunks, hsame.currentChunk, hsame.checkpoints,
      hsame.nextId⟩, h.live.place hoffers hapart hlen (hm _) hagree, fun hb => ?_, hfits,
      hshelf.hit hoffers hsize hlen⟩
    have hnone := h.bare hb
    rw [Arena.tryLockfree_noBuffer hnone] at hmiss
    cases hmiss
    exact hnone

/-- Without a lock-free buffer no rewind disturbs anything. -/
theorem Cached.Inv.meets (h : s.Inv lockfree) {op : Op}
    (hm : lockfree = true → RewindsMeet Undisturbed s.sess op) :
    RewindsMeet Undisturbed s.sess op := by
  cases lockfree with
  | true => exact hm rfl
  | false =>
      intro i _ o _ _ hon
      obtain ⟨u, hu, _⟩ := hon
      rw [ArenaInner.block, h.bare rfl] at hu
      cases hu

/-- The arena moves nothing, and the caller holds what it held. -/
theorem Shelf.quiet {s s' : Sess} {es : List CacheEntry} (h : Shelf s es)
    (hc : s'.arena.inner.chunks = s.arena.inner.chunks)
    (hb : s'.arena.inner.lockfreeBuffer = s.arena.inner.lockfreeBuffer)
    (ho : s'.arena.owner = s.arena.owner) (hsl : s'.arena.slab = s.arena.slab)
    (hl : ∀ o ∈ s'.ledger.log, ∃ o₀ ∈ s.ledger.log, o.span = o₀.span) : Shelf s' es := by
  refine h.step (fun t ht => ?_) fun o ho => Or.inl (hl o ho)
  refine ht.imp (fun hin => ?_) fun hin => hin.congr hb ho hsl
  rw [hc]
  exact hin

/-- **An operation of the arena other than an allocation.** -/
theorem Cached.Inv.other (h : s.Inv lockfree) {op : Op} {sess : Sess}
    (hno : op.allocates = false)
    (hfree : op.freesChunks = true → s.cache.held = [])
    (hm : RewindsMeet Undisturbed s.sess op) (e : s.sess.exec false op = some sess) :
    Cached.Inv lockfree ⟨sess, if op.clearsCache then s.cache.clear else s.cache⟩ := by
  have hfresh : ∀ blk ∈ op.block, s.sess.arena.inner.Fresh blk := by
    intro blk hblk
    cases op with
    | allocateRaw sys l => cases hno
    | alloc sys v => cases hno
    | allocSliceCopy sys sl => cases hno
    | _ => cases hblk
  have hacts := s.sess.exec_acts e
  have hshelf : Shelf sess (if op.clearsCache then s.cache.clear else s.cache).held := by
    by_cases hcl : op.clearsCache = true
    · rw [if_pos hcl, ThreadCache.held_clear]
      exact .nil _
    · rw [if_neg hcl]
      have hmarked {cp : ArenaCheckpoint} {a' : ArenaInner} {stack : List ArenaCheckpoint}
          (ha : s.sess.arena.inner.checkpoint = some (cp, a')) :
          Shelf ⟨s.sess.arena.withInner { a' with checkpoints := stack }, s.sess.ledger.mark cp⟩
            s.cache.held := by
        rw [ArenaInner.checkpoint_eq h.stack.shape] at ha
        cases ha
        exact h.shelf.quiet rfl rfl rfl rfl fun x hx => ⟨x, hx, rfl⟩
      cases hacts with
      | take hask _ _ _ => cases hask <;> cases hno
      | skip _ => cases hno
      | @write i j _ b _ _ =>
          refine h.shelf.quiet rfl rfl rfl rfl fun x hx => ?_
          obtain ⟨k, hk⟩ := List.mem_iff_getElem?.mp hx
          obtain ⟨y, hy, rfl⟩ := Ledger.getElem?_amend hk
          refine ⟨y, List.mem_of_getElem? hy, ?_⟩
          split
          · exact Obj.set_span j b y
          · rfl
      | mark _ ha => exact hmarked ha
      | push ha => exact hmarked ha
      | clear => exact h.shelf.quiet rfl rfl rfl rfl fun x hx => ⟨x, hx, rfl⟩
      | shrink =>
          rw [hfree rfl]
          exact .nil _
      | rewind hop _ _ => cases hop <;> exact absurd rfl hcl
      | pop _ _ => exact absurd rfl hcl
      | reset => exact absurd rfl hcl
  refine ⟨hacts.stackOk h.stack, hacts.live hfresh hm h.stack h.live,
    fun hb => hacts.noBuffer h.stack.shape (h.bare hb), ?_, hshelf⟩
  show (if op.clearsCache then s.cache.clear else s.cache).Fits
  split
  · exact h.fits.clear
  · exact h.fits

/-- **The caller gives an allocation back.** -/
theorem Cached.Inv.giveBack (h : s.Inv lockfree) {i : Nat} {o : Obj}
    (ho : s.sess.ledger.log[i]? = some o) :
    Cached.Inv lockfree ⟨{ s.sess with ledger := s.sess.ledger.amend i Obj.gone },
      s.cache.dealloc o.addr o.data.length 0⟩ := by
  refine ⟨h.stack, h.live.gone i, h.bare, h.fits.dealloc _ _ _, ?_⟩
  have hturns := ThreadCache.turns_dealloc h.fits o.addr o.data.length 0
  have hshelf := (h.shelf.subperm hturns.sub).gone h.live ho
  cases hturns.turn with
  | idle _ hheld =>
      rw [hheld]
      exact hshelf.subperm (List.sublist_append_left _ _).subperm
  | deposit hheld _ =>
      rw [hheld]
      exact hshelf

/-- **Every operation keeps the invariant.** -/
theorem Cached.Inv.step (h : s.Inv lockfree) {l : CachedOp} (hok : s.Ok l)
    (hheeds : s.Heeds lockfree l) (e : s.exec l = some s') : s'.Inv lockfree := by
  cases l with
  | op op =>
      by_cases hno : op.allocates = false
      · rw [Cached.exec_other hno] at e
        obtain ⟨sess, hs, rfl⟩ := Option.map_eq_some_iff.mp e
        exact h.other hno hheeds.1 (h.meets hheeds.2) hs
      cases op with
      | allocateRaw sys l =>
          obtain ⟨r, hr, rfl⟩ := Option.map_eq_some_iff.mp e
          exact h.alloc (fun ptr hp => hok _ (by simp [Op.block, hp])) hr List.length_replicate
            (Or.inl rfl) fun m => holds_replicate _ _ _
      | alloc sys v =>
          obtain ⟨r, hr, rfl⟩ := Option.map_eq_some_iff.mp e
          exact h.alloc (fun ptr hp => hok _ (by simp [Op.block, hp])) hr
            (by rw [List.length_map, v.length_eq]) (Or.inr v.length_eq)
            fun m => holds_write _ _ _
      | allocSliceCopy sys sl =>
          simp only [Cached.exec] at e
          split at e
          · cases e
            exact h
          · split at e
            · cases e
              exact h
            · rename_i l hl
              obtain ⟨r, hr, rfl⟩ := Option.map_eq_some_iff.mp e
              have hsize := Layout.size_array hl
              have hlen : sl.bytes.length = l.size := sl.length_eq.trans hsize
              exact h.alloc (fun ptr hp => hok _ (by simp [Op.block, hp, hsize])) hr
                (by rw [List.length_map, hlen]) (Or.inr hlen) fun m => holds_write _ _ _
      | _ => exact absurd rfl hno
  | giveBack i =>
      obtain ⟨o, ho, rfl⟩ := Option.map_eq_some_iff.mp e
      exact h.giveBack ho
  | clear =>
      cases e
      refine ⟨h.stack, h.live, h.bare, h.fits.clear, ?_⟩
      rw [ThreadCache.held_clear]
      exact .nil _

/-- **The invariant holds in every reachable state.** -/
theorem reach_cached (hr : ((cachedArenas lockfree).under (Cached.Heeds lockfree)).Reach s) :
    s.Inv lockfree := by
  refine hr.inv (P := Cached.Inv lockfree) (fun s hi => ?_) fun s l s' hi hok e => ?_
  · obtain ⟨hinit, hcache⟩ := hi
    refine ⟨hinit.stackOk, hinit.live, fun hb => ?_, ?_, ?_⟩
    · subst hb
      exact reach_noBuffer (.init hinit)
    · rw [hcache]
      exact ThreadCache.fits_new
    · rw [hcache]
      exact .nil _
  · exact hi.step hok.1 hok.2 e

end Inv

/-- **An arena and the cache of its thread.** In every run in which the caller gives blocks back,
    frees chunks with an empty cache only and, with a lock-free buffer, rewinds past nothing live
    in it:

    1. the live allocations are pairwise apart and read back what was last written, whether they
       lie in new memory or in memory that was given back;
    2. the cache holds blocks of the arena only, apart from each other and from everything live. -/
theorem cached_sound (lockfree : Bool) {s : Cached}
    (hr : ((cachedArenas lockfree).under (Cached.Heeds lockfree)).Reach s) :
    (s.sess.ledger.log.Pairwise fun o o' => o.span.Apart o'.span) ∧
    (∀ o ∈ s.sess.ledger.log, Holds s.sess.arena.mem o.addr o.data) ∧
    (∀ e ∈ s.cache.held, e.size ≠ 0 → Rests s.sess.arena e.span) ∧
    (s.cache.held.Pairwise fun e e' => e.span.Apart e'.span) ∧
    ∀ e ∈ s.cache.held, ∀ o ∈ s.sess.ledger.log, e.span.Apart o.span := by
  have h := reach_cached hr
  exact ⟨h.live.apart, h.live.holds, h.shelf.rests, h.shelf.apart, h.shelf.dead⟩

/-- Three blocks; the first two are given back, and a smaller request gets the first of them. -/
theorem cached_sound_reused : ∃ s, ((cachedArenas false).under (Cached.Heeds false)).Reach s ∧
    (s.sess.ledger.log.map Obj.span = [⟨8192, 0⟩, ⟨8208, 0⟩, ⟨8224, 8⟩, ⟨8192, 4⟩] ∧
      s.cache.held.map CacheEntry.span = [⟨8208, 16⟩]) ∧
    ∀ o ∈ s.sess.ledger.log, Holds s.sess.arena.mem o.addr o.data := by
  obtain ⟨s, hr, hs⟩ := System.exists_reach_of_replay
    ((cachedArenas false).under (Cached.Heeds false))
    [.op (.allocateRaw none ⟨16, 8, ⟨3, rfl⟩, by decide⟩),
      .op (.allocateRaw none ⟨16, 8, ⟨3, rfl⟩, by decide⟩),
      .op (.allocateRaw none .word), .giveBack 0, .giveBack 1,
      .op (.alloc none ⟨⟨4, 4, ⟨2, rfl⟩, by decide⟩, [1, 2, 3, 4], rfl⟩)]
    (P := fun s => s.sess.ledger.log.map Obj.span = [⟨8192, 0⟩, ⟨8208, 0⟩, ⟨8224, 8⟩, ⟨8192, 4⟩] ∧
      s.cache.held.map CacheEntry.span = [⟨8208, 16⟩])
    (s := ⟨.small none, .new⟩) ⟨Sess.init_small false, rfl⟩ (by decide)
  exact ⟨s, hr, hs, (cached_sound false hr).2.1⟩

/-- **A shrink does not empty the cache.** A block of the second chunk is given back, the chunk is
    freed, and the next request gets the block, outside of every chunk of the arena. -/
theorem cached_shrink_dangles : ∃ s, (cachedArenas false).Reach s ∧
    ∃ o ∈ s.sess.ledger.log, o.data ≠ [] ∧
      ∀ c ∈ s.sess.arena.inner.chunks, o.span.Apart c.span := by
  obtain ⟨s, hr, hs⟩ := System.exists_reach_of_replay (cachedArenas false)
    [.op (.allocateRaw none ⟨64, 8, ⟨3, rfl⟩, by decide⟩),
      .op (.allocateRaw (some 32768) ⟨64, 8, ⟨3, rfl⟩, by decide⟩), .giveBack 1,
      .op .resetAndShrinkToFit, .op (.allocateRaw none ⟨64, 8, ⟨3, rfl⟩, by decide⟩)]
    (P := fun s => ∃ o ∈ s.sess.ledger.log, o.data ≠ [] ∧
      ∀ c ∈ s.sess.arena.inner.chunks, o.span.Apart c.span)
    (s := ⟨.small none, .new⟩) ⟨Sess.init_small false, rfl⟩ (by decide)
  exact ⟨s, hr, hs⟩

end ArenaB
