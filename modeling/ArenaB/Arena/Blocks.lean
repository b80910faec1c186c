/-
  File:      ArenaB/Arena/Blocks.lean
  Subject:   The blocks an arena gets from the system allocator, and those it gives back.

  * `Chunk.obtains`, `Arena.obtains`, `Arena.opens` -- the blocks the calls of src/core.rs and
    src/arena.rs get from `alloc`;
  * `Chunk.releases`, `LockFreeBuffer.releases`, `ArenaInner.releases` -- the blocks the
    destructors hand to `dealloc`, with the layout they hand over;
  * `ArenaInner.releases_eq` -- the regions of an arena, each at alignment 64;
  * `Arena.opens_eq` -- a new arena has what it got;
  * **`Sess.exec_balance`** -- over every operation, what is obtained and what the arena would
    give back before is what it gave back and what it would give back after.
-/
import ArenaB.Base.Heap
import ArenaB.Arena.Foreign
import ArenaB.Arena.Lockfree
import ArenaB.Arena.Serve
import ArenaB.Arena.Capacity

namespace ArenaB

open Base

/-! ## 1. What is obtained and released -/

/-- `Chunk::new`: the block it gets from `alloc`. -/
def Chunk.obtains (sys : Option Nat) (capacity : Nat) : Option Block :=
  if capacity = 0 then none
  else (Chunk.newLayout capacity).bind fun l => sys.map fun ptr => ⟨ptr, l.size, l.align⟩

/-- `Drop for Chunk`: the block it hands to `dealloc`. -/
def Chunk.releases (c : Chunk) : Option Block :=
  c.dropLayout.map fun l => ⟨c.ptr, l.size, l.align⟩

/-- `LockFreeBuffer::new`: the block it gets from `alloc`. -/
def LockFreeBuffer.obtains (sys : Option Nat) : Option Block :=
  sys.map fun ptr => ⟨ptr, lockfreeBufferSize, lockfreeAlignment⟩

/-- `Drop for LockFreeBuffer`: the layout given to `dealloc`. -/
def LockFreeBuffer.dropLayout (b : LockFreeBuffer) : Option Layout :=
  if b.buffer ≠ 0 ∧ b.capacity > 0 then
    match Layout.fromSizeAlign b.capacity lockfreeAlignment with
    | some layout => some layout
    | none => Layout.fromSizeAlign lockfreeAlignment lockfreeAlignment
  else none

/-- `Drop for LockFreeBuffer`: the block it hands to `dealloc`. -/
def LockFreeBuffer.releases (b : LockFreeBuffer) : Option Block :=
  b.dropLayout.map fun l => ⟨b.buffer, l.size, l.align⟩

/-- The drop of an `ArenaInner`: its chunks in order, then the buffer. -/
def ArenaInner.releases (a : ArenaInner) : List Block :=
  a.chunks.filterMap Chunk.releases ++ (a.lockfreeBuffer.bind LockFreeBuffer.releases).toList

/-- `Arena::with_capacity`: the chunk asked for, or the one of the fallback, and the buffer. -/
def Arena.opens (sys sys' : Option Nat) (lockfree : Option (Option Nat)) (capacity : Nat) :
    List Block :=
  ((Chunk.obtains sys capacity).or (Chunk.obtains sys' defaultChunkSize)).toList ++
    (lockfree.bind LockFreeBuffer.obtains).toList

/-- `Arena::allocate_raw`: the block it gets when neither the lock-free buffer nor the current
    chunk serves the request. -/
def Arena.obtains (w : Arena) (sys : Option Nat) (layout : Layout) : Option Block :=
  if layout.size = 0 then none
  else
    match w.tryLockfree layout with
    | (some _, _) => none
    | (none, w') =>
        match w'.inner.allocate layout with
        | some _ => none
        | none => Chunk.obtains sys (nextChunkCapacity layout.size)

/-- The block an operation gets from the system allocator. -/
def Sess.obtains (s : Sess) : Op → Option Block
  | .allocateRaw sys layout => s.arena.obtains sys layout
  | .alloc sys value => s.arena.obtains sys value.layout
  | .allocSliceCopy sys slice =>
      if slice.len = 0 then none else (slice.elem.array slice.len).bind (s.arena.obtains sys)
  | _ => none

/-- The blocks an operation gives back: `truncate(1)` drops the chunks behind the first. -/
def Sess.releases (s : Sess) : Op → List Block
  | .resetAndShrinkToFit => (s.arena.inner.chunks.drop 1).filterMap Chunk.releases
  | _ => []

/-- A region as the block of alignment 64 that it is. -/
def blockOf (t : Span) : Block := ⟨t.base, t.len, 64⟩

/-- The sizes for which the destructors take their first branch. -/
def Solid (t : Span) : Prop := 0 < t.len ∧ t.len + 64 ≤ 2 ^ 63

section Blocks

variable {a : ArenaInner} {w w' : Arena} {sys : Option Nat} {l : Layout} {cap p : Nat}

theorem Layout.fromSizeAlign_64 {n : Nat} (h : n + 64 ≤ 2 ^ 63) :
    ∃ l, Layout.fromSizeAlign n 64 = some l ∧ l.size = n ∧ l.align = 64 := by
  have hc : (64 : Nat) = 2 ^ Nat.log2 64 ∧ n + 64 ≤ 2 ^ 63 := ⟨by decide, h⟩
  exact ⟨_, dif_pos hc, rfl, rfl⟩

theorem Chunk.releases_eq {c : Chunk} (h : Solid c.span) : c.releases = some (blockOf c.span) := by
  obtain ⟨l, hl, hsize, halign⟩ := Layout.fromSizeAlign_64 h.2
  have hl' : Layout.fromSizeAlign c.capacity 64 = some l := hl
  have hpos : c.capacity > 0 := h.1
  rw [Chunk.releases, Chunk.dropLayout, if_pos hpos, hl']
  simp only [Option.map_some, hsize, halign]
  rfl

theorem LockFreeBuffer.releases_eq {b : LockFreeBuffer} (hb : b.buffer ≠ 0) (h : Solid b.span) :
    b.releases = some (blockOf b.span) := by
  obtain ⟨l, hl, hsize, halign⟩ := Layout.fromSizeAlign_64 h.2
  have hl' : Layout.fromSizeAlign b.capacity lockfreeAlignment = some l := hl
  have hpos : b.buffer ≠ 0 ∧ b.capacity > 0 := ⟨hb, h.1⟩
  rw [LockFreeBuffer.releases, LockFreeBuffer.dropLayout, if_pos hpos, hl']
  simp only [Option.map_some, hsize, halign]
  rfl

/-- **What dropping an arena frees is what it has**: every region, at alignment 64. -/
theorem ArenaInner.releases_eq (h : ∀ t ∈ a.regions, Solid t) :
    a.releases = a.regions.map blockOf := by
  have hchunks : a.chunks.filterMap Chunk.releases = a.spans.map blockOf := by
    have hc : a.chunks.filterMap Chunk.releases =
        a.chunks.filterMap fun c => some (blockOf c.span) :=
      List.filterMap_congr fun c hc =>
        Chunk.releases_eq (h _ (List.mem_append_left _ (List.mem_map_of_mem hc)))
    rw [hc, ArenaInner.spans, List.map_map, ← List.filterMap_eq_map]
    rfl
  have hbuf : a.lockfreeBuffer.bind LockFreeBuffer.releases = a.block.map blockOf := by
    cases hb : a.lockfreeBuffer with
    | none => simp [ArenaInner.block, hb]
    | some b =>
        by_cases hz : b.buffer = 0
        · simp [ArenaInner.block, hb, hz, LockFreeBuffer.releases, LockFreeBuffer.dropLayout,
            LockFreeBuffer.span]
        · have hmem := ArenaInner.mem_block hb hz
          have hsolid := h _ (List.mem_append_right _ (Option.mem_toList.mpr hmem))
          rw [Option.mem_def.mp hmem]
          exact LockFreeBuffer.releases_eq hz hsolid
  rw [ArenaInner.releases, hchunks, hbuf, ArenaInner.regions, List.map_append]
  cases a.block <;> rfl

/-- `Chunk::new` returns the block it obtained, or has obtained none. -/
theorem Chunk.new_obtains {c : Chunk} (h : Chunk.new sys cap = .ok c) :
    Chunk.obtains sys cap = some (blockOf c.span) := by
  have hcap : c.capacity + 64 ≤ 2 ^ 63 := (Chunk.new_ok h).2.2.2.capacity
  obtain ⟨l, hl, hsize, halign⟩ := Layout.fromSizeAlign_64 hcap
  obtain ⟨hsys, hround, _, _⟩ := Chunk.new_ok h
  have hne : cap ≠ 0 := by
    rintro rfl
    cases h
  rw [Chunk.obtains, if_neg hne, Chunk.newLayout, ← hround, hl, hsys]
  simp only [Option.bind_some, Option.map_some, hsize, halign]
  rfl

theorem Chunk.new_error {e : String} (h : Chunk.new sys cap = .error e) :
    Chunk.obtains sys cap = none := by
  unfold Chunk.new at h
  unfold Chunk.obtains Chunk.newLayout
  split at h
  · rename_i hz
    rw [if_pos hz]
  · rename_i hz
    rw [if_neg hz]
    split at h
    · rename_i hl
      rw [hl]
      rfl
    · split at h
      · simp
      · cases h

/-- A chunk of a capacity whose rounding does not overflow. -/
theorem Chunk.solid_new {c : Chunk} (hcap : cap + 63 < wordMod) (h : Chunk.new sys cap = .ok c) :
    Solid c.span := by
  obtain ⟨_, hround, _, hok⟩ := Chunk.new_ok h
  have hle := (Chunk.roundCapacity_spec hcap).2.1
  have hne : cap ≠ 0 := by
    rintro rfl
    cases h
  refine ⟨?_, hok.capacity⟩
  show 0 < c.capacity
  omega

theorem nextChunkCapacity_fits (n : Nat) : nextChunkCapacity n + 63 < wordMod := by
  have h := (nextChunkCapacity_spec n).1
  have hm : maxChunkSize + 63 < wordMod := by decide
  omega

/-- A request that needs no block is served as if none were there. -/
theorem Arena.allocateRaw_unasked (h : w.obtains sys l = none) :
    w.allocateRaw sys l = w.allocateRaw none l := by
  unfold Arena.obtains at h
  unfold Arena.allocateRaw
  split
  · rfl
  · rename_i h0
    rw [if_neg h0] at h
    cases hl : w.tryLockfree l with
    | mk r w₁ =>
        cases r with
        | some _ => rfl
        | none =>
            simp only [hl] at h
            simp only [ArenaInner.allocateOrGrow]
            cases ha : w₁.inner.allocate l with
            | some _ => rfl
            | none =>
                simp only [ha] at h
                simp only [ArenaInner.addChunk]
                cases hn : Chunk.new sys (nextChunkCapacity l.size) with
                | ok c =>
                    rw [Chunk.new_obtains hn] at h
                    cases h
                | error e =>
                    cases hn' : Chunk.new none (nextChunkCapacity l.size) with
                    | error e' => rfl
                    | ok c' => cases (Chunk.new_ok hn').1

/-- The block that is obtained is the one the arena asks for. -/
theorem Arena.obtains_eq_some {b : Block} (h : w.obtains sys l = some b) :
    sys = some b.base ∧ b.span = growthBlock b.base l.size := by
  unfold Arena.obtains at h
  split at h
  · cases h
  · split at h
    · cases h
    · split at h
      · cases h
      · unfold Chunk.obtains at h
        split at h
        · cases h
        · obtain ⟨l', hl', h⟩ := Option.bind_eq_some_iff.mp h
          obtain ⟨ptr, hptr, rfl⟩ := Option.map_eq_some_iff.mp h
          refine ⟨hptr, ?_⟩
          unfold Chunk.newLayout Layout.fromSizeAlign at hl'
          split at hl'
          · cases hl'
            rfl
          · cases hl'

/-- **`allocate_raw` keeps what it obtains**: exactly that block joins the chunks. -/
theorem Arena.allocateRaw_obtains (hs : w.inner.Shape) (e : w.allocateRaw sys l = some (p, w')) :
    ∃ ts : List Span, (∀ t ∈ ts, Solid t) ∧ (w.obtains sys l).toList = ts.map blockOf ∧
      w'.inner.spans = w.inner.spans ++ ts := by
  rcases Arena.allocateRaw_cases e with ⟨h0, _, rfl⟩ | ⟨h0, hl⟩ | ⟨h0, w₁, a', hl, ha, rfl⟩
  · exact ⟨[], (fun _ h => by cases h), by simp [Arena.obtains, h0], (List.append_nil _).symm⟩
  · refine ⟨[], (fun _ h => by cases h), by simp [Arena.obtains, h0, hl], ?_⟩
    rw [List.append_nil]
    exact (Arena.tryLockfree_same hl).1.spans
  · have hsame := (Arena.tryLockfree_same hl).1
    have hs₁ := hsame.shape hs
    have hw : w₁.inner.spans = w.inner.spans := hsame.spans
    rcases ArenaInner.allocateOrGrow_cases ha with ha | ⟨hnone, n, a₁, e₁, e₂⟩
    · refine ⟨[], (fun _ h => by cases h), by simp [Arena.obtains, h0, hl, ha], ?_⟩
      rw [List.append_nil, ← hw]
      exact (hs₁.allocate ha).2.2.2
    · -- the new chunk is the one `Chunk::new` returned
      have hadd := e₁
      unfold ArenaInner.addChunk at hadd
      cases hn : Chunk.new sys (nextChunkCapacity l.size) with
      | error _ =>
          rw [hn] at hadd
          cases hadd
      | ok c =>
          rw [hn] at hadd
          cases hadd
          refine ⟨[c.span], fun t ht => ?_, ?_, ?_⟩
          · rw [List.mem_singleton.mp ht]
            exact Chunk.solid_new (nextChunkCapacity_fits _) hn
          · simp [Arena.obtains, h0, hl, hnone, Chunk.new_obtains hn]
          · have hspans := ((hs₁.addChunk e₁).1.allocate e₂).2.2.2
            show a'.spans = _
            rw [hspans, ← hw]
            exact List.map_append

end Blocks

/-! ## 2. What a new arena has -/

section New

variable {lockfree : Option (Option Nat)} {sys sys' : Option Nat} {cap : Nat} {a : ArenaInner}

/-- The block of a new buffer is the one it got, if that is not null. -/
theorem ArenaInner.block_new (ha : a.lockfreeBuffer = lockfree.map LockFreeBuffer.new)
    (hnull : ∀ b ∈ lockfree.bind LockFreeBuffer.obtains, b.base ≠ 0) :
    lockfree.bind LockFreeBuffer.obtains = a.block.map blockOf ∧ ∀ u ∈ a.block, Solid u := by
  cases lockfree with
  | none => simp [ArenaInner.block, ha]
  | some x =>
      cases x with
      | none =>
          simp [ArenaInner.block, ha, LockFreeBuffer.obtains, LockFreeBuffer.new,
            LockFreeBuffer.span]
      | some p =>
          have hp : p ≠ 0 := hnull ⟨p, lockfreeBufferSize, lockfreeAlignment⟩ rfl
          have hblock : a.block = some (LockFreeBuffer.new (some p)).span :=
            ArenaInner.mem_block ha hp
          rw [hblock]
          refine ⟨rfl, fun u hu => ?_⟩
          cases hu
          exact ⟨show 0 < lockfreeBufferSize by decide,
            show lockfreeBufferSize + 64 ≤ 2 ^ 63 by decide⟩

/-- `ArenaInner::new` has the chunk and the buffer it got. -/
theorem ArenaInner.new_obtains (hcap : cap + 63 < wordMod)
    (hnull : ∀ b ∈ lockfree.bind LockFreeBuffer.obtains, b.base ≠ 0)
    (hn : ArenaInner.new sys lockfree cap = .ok a) : ∃ b, Chunk.obtains sys cap = some b ∧
      b :: (lockfree.bind LockFreeBuffer.obtains).toList = a.regions.map blockOf ∧
      ∀ t ∈ a.regions, Solid t := by
  obtain ⟨hblock, hsolid⟩ := ArenaInner.block_new (ArenaInner.new_eq_ok hn).2.2 hnull
  unfold ArenaInner.new at hn
  cases hc : Chunk.new sys cap with
  | error _ =>
      rw [hc] at hn
      cases hn
  | ok c =>
      rw [hc] at hn
      cases hn
      refine ⟨_, Chunk.new_obtains hc, ?_, fun t ht => ?_⟩
      · rw [hblock, Option.toList_map, ArenaInner.regions, List.map_append]
        rfl
      · rcases List.mem_append.mp ht with ht | ht
        · rw [List.mem_singleton.mp ht]
          exact Chunk.solid_new hcap hc
        · exact hsolid t (Option.mem_toList.mp ht)

theorem ArenaInner.new_error {e : String} (hn : ArenaInner.new sys lockfree cap = .error e) :
    Chunk.obtains sys cap = none := by
  unfold ArenaInner.new at hn
  cases hc : Chunk.new sys cap with
  | error _ => exact Chunk.new_error hc
  | ok c =>
      rw [hc] at hn
      cases hn

/-- **`with_capacity`** has the blocks it got, from the first attempt or from the fallback. -/
theorem Arena.opens_eq {owner : Nat} {slab : ThreadSlab} {mem : Mem} {w : Arena}
    (hcap : cap + 63 < wordMod) (hnull : ∀ b ∈ Arena.opens sys sys' lockfree cap, b.base ≠ 0)
    (e : Arena.withCapacity sys sys' lockfree owner slab mem cap = some w) :
    Arena.opens sys sys' lockfree cap = w.inner.regions.map blockOf ∧
      ∀ t ∈ w.inner.regions, Solid t := by
  have hnull' : ∀ b ∈ lockfree.bind LockFreeBuffer.obtains, b.base ≠ 0 := fun b hb =>
    hnull b (List.mem_append_right _ (Option.mem_toList.mpr hb))
  unfold Arena.withCapacity at e
  split at e
  · rename_i a hn
    cases e
    obtain ⟨b, hb, heq, hsolid⟩ := ArenaInner.new_obtains hcap hnull' hn
    refine ⟨?_, hsolid⟩
    rw [Arena.opens, hb]
    exact heq
  · rename_i msg hn
    split at e
    · rename_i a hn'
      cases e
      obtain ⟨b, hb, heq, hsolid⟩ := ArenaInner.new_obtains (by decide) hnull' hn'
      refine ⟨?_, hsolid⟩
      rw [Arena.opens, ArenaInner.new_error hn, hb]
      exact heq
    · cases e

/-- The blocks of an arena are apart if all its regions are. -/
theorem ArenaInner.separate_of_regions (h : a.regions.Pairwise Span.Apart) : a.Separate := by
  obtain ⟨hspans, _, hcross⟩ := List.pairwise_append.mp h
  exact ⟨hspans, fun u hu t ht => hcross t ht u (Option.mem_toList.mpr hu)⟩

end New

/-! ## 3. What an operation does to the blocks -/

section Balance

variable {s s' : Sess} {debug : Bool} {op : Op}

/-- What an operation gets is what its request gets. -/
theorem Op.Asks.obtains {sys : Option Nat} {l : Layout} {data : List (Option UInt8)}
    (h : op.Asks sys l data) (s : Sess) : s.obtains op = s.arena.obtains sys l := by
  cases h with
  | allocateRaw sys l => rfl
  | alloc sys v => rfl
  | allocSliceCopy sys h0 hl => simp only [Sess.obtains, if_neg h0, hl, Option.bind_some]

theorem Sess.asks_of_obtains {b : Block} (h : s.obtains op = some b) :
    ∃ sys l data, op.Asks sys l data := by
  cases op with
  | allocateRaw sys l => exact ⟨_, _, _, .allocateRaw sys l⟩
  | alloc sys v => exact ⟨_, _, _, .alloc sys v⟩
  | allocSliceCopy sys sl =>
      simp only [Sess.obtains] at h
      split at h
      · cases h
      · next h0 =>
        obtain ⟨l, hl, _⟩ := Option.bind_eq_some_iff.mp h
        exact ⟨_, _, _, .allocSliceCopy sys h0 hl⟩
  | _ => cases h

/-- An operation that gets no block does what it would do if there were none. -/
theorem Sess.exec_unasked (h : s.obtains op = none) :
    s.exec debug (op.withSys none) = s.exec debug op := by
  refine exec_withSys fun sys l data hask => ?_
  rw [hask.obtains] at h
  exact (Arena.allocateRaw_unasked h).symm

/-- The block an operation gets is the one the environment stands ready to return. -/
theorem Sess.obtains_eq_some {b : Block} (h : s.obtains op = some b) : op.block = some b.span := by
  obtain ⟨sys, l, data, hask⟩ := asks_of_obtains h
  rw [hask.obtains] at h
  obtain ⟨rfl, hb⟩ := Arena.obtains_eq_some h
  rw [hask.block, Option.map_some, hb]

/-- The blocks obtained and those of the arena are those released and those of the arena after. -/
structure Balance (got freed : List Block) (a a' : ArenaInner) : Prop where
  solid : (∀ t ∈ a.regions, Solid t) → ∀ t ∈ a'.regions, Solid t
  perm : (∀ t ∈ a.regions, Solid t) → (got ++ a.releases).Perm (freed ++ a'.releases)

/-- The same regions, and perhaps some more. -/
theorem Balance.gain {a a' : ArenaInner} {got : List Block} (ts : List Span)
    (hts : ∀ t ∈ ts, Solid t) (hgot : got = ts.map blockOf) (hspans : a'.spans = a.spans ++ ts)
    (hblock : a'.block = a.block) : Balance got [] a a' := by
  have hsolid : (∀ t ∈ a.regions, Solid t) → ∀ t ∈ a'.regions, Solid t := by
    intro h t ht
    rw [ArenaInner.regions, hspans, hblock, List.append_assoc] at ht
    rcases List.mem_append.mp ht with ht | ht
    · exact h t (List.mem_append_left _ ht)
    · rcases List.mem_append.mp ht with ht | ht
      · exact hts t ht
      · exact h t (List.mem_append_right _ ht)
  refine ⟨hsolid, fun h => ?_⟩
  rw [ArenaInner.releases_eq h, ArenaInner.releases_eq (hsolid h), hgot, List.nil_append,
    ← List.map_append, ArenaInner.regions, ArenaInner.regions, hspans, hblock, ← List.append_assoc]
  exact (List.perm_append_comm.append_right _).map blockOf

theorem Balance.keep {a a' : ArenaInner} (hspans : a'.spans = a.spans)
    (hblock : a'.block = a.block) : Balance [] [] a a' :=
  gain [] (fun _ h => by cases h) rfl (by rw [hspans, List.append_nil]) hblock

/-- **`reset_and_shrink_to_fit`** gives back every chunk but the first. -/
theorem Balance.shrink (w : Arena) : Balance [] ((w.inner.chunks.drop 1).filterMap Chunk.releases)
    w.inner w.resetAndShrinkToFit.inner := by
  have hspans : w.resetAndShrinkToFit.inner.spans = w.inner.spans.take 1 :=
    Arena.resetAndShrinkToFit_spans w
  have hsub : ∀ t ∈ w.resetAndShrinkToFit.inner.regions, t ∈ w.inner.regions := by
    intro t ht
    rw [ArenaInner.regions, hspans] at ht
    rcases List.mem_append.mp ht with ht | ht
    · exact List.mem_append_left _ (List.mem_of_mem_take ht)
    · exact List.mem_append_right _ ht
  refine ⟨fun h t ht => h t (hsub t ht), fun h => ?_⟩
  have hfreed : (w.inner.chunks.drop 1).filterMap Chunk.releases =
      (w.inner.spans.drop 1).map blockOf := by
    have hc : (w.inner.chunks.drop 1).filterMap Chunk.releases =
        (w.inner.chunks.drop 1).filterMap fun c => some (blockOf c.span) :=
      List.filterMap_congr fun c hc => Chunk.releases_eq
        (h _ (List.mem_append_left _ (List.mem_map_of_mem (List.mem_of_mem_drop hc))))
    rw [hc, ArenaInner.spans, ← List.map_drop, List.map_map, ← List.filterMap_eq_map]
    rfl
  rw [ArenaInner.releases_eq h, ArenaInner.releases_eq fun t ht => h t (hsub t ht), hfreed,
    List.nil_append, ← List.map_append, ArenaInner.regions, ArenaInner.regions, hspans,
    ← List.append_assoc]
  refine List.Perm.map _ (List.Perm.append_right _ ?_)
  calc w.inner.spans = w.inner.spans.take 1 ++ w.inner.spans.drop 1 :=
        (List.take_append_drop 1 _).symm
    _ |>.Perm (w.inner.spans.drop 1 ++ w.inner.spans.take 1) := List.perm_append_comm

/-- **Every operation balances.** -/
theorem Sess.exec_balance (hs : s.arena.inner.Shape) (hblock : s'.arena.inner.block =
    s.arena.inner.block) (e : s.exec debug op = some s') :
    Balance (s.obtains op).toList (s.releases op) s.arena.inner s'.arena.inner := by
  cases s.exec_acts e with
  | take hask hw _ _ =>
      obtain ⟨ts, hts, hgot, hspans⟩ := Arena.allocateRaw_obtains hs hw
      have hfreed : s.releases op = [] := by cases hask <;> rfl
      rw [hask.obtains, hfreed]
      exact .gain ts hts hgot hspans hblock
  | @skip sys sl h0 =>
      have hgot : s.obtains (.allocSliceCopy sys sl) = none := by
        rcases h0 with h0 | h0 <;> simp [Sess.obtains, h0]
      rw [hgot]
      exact .keep rfl rfl
  | write _ _ => exact .keep rfl rfl
  | mark hop ha => cases hop <;> exact .keep (ArenaInner.checkpoint_spans ha) hblock
  | push ha => exact .keep (ArenaInner.checkpoint_spans ha) hblock
  | rewind hop _ ha => cases hop <;> exact .keep (Arena.rewind_spans _ ha) hblock
  | pop _ ha =>
      have hsp := Arena.rewind_spans s.arena ha
      exact .keep hsp hblock
  | clear => exact .keep rfl rfl
  | reset => exact .keep (Arena.reset_spans _) hblock
  | shrink => exact .shrink s.arena

end Balance

end ArenaB
