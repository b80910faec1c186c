/-
  File:      ArenaB/Arena/Accounting.lean
  Subject:   `bytes_used` and `allocation_count` across a rewind.

  An allocation adds its requested size to `bytes_used`; a rewind sets `bytes_used` to the sum of
  the offsets, which also counts the bytes skipped for alignment.

  * `ArenaInner.padding` -- what a request skips in front of itself; `audited` -- the machine with
    the padding since the last rewind or reset beside the state;
  * `Books` -- `bytes_used` and this padding make up the offsets; every operation keeps it
    (`exec_books`);
  * **`rewind_restores_stats`** -- so a rewind restores `allocation_count` always and `bytes_used`
    exactly if there is no such padding at the checkpoint.
-/
import ArenaB.Arena.Frames

namespace ArenaB

open Base

/-! ## 1. Padding -/

/-- What a request skips for its alignment: nothing if it has size 0 or goes to a new chunk. -/
def ArenaInner.padding (a : ArenaInner) (l : Layout) : Nat :=
  if l.size = 0 then 0
  else
    match a.chunks[a.chunkIdx]? with
    | none => 0
    | some c =>
        if alignUp c.used l.align + l.size ≤ c.capacity then alignUp c.used l.align - c.used else 0

/-- The request an operation makes, if it makes one. -/
def Op.layout : Op → Option Layout
  | .allocateRaw _ layout => some layout
  | .alloc _ value => some value.layout
  | .allocSliceCopy _ slice => if slice.len = 0 then none else slice.elem.array slice.len
  | _ => none

/-- The padding after an operation, counted from the last rewind or reset on. -/
def paddingAfter (s : Sess) (op : Op) (pad : Nat) : Nat :=
  match op with
  | .rewindToCheckpoint _ => 0
  | .scopeReset _ => 0
  | .scopeDrop _ => 0
  | .popAndRewind => 0
  | .reset => 0
  | .resetAndShrinkToFit => 0
  | op => pad + (op.layout.map s.arena.inner.padding).getD 0

/-- The runs of a build without the lock-free buffer, with their padding. -/
def audited (debug : Bool) : System (Sess × Nat) Op :=
  (machine ⟨debug, false⟩).withGhost 0 paddingAfter

instance (debug : Bool) (x : Sess × Nat) (op : Op) : Decidable ((audited debug).ok x op) :=
  inferInstanceAs (Decidable ((machine ⟨debug, false⟩).ok x.1 op))

/-! ## 2. The books -/

/-- `bytes_used` and the padding make up the offsets. -/
def Books (a : ArenaInner) (pad : Nat) : Prop :=
  a.stats.bytesUsed + pad = Chunk.gauge.total a.chunks

namespace Books

variable {a a' : ArenaInner} {pad : Nat}

theorem rewind {debug : Bool} {cp : ArenaCheckpoint}
    (e : a.rewindToCheckpoint debug cp = some a') : Books a' 0 :=
  (ArenaInner.rewind_stats e).1

theorem new {sys : Option Nat} {lockfree : Option (Option Nat)} {cap : Nat}
    (e : ArenaInner.new sys lockfree cap = .ok a) : Books a 0 := by
  unfold ArenaInner.new at e
  cases hc : Chunk.new sys cap with
  | error _ =>
      rw [hc] at e
      cases e
  | ok c =>
      rw [hc] at e
      cases e
      exact (Gauge.total_of_empty fun x hx =>
        (List.mem_singleton.mp hx) ▸ (Chunk.new_ok hc).2.2.1).symm

theorem resetBuffer {w : Arena} (h : Books w.inner pad) : Books w.resetBuffer.inner pad := by
  unfold Books
  rw [Arena.resetBuffer_stats, (Arena.same_resetBuffer w).chunks]
  exact h

theorem checkpoint (hs : a.Shape) (h : Books a pad) {r : ArenaCheckpoint × ArenaInner}
    (e : a.checkpoint = some r) : Books r.2 pad := by
  rw [ArenaInner.checkpoint_eq hs] at e
  cases e
  exact h

theorem allocate (hs : a.Shape) (h : Books a pad) {c : Chunk}
    (hc : a.chunks[a.currentChunk]? = some c) {l : Layout} {p : Nat}
    (e : a.allocate l = some (p, a')) : Books a' (pad + (alignUp c.used l.align - c.used)) := by
  obtain ⟨d, hd, _, _, rfl⟩ := (ArenaInner.allocate_eq_some hs).mp e
  rw [hc] at hd
  cases hd
  have hset := Gauge.total_set (g := Chunk.gauge) hc (alignUp c.used l.align + l.size)
  have hle := ((hs.chunks c (List.mem_of_getElem? hc)).start l).1
  have hlev : Chunk.gauge.level c = c.used := rfl
  have h' : a.stats.bytesUsed + pad = Chunk.gauge.total a.chunks := h
  show a.stats.bytesUsed + l.size + _ = Chunk.gauge.total (a.chunks.set _ (Chunk.gauge.put c _))
  omega

theorem addChunk (h : Books a pad) {sys : Option Nat} {cap n : Nat}
    (e : a.addChunk sys cap = .ok (n, a')) : Books a' pad := by
  obtain ⟨c, _, _, hc, _, rfl⟩ := ArenaInner.addChunk_ok e
  have h0 : Chunk.gauge.total [c] = 0 :=
    Gauge.total_of_empty fun x hx => (List.mem_singleton.mp hx) ▸ hc
  show a.stats.bytesUsed + pad = Chunk.gauge.total (a.chunks ++ [c])
  rw [Gauge.total_append, h0, Nat.add_zero]
  exact h

/-- The chunk path books the size, and the padding if the current chunk serves the request. -/
theorem allocateOrGrow (hs : a.Shape) (h : Books a pad) {sys : Option Nat} {l : Layout} {p : Nat}
    (hl : l.size ≠ 0) (e : a.allocateOrGrow sys l = some (p, a')) :
    Books a' (pad + a.padding l) := by
  obtain ⟨c, hc, _⟩ := hs.exists_current
  unfold ArenaInner.padding
  rw [if_neg hl, hs.chunkIdx_eq, hc]
  rcases ArenaInner.allocateOrGrow_cases e with e | ⟨hnone, n, a₁, e₁, e₂⟩
  · obtain ⟨d, hd, hfit, _⟩ := (ArenaInner.allocate_eq_some hs).mp e
    rw [hc] at hd
    cases hd
    simp only [if_pos hfit]
    exact h.allocate hs hc e
  · simp only [if_neg (Nat.not_le.mpr ((ArenaInner.allocate_eq_none hs hc).mp hnone))]
    have h₁ := h.addChunk e₁
    have hs₁ := (hs.addChunk e₁).1
    obtain ⟨x, _, _, hx, _, rfl⟩ := ArenaInner.addChunk_ok e₁
    have hlast : (a.chunks ++ [x])[a.chunks.length]? = some x := List.getElem?_concat_length
    have h₂ := h₁.allocate hs₁ hlast e₂
    -- the new chunk is empty, and offset 0 is aligned for everything
    rwa [hx, alignUp_zero l.align_pos l.align_le] at h₂

theorem allocateRaw {w w' : Arena} (hs : w.inner.Shape) (hb : w.inner.lockfreeBuffer = none)
    (h : Books w.inner pad) {sys : Option Nat} {l : Layout} {p : Nat}
    (e : w.allocateRaw sys l = some (p, w')) : Books w'.inner (pad + w.inner.padding l) := by
  rcases Arena.allocateRaw_chunk hb e with ⟨h0, _, rfl⟩ | ⟨h0, a', ha, rfl⟩
  · rw [ArenaInner.padding, if_pos h0]
    exact h
  · exact h.allocateOrGrow hs h0 ha

theorem reset (w : Arena) : Books w.reset.inner 0 := by
  refine resetBuffer (w := w.withInner _) ?_
  show 0 = Chunk.gauge.total (w.inner.chunks.map Chunk.reset)
  refine (Gauge.total_of_empty fun x hx => ?_).symm
  obtain ⟨c, _, rfl⟩ := List.mem_map.mp hx
  rfl

theorem resetAndShrinkToFit (w : Arena) : Books w.resetAndShrinkToFit.inner 0 := by
  show 0 = Chunk.gauge.total ((w.inner.chunks.take 1).map (Chunk.setUsed · 0))
  refine (Gauge.total_of_empty fun x hx => ?_).symm
  obtain ⟨c, _, rfl⟩ := List.mem_map.mp hx
  rfl

end Books

section Asks

variable {op : Op} {sys : Option Nat} {l : Layout} {data : List (Option UInt8)}

theorem Op.Asks.layout (h : op.Asks sys l data) : op.layout = some l := by
  cases h with
  | allocateRaw sys l => rfl
  | alloc sys v => rfl
  | allocSliceCopy sys h0 hl => simp only [Op.layout, if_neg h0, hl]

/-- A request adds its padding. -/
theorem Op.Asks.paddingAfter (h : op.Asks sys l data) (s : Sess) (pad : Nat) :
    paddingAfter s op pad = pad + s.arena.inner.padding l := by
  have hpad : ArenaB.paddingAfter s op pad =
      pad + (op.layout.map s.arena.inner.padding).getD 0 := by cases h <;> rfl
  rw [hpad, h.layout]
  rfl

end Asks

/-- **Every operation keeps the books.** -/
theorem exec_books {debug : Bool} {s s' : Sess} {op : Op} {pad : Nat} (hs : s.arena.inner.Shape)
    (hb : s.arena.inner.lockfreeBuffer = none) (h : Books s.arena.inner pad)
    (e : s.exec debug op = some s') : Books s'.arena.inner (paddingAfter s op pad) := by
  cases s.exec_acts e with
  | take hask hw _ _ =>
      have hbk := h.allocateRaw hs hb hw
      rw [hask.paddingAfter]
      exact hbk
  | @skip sys sl h0 =>
      have hnone : (Op.allocSliceCopy sys sl).layout = none := by
        rcases h0 with h0 | h0 <;> simp [Op.layout, h0]
      simp only [paddingAfter, hnone]
      exact h
  | write _ _ => exact h
  | mark hop ha => cases hop <;> exact h.checkpoint hs ha
  | push ha => exact h.checkpoint hs ha
  | rewind hop _ ha =>
      have h0 := Books.resetBuffer (w := s.arena.withInner _) (.rewind ha)
      cases hop <;> exact h0
  | pop _ ha => exact Books.resetBuffer (w := s.arena.withInner _) (.rewind ha)
  | clear => exact h
  | reset => exact .reset _
  | shrink => exact .resetAndShrinkToFit _

theorem reach_books {debug : Bool} {x : Sess × Nat} (h : (audited debug).Reach x) :
    Books x.1.arena.inner x.2 := by
  refine h.inv' (P := fun x => Books x.1.arena.inner x.2) (fun x hx => ?_)
    fun x op x' hr hx _ e => ?_
  · obtain ⟨⟨_, _, _, _, _, _, _, _, e, _⟩, h0⟩ := hx
    obtain ⟨_, _, a, hn, hw⟩ := Arena.withCapacity_eq_some e
    rw [h0, hw]
    exact .new hn
  · have hr' := hr.of_withGhost
    obtain ⟨s', hs', rfl⟩ := Option.map_eq_some_iff.mp e
    exact exec_books (reach_stackOk hr').shape (reach_noBuffer hr') hx hs'

/-! ## 3. Rewinds -/

/-- **Statistics across a rewind**: after a checkpoint and any allocations, the rewind to it (or
    the end of the scope that took it) restores `allocation_count`, and restores `bytes_used`
    exactly if no padding was made between the last rewind or reset and the checkpoint. -/
theorem rewind_restores_stats {debug : Bool} {s : Sess} {pad : Nat}
    (h : (audited debug).Reach (s, pad)) (sys : Nat → Option Nat) (W : List Layout)
    {cp : ArenaCheckpoint} {w₁ w₂ : Arena} (ecp : s.arena.checkpoint = some (cp, w₁))
    (e : Arena.allocAll sys W w₁ = some w₂) :
    ∃ w₃, w₂.rewindToCheckpoint debug cp = some w₃ ∧
      w₃.inner.stats.allocationCount = s.arena.inner.stats.allocationCount ∧
      (w₃.inner.stats.bytesUsed = s.arena.inner.stats.bytesUsed ↔ pad = 0) := by
  have hbooks : _ = _ := reach_books h
  have hr := h.of_withGhost
  have hk := reach_stackOk hr
  obtain ⟨b, hrew, hback, _, _, hbytes, hcount⟩ := Arena.rewind_allocAll hk.shape
    (fun cp hcp => hk.below cp (hk.stack.subset hcp)) (reach_noBuffer hr) ecp e debug
  obtain ⟨more, hmore, hempty⟩ := hback.chunks
  have h0 : Chunk.gauge.total more = 0 := Gauge.total_of_empty hempty
  refine ⟨_, hrew, hcount, ?_⟩
  show b.stats.bytesUsed = _ ↔ _
  rw [hbytes, hmore, Gauge.total_append, h0, Nat.add_zero, ← hbooks]
  exact Nat.add_eq_left

/-- Two bytes, then a checkpoint, an aligned word inside, and the rewind. -/
theorem rewind_restores_stats_unpadded : ∃ s, (audited false).Reach (s, 0) ∧
    s.arena.inner.stats.bytesUsed = 2 ∧
    ∃ w₃, s.arena.frame false (fun _ => none) [.word] = some w₃ ∧
      w₃.inner.stats.bytesUsed = s.arena.inner.stats.bytesUsed := by
  obtain ⟨⟨s, pad⟩, hr, hpad, hused, hall⟩ := System.exists_reach_of_replay (audited false)
    [.allocateRaw none .byte, .allocateRaw none .byte]
    (P := fun x => x.2 = 0 ∧ x.1.arena.inner.stats.bytesUsed = 2 ∧
      (x.1.arena.checkpoint.bind fun c => Arena.allocAll (fun _ => none)
        [.word] c.2).isSome = true)
    (s := (Sess.small none, 0)) ⟨Sess.init_small false, rfl⟩ (by decide)
  cases hpad
  obtain ⟨w₂, hall⟩ := Option.isSome_iff_exists.mp hall
  obtain ⟨⟨cp, w₁⟩, hcp, hall⟩ := Option.bind_eq_some_iff.mp hall
  obtain ⟨w₃, h3, _, hiff⟩ := rewind_restores_stats hr (fun _ => none) _ hcp hall
  refine ⟨s, hr, hused, w₃, ?_, hiff.mpr rfl⟩
  exact Option.bind_eq_some_iff.mpr ⟨_, hcp, Option.bind_eq_some_iff.mpr ⟨_, hall, h3⟩⟩

/-- A byte and an aligned word, then a scope without allocations: 9 bytes used before, 16 after. -/
theorem rewind_counts_padding : ∃ s, (machine ⟨false, false⟩).Reach s ∧
    s.arena.inner.stats.bytesUsed = 9 ∧
    (s.arena.frame false (fun _ => none) []).map (fun w => w.inner.stats.bytesUsed) = some 16 :=
  System.exists_reach_of_replay (machine ⟨false, false⟩)
    [.allocateRaw none .byte, .allocateRaw none .word]
    (Sess.init_small false) (by decide)

end ArenaB
