/-
  File:      ArenaB/Arena/Frames.lean
  Subject:   Frame loops: the same allocations again and again, between checkpoint and rewind or
             after a reset.

  * `Arena.allocAll` -- a sequence of allocations; **`allocAll_spec`**: it grows the arena and adds
    as many chunks as `need` foretells from offset and capacity of the current chunk;
  * `frame`, `resetFrame` -- one round of the two loops. A round leaves `need` as it was, since a
    rewind or reset brings offset and current chunk back, and adds `need` chunks, since the growth
    path always appends a new chunk and never enters one that a rewind or reset has emptied;
  * **`frames_leave`** -- so a loop leaves as many chunks as one round exactly if a round needs no
    new chunk.
-/
import ArenaB.Arena.Tree

namespace ArenaB

open Base

/-! ## 1. Rounds -/

namespace Arena

/-- Allocates a sequence of layouts; `sys j` answers the request the `j`th of them may make. -/
def allocAll : (Nat → Option Nat) → List Layout → Arena → Option Arena
  | _, [], w => some w
  | sys, l :: W, w =>
      (w.allocateRaw (sys 0) l).bind fun r => allocAll (fun j => sys (j + 1)) W r.2

/-- `checkpoint`, the allocations, `rewind_to_checkpoint`. -/
def frame (debug : Bool) (sys : Nat → Option Nat) (W : List Layout) (w : Arena) : Option Arena :=
  w.checkpoint.bind fun c =>
    (allocAll sys W c.2).bind fun w' => w'.rewindToCheckpoint debug c.1

/-- `reset`, the allocations. -/
def resetFrame (sys : Nat → Option Nat) (W : List Layout) (w : Arena) : Option Arena :=
  allocAll sys W w.reset

end Arena

/-! ## 2. How many chunks a round needs -/

/-- How often the requests overflow, from a chunk of `capacity` bytes filled up to `used`. -/
def growths : Nat → Nat → List Layout → Nat
  | _, _, [] => 0
  | used, capacity, l :: W =>
      if l.size = 0 then growths used capacity W
      else if alignUp used l.align + l.size ≤ capacity then
        growths (alignUp used l.align + l.size) capacity W
      else growths l.size (Chunk.roundCapacity (nextChunkCapacity l.size)) W + 1

namespace ArenaInner

/-- The capacity of the current chunk. -/
def room (a : ArenaInner) : Nat := (a.chunks[a.currentChunk]?.map Chunk.capacity).getD 0

/-- How many chunks the requests add to the arena. -/
def need (a : ArenaInner) (W : List Layout) : Nat := growths a.bump a.room W

variable {a a' : ArenaInner} {c : Chunk}

theorem need_eq (h : a.chunks[a.currentChunk]? = some c) (W : List Layout) :
    a.need W = growths c.used c.capacity W := by
  rw [need, bump_eq h, room, h]
  rfl

/-- Each step of the chunk path uses up what it adds. -/
theorem allocateOrGrow_need (h : a.Shape) {sys : Option Nat} {l : Layout} {p : Nat}
    (hl : l.size ≠ 0) (e : a.allocateOrGrow sys l = some (p, a')) (W : List Layout) :
    a'.chunks.length + a'.need W = a.chunks.length + a.need (l :: W) := by
  obtain ⟨c, hc, _⟩ := h.exists_current
  rw [need_eq hc, growths, if_neg hl]
  rcases allocateOrGrow_cases e with e | ⟨hnone, n, a₁, e₁, e₂⟩
  · obtain ⟨d, hd, hfit, _, rfl⟩ := (allocate_eq_some h).mp e
    rw [hc] at hd
    cases hd
    rw [if_pos hfit, List.length_set, need_eq (List.getElem?_set_self h.current_lt)]
    rfl
  · rw [if_neg (Nat.not_le.mpr ((allocate_eq_none h hc).mp hnone))]
    obtain ⟨d, hd, hfit, _, rfl⟩ := (allocate_eq_some (h.addChunk e₁).1).mp e₂
    obtain ⟨x, _, hcap, hx, _, rfl⟩ := addChunk_ok e₁
    have hdx : (a.chunks ++ [x])[a.chunks.length]? = some d := hd
    rw [List.getElem?_concat_length] at hdx
    cases hdx
    have hlt : a.chunks.length < (a.chunks ++ [d]).length := by simp
    rw [List.length_set, need_eq (List.getElem?_set_self hlt), List.length_append, hx,
      alignUp_zero l.align_pos l.align_le, Nat.zero_add, ← hcap]
    show _ + 1 + growths l.size d.capacity W = _
    omega

end ArenaInner

namespace Arena

variable {w w' : Arena} {sys : Nat → Option Nat} {W : List Layout}

/-- **A sequence of allocations** grows the arena, by as many chunks as foretold. -/
theorem allocAll_spec (hs : w.inner.Shape) (hb : w.inner.lockfreeBuffer = none)
    (e : allocAll sys W w = some w') :
    w'.inner.Shape ∧ w'.inner.lockfreeBuffer = none ∧ w.inner.Grows w'.inner ∧
      w'.inner.chunks.length = w.inner.chunks.length + w.inner.need W := by
  induction W generalizing sys w with
  | nil =>
      cases e
      exact ⟨hs, hb, .refl hs, rfl⟩
  | cons l W ih =>
      obtain ⟨⟨p, w₁⟩, h₁, e⟩ := Option.bind_eq_some_iff.mp e
      obtain ⟨hs₁, hg₁⟩ := allocateRaw_grows hs h₁
      obtain ⟨h1, h2, h3, h4⟩ := ih hs₁ (allocateRaw_noBuffer hs hb h₁) e
      refine ⟨h1, h2, hg₁.trans h3, h4.trans ?_⟩
      rcases allocateRaw_chunk hb h₁ with ⟨h0, _, rfl⟩ | ⟨h0, a', ha, rfl⟩
      · -- a zero-size request counts, and touches no chunk
        show _ + growths _ _ W = _ + growths _ _ (l :: W)
        rw [growths, if_pos h0]
        rfl
      · exact ArenaInner.allocateOrGrow_need hs h0 ha W

/-- **A checkpoint, allocations, the rewind**: it trips no assert, gives back what the checkpoint
    found, keeps the chunks that were added, and takes `bytes_used` from the offsets. -/
theorem rewind_allocAll (hs : w.inner.Shape) (hid : w.inner.IdsBelow)
    (hb : w.inner.lockfreeBuffer = none) {cp : ArenaCheckpoint} {w₁ w₂ : Arena}
    (ecp : w.checkpoint = some (cp, w₁)) (e : allocAll sys W w₁ = some w₂) (debug : Bool) :
    ∃ b, w₂.rewindToCheckpoint debug cp = some (w₂.withInner b) ∧ GivenBack w.inner b ∧
      b.lockfreeBuffer = none ∧ b.chunks.length = w.inner.chunks.length + w.inner.need W ∧
      b.stats.bytesUsed = Chunk.gauge.total b.chunks ∧
      b.stats.allocationCount = w.inner.stats.allocationCount := by
  obtain ⟨⟨cp, a₁⟩, ha, ecp⟩ := Option.map_eq_some_iff.mp ecp
  cases ecp
  obtain ⟨hs₁, h1, h2, _⟩ := checkpoint_spec hs ha
  obtain ⟨hb₁, hcount⟩ : a₁.lockfreeBuffer = none ∧
      cp.allocationCount = w.inner.stats.allocationCount := by
    rw [ArenaInner.checkpoint_eq hs] at ha
    cases ha
    exact ⟨hb, rfl⟩
  have hneed : a₁.need W = w.inner.need W := by
    unfold ArenaInner.need ArenaInner.bump ArenaInner.room
    rw [h1, h2]
  obtain ⟨hs₂, hb₂, hg, hlen⟩ := allocAll_spec (w := w.withInner a₁) hs₁ hb₁ e
  obtain ⟨b, hrew, hback⟩ := scope_givesBack hs hid ha debug (.of_grows hs₂ hg)
  obtain ⟨hbytes, hcount'⟩ := ArenaInner.rewind_stats hrew
  obtain ⟨_, rfl⟩ := ArenaInner.rewind_eq_some.mp hrew
  refine ⟨_, ?_, hback, hb₂, ?_, hbytes, hcount'.trans hcount⟩
  · rw [rewindToCheckpoint, hrew, Option.map_some, resetBuffer_noBuffer]
    exact hb₂
  · show (Chunk.gauge.cut _ _ _).length = _
    rw [Gauge.length_cut, hlen]
    show a₁.chunks.length + a₁.need W = _
    rw [h1, hneed]

/-! ## 3. Loops -/

/-- What the rounds of a loop keep; `u` is where it started. -/
structure Steady (u w : Arena) : Prop where
  shape : w.inner.Shape
  ids : w.inner.IdsBelow
  buffer : w.inner.lockfreeBuffer = none
  need : ∀ W, w.inner.need W = u.inner.need W

theorem need_givenBack {a b : ArenaInner} (h : a.Shape) (hg : GivenBack a b) (W : List Layout) :
    b.need W = a.need W := by
  obtain ⟨c, hc, _⟩ := h.exists_current
  obtain ⟨more, hm, _⟩ := hg.chunks
  have hc' : b.chunks[b.currentChunk]? = some c := by
    rw [hm, hg.current, List.getElem?_append_left h.current_lt]
    exact hc
  rw [ArenaInner.need_eq hc, ArenaInner.need_eq hc']

/-- **One round between checkpoint and rewind.** -/
theorem Steady.frame {u : Arena} (h : Steady u w) {debug : Bool}
    (e : w.frame debug sys W = some w') :
    Steady u w' ∧ w'.inner.chunks.length = w.inner.chunks.length + u.inner.need W := by
  obtain ⟨⟨cp, w₁⟩, ecp, e⟩ := Option.bind_eq_some_iff.mp e
  obtain ⟨w₂, hall, e⟩ := Option.bind_eq_some_iff.mp e
  obtain ⟨b, hrew, hback, hb, hlen, _⟩ := rewind_allocAll h.shape h.ids h.buffer ecp hall debug
  rw [hrew] at e
  cases e
  refine ⟨⟨hback.atop.shape, hback.atop.idsBelow h.ids, hb, fun W => ?_⟩, ?_⟩
  · exact (need_givenBack h.shape hback W).trans (h.need W)
  · rw [← h.need W]
    exact hlen

/-- Resetting `w` gives the need of resetting `u`. -/
structure ResetSteady (u w : Arena) : Prop where
  shape : w.inner.Shape
  buffer : w.inner.lockfreeBuffer = none
  need : ∀ W, w.reset.inner.need W = u.reset.inner.need W

theorem reset_chunks : w.reset.inner.chunks = w.inner.chunks.map Chunk.reset :=
  (same_resetBuffer _).chunks

theorem reset_currentChunk : w.reset.inner.currentChunk = 0 := (same_resetBuffer _).currentChunk

/-- After a reset the need is that from the start of the first chunk. -/
theorem need_reset {c : Chunk} (hc : w.inner.chunks[0]? = some c) (W : List Layout) :
    w.reset.inner.need W = growths 0 c.capacity W := by
  have h0 : w.reset.inner.chunks[w.reset.inner.currentChunk]? = some c.reset := by
    rw [reset_chunks, reset_currentChunk, List.getElem?_map, hc]
    rfl
  exact ArenaInner.need_eq h0 W

/-- **One round after a reset.** -/
theorem ResetSteady.frame {u : Arena} (h : ResetSteady u w) (e : w.resetFrame sys W = some w') :
    ResetSteady u w' ∧
      w'.inner.chunks.length = w.inner.chunks.length + u.reset.inner.need W := by
  obtain ⟨h1, h2, h3, h4⟩ := allocAll_spec (reset_shape h.shape) (reset_noBuffer h.buffer) e
  obtain ⟨c, hc⟩ : ∃ c, w.inner.chunks[0]? = some c :=
    ⟨_, List.getElem?_eq_getElem (Nat.lt_of_le_of_lt (Nat.zero_le _) h.shape.current_lt)⟩
  have h0 : w.reset.inner.chunks[0]? = some c.reset := by
    rw [reset_chunks, List.getElem?_map, hc]
    rfl
  -- the allocations fill the first chunk and do not replace it
  obtain ⟨n, _, hn⟩ := h3.chunks 0 _ h0
  refine ⟨⟨h1, h2, fun W => ?_⟩, ?_⟩
  · rw [need_reset hn, ← h.need W, need_reset hc]
    rfl
  · rw [h4, h.need, reset_chunks, List.length_map]

end Arena

/-- **Loops and chunks**: a loop of rounds leaves as many chunks as one round exactly if it has one
    round, or a round needs no chunk beyond the current one (after a reset: the first one). -/
theorem frames_leave {debug : Bool} {s : Sess} (h : (machine ⟨debug, false⟩).Reach s)
    (W : List Layout) (sys : Nat → Nat → Option Nat) (sys' : Nat → Option Nat) (n : Nat)
    {w w₁ : Arena} :
    (iter (fun i => Arena.frame debug (sys i) W) n s.arena = some w →
      s.arena.frame debug sys' W = some w₁ →
      (w.inner.chunks.length = w₁.inner.chunks.length ↔ n = 1 ∨ s.arena.inner.need W = 0)) ∧
    (iter (fun i => Arena.resetFrame (sys i) W) n s.arena = some w →
      s.arena.resetFrame sys' W = some w₁ →
      (w.inner.chunks.length = w₁.inner.chunks.length ↔
        n = 1 ∨ s.arena.reset.inner.need W = 0)) := by
  have hk := reach_stackOk h
  have hb := reach_noBuffer h
  have hid : s.arena.inner.IdsBelow := fun cp hcp => hk.below cp (hk.stack.subset hcp)
  constructor
  · intro e e₁
    have hu : Arena.Steady s.arena s.arena := ⟨hk.shape, hid, hb, fun _ => rfl⟩
    have hlen := (iter_measure (fun i w w' hw e => Arena.Steady.frame hw e) hu e).2
    rw [hlen, (hu.frame e₁).2, Nat.add_right_inj]
    exact mul_left_eq_self₀
  · intro e e₁
    have hu : Arena.ResetSteady s.arena s.arena := ⟨hk.shape, hb, fun _ => rfl⟩
    have hlen := (iter_measure (fun i w w' hw e => Arena.ResetSteady.frame hw e) hu e).2
    rw [hlen, (hu.frame e₁).2, Nat.add_right_inj]
    exact mul_left_eq_self₀

/-- With a 64-byte chunk, three rounds of a 32-byte request, which needs no further chunk. -/
theorem frames_leave_fitting :
    (∃ w w₁,
      iter (fun _ => Arena.frame false (fun _ => none) [⟨32, 8, ⟨3, rfl⟩, by decide⟩]) 3
        (Sess.small none).arena = some w ∧
      (Sess.small none).arena.frame false (fun _ => none)
        [⟨32, 8, ⟨3, rfl⟩, by decide⟩] = some w₁ ∧
      w.inner.chunks.length = w₁.inner.chunks.length) ∧
    ∃ w w₁,
      iter (fun _ => Arena.resetFrame (fun _ => none) [⟨32, 8, ⟨3, rfl⟩, by decide⟩]) 3
        (Sess.small none).arena = some w ∧
      (Sess.small none).arena.resetFrame (fun _ => none)
        [⟨32, 8, ⟨3, rfl⟩, by decide⟩] = some w₁ ∧
      w.inner.chunks.length = w₁.inner.chunks.length := by
  refine ⟨⟨_, _, rfl, rfl, ?_⟩, ⟨_, _, rfl, rfl, ?_⟩⟩
  · exact ((frames_leave (.init (Sess.init_small false)) [⟨32, 8, ⟨3, rfl⟩, by decide⟩]
      (fun _ _ => none) (fun _ => none) 3).1 rfl rfl).mpr (Or.inr (by decide))
  · exact ((frames_leave (.init (Sess.init_small false)) [⟨32, 8, ⟨3, rfl⟩, by decide⟩]
      (fun _ _ => none) (fun _ => none) 3).2 rfl rfl).mpr (Or.inr (by decide))

/-- With a 64-byte chunk, rounds of a 100-byte request: every one of them adds a chunk. -/
theorem frames_pile_up : (machine ⟨false, false⟩).Reach (Sess.small none) ∧
    (∃ w w₁,
      iter (fun i => Arena.frame false (fun _ => some (16384 * (i + 1)))
        [⟨100, 1, ⟨0, rfl⟩, by decide⟩]) 2 (Sess.small none).arena = some w ∧
      (Sess.small none).arena.frame false (fun _ => some 16384)
        [⟨100, 1, ⟨0, rfl⟩, by decide⟩] = some w₁ ∧
      w.inner.chunks.length = 3 ∧ w₁.inner.chunks.length = 2) ∧
    ∃ w w₁,
      iter (fun i => Arena.resetFrame (fun _ => some (16384 * (i + 1)))
        [⟨100, 1, ⟨0, rfl⟩, by decide⟩]) 2 (Sess.small none).arena = some w ∧
      (Sess.small none).arena.resetFrame (fun _ => some 16384)
        [⟨100, 1, ⟨0, rfl⟩, by decide⟩] = some w₁ ∧
      w.inner.chunks.length = 3 ∧ w₁.inner.chunks.length = 2 :=
  ⟨.init (Sess.init_small false), ⟨_, _, rfl, rfl, by decide, by decide⟩,
    ⟨_, _, rfl, rfl, by decide, by decide⟩⟩

end ArenaB
