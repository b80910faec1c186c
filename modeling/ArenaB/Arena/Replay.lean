/-
  File:      ArenaB/Arena/Replay.lean
  Subject:   Rewinding twice, and allocating again after a rewind (builds without the lock-free
             buffer, the default one among them).

  * **`rewind_absorbs`** -- of two valid checkpoints the older one decides: a rewind to the younger
    before it changes nothing, in no field of the arena;
  * `Head` -- offset and capacity of the current chunk. Where a sequence of requests goes, which of
    them open a chunk and how large it is, is a function of these two numbers alone
    (`placeAll_eq`); neither leftover chunks nor the statistics have a say;
  * `recalled` -- the runs, with the arena in which each valid checkpoint was taken. `Recalls`: the
    chunk of the checkpoint still has the capacity it had then;
  * **`replay_after_rewind`** -- so a rewind brings the head of that moment back, and any sequence
    of requests goes where it would have gone.
-/
import ArenaB.Arena.Frames
import ArenaB.Arena.Serve

namespace ArenaB

open Base

/-! ## 1. Rewinding twice -/

/-- A rewind forgets a rewind to a younger position: the chunks are cut at the older one, the stack
    is trimmed by the smaller id, and the statistics are computed from these. -/
theorem ArenaInner.rewind_rewind {a a₀ a₁ a' : ArenaInner} {debug : Bool}
    {c₀ c₁ : ArenaCheckpoint} (hidx : c₀.chunkIndex ≤ c₁.chunkIndex)
    (hid : c₀.checkpointId ≤ c₁.checkpointId) (e₁ : a.rewindToCheckpoint debug c₁ = some a₁)
    (e' : a₁.rewindToCheckpoint debug c₀ = some a')
    (e₀ : a.rewindToCheckpoint debug c₀ = some a₀) : a' = a₀ := by
  have hcut : rewindChunks (rewindChunks a.chunks c₁) c₀ = rewindChunks a.chunks c₀ :=
    Gauge.cut_cut (g := Chunk.gauge) hidx
  have hstack : (a.checkpoints.filter fun c => c.checkpointId < c₁.checkpointId).filter
        (fun c => c.checkpointId < c₀.checkpointId) =
      a.checkpoints.filter fun c => c.checkpointId < c₀.checkpointId := by
    rw [List.filter_filter]
    refine List.filter_congr fun c _ => ?_
    rw [← Bool.decide_and]
    exact decide_eq_decide.mpr ⟨And.left, fun h => ⟨h, Nat.lt_of_lt_of_le h hid⟩⟩
  obtain ⟨_, rfl⟩ := rewind_eq_some.mp e₁
  obtain ⟨_, rfl⟩ := rewind_eq_some.mp e'
  obtain ⟨_, rfl⟩ := rewind_eq_some.mp e₀
  simp only [hcut, hstack]
  cases debug <;> rfl

/-- **Rewinds absorb younger ones**: of two valid checkpoints, a rewind to the younger and then to
    the older leaves exactly the arena a rewind to the older leaves at once. Neither trips an
    assert. With one checkpoint in both places: rewinding twice is rewinding once. -/
theorem rewind_absorbs {debug : Bool} {s : Sess} (h : (machine ⟨debug, false⟩).Reach s)
    {i j : Nat} (hij : i ≤ j) {c₀ c₁ : ArenaCheckpoint} (h₀ : s.cps[i]? = some c₀)
    (h₁ : s.cps[j]? = some c₁) :
    ∃ w₁ w₀, s.arena.rewindToCheckpoint debug c₁ = some w₁ ∧
      w₁.rewindToCheckpoint debug c₀ = some w₀ ∧
      s.arena.rewindToCheckpoint debug c₀ = some w₀ := by
  have hk := reach_stackOk h
  have hb := reach_noBuffer h
  have hpos : c₀.pos ≤ c₁.pos :=
    pairwise_getElem? (R := fun c d => c.pos ≤ d.pos) (fun _ => le_refl _) hk.order hij h₀ h₁
  have hid : c₀.checkpointId ≤ c₁.checkpointId :=
    pairwise_getElem? (R := fun c d => c.checkpointId ≤ d.checkpointId) (fun _ => Nat.le_refl _)
      (hk.ids.imp Nat.le_of_lt) hij h₀ h₁
  have hidx : c₀.chunkIndex ≤ c₁.chunkIndex := by
    rcases ArenaCheckpoint.pos_le.mp hpos with hlt | ⟨heq, _⟩
    · exact Nat.le_of_lt hlt
    · exact Nat.le_of_eq heq
  have hw₀ := hk.within c₀ (List.mem_of_getElem? h₀)
  have hw₁ := hk.within c₁ (List.mem_of_getElem? h₁)
  -- all three rewinds go through, since the older checkpoint stays in reach of the younger
  obtain ⟨a₀, e₀⟩ := hw₀.rewind_isSome hk.shape debug
  obtain ⟨a₁, e₁⟩ := hw₁.rewind_isSome hk.shape debug
  obtain ⟨a', e'⟩ := (hw₀.rewind hk.shape e₁ hpos).rewind_isSome (hk.shape.rewind e₁) debug
  obtain ⟨hr₀, _⟩ := Arena.rewindToCheckpoint_noBuffer hb e₀
  obtain ⟨hr₁, hb₁⟩ := Arena.rewindToCheckpoint_noBuffer hb e₁
  obtain ⟨hr', _⟩ := Arena.rewindToCheckpoint_noBuffer (w := s.arena.withInner a₁) hb₁ e'
  rw [ArenaInner.rewind_rewind hidx hid e₁ e' e₀] at hr'
  exact ⟨_, _, hr₁, hr', hr₀⟩

/-- Two pushed checkpoints in different chunks, with an allocation on top. -/
theorem rewind_absorbs_pushed : ∃ s c₀ c₁, (machine ⟨false, false⟩).Reach s ∧
    s.cps = [c₀, c₁] ∧ s.arena.inner.checkpoints = [c₀, c₁] ∧ c₀.chunkIndex < c₁.chunkIndex ∧
    ∃ w₁ w₀, s.arena.rewindToCheckpoint false c₁ = some w₁ ∧
      w₁.rewindToCheckpoint false c₀ = some w₀ ∧
      s.arena.rewindToCheckpoint false c₀ = some w₀ := by
  obtain ⟨s, hr, hcps, hst⟩ := System.exists_reach_of_replay (machine ⟨false, false⟩)
    [.allocateRaw none .word, .pushCheckpoint,
      .allocateRaw (some 16384) ⟨100, 1, ⟨0, rfl⟩, by decide⟩, .pushCheckpoint,
      .allocateRaw none ⟨16, 8, ⟨3, rfl⟩, by decide⟩]
    (P := fun s => s.cps = [⟨0, 8, 0, 1⟩, ⟨1, 100, 1, 2⟩] ∧
      s.arena.inner.checkpoints = [⟨0, 8, 0, 1⟩, ⟨1, 100, 1, 2⟩])
    (Sess.init_small false) (by decide)
  refine ⟨s, _, _, hr, hcps, hst, by decide, ?_⟩
  exact rewind_absorbs hr (i := 0) (j := 1) (by decide) (by rw [hcps]; rfl) (by rw [hcps]; rfl)

/-! ## 2. Where requests go -/

/-- Where a request was put: the offset in its chunk, and the capacity of the chunk that was opened
    for it, if one was. -/
structure Place where
  offset : Nat
  opened : Option Nat
  deriving DecidableEq, Repr

/-- The address of the current chunk. -/
def ArenaInner.base (a : ArenaInner) : Nat := (a.chunks[a.currentChunk]?.map Chunk.ptr).getD 0

/-- The place of the pointer `p`, for which the arena `a` became `a'`. -/
def ArenaInner.place (a a' : ArenaInner) (p : Nat) : Place where
  offset := p - a'.base
  opened := if a'.chunks.length = a.chunks.length then none else some a'.room

/-- Allocates a sequence of layouts and lists where they went; `sys j` answers the request the
    `j`th of them may make. -/
def Arena.placeAll : (Nat → Option Nat) → List Layout → Arena → Option (List Place)
  | _, [], _ => some []
  | sys, l :: W, w =>
      (w.allocateRaw (sys 0) l).bind fun r =>
        (placeAll (fun j => sys (j + 1)) W r.2).map (w.inner.place r.2.inner r.1 :: ·)

/-- Offset and capacity of the current chunk. -/
@[ext] structure Head where
  used : Nat
  capacity : Nat
  deriving DecidableEq, Repr

def ArenaInner.head (a : ArenaInner) : Head := ⟨a.bump, a.room⟩

namespace Head

/-- The request fits behind the offset. -/
def Fits (h : Head) (l : Layout) : Prop := alignUp h.used l.align + l.size ≤ h.capacity

instance (h : Head) (l : Layout) : Decidable (h.Fits l) :=
  inferInstanceAs (Decidable (_ ≤ _))

/-- Where a request goes, and the head it leaves. -/
def put (h : Head) (l : Layout) : Place × Head :=
  if h.Fits l then
    (⟨alignUp h.used l.align, none⟩, ⟨alignUp h.used l.align + l.size, h.capacity⟩)
  else (⟨0, some (nextChunkCapacity l.size)⟩, ⟨l.size, nextChunkCapacity l.size⟩)

/-- Where a sequence of requests goes. -/
def putAll : Head → List Layout → List Place
  | _, [] => []
  | h, l :: W => (h.put l).1 :: (h.put l).2.putAll W

/-- No request of the sequence fails; `sys j` says whether the system allocator has a block for the
    `j`th of them. -/
def Serves : Head → (Nat → Bool) → List Layout → Prop
  | _, _, [] => True
  | h, sys, l :: W =>
      (h.Fits l ∨ sys 0 = true ∧ l.size ≤ maxChunkSize) ∧
        (h.put l).2.Serves (fun j => sys (j + 1)) W

end Head

section Place

variable {a a' : ArenaInner} {c : Chunk} {l : Layout} {p : Nat}

theorem ArenaInner.head_eq (h : a.chunks[a.currentChunk]? = some c) :
    a.head = ⟨c.used, c.capacity⟩ := by
  rw [head, bump_eq h, room, h]
  rfl

theorem ArenaInner.base_eq (h : a.chunks[a.currentChunk]? = some c) : a.base = c.ptr := by
  rw [base, h]
  rfl

theorem ArenaInner.head_fits (h : a.Shape) : a.Fits l ↔ a.head.Fits l := by
  obtain ⟨c, hc, _, _⟩ := h.exists_current
  rw [head_eq hc]
  constructor
  · intro hf
    obtain ⟨d, hd, hle⟩ := hf
    cases hc.symm.trans hd
    exact hle
  · exact fun hle => ⟨c, hc, hle⟩

/-- **One request**: its place and the head it leaves depend on the head it finds. -/
theorem ArenaInner.Shape.allocateOrGrow_put (h : a.Shape) {sys : Option Nat}
    (e : a.allocateOrGrow sys l = some (p, a')) : (a.place a' p, a'.head) = a.head.put l := by
  obtain ⟨c, hc, _, _⟩ := h.exists_current
  rcases allocateOrGrow_cases e with e | ⟨hnone, n, a₁, e₁, e₂⟩
  · obtain ⟨d, hd, hfit, rfl, rfl⟩ := (allocate_eq_some h).mp e
    cases hc.symm.trans hd
    have hf : a.head.Fits l := by
      rw [head_eq hc]
      exact hfit
    have hnew := List.getElem?_set_self (a := c.setUsed (alignUp c.used l.align + l.size))
      h.current_lt
    rw [Head.put, if_pos hf, head_eq hnew, head_eq hc, place, base_eq hnew]
    simp [Chunk.setUsed]
  · have hf : ¬ a.head.Fits l := by
      rw [head_eq hc]
      exact Nat.not_le.mpr ((allocate_eq_none h hc).mp hnone)
    obtain ⟨d, hd, hfit, rfl, rfl⟩ := (allocate_eq_some (h.addChunk e₁).1).mp e₂
    obtain ⟨x, _, hcap, hx, _, rfl⟩ := addChunk_ok e₁
    have hdx : (a.chunks ++ [x])[a.chunks.length]? = some d := hd
    rw [List.getElem?_concat_length] at hdx
    cases hdx
    rw [roundCapacity_nextChunkCapacity] at hcap
    have h0 : alignUp d.used l.align = 0 := by
      rw [hx]
      exact alignUp_zero l.align_pos l.align_le
    have hlt : a.chunks.length < (a.chunks ++ [d]).length := by simp
    have hnew := List.getElem?_set_self (a := d.setUsed (alignUp d.used l.align + l.size)) hlt
    rw [Head.put, if_neg hf, head_eq hnew, place, base_eq hnew, h0]
    simp [Chunk.setUsed, hcap, room]

/-- When a request fails. -/
theorem ArenaInner.Shape.allocateOrGrow_eq_none (h : a.Shape) {sys : Option Nat}
    (hl : l.size ≠ 0) : a.allocateOrGrow sys l = none ↔
      ¬ (a.head.Fits l ∨ sys.isSome = true ∧ l.size ≤ maxChunkSize) := by
  rw [← head_fits h, ← not_iff_not, not_not, ← Ne, Option.ne_none_iff_exists']
  cases sys with
  | some ptr =>
      rw [h.allocateOrGrow_iff (Nat.pos_of_ne_zero hl) ptr]
      simp
  | none =>
      rw [h.fits_iff]
      cases hal : a.allocate l with
      | some r => simp [allocateOrGrow, hal]
      | none =>
          -- no block, no chunk
          have hadd : ∀ r, a.addChunk none (nextChunkCapacity l.size) ≠ .ok r := by
            intro r hr
            obtain ⟨c, hc, _⟩ := addChunk_ok hr
            cases hc
          simp only [allocateOrGrow, hal]
          cases hr : a.addChunk none (nextChunkCapacity l.size) with
          | error _ => simp
          | ok r => exact absurd hr (hadd r)

end Place

namespace Arena

/-- **A sequence of requests**: the head decides whether they are served, and where they go. -/
theorem placeAll_eq {W : List Layout} (hW : ∀ l ∈ W, l.size ≠ 0) {w : Arena}
    (hs : w.inner.Shape) (hb : w.inner.lockfreeBuffer = none) (sys : Nat → Option Nat) :
    (w.inner.head.Serves (fun j => (sys j).isSome) W →
      w.placeAll sys W = some (w.inner.head.putAll W)) ∧
    (¬ w.inner.head.Serves (fun j => (sys j).isSome) W → w.placeAll sys W = none) := by
  induction W generalizing w sys with
  | nil => exact ⟨fun _ => rfl, fun h => absurd trivial h⟩
  | cons l W ih =>
      have hl := hW l List.mem_cons_self
      have hraw : w.allocateRaw (sys 0) l =
          (w.inner.allocateOrGrow (sys 0) l).map fun r => (r.1, w.withInner r.2) := by
        rw [allocateRaw, if_neg hl, tryLockfree_noBuffer hb]
      cases e : w.inner.allocateOrGrow (sys 0) l with
      | none =>
          have hno := (hs.allocateOrGrow_eq_none hl).mp e
          refine ⟨fun h => absurd h.1 hno, fun _ => ?_⟩
          rw [placeAll, hraw, e]
          rfl
      | some r =>
          obtain ⟨p, a'⟩ := r
          have hyes : w.inner.head.Fits l ∨ (sys 0).isSome = true ∧ l.size ≤ maxChunkSize := by
            by_contra hno
            rw [(hs.allocateOrGrow_eq_none hl).mpr hno] at e
            cases e
          have hput := hs.allocateOrGrow_put e
          have hs' := (ArenaInner.allocateOrGrow_spec hs e).1
          have hb' := (ArenaInner.allocateOrGrow_buffer hs e).trans hb
          have hrest := ih (fun k hk => hW k (List.mem_cons_of_mem l hk)) (w := w.withInner a')
            hs' hb' (fun j => sys (j + 1))
          have hhead : (w.withInner a').inner.head = (w.inner.head.put l).2 :=
            congrArg Prod.snd hput
          have hplace : w.inner.place (w.withInner a').inner p = (w.inner.head.put l).1 :=
            congrArg Prod.fst hput
          rw [hhead] at hrest
          simp only [placeAll, hraw, e, Option.map_some, Option.bind_some]
          constructor
          · intro h
            rw [hrest.1 h.2, hplace]
            rfl
          · intro h
            rw [hrest.2 fun h' => h ⟨hyes, h'⟩]
            rfl

/-- What is placed is placed by the head. -/
theorem placeAll_eq_some {W : List Layout} (hW : ∀ l ∈ W, l.size ≠ 0) {w : Arena}
    (hs : w.inner.Shape) (hb : w.inner.lockfreeBuffer = none) {sys : Nat → Option Nat}
    {ps : List Place} (e : w.placeAll sys W = some ps) : ps = w.inner.head.putAll W := by
  obtain ⟨h1, h2⟩ := placeAll_eq hW hs hb sys
  by_cases h : w.inner.head.Serves (fun j => (sys j).isSome) W
  · rw [h1 h] at e
    exact (Option.some.inj e).symm
  · rw [h2 h] at e
    cases e

/-- Arenas with the same head fail on the same sequences. -/
theorem placeAll_congr {W : List Layout} (hW : ∀ l ∈ W, l.size ≠ 0) {w w' : Arena}
    (hs : w.inner.Shape) (hb : w.inner.lockfreeBuffer = none) (hs' : w'.inner.Shape)
    (hb' : w'.inner.lockfreeBuffer = none) (hhead : w'.inner.head = w.inner.head)
    {sys sys' : Nat → Option Nat} (hsys : ∀ j, (sys' j).isSome = (sys j).isSome) :
    w'.placeAll sys' W = w.placeAll sys W := by
  obtain ⟨h1, h2⟩ := placeAll_eq hW hs hb sys
  obtain ⟨h1', h2'⟩ := placeAll_eq hW hs' hb' sys'
  rw [hhead, funext hsys] at h1' h2'
  by_cases h : w.inner.head.Serves (fun j => (sys j).isSome) W
  · rw [h1 h, h1' h]
  · rw [h2 h, h2' h]

end Arena

/-! ## 3. The moment a checkpoint was taken -/

/-- The arenas in which the valid checkpoints were taken, after an operation. -/
def Sess.origins (s : Sess) (op : Op) (g : List Arena) : List Arena :=
  match op with
  | .checkpoint => g ++ [s.arena]
  | .scopeNew => g ++ [s.arena]
  | .pushCheckpoint => g ++ [s.arena]
  | .rewindToCheckpoint i => g.take (i + 1)
  | .scopeReset i => g.take (i + 1)
  | .scopeDrop i => g.take (i + 1)
  | .popAndRewind => g.take (s.popIndex + 1)
  | .reset => []
  | .resetAndShrinkToFit => []
  | _ => g

/-- The runs of a build without the lock-free buffer, with these arenas. -/
def recalled (debug : Bool) : System (Sess × List Arena) Op :=
  (machine ⟨debug, false⟩).withGhost [] Sess.origins

instance (debug : Bool) (x : Sess × List Arena) (op : Op) : Decidable ((recalled debug).ok x op) :=
  inferInstanceAs (Decidable ((machine ⟨debug, false⟩).ok x.1 op))

/-- The checkpoint was taken in the arena `w`, and the chunk it points into still has the capacity
    it had there. -/
structure Recalls (a : ArenaInner) (cp : ArenaCheckpoint) (w : Arena) : Prop where
  shape : w.inner.Shape
  buffer : w.inner.lockfreeBuffer = none
  taken : ∃ a₁, w.inner.checkpoint = some (cp, a₁)
  capacity : ∃ t, a.spans[cp.chunkIndex]? = some t ∧ t.len = w.inner.room

section Recalls

variable {a a' : ArenaInner} {cp : ArenaCheckpoint} {w : Arena}

/-- More blocks behind change nothing. -/
theorem Recalls.more (h : Recalls a cp w) {blk : Option Span}
    (hm : MoreSpans blk a.spans a'.spans) : Recalls a' cp w := by
  obtain ⟨t, ht, hlen⟩ := h.capacity
  exact ⟨h.shape, h.buffer, h.taken, t, hm.getElem? ht, hlen⟩

/-- A checkpoint just taken. -/
theorem recalls_checkpoint (hs : w.inner.Shape) (hb : w.inner.lockfreeBuffer = none)
    {a₁ : ArenaInner} (e : w.inner.checkpoint = some (cp, a₁)) (hsp : a'.spans = w.inner.spans) :
    Recalls a' cp w := by
  obtain ⟨c, hc, _, _⟩ := hs.exists_current
  refine ⟨hs, hb, ⟨a₁, e⟩, c.span, ?_, ?_⟩
  · rw [ArenaInner.checkpoint_eq hs] at e
    cases e
    rw [hsp, ArenaInner.spans, List.getElem?_map, hc]
    rfl
  · rw [ArenaInner.room, hc]
    rfl

/-- **A rewind brings the head back** in which the checkpoint was taken. -/
theorem Recalls.rewind_head (h : Recalls a cp w) {debug : Bool}
    (e : a.rewindToCheckpoint debug cp = some a') : a'.head = w.inner.head := by
  obtain ⟨t, ht, hlen⟩ := h.capacity
  obtain ⟨a₁, hcp⟩ := h.taken
  rw [ArenaInner.checkpoint_eq h.shape] at hcp
  simp only [Option.some.injEq, Prod.mk.injEq] at hcp
  rw [ArenaInner.spans, List.getElem?_map, Option.map_eq_some_iff] at ht
  obtain ⟨d, hd, rfl⟩ := ht
  obtain ⟨_, rfl⟩ := ArenaInner.rewind_eq_some.mp e
  have hcur : (Chunk.gauge.cut a.chunks cp.chunkIndex cp.chunkOffset)[cp.chunkIndex]? =
      some (d.setUsed cp.chunkOffset) := by
    rw [Gauge.getElem?_cut_self, hd]
    rfl
  refine (ArenaInner.head_eq (c := d.setUsed cp.chunkOffset) hcur).trans (Head.ext ?_ hlen)
  rw [← hcp.1]
  rfl

end Recalls

/-- **One step keeps what is recalled.** -/
theorem recalls_step {debug : Bool} {s s' : Sess} {op : Op} {g : List Arena}
    (hk : StackOk s.arena.inner s.cps) (hb : s.arena.inner.lockfreeBuffer = none)
    (h : List.Forall₂ (Recalls s.arena.inner) s.cps g) (e : s.exec debug op = some s') :
    List.Forall₂ (Recalls s'.arena.inner) s'.cps (s.origins op g) := by
  -- while the blocks are kept, every checkpoint still finds its chunk
  have hsame {a' : ArenaInner} (hsp : a'.spans = s.arena.inner.spans) :
      List.Forall₂ (Recalls a') s.cps g := by
    have hm : MoreSpans none s.arena.inner.spans a'.spans := Or.inl hsp
    exact h.imp fun cp w hr => hr.more hm
  have hnew {cp : ArenaCheckpoint} {a₁ a' : ArenaInner}
      (ha : s.arena.inner.checkpoint = some (cp, a₁)) (hsp : a'.spans = a₁.spans) :
      List.Forall₂ (Recalls a') (s.cps ++ [cp]) (g ++ [s.arena]) := by
    have hsp' := hsp.trans (ArenaInner.checkpoint_spans ha)
    exact List.rel_append (hsame hsp') (.cons (recalls_checkpoint hk.shape hb ha hsp') .nil)
  cases s.exec_acts e with
  | take hask hw _ _ =>
      have hg : s.origins op g = g := by cases hask <;> rfl
      have hsp := Arena.allocateRaw_spans hk.shape hw
      rw [hg]
      exact h.imp fun cp w hr => hr.more hsp
  | skip _ => exact h
  | write _ _ => exact h
  | mark hop ha =>
      have hg : s.origins op g = g ++ [s.arena] := by cases hop <;> rfl
      rw [hg, Sess.cps_mark]
      exact hnew ha rfl
  | push ha =>
      rw [Sess.cps_mark]
      exact hnew ha rfl
  | @rewind op i m a' hop _ ha =>
      have hg : s.origins op g = g.take (i + 1) := by cases hop <;> rfl
      rw [hg, Sess.cps_rewind]
      exact List.forall₂_take (i + 1) (hsame (Arena.rewind_spans _ ha))
  | pop _ ha =>
      have hsp := Arena.rewind_spans s.arena ha
      rw [Sess.cps_rewind]
      exact List.forall₂_take (s.popIndex + 1) (hsame hsp)
  | clear => exact hsame rfl
  | reset => exact .nil
  | shrink => exact .nil

theorem reach_recalls {debug : Bool} {x : Sess × List Arena} (h : (recalled debug).Reach x) :
    List.Forall₂ (Recalls x.1.arena.inner) x.1.cps x.2 := by
  refine h.inv' (P := fun x => List.Forall₂ (Recalls x.1.arena.inner) x.1.cps x.2)
    (fun x hi => ?_) fun x op x' hr hx _ e => ?_
  · obtain ⟨hs, hg⟩ := hi
    obtain ⟨_, _, _, _, _, _, _, _, _, _, _, hl⟩ := hs
    rw [hg, Sess.cps, hl]
    exact .nil
  · have hr' := hr.of_withGhost
    obtain ⟨s', hs', rfl⟩ := Option.map_eq_some_iff.mp e
    exact recalls_step (reach_stackOk hr') (reach_noBuffer hr') hx hs'

/-- **Replay**: rewound to a valid checkpoint, an arena puts every sequence of requests of non-zero
    size where the arena put it in which the checkpoint had just been taken: at the same offsets,
    with new chunks at the same points and of the same capacities. Where the system allocator has
    blocks for the same requests, either both serve the whole sequence or neither does. -/
theorem replay_after_rewind {debug : Bool} {s : Sess} {g : List Arena}
    (h : (recalled debug).Reach (s, g)) {i : Nat} {cp : ArenaCheckpoint}
    (hcp : s.cps[i]? = some cp) :
    ∃ w w₁ w', g[i]? = some w ∧ w.checkpoint = some (cp, w₁) ∧
      s.arena.rewindToCheckpoint debug cp = some w' ∧
      ∀ W : List Layout, (∀ l ∈ W, l.size ≠ 0) → ∀ sys sys' : Nat → Option Nat,
        (∀ ps ps', w₁.placeAll sys W = some ps → w'.placeAll sys' W = some ps' → ps' = ps) ∧
        ((∀ j, (sys' j).isSome = (sys j).isSome) → w'.placeAll sys' W = w₁.placeAll sys W) := by
  have hr := h.of_withGhost
  have hk := reach_stackOk hr
  obtain ⟨w, hw, hrec⟩ := forall₂_getElem? (reach_recalls h) hcp
  obtain ⟨a₁, hcp₁⟩ := hrec.taken
  obtain ⟨a', ha'⟩ := (hk.within cp (List.mem_of_getElem? hcp)).rewind_isSome hk.shape debug
  obtain ⟨hrew, hb'⟩ := Arena.rewindToCheckpoint_noBuffer (reach_noBuffer hr) ha'
  have hs' := hk.shape.rewind ha'
  -- the checkpoint itself moves the counter of ids and nothing else
  obtain ⟨hs₁, hb₁, hhead₁⟩ : a₁.Shape ∧ a₁.lockfreeBuffer = none ∧ a₁.head = w.inner.head := by
    rw [ArenaInner.checkpoint_eq hrec.shape] at hcp₁
    cases hcp₁
    exact ⟨⟨hrec.shape.top, hrec.shape.chunks⟩, hrec.buffer, rfl⟩
  have hhead : a'.head = a₁.head := (hrec.rewind_head ha').trans hhead₁.symm
  refine ⟨w, w.withInner a₁, s.arena.withInner a', hw, ?_, hrew, fun W hW sys sys' => ⟨?_, ?_⟩⟩
  · rw [Arena.checkpoint, hcp₁]
    rfl
  · intro ps ps' e e'
    rw [Arena.placeAll_eq_some (w := w.withInner a₁) hW hs₁ hb₁ e,
      Arena.placeAll_eq_some (w := s.arena.withInner a') hW hs' hb' e']
    exact congrArg (Head.putAll · W) hhead
  · exact fun hsys => Arena.placeAll_congr hW hs₁ hb₁ hs' hb' hhead hsys

/-- Two requests, of which the second opens a chunk if they start in one of 64 bytes. -/
def twoLayouts : List Layout :=
  (Layout.fromSizeAlign 40 8).toList ++ (Layout.fromSizeAlign 100 1).toList

/-- A checkpoint in a chunk of 64 bytes, and the two requests after a rewind to it, when a chunk
    that was opened in between is still there. -/
theorem replay_after_rewind_grown : ∃ s g cp w', (recalled false).Reach (s, g) ∧
    s.arena.inner.chunks.length = 2 ∧ s.cps = [cp] ∧
    s.arena.rewindToCheckpoint false cp = some w' ∧
    w'.placeAll (fun _ => some 32768) twoLayouts = some [⟨8, none⟩, ⟨0, some 4096⟩] := by
  obtain ⟨⟨s, g⟩, hr, hlen, hcps, hg⟩ := System.exists_reach_of_replay (recalled false)
    [.allocateRaw none .word, .checkpoint,
      .allocateRaw none ⟨16, 8, ⟨3, rfl⟩, by decide⟩,
      .allocateRaw (some 16384) ⟨5000, 1, ⟨0, rfl⟩, by decide⟩]
    (P := fun x => x.1.arena.inner.chunks.length = 2 ∧ x.1.cps = [⟨0, 8, 0, 1⟩] ∧
      (x.2.map fun w => w.checkpoint.bind fun r => r.2.placeAll (fun _ => some 16384) twoLayouts) =
        [some [⟨8, none⟩, ⟨0, some 4096⟩]])
    (s := (Sess.small none, [])) ⟨Sess.init_small false, rfl⟩ (by decide)
  have hcp0 : s.cps[0]? = some ⟨0, 8, 0, 1⟩ := by
    rw [hcps]
    rfl
  obtain ⟨w, w₁, w', hw, hcp, hrew, hall⟩ := replay_after_rewind hr hcp0
  refine ⟨s, g, _, w', hr, hlen, hcps, hrew, ?_⟩
  refine ((hall twoLayouts (by decide) (fun _ => some 16384) (fun _ => some 32768)).2
    fun _ => rfl).trans ?_
  have h0 := congrArg (·[0]?) hg
  simpa [hw, hcp] using h0

end ArenaB
