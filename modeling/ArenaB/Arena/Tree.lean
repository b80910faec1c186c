/-
  File:      ArenaB/Arena/Tree.lean
  Subject:   Programs over an arena: nested scopes and frames, with panics.

  A `Cmd` is a tree of allocations, scope bodies and push/pop frames. A panic runs the drops of
  the scopes around it and skips the pops of the frames around it, so it leaves their entries on
  the stack; a scope may have its panic caught right outside. An allocation that fails aborts the
  process, without any drop.

  * `run` -- executes a tree and lists, for every scope and frame that ended, the arena at its
    start and at its end;
  * `Atop a b` -- `b` stands on top of `a`: everything since has grown above the bump position
    of `a`, and the stack entries since have ids from `a`'s counter on. This is what the body of
    a scope leaves behind, whichever way it ends (`run_atop`, by induction on the tree);
  * **`run_restores`** -- every scope and frame that ends restores what it found.
-/
import ArenaB.Arena.Stack

namespace ArenaB

open Base

/-! ## 1. Programs -/

/-- A program tree. -/
inductive Cmd where
  | skip
  | alloc (sys : Option Nat) (layout : Layout)
  | panic
  | seq (a b : Cmd)
  /-- `arena.scope(body)`, inside a `catch_unwind` if `catches`. -/
  | scope (catches : Bool) (body : Cmd)
  /-- `push_checkpoint(); body; pop_and_rewind()`. -/
  | frame (body : Cmd)

/-- How a program leaves. -/
inductive Outcome where
  | done
  | panicked
  | aborted
  deriving DecidableEq, Repr

/-- The result of a program: the arena, and start and end of each scope and frame that ended. -/
structure Run where
  outcome : Outcome
  arena : Arena
  ended : List (Arena × Arena)

/-- Executes a program; `none` if a rewind trips an assert or a pop finds the stack empty. -/
def run (debug : Bool) : Cmd → Arena → Option Run
  | .skip, w => some ⟨.done, w, []⟩
  | .panic, w => some ⟨.panicked, w, []⟩
  | .alloc sys layout, w =>
      match w.allocateRaw sys layout with
      | some r => some ⟨.done, r.2, []⟩
      | none => some ⟨.aborted, w, []⟩
  | .seq a b, w =>
      (run debug a w).bind fun r =>
        if r.outcome = .done then
          (run debug b r.arena).map fun r' => { r' with ended := r.ended ++ r'.ended }
        else some r
  | .scope catches body, w =>
      w.checkpoint.bind fun c =>
        (run debug body c.2).bind fun r =>
          if r.outcome = .aborted then some r
          else
            (r.arena.rewindToCheckpoint debug c.1).map fun w' =>
              ⟨if catches then .done else r.outcome, w', r.ended ++ [(w, w')]⟩
  | .frame body, w =>
      w.pushCheckpoint.bind fun c =>
        (run debug body c.2).bind fun r =>
          if r.outcome = .done then
            (r.arena.popAndRewind debug).map fun p => ⟨.done, p.2, r.ended ++ [(w, p.2)]⟩
          else some r

/-- The second arena has the current chunk, the offsets and the stack of the first; chunks added
    in between are empty. -/
structure Restored (w w' : Arena) : Prop where
  current : w'.inner.currentChunk = w.inner.currentChunk
  chunks : ∃ extra, w'.inner.chunks = w.inner.chunks ++ extra ∧ ∀ c ∈ extra, c.used = 0
  stack : w'.inner.checkpoints = w.inner.checkpoints

/-! ## 2. Standing on top -/

/-- The ids on the stack are below the counter. -/
def ArenaInner.IdsBelow (a : ArenaInner) : Prop :=
  ∀ c ∈ a.checkpoints, c.checkpointId < a.currentCheckpointId

/-- `b` stands on top of `a`. -/
structure Atop (a b : ArenaInner) : Prop where
  shape : b.Shape
  current : a.currentChunk ≤ b.currentChunk
  grown : Chunk.gauge.Grown a.chunks a.currentChunk b.chunks
  nextId : a.currentCheckpointId ≤ b.currentCheckpointId
  stack : ∃ extra, b.checkpoints = a.checkpoints ++ extra ∧
    ∀ c ∈ extra, a.currentCheckpointId ≤ c.checkpointId ∧ c.checkpointId < b.currentCheckpointId

section Atop

variable {a b c : ArenaInner}

theorem Atop.of_grows (h : b.Shape) (hg : a.Grows b) : Atop a b :=
  ⟨h, hg.current, hg.grown, Nat.le_of_eq hg.nextId.symm, [],
    by rw [hg.checkpoints, List.append_nil], (fun _ h => nomatch h)⟩

theorem Atop.refl (h : a.Shape) : Atop a a := .of_grows h (.refl h)

theorem Atop.trans (h : Atop a b) (h' : Atop b c) : Atop a c := by
  obtain ⟨e, he, hid⟩ := h.stack
  obtain ⟨e', he', hid'⟩ := h'.stack
  refine ⟨h'.shape, h.current.trans h'.current, h.grown.trans h'.grown h.current,
    h.nextId.trans h'.nextId, e ++ e', by rw [he', he, List.append_assoc], fun x hx => ?_⟩
  have h1 := h.nextId
  have h2 := h'.nextId
  rcases List.mem_append.mp hx with hx | hx
  · have := hid x hx
    omega
  · have := hid' x hx
    omega

theorem Atop.idsBelow (h : Atop a b) (ha : a.IdsBelow) : b.IdsBelow := by
  obtain ⟨e, he, hid⟩ := h.stack
  intro x hx
  rw [he] at hx
  rcases List.mem_append.mp hx with hx | hx
  · exact Nat.lt_of_lt_of_le (ha x hx) h.nextId
  · exact (hid x hx).2

/-- The chunk being filled at a mark is still there above it, with its capacity. -/
theorem capacity_of_grown {cs cs' : List Chunk} {i : Nat} (hg : Chunk.gauge.Grown cs i cs')
    {x : Chunk} (hx : cs[i]? = some x) : ∃ d, cs'[i]? = some d ∧ d.capacity = x.capacity := by
  obtain ⟨more, hcut, _⟩ := hg.restore hx
  obtain ⟨d, hd⟩ : ∃ d, cs'[i]? = some d := ⟨_, List.getElem?_eq_getElem hg.lt_length⟩
  refine ⟨d, hd, ?_⟩
  have h1 : (Chunk.gauge.cut cs' i (Chunk.gauge.level x))[i]? =
      some (Chunk.gauge.put d (Chunk.gauge.level x)) := by
    rw [Gauge.getElem?_cut_self, hd]
    rfl
  rw [hcut, List.getElem?_append_left (List.getElem?_eq_some_iff.mp hx).1, hx] at h1
  rw [Option.some.inj h1]
  rfl

/-- The trimming by ids removes exactly the entries of the inside. -/
theorem ArenaInner.IdsBelow.filter (h : a.IdsBelow) {extra : List ArenaCheckpoint}
    (hex : ∀ c ∈ extra, a.currentCheckpointId ≤ c.checkpointId) :
    (a.checkpoints ++ extra).filter (fun c => c.checkpointId < a.currentCheckpointId) =
      a.checkpoints := by
  have h1 : a.checkpoints.filter (fun c => c.checkpointId < a.currentCheckpointId) =
      a.checkpoints := List.filter_eq_self.mpr fun c hc => decide_eq_true (h c hc)
  have h2 : extra.filter (fun c => c.checkpointId < a.currentCheckpointId) = [] := by
    refine List.filter_eq_nil_iff.mpr fun c hc => ?_
    have := hex c hc
    simpa using this
  rw [List.filter_append, h1, h2, List.append_nil]

/-- What the end of a scope or a frame gives back. -/
structure GivenBack (a b : ArenaInner) : Prop where
  atop : Atop a b
  current : b.currentChunk = a.currentChunk
  chunks : ∃ more, b.chunks = a.chunks ++ more ∧ ∀ c ∈ more, c.used = 0
  stack : b.checkpoints = a.checkpoints

variable {cp : ArenaCheckpoint} {a₁ : ArenaInner}

/-- A rewind to the checkpoint of `a`, from above it: no assert trips, and chunks, current index
    and stack come back. -/
theorem rewind_givesBack (hs : a.Shape) (hid : a.IdsBelow) (e : a.checkpoint = some (cp, a₁))
    (debug : Bool) (hb : b.Shape) (hg : Chunk.gauge.Grown a.chunks a.currentChunk b.chunks)
    (hn : a.currentCheckpointId ≤ b.currentCheckpointId) {extra : List ArenaCheckpoint}
    (hst : b.checkpoints = a.checkpoints ++ extra)
    (hex : ∀ c ∈ extra, a.currentCheckpointId ≤ c.checkpointId) :
    ∃ b', b.rewindToCheckpoint debug cp = some b' ∧ GivenBack a b' := by
  rw [ArenaInner.checkpoint_eq hs] at e
  simp only [Option.some.injEq, Prod.mk.injEq] at e
  obtain ⟨x, hx, hbump, hok⟩ := hs.exists_current
  obtain ⟨d, hd, hcap⟩ := capacity_of_grown hg hx
  have hle : a.bump ≤ d.capacity := by
    rw [hbump, hcap]
    exact hok.used
  obtain ⟨b', hb'⟩ : ∃ b', b.rewindToCheckpoint debug cp = some b' := by
    rw [← e.1]
    exact ⟨_, ArenaInner.rewind_eq_some.mpr ⟨⟨d, hd, hle⟩, rfl⟩⟩
  have hs' := hb.rewind hb'
  obtain ⟨_, rfl⟩ := ArenaInner.rewind_eq_some.mp hb'
  have hstack : b.checkpoints.filter (fun c => c.checkpointId < cp.checkpointId) =
      a.checkpoints := by
    rw [hst, ← e.1]
    exact hid.filter hex
  refine ⟨_, hb', ⟨hs', ?_, ?_, ?_, [], ?_, (fun _ h => nomatch h)⟩, ?_, ?_, hstack⟩
  · rw [← e.1]
  · rw [← e.1]
    exact hg.cut (Nat.le_refl _)
  · show a.currentCheckpointId ≤ if debug then _ else _
    split
    · rw [← e.1]
      exact Nat.le_succ _
    · exact hn
  · rw [List.append_nil]
    exact hstack
  · rw [← e.1]
  · show ∃ more, Chunk.gauge.cut b.chunks cp.chunkIndex cp.chunkOffset = a.chunks ++ more ∧ _
    rw [← e.1, hbump]
    exact hg.restore hx

/-- What `checkpoint` leaves alone. -/
theorem checkpoint_spec (hs : a.Shape) (e : a.checkpoint = some (cp, a₁)) :
    a₁.Shape ∧ a₁.chunks = a.chunks ∧ a₁.currentChunk = a.currentChunk ∧
      a₁.checkpoints = a.checkpoints ∧ a₁.currentCheckpointId = a.currentCheckpointId + 1 ∧
      cp.checkpointId = a.currentCheckpointId := by
  rw [ArenaInner.checkpoint_eq hs] at e
  cases e
  exact ⟨⟨hs.top, hs.chunks⟩, rfl, rfl, rfl, rfl, rfl⟩

/-- **The end of a scope**, from whatever its body left on top. -/
theorem scope_givesBack (hs : a.Shape) (hid : a.IdsBelow) (e : a.checkpoint = some (cp, a₁))
    (debug : Bool) (h : Atop a₁ b) :
    ∃ b', b.rewindToCheckpoint debug cp = some b' ∧ GivenBack a b' := by
  obtain ⟨_, h1, h2, h3, h4, _⟩ := checkpoint_spec hs e
  obtain ⟨extra, hst, hex⟩ := h.stack
  have hg := h.grown
  have hn := h.nextId
  rw [h1, h2] at hg
  rw [h3] at hst
  rw [h4] at hn
  refine rewind_givesBack hs hid e debug h.shape hg (by omega) hst fun c hc => ?_
  have := (hex c hc).1
  omega

/-- **The end of a frame** whose body left the stack as the push made it. -/
theorem frame_givesBack (hs : a.Shape) (hid : a.IdsBelow) (e : a.checkpoint = some (cp, a₁))
    (debug : Bool) (h : Atop { a₁ with checkpoints := a₁.checkpoints ++ [cp] } b)
    (hst : b.checkpoints = a₁.checkpoints ++ [cp]) :
    b.checkpoints.getLast? = some cp ∧ ∃ b',
      { b with checkpoints := b.checkpoints.dropLast }.rewindToCheckpoint debug cp = some b' ∧
      GivenBack a b' := by
  obtain ⟨_, h1, h2, h3, h4, _⟩ := checkpoint_spec hs e
  have hg : Chunk.gauge.Grown a₁.chunks a₁.currentChunk b.chunks := h.grown
  have hn : a₁.currentCheckpointId ≤ b.currentCheckpointId := h.nextId
  rw [h1, h2] at hg
  rw [h4] at hn
  have hpop : b.checkpoints.dropLast = a.checkpoints ++ [] := by
    rw [hst, List.dropLast_concat, h3, List.append_nil]
  exact ⟨by rw [hst]; exact List.getLast?_concat,
    rewind_givesBack hs hid e debug ⟨h.shape.top, h.shape.chunks⟩ hg (Nat.le_of_succ_le hn) hpop
      (fun _ h => nomatch h)⟩

end Atop

/-! ## 3. Running a tree -/

/-- What a program leaves behind, unless it aborts. -/
def Leaves (w : Arena) (r : Run) : Prop :=
  r.outcome ≠ .aborted → Atop w.inner r.arena.inner ∧
    (r.outcome = .done → r.arena.inner.checkpoints = w.inner.checkpoints)

/-- The end of a scope or a frame, at the level of the arena. -/
theorem GivenBack.arena {w : Arena} {b : ArenaInner} (h : GivenBack w.inner b) (v : Arena) :
    Restored w (v.withInner b).resetBuffer ∧
      Atop w.inner (v.withInner b).resetBuffer.inner := by
  have hs := Arena.same_resetBuffer (v.withInner b)
  refine ⟨⟨hs.currentChunk.trans h.current, by rw [hs.chunks]; exact h.chunks,
    hs.checkpoints.trans h.stack⟩, ?_⟩
  exact h.atop.trans (.of_grows (hs.shape h.atop.shape) (hs.grows h.atop.shape))

theorem restored_append {l : List (Arena × Arena)} (h : ∀ p ∈ l, Restored p.1 p.2) {w w' : Arena}
    (hr : Restored w w') : ∀ p ∈ l ++ [(w, w')], Restored p.1 p.2 := by
  intro p hp
  rcases List.mem_append.mp hp with hp | hp
  · exact h p hp
  · rw [List.mem_singleton.mp hp]
    exact hr

/-- A pushed checkpoint stands on top of where it was taken. -/
theorem atop_push {a a₁ : ArenaInner} {cp : ArenaCheckpoint} (hs : a.Shape)
    (e : a.checkpoint = some (cp, a₁)) :
    Atop a { a₁ with checkpoints := a₁.checkpoints ++ [cp] } := by
  obtain ⟨hs₁, h1, h2, h3, h4, h5⟩ := checkpoint_spec hs e
  refine ⟨⟨hs₁.top, hs₁.chunks⟩, Nat.le_of_eq h2.symm, ?_, ?_, [cp], ?_, fun c hc => ?_⟩
  · rw [h1]
    exact .refl hs.top
  · show _ ≤ a₁.currentCheckpointId
    omega
  · rw [h3]
  · rw [List.mem_singleton.mp hc]
    show _ ∧ _ < a₁.currentCheckpointId
    omega

theorem ArenaInner.IdsBelow.checkpoint {a a₁ : ArenaInner} {cp : ArenaCheckpoint}
    (hid : a.IdsBelow) (hs : a.Shape) (e : a.checkpoint = some (cp, a₁)) : a₁.IdsBelow := by
  obtain ⟨_, _, _, h3, h4, _⟩ := checkpoint_spec hs e
  intro c hc
  rw [h3] at hc
  rw [h4]
  exact Nat.lt_succ_of_lt (hid c hc)

/-- **The induction over the tree**: a program runs, what ended in it restored its start, and the
    rest stands on top of where it began. -/
theorem run_atop (debug : Bool) (c : Cmd) : ∀ w : Arena, w.inner.Shape → w.inner.IdsBelow →
    ∃ r, run debug c w = some r ∧ (∀ p ∈ r.ended, Restored p.1 p.2) ∧ Leaves w r := by
  induction c with
  | skip => exact fun w hs _ => ⟨_, rfl, (fun _ h => nomatch h), fun _ => ⟨.refl hs, fun _ => rfl⟩⟩
  | panic =>
      exact fun w hs _ => ⟨_, rfl, (fun _ h => nomatch h), fun _ => ⟨.refl hs, fun h => nomatch h⟩⟩
  | alloc sys l =>
      intro w hs _
      unfold run
      cases e : w.allocateRaw sys l with
      | none => exact ⟨_, rfl, (fun _ h => nomatch h), fun h => absurd rfl h⟩
      | some r =>
          obtain ⟨h1, h2⟩ := Arena.allocateRaw_grows hs e
          exact ⟨_, rfl, (fun _ h => nomatch h),
            fun _ => ⟨.of_grows h1 h2, fun _ => h2.checkpoints⟩⟩
  | seq a b iha ihb =>
      intro w hs hid
      obtain ⟨r, hr, hend, hl⟩ := iha w hs hid
      unfold run
      rw [hr, Option.bind_some]
      by_cases hd : r.outcome = .done
      · obtain ⟨hat, hst⟩ := hl (by rw [hd]; decide)
        obtain ⟨r', hr', hend', hl'⟩ := ihb r.arena hat.shape (hat.idsBelow hid)
        rw [if_pos hd, hr']
        refine ⟨_, rfl, fun p hp => ?_, fun hna => ?_⟩
        · rcases List.mem_append.mp hp with hp | hp
          · exact hend p hp
          · exact hend' p hp
        · obtain ⟨hat', hst'⟩ := hl' hna
          exact ⟨hat.trans hat', fun h => (hst' h).trans (hst hd)⟩
      · rw [if_neg hd]
        exact ⟨r, rfl, hend, hl⟩
  | scope catches body ih =>
      intro w hs hid
      obtain ⟨⟨cp, a₁⟩, e⟩ : ∃ r, w.inner.checkpoint = some r := ⟨_, ArenaInner.checkpoint_eq hs⟩
      obtain ⟨r, hr, hend, hl⟩ :=
        ih (w.withInner a₁) (checkpoint_spec hs e).1 (hid.checkpoint hs e)
      unfold run Arena.checkpoint
      rw [e, Option.map_some, Option.bind_some, hr, Option.bind_some]
      by_cases ha : r.outcome = .aborted
      · rw [if_pos ha]
        exact ⟨r, rfl, hend, fun h => absurd ha h⟩
      · obtain ⟨b, hb, hback⟩ := scope_givesBack hs hid e debug (hl ha).1
        obtain ⟨hres, hat⟩ := hback.arena r.arena
        rw [if_neg ha, Arena.rewindToCheckpoint, hb]
        exact ⟨_, rfl, restored_append hend hres, fun _ => ⟨hat, fun _ => hres.stack⟩⟩
  | frame body ih =>
      intro w hs hid
      obtain ⟨⟨cp, a₁⟩, e⟩ : ∃ r, w.inner.checkpoint = some r := ⟨_, ArenaInner.checkpoint_eq hs⟩
      -- the push itself stands on top, so a panic through the frame leaves something on top, too
      have hat₁ := atop_push hs e
      obtain ⟨r, hr, hend, hl⟩ := ih (w.withInner _) hat₁.shape (hat₁.idsBelow hid)
      unfold run Arena.pushCheckpoint ArenaInner.pushCheckpoint
      rw [e, Option.map_some, Option.map_some, Option.bind_some, hr, Option.bind_some]
      by_cases hd : r.outcome = .done
      · obtain ⟨hat, hst⟩ := hl (by rw [hd]; decide)
        obtain ⟨hlast, b, hb, hback⟩ := frame_givesBack hs hid e debug hat (hst hd)
        obtain ⟨hres, hat'⟩ := hback.arena r.arena
        rw [if_pos hd, Arena.popAndRewind_eq_some.mpr ⟨hlast, b, hb, rfl⟩]
        exact ⟨_, rfl, restored_append hend hres, fun _ => ⟨hat', fun _ => hres.stack⟩⟩
      · rw [if_neg hd]
        exact ⟨r, rfl, hend, fun h => ⟨hat₁.trans (hl h).1, fun h => absurd h hd⟩⟩

/-- **Scopes and frames restore what they found**: a program tree started in any reachable state
    runs, and whenever a scope (left normally or by a panic) or a frame in it ends, current chunk,
    offsets and checkpoint stack are those of its start, and the chunks added inside are empty. -/
theorem run_restores (f : Features) {s : Sess} (h : (machine f).Reach s) (c : Cmd) :
    ∃ r, run f.debug c s.arena = some r ∧ ∀ p ∈ r.ended, Restored p.1 p.2 := by
  have hk := reach_stackOk h
  obtain ⟨r, hr, hend, _⟩ := run_atop f.debug c s.arena hk.shape
    fun cp hcp => hk.below cp (hk.stack.subset hcp)
  exact ⟨r, hr, hend⟩

/-- A scope whose first frame adds a chunk and whose second one panics, the panic caught. -/
def Cmd.panicking : Cmd :=
  .seq (.alloc none .word)
    (.scope true (.seq (.frame (.alloc (some 16384) ⟨100, 1, Layout.byte.pow2, by decide⟩))
      (.frame (.seq (.alloc none ⟨16, 8, Layout.word.pow2, by decide⟩) .panic))))

theorem run_restores_panicking : ∃ r, run false Cmd.panicking (Sess.small none).arena = some r ∧
    (r.ended.length = 2 ∧ r.arena.inner.chunks.map Chunk.used = [8, 0] ∧
      r.arena.inner.checkpoints = []) ∧ ∀ p ∈ r.ended, Restored p.1 p.2 := by
  obtain ⟨r, hr, hend⟩ :=
    run_restores ⟨false, false⟩ (.init (Sess.init_small false)) Cmd.panicking
  have h : (run false Cmd.panicking (Sess.small none).arena).all fun r =>
      decide (r.ended.length = 2 ∧ r.arena.inner.chunks.map Chunk.used = [8, 0] ∧
        r.arena.inner.checkpoints = []) := by decide
  rw [hr] at h
  exact ⟨r, hr, of_decide_eq_true h, hend⟩

end ArenaB
