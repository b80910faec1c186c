/-
  File:      ArenaB/Legacy/Tree.lean
  Subject:   Trees of nested scopes on the legacy arena, whose closures return or panic.

  `Arena::scope` of legacy_arena.rs rewinds and restores the counter after its closure has returned,
  and has no drop that would do so when the closure panics.

  * `Body` -- what a closure does: allocations, which may panic themselves, inner scopes, a panic. A
    scope may stand in a `catch_unwind`;
  * `Body.run` -- executes it and lists the calls that allocated and that no scope has undone;
  * `Grab.Absorbed` -- the call takes no room and is not counted, at the place where the arena
    stands: an empty block at an aligned offset within the capacity, or a slice without a layout;
  * `Sane` -- what holds of the arena in EVERY reachable state, also after a scope has closed past
    the capacity of its chunk (`reach_sane`);
  * `place` -- current chunk, offset and counter, ordered: allocations only go up, and a scope that
    ends after a return is back where it began. `Leaves` says so of a tree, by induction
    (`run_leaves`);
  * **`scope_restores_iff`** -- a scope restores what it found exactly if its closure returned, or
    every call it left is absorbed at the place where the scope began.
-/
import Mathlib.Data.Prod.Lex
import ArenaB.Legacy.Live

namespace ArenaB.Legacy

open Base

/-! ## 1. Programs -/

/-- An allocation, with what the system allocator answers. -/
inductive Grab where
  | allocLayout (sys : Option Nat) (layout : Layout)
  | alloc (sys : Option Nat) (value : Value)
  | allocSliceCopy (sys : Option Nat) (slice : Slice)

/-- What a closure does. -/
inductive Body where
  | skip
  | panic
  | grab (g : Grab)
  | seq (a b : Body)
  /-- `arena.scope(body)`, inside a `catch_unwind` if `catches`. -/
  | scope (catches : Bool) (body : Body)

/-- How a body ended: the arena, and the calls that allocated and that no scope has undone. -/
structure Ended where
  panicked : Bool
  arena : Arena
  kept : List Grab

/-- An allocation; `none` is a panic, which leaves the arena alone. -/
def Arena.grab (w : Arena) : Grab → Option Arena
  | .allocLayout sys layout => (w.allocLayout sys layout).toOption.map Prod.snd
  | .alloc sys value => (w.alloc sys value).map Prod.snd
  | .allocSliceCopy sys slice => (w.allocSliceCopy sys slice).map Prod.snd

/-- Executes a body; `none` if a scope finds an index past the chunks. -/
def Body.run : Body → Arena → Option Ended
  | .skip, w => some ⟨false, w, []⟩
  | .panic, w => some ⟨true, w, []⟩
  | .grab g, w =>
      match w.grab g with
      | some w' => some ⟨false, w', [g]⟩
      | none => some ⟨true, w, []⟩
  | .seq a b, w =>
      (a.run w).bind fun r =>
        if r.panicked then some r
        else (b.run r.arena).map fun r' => { r' with kept := r.kept ++ r'.kept }
  | .scope catches body, w =>
      w.scopeEnter.bind fun sc =>
        (body.run w).bind fun r =>
          -- a panic leaves `scope` before its last three statements
          if r.panicked then some { r with panicked := !catches }
          else (r.arena.scopeExit sc.1 sc.2).map fun w' => ⟨false, w', []⟩

/-- The current chunk takes the layout without moving: it is empty, and the offset is aligned for it
    and within the capacity. -/
def Arena.Absorbs (w : Arena) (l : Layout) : Prop :=
  ∀ c ∈ w.inner.chunks[w.inner.currentChunk]?, l.size = 0 ∧ l.align ∣ c.used ∧ c.used ≤ c.capacity

/-- The call changes neither current chunk, offset nor counter. `alloc` counts, whatever the size;
    a slice that is too long for a layout is not allocated at all. -/
def Grab.Absorbed (w : Arena) : Grab → Prop
  | .allocLayout _ layout => w.Absorbs layout
  | .alloc _ _ => False
  | .allocSliceCopy _ slice => ∀ layout ∈ slice.elem.array slice.len, w.Absorbs layout

/-- The second arena has the current chunk and the counter of the first, and the offset of every
    chunk the first had. -/
structure Arena.Restored (w w' : Arena) : Prop where
  current : w'.inner.currentChunk = w.inner.currentChunk
  used : ∀ (k : Nat) (c : Chunk), w.inner.chunks[k]? = some c →
    ∃ c', w'.inner.chunks[k]? = some c' ∧ c'.used = c.used
  count : w'.allocationCounter = w.allocationCounter

/-! ## 2. Where an arena stands -/

/-- The current chunk exists, those behind it are empty, and no offset or capacity passes
    `isize::MAX` by more than one. -/
structure Arena.Sane (w : Arena) : Prop where
  top : Chunk.gauge.Top w.inner.chunks w.inner.currentChunk
  bounds : ∀ c ∈ w.inner.chunks, c.used ≤ 2 ^ 63 ∧ c.capacity ≤ 2 ^ 63

/-- Current chunk and offset, lexicographically, and the counter. -/
def Arena.place (w : Arena) : (Nat ×ₗ Nat) × Nat := (toLex w.inner.pos, w.allocationCounter)

section Place

variable {w w' : Arena} {sys : Option Nat} {l : Layout} {p : Nat}

theorem Arena.Sane.exists_current (h : w.Sane) :
    ∃ c, w.inner.chunks[w.inner.currentChunk]? = some c ∧ w.inner.bump = c.used := by
  have hc := List.getElem?_eq_getElem h.top.lt
  refine ⟨_, hc, ?_⟩
  rw [ArenaInner.bump, hc]
  rfl

/-- An arena whose current chunk has the given offset. -/
theorem pos_eq {a : ArenaInner} {c : Chunk} (hc : a.chunks[a.currentChunk]? = some c) :
    a.pos = (a.currentChunk, c.used) := by
  rw [ArenaInner.pos, ArenaInner.bump, hc]
  rfl

/-- Absorption is a matter of the current chunk. -/
theorem Arena.absorbs_iff {c : Chunk} (hc : w.inner.chunks[w.inner.currentChunk]? = some c) :
    w.Absorbs l ↔ l.size = 0 ∧ l.align ∣ c.used ∧ c.used ≤ c.capacity := by
  unfold Arena.Absorbs
  rw [hc]
  exact ⟨fun h => h c rfl, fun h d hd => by cases hd; exact h⟩

/-- The aligned end is the offset exactly if the layout is empty and the offset aligned for it. -/
theorem alignUp_add_size_eq {x : Nat} (hx : x ≤ 2 ^ 63) :
    alignUp x l.align + l.size = x ↔ l.size = 0 ∧ l.align ∣ x := by
  obtain ⟨k, hk⟩ := l.pow2
  have hw : x + l.align ≤ wordMod := by
    have := l.fits
    unfold wordMod
    omega
  have hle := le_alignUp l.align_pos hw
  constructor
  · intro e
    have hx : alignUp x l.align = x := by omega
    exact ⟨by omega, hx ▸ l.dvd_alignUp x⟩
  · rintro ⟨hs, hd⟩
    have := alignUp_le hk hw (Nat.le_refl x) hd
    omega

/-- A chunk that takes a layout without moving serves it. -/
theorem allocate_of_absorbs {c : Chunk} (hu : c.used ≤ 2 ^ 63)
    (h : l.size = 0 ∧ l.align ∣ c.used ∧ c.used ≤ c.capacity) : c.allocate l ≠ none := by
  have hfin := (alignUp_add_size_eq hu).mpr ⟨h.1, h.2.1⟩
  have hadd : checkedAdd (alignUp c.used l.align) l.size = some c.used := by
    rw [checkedAdd, hfin]
    refine if_pos ?_
    unfold wordMod
    omega
  simp only [Chunk.allocate, hadd, Option.bind_some]
  rw [if_neg (Nat.not_lt.mpr h.2.2)]
  exact fun e => by cases e

/-- **A served call** on any sane arena: what was there stays, and the position goes up, unless the
    current chunk absorbs the layout. -/
theorem Arena.Sane.allocLayout (h : w.Sane) (e : w.allocLayout sys l = .ok (p, w')) :
    w'.Sane ∧ Chunk.gauge.Grown w.inner.chunks w.inner.currentChunk w'.inner.chunks ∧
      (toLex w.inner.pos ≤ toLex w'.inner.pos ∧ (w'.inner.pos = w.inner.pos ↔ w.Absorbs l)) ∧
      w'.allocationCounter = w.allocationCounter := by
  obtain ⟨c, hc, _⟩ := h.exists_current
  have hbounds := h.bounds c (List.mem_of_getElem? hc)
  have hidx : w.inner.chunkIdx = w.inner.currentChunk := if_neg (Nat.not_le.mpr h.top.lt)
  unfold Arena.allocLayout at e
  rw [hidx, hc] at e
  dsimp only at e
  split at e
  · -- the current chunk serves
    rename_i r hr
    cases e
    obtain ⟨fin, hend, hfin, hle, hcap⟩ := Chunk.allocate_ge hbounds.1 hr
    have hset : (w.inner.chunks.set w.inner.currentChunk r.2)[w.inner.currentChunk]? =
        some r.2 := List.getElem?_set_self h.top.lt
    refine ⟨⟨h.top.set _, ?_⟩, ?_, ⟨?_, ?_⟩, rfl⟩
    · intro d hd
      rcases List.mem_or_eq_of_mem_set hd with hd | rfl
      · exact h.bounds d hd
      · rw [hfin]
        exact ⟨hcap.trans hbounds.2, hbounds.2⟩
    · rw [hfin]
      exact (Gauge.Grown.refl h.top).set hc (Nat.le_refl _) fin
    · rw [pos_eq hc, pos_eq hset, hfin, Prod.Lex.toLex_le_toLex]
      exact Or.inr ⟨rfl, hle⟩
    · rw [pos_eq hc, pos_eq hset, hfin, Arena.absorbs_iff hc, ← and_assoc,
        ← alignUp_add_size_eq hbounds.1, ← hend]
      constructor
      · intro e
        have e' : fin = c.used := congrArg Prod.snd e
        exact ⟨e', e' ▸ hcap⟩
      · exact fun e => Prod.ext rfl e.1
  · rename_i hnone
    split at e
    · cases e
    rename_i newChunk hnew
    split at e
    · -- the new chunk serves
      rename_i r hr
      cases e
      obtain ⟨_, _, hused, hok⟩ := Chunk.new_ok hnew
      have hcap := hok.capacity
      obtain ⟨fin, _, hfin, _, hle⟩ := Chunk.allocate_ge (by omega) hr
      refine ⟨⟨Gauge.top_append _ _, ?_⟩, ?_, ⟨?_, fun e => ?_, fun ha => ?_⟩, rfl⟩
      · intro d hd
        rcases List.mem_append.mp hd with hd | hd
        · exact h.bounds d hd
        · rw [List.mem_singleton.mp hd, hfin]
          exact ⟨hle.trans (by omega), by show newChunk.capacity ≤ _; omega⟩
      · exact (Gauge.Grown.refl h.top).append [r.2]
      · rw [Prod.Lex.toLex_le_toLex]
        exact Or.inl h.top.lt
      · exact absurd (congrArg Prod.fst e) (Nat.ne_of_gt h.top.lt)
      · exact absurd hnone (allocate_of_absorbs hbounds.1 ((Arena.absorbs_iff hc).mp ha))
    · cases e

/-- Sanity is about the chunks alone. -/
theorem Arena.Sane.alike (h : w.Sane) (e : w.Alike w') : w'.Sane :=
  ⟨by rw [e.chunks, e.currentChunk]; exact h.top, by rw [e.chunks]; exact h.bounds⟩

theorem Arena.Alike.pos (e : w.Alike w') : w'.inner.pos = w.inner.pos := by
  rw [ArenaInner.pos, ArenaInner.bump, e.chunks, e.currentChunk]
  rfl

/-- **An allocation** that does not panic. -/
theorem Arena.Sane.grab (h : w.Sane) {g : Grab} (e : w.grab g = some w') :
    w'.Sane ∧ Chunk.gauge.Grown w.inner.chunks w.inner.currentChunk w'.inner.chunks ∧
      w.place ≤ w'.place ∧ (w'.place = w.place ↔ g.Absorbed w) := by
  -- each of the three is `alloc_layout`, up to counter and memory
  have hlayout {sys : Option Nat} {l : Layout} {r : Nat × Arena}
      (hr : (w.allocLayout sys l).toOption = some r) (ha : r.2.Alike w')
      (hn : r.2.allocationCounter ≤ w'.allocationCounter) : w'.Sane ∧
      Chunk.gauge.Grown w.inner.chunks w.inner.currentChunk w'.inner.chunks ∧
      w.place ≤ w'.place ∧ (w'.place = w.place ↔
        w'.allocationCounter = r.2.allocationCounter ∧ w.Absorbs l) := by
    obtain ⟨hs, hg, ⟨hle, heq⟩, hcount⟩ := h.allocLayout (toOption_eq_some hr)
    rw [← ha.pos] at hle heq
    rw [hcount] at hn ⊢
    refine ⟨hs.alike ha, by rw [ha.chunks]; exact hg, ⟨hle, hn⟩, ?_⟩
    rw [← heq, and_comm, Arena.place, Arena.place, Prod.mk.injEq, toLex_inj]
  cases g with
  | allocLayout sys l =>
      obtain ⟨r, hr, rfl⟩ := Option.map_eq_some_iff.mp e
      obtain ⟨hs, hg, hle, heq⟩ := hlayout hr ⟨rfl, rfl, rfl⟩ (Nat.le_refl _)
      exact ⟨hs, hg, hle, heq.trans (and_iff_right rfl)⟩
  | alloc sys v =>
      obtain ⟨r', hr', rfl⟩ := Option.map_eq_some_iff.mp e
      obtain ⟨r, hr, rfl⟩ := Option.map_eq_some_iff.mp hr'
      obtain ⟨hs, hg, hle, heq⟩ := hlayout hr ⟨rfl, rfl, rfl⟩ (Nat.le_succ _)
      exact ⟨hs, hg, hle, heq.trans ⟨fun hc => Nat.succ_ne_self _ hc.1, False.elim⟩⟩
  | allocSliceCopy sys sl =>
      obtain ⟨r', hr', rfl⟩ := Option.map_eq_some_iff.mp e
      unfold Arena.allocSliceCopy at hr'
      simp only [Grab.Absorbed]
      split at hr'
      · rename_i hnone
        cases hr'
        rw [hnone]
        exact ⟨h, .refl h.top, le_refl _, (fun _ l hl => by cases hl), fun _ => rfl⟩
      · rename_i layout hlay
        obtain ⟨r, hr, rfl⟩ := Option.map_eq_some_iff.mp hr'
        obtain ⟨hs, hg, hle, heq⟩ := hlayout hr ⟨rfl, rfl, rfl⟩ (Nat.le_refl _)
        rw [hlay]
        refine ⟨hs, hg, hle, heq.trans ⟨fun ha l hl => ?_, fun ha => ⟨rfl, ha layout rfl⟩⟩⟩
        cases hl
        exact ha.2

/-- A cut within the bounds. -/
theorem Arena.Sane.rewind (h : w.Sane) {cp : ArenaCheckpoint} (hcp : cp.chunkOffset ≤ 2 ^ 63)
    (e : w.rewindToCheckpoint cp = some w') : w'.Sane := by
  obtain ⟨hlt, rfl⟩ := Arena.rewindToCheckpoint_eq_some.mp e
  refine ⟨Gauge.top_cut hlt, fun c hc => ?_⟩
  obtain ⟨k, hk⟩ := List.mem_iff_getElem?.mp hc
  have hk' : (Chunk.gauge.cut w.inner.chunks cp.chunkIndex cp.chunkOffset)[k]? = some c := hk
  rw [Gauge.getElem?_cut, Option.map_eq_some_iff] at hk'
  obtain ⟨d, hd, rfl⟩ := hk'
  have hb := h.bounds d (List.mem_of_getElem? hd)
  split
  · exact hb
  · split
    · exact ⟨hcp, hb.2⟩
    · exact ⟨Nat.zero_le _, hb.2⟩

/-- The checkpoint of a scope entered now. -/
def Arena.here (w : Arena) : ArenaCheckpoint :=
  ⟨w.inner.currentChunk, w.inner.bump, w.inner.currentCheckpointId, w.allocationCounter⟩

theorem Arena.Sane.checkpoint (h : w.Sane) : w.checkpoint = some w.here := by
  obtain ⟨c, hc, hb⟩ := h.exists_current
  rw [Arena.checkpoint, hc, Arena.here, hb]
  rfl

theorem Arena.Sane.scopeEnter (h : w.Sane) :
    w.scopeEnter = some (w.here, w.allocationCounter) := by
  rw [Arena.scopeEnter, h.checkpoint]
  rfl

/-- The offset of the current chunk is within the bounds. -/
theorem Arena.Sane.bump_le (h : w.Sane) : w.inner.bump ≤ 2 ^ 63 := by
  obtain ⟨c, hc, hb⟩ := h.exists_current
  rw [hb]
  exact (h.bounds c (List.mem_of_getElem? hc)).1

/-- **The end of a scope whose closure has returned**: the arena stands where it stood. -/
theorem scopeExit_place {v : Arena} (h : w.Sane) (hv : v.Sane)
    (hg : Chunk.gauge.Grown w.inner.chunks w.inner.currentChunk v.inner.chunks) :
    ∃ v', v.scopeExit w.here w.allocationCounter = some v' ∧ v'.Sane ∧
      Chunk.gauge.Grown w.inner.chunks w.inner.currentChunk v'.inner.chunks ∧
      v'.place = w.place := by
  obtain ⟨v₁, hv₁⟩ : ∃ v₁, v.rewindToCheckpoint w.here = some v₁ :=
    ⟨_, Arena.rewindToCheckpoint_eq_some.mpr ⟨hg.lt_length, rfl⟩⟩
  have hsane := hv.rewind h.bump_le hv₁
  obtain ⟨_, rfl⟩ := Arena.rewindToCheckpoint_eq_some.mp hv₁
  have hexit := congrArg (Option.map fun w' : Arena =>
    { w' with allocationCounter := w.allocationCounter }) hv₁
  refine ⟨_, hexit, hsane.alike ⟨rfl, rfl, rfl⟩, hg.cut (Nat.le_refl _), ?_⟩
  obtain ⟨c, hc⟩ : ∃ c, v.inner.chunks[w.inner.currentChunk]? = some c :=
    ⟨_, List.getElem?_eq_getElem hg.lt_length⟩
  have hcut : (Chunk.gauge.cut v.inner.chunks w.inner.currentChunk w.inner.bump)[
      w.inner.currentChunk]? = some (c.setUsed w.inner.bump) := by
    rw [Gauge.getElem?_cut_self, hc]
    rfl
  have hpos := pos_eq (a := (v.withChunks (ArenaInner.rewindChunks v.inner.chunks w.here)
    w.here.chunkIndex).inner) hcut
  exact Prod.ext (congrArg toLex hpos) rfl

end Place

/-! ## 3. Running a tree -/

/-- An arena that stands on top of another one and at its place has the chunks the other had. -/
theorem getElem?_of_place {w v : Arena} (h : w.Sane) (hv : v.Sane)
    (hg : Chunk.gauge.Grown w.inner.chunks w.inner.currentChunk v.inner.chunks)
    (e : v.place = w.place) {k : Nat} {x : Chunk} (hx : w.inner.chunks[k]? = some x) :
    v.inner.chunks[k]? = some x := by
  have hpos : v.inner.pos = w.inner.pos := toLex.injective (congrArg Prod.fst e)
  have hcur : v.inner.currentChunk = w.inner.currentChunk := congrArg Prod.fst hpos
  have hbump : v.inner.bump = w.inner.bump := congrArg Prod.snd hpos
  obtain ⟨c, hc, hb⟩ := h.exists_current
  obtain ⟨d, hd, hdb⟩ := hv.exists_current
  -- the cut back to the old place changes nothing, and gives the old chunks
  obtain ⟨extra, hcut, _⟩ := hg.restore hc
  have hself : Chunk.gauge.cut v.inner.chunks v.inner.currentChunk d.used = v.inner.chunks :=
    Gauge.cut_self hv.top hd
  have hlevel : Chunk.gauge.level c = d.used := by
    show c.used = d.used
    rw [← hb, ← hdb, hbump]
  rw [hlevel, ← hcur, hself] at hcut
  rw [hcut, List.getElem?_append_left (List.getElem?_eq_some_iff.mp hx).1]
  exact hx

/-- There the same calls are absorbed. -/
theorem absorbed_of_place {w v : Arena} (h : w.Sane) (hv : v.Sane)
    (hg : Chunk.gauge.Grown w.inner.chunks w.inner.currentChunk v.inner.chunks)
    (e : v.place = w.place) (g : Grab) : g.Absorbed v ↔ g.Absorbed w := by
  have hpos : v.inner.pos = w.inner.pos := toLex.injective (congrArg Prod.fst e)
  have hcur : v.inner.currentChunk = w.inner.currentChunk := congrArg Prod.fst hpos
  obtain ⟨c, hc, _⟩ := h.exists_current
  have hd := getElem?_of_place h hv hg e hc
  rw [← hcur] at hd
  have hiff : ∀ l, v.Absorbs l ↔ w.Absorbs l := fun l =>
    (Arena.absorbs_iff hd).trans (Arena.absorbs_iff hc).symm
  cases g with
  | allocLayout sys l => exact hiff l
  | alloc sys v => exact Iff.rfl
  | allocSliceCopy sys sl => exact forall₂_congr fun l _ => hiff l

/-- What a body leaves: it stands on top of where it began, and at the same place exactly if every
    call that was kept is absorbed there. -/
structure Leaves (w : Arena) (r : Ended) : Prop where
  sane : r.arena.Sane
  grown : Chunk.gauge.Grown w.inner.chunks w.inner.currentChunk r.arena.inner.chunks
  le : w.place ≤ r.arena.place
  eq_iff : r.arena.place = w.place ↔ ∀ g ∈ r.kept, g.Absorbed w

theorem Leaves.refl {w : Arena} (h : w.Sane) (panicked : Bool) : Leaves w ⟨panicked, w, []⟩ :=
  ⟨h, .refl h.top, le_refl _, ⟨(fun _ _ hp => by cases hp), fun _ => rfl⟩⟩

theorem current_le_of_place {w w' : Arena} (h : w.place ≤ w'.place) :
    w.inner.currentChunk ≤ w'.inner.currentChunk := by
  rcases Prod.Lex.toLex_le_toLex.mp h.1 with h | h
  · exact Nat.le_of_lt h
  · exact Nat.le_of_eq h.1

theorem Leaves.trans {w : Arena} {r r' : Ended} (hw : w.Sane) (h : Leaves w r)
    (h' : Leaves r.arena r') : Leaves w { r' with kept := r.kept ++ r'.kept } := by
  refine ⟨h'.sane, h.grown.trans h'.grown (current_le_of_place h.le), h.le.trans h'.le, ?_⟩
  -- the place only goes up, so it is the old one only if it was so in between
  have hsplit : r'.arena.place = w.place ↔
      r.arena.place = w.place ∧ r'.arena.place = r.arena.place := by
    constructor
    · intro e
      have hmid : r.arena.place = w.place := le_antisymm (e ▸ h'.le) h.le
      exact ⟨hmid, e.trans hmid.symm⟩
    · exact fun e => e.2.trans e.1
  show r'.arena.place = w.place ↔ ∀ g ∈ r.kept ++ r'.kept, g.Absorbed w
  rw [hsplit, List.forall_mem_append, ← h.eq_iff]
  refine and_congr_right fun hmid => h'.eq_iff.trans (forall₂_congr fun g _ => ?_)
  exact absorbed_of_place hw h.sane h.grown hmid g

/-- **The induction over the tree**: a body runs in every sane arena. -/
theorem run_leaves (b : Body) : ∀ w : Arena, w.Sane → ∃ r, b.run w = some r ∧ Leaves w r := by
  induction b with
  | skip => exact fun w h => ⟨_, rfl, .refl h false⟩
  | panic => exact fun w h => ⟨_, rfl, .refl h true⟩
  | grab g =>
      intro w h
      unfold Body.run
      cases e : w.grab g with
      | none => exact ⟨_, rfl, .refl h true⟩
      | some w' =>
          obtain ⟨hs, hg, hle, heq⟩ := h.grab e
          exact ⟨_, rfl, hs, hg, hle, heq.trans List.forall_mem_singleton.symm⟩
  | seq a b iha ihb =>
      intro w h
      obtain ⟨r, hr, hl⟩ := iha w h
      unfold Body.run
      rw [hr, Option.bind_some]
      by_cases hp : r.panicked = true
      · rw [if_pos hp]
        exact ⟨r, rfl, hl⟩
      · obtain ⟨r', hr', hl'⟩ := ihb r.arena hl.sane
        rw [if_neg hp, hr']
        exact ⟨_, rfl, hl.trans h hl'⟩
  | scope catches body ih =>
      intro w h
      obtain ⟨r, hr, hl⟩ := ih w h
      unfold Body.run
      rw [h.scopeEnter, Option.bind_some, hr, Option.bind_some]
      by_cases hp : r.panicked = true
      · -- nothing is undone: the scope leaves what its closure left
        rw [if_pos hp]
        exact ⟨_, rfl, hl.sane, hl.grown, hl.le, hl.eq_iff⟩
      · obtain ⟨v, hv, hs, hg, hplace⟩ := scopeExit_place h hl.sane hl.grown
        rw [if_neg hp, hv]
        exact ⟨_, rfl, hs, hg, hplace.ge, (fun _ _ hq => by cases hq), fun _ => hplace⟩

/-- Standing on top of an arena and at its place is having what it had. -/
theorem Leaves.restored_iff {w : Arena} {r : Ended} (h : w.Sane) (hl : Leaves w r) :
    w.Restored r.arena ↔ r.arena.place = w.place := by
  obtain ⟨c, hc, hb⟩ := h.exists_current
  constructor
  · rintro ⟨hcur, hused, hcount⟩
    obtain ⟨c', hc', heq⟩ := hused _ c hc
    have hpos : r.arena.inner.pos = w.inner.pos := by
      rw [pos_eq hc, pos_eq (hcur ▸ hc'), hcur, heq]
    exact Prod.ext (congrArg toLex hpos) hcount
  · intro e
    have hpos : r.arena.inner.pos = w.inner.pos := toLex.injective (congrArg Prod.fst e)
    have hcur : r.arena.inner.currentChunk = w.inner.currentChunk := congrArg Prod.fst hpos
    exact ⟨hcur, fun k x hx => ⟨x, getElem?_of_place h hl.sane hl.grown e hx, rfl⟩,
      congrArg Prod.snd e⟩

/-! ## 4. Every reachable state -/

/-- The arena is sane, and so is every position it may still be rewound to. -/
structure Sess.Sane (s : Sess) : Prop where
  arena : s.arena.Sane
  pending : ∀ m ∈ s.pending, m.1.chunkOffset ≤ 2 ^ 63

section Reach

variable {s s' : Sess} {w : Arena}

/-- One more position, the present one. -/
theorem Sess.Sane.stake (h : s.Sane) (harena : s'.arena.Sane)
    (hp : ∀ m ∈ s'.pending, m ∈ s.pending ∨ m = (s.arena.here, s.ledger.log.length)) :
    s'.Sane := by
  refine ⟨harena, fun m hm => ?_⟩
  rcases hp m hm with hm | rfl
  · exact h.pending m hm
  · exact h.arena.bump_le

theorem Sess.Sane.back (h : s.Sane) (hw : w.Sane) (n k : Nat) : (s.back w n k).Sane := by
  refine ⟨hw, fun m hm => ?_⟩
  obtain ⟨m', hm', rfl⟩ := mem_pending_back hm
  exact h.pending m' hm'

/-- An arena emptied down to some of its chunks, the first among them. -/
theorem Arena.Sane.emptied (h : w.Sane) {w' : Arena} {n : Nat} (hn : 0 < n)
    (hc : w'.inner.chunks = (w.inner.chunks.map Chunk.reset).take n)
    (hcur : w'.inner.currentChunk = 0) : w'.Sane := by
  have hpos : 0 < w.inner.chunks.length := Nat.lt_of_le_of_lt (Nat.zero_le _) h.top.lt
  have hmem : ∀ c ∈ w'.inner.chunks, ∃ d ∈ w.inner.chunks, c = d.reset := by
    intro c hc'
    rw [hc] at hc'
    obtain ⟨d, hd, rfl⟩ := List.mem_map.mp (List.mem_of_mem_take hc')
    exact ⟨d, hd, rfl⟩
  refine ⟨⟨?_, fun k c _ hk => ?_⟩, fun c hc' => ?_⟩
  · rw [hcur, hc, List.length_take, List.length_map]
    omega
  · obtain ⟨d, _, rfl⟩ := hmem c (List.mem_of_getElem? hk)
    rfl
  · obtain ⟨d, hd, rfl⟩ := hmem c hc'
    exact ⟨Nat.zero_le _, (h.bounds d hd).2⟩

/-- **One operation keeps the session sane**, whether its scopes fit or not. -/
theorem Sess.Sane.exec (h : s.Sane) {op : Op} (e : s.exec op = some s') : s'.Sane := by
  cases s.exec_acts e with
  | take _ ha ea => exact ⟨(h.arena.allocLayout ha).1.alike ea, h.pending⟩
  | skip _ => exact h
  | mark hcp =>
      rw [h.arena.checkpoint] at hcp
      cases hcp
      exact h.stake h.arena fun m hm => mem_pending_mark hm
  | push hcp ea =>
      rw [h.arena.checkpoint] at hcp
      cases hcp
      exact h.stake (h.arena.alike ea) fun m hm => mem_pending_mark hm
  | clear => exact ⟨h.arena.alike ⟨rfl, rfl, rfl⟩, h.pending⟩
  | @rewind i m w hm hw =>
      have hmem := h.pending m (List.mem_append_left _ (List.mem_of_getElem? hm))
      exact h.back (h.arena.rewind hmem hw) _ _
  | enter hcp =>
      rw [h.arena.checkpoint] at hcp
      cases hcp
      exact h.stake h.arena fun m hm => mem_pending_enter hm
  | @exit sc outer w w' hsc hw ea =>
      obtain ⟨hcp, hmem⟩ := mem_pending_close hsc
      have hout : Sess.Sane { s with scopes := outer } :=
        ⟨h.arena, fun m hm => h.pending m (hmem m hm)⟩
      exact hout.back ((h.arena.rewind (h.pending _ hcp) hw).alike ea) _ _
  | reset =>
      have hlen : 0 < s.arena.inner.chunks.length :=
        Nat.lt_of_le_of_lt (Nat.zero_le _) h.arena.top.lt
      have hall : (s.arena.inner.chunks.map Chunk.reset).take s.arena.inner.chunks.length =
          s.arena.inner.chunks.map Chunk.reset :=
        List.take_of_length_le (Nat.le_of_eq (List.length_map _))
      exact h.back (h.arena.emptied hlen hall.symm rfl) _ _
  | shrink => exact h.back (h.arena.emptied Nat.one_pos rfl rfl) _ _

/-- **Every reachable state is sane.** -/
theorem reach_sane (h : machine.Reach s) : s.Sane := by
  refine h.inv (P := Sess.Sane) (fun s (hs : s.Init) => ?_) fun s op s' hs _ e => hs.exec e
  have hl := hs.live
  obtain ⟨_, _, _, _, hledger, hscopes⟩ := hs
  refine ⟨⟨hl.shape.top, fun c hc => ?_⟩, fun m hm => ?_⟩
  · have hok := hl.shape.chunks c hc
    have := hok.used
    have := hok.capacity
    omega
  · rw [Sess.pending, hledger, hscopes] at hm
    cases hm

end Reach

/-! ## 5. Results -/

/-- **Scopes of the legacy arena**: in every reachable state and for every closure, `scope` runs;
    current chunk, offsets and counter are then what they were before it exactly if the closure
    returned, or each call it left, outside of scopes that ended in it, is absorbed at the place
    where the scope began: an empty block or slice at an offset that is aligned for it and within
    the capacity, or a slice without a layout. -/
theorem scope_restores_iff {s : Sess} (h : machine.Reach s) (catches : Bool) (body : Body) :
    ∃ b r, body.run s.arena = some b ∧ (Body.scope catches body).run s.arena = some r ∧
      (s.arena.Restored r.arena ↔
        b.panicked = false ∨ ∀ g ∈ b.kept, g.Absorbed s.arena) := by
  have hs := (reach_sane h).arena
  obtain ⟨b, hb, hlb⟩ := run_leaves body s.arena hs
  obtain ⟨r, hr, hlr⟩ := run_leaves (.scope catches body) s.arena hs
  refine ⟨b, r, hb, hr, ?_⟩
  rw [hlr.restored_iff hs, hlr.eq_iff]
  unfold Body.run at hr
  rw [hs.scopeEnter, Option.bind_some, hb, Option.bind_some] at hr
  by_cases hp : b.panicked = true
  · rw [if_pos hp] at hr
    cases hr
    exact ⟨Or.inr, fun h => h.resolve_left (by rw [hp]; decide)⟩
  · rw [if_neg hp] at hr
    obtain ⟨w', _, rfl⟩ := Option.map_eq_some_iff.mp hr
    exact ⟨fun _ => Or.inl (Bool.not_eq_true _ ▸ hp), (fun _ _ hq => by cases hq)⟩

/-- A closure that goes on after an inner scope has panicked, and returns; and one that copies an
    empty slice and panics. -/
theorem scope_restores_caught :
    (∃ v : Value, v.layout.size = 1 ∧ ∃ r,
      (Body.scope false (.seq (.grab (.alloc none v))
        (.seq (.scope true (.seq (.grab (.alloc none v)) .panic)) (.grab (.alloc none v))))).run
          Sess.small.arena = some r ∧ Sess.small.arena.Restored r.arena) ∧
    ∃ sl : Slice, sl.elem.align = 2 ∧ ∃ r,
      (Body.scope true (.seq (.grab (.allocSliceCopy none sl)) .panic)).run
          Sess.small.arena = some r ∧ Sess.small.arena.Restored r.arena := by
  refine ⟨⟨⟨.byte, [42], rfl⟩, rfl, ?_⟩,
    ⟨⟨2, 2, ⟨1, rfl⟩, by decide⟩, 0, [], rfl⟩, rfl, ?_⟩
  · obtain ⟨b, r, hb, hr, hiff⟩ := scope_restores_iff (.init Sess.init_small) false
      (.seq (.grab (.alloc none ⟨.byte, [42], rfl⟩))
        (.seq (.scope true (.seq (.grab (.alloc none ⟨.byte, [42], rfl⟩))
          .panic)) (.grab (.alloc none ⟨.byte, [42], rfl⟩))))
    refine ⟨r, hr, hiff.mpr (Or.inl ?_)⟩
    cases hb
    rfl
  · obtain ⟨b, r, hb, hr, hiff⟩ := scope_restores_iff (.init Sess.init_small) true
      (.seq (.grab (.allocSliceCopy none ⟨⟨2, 2, ⟨1, rfl⟩, by decide⟩, 0, [], rfl⟩)) .panic)
    refine ⟨r, hr, hiff.mpr (Or.inr fun g hg => ?_)⟩
    cases hb
    rw [List.mem_singleton.mp hg]
    intro l hl c hc
    cases hl
    cases hc
    exact ⟨rfl, by decide, by decide⟩

/-- **A panic leaves what the closures allocated**, at every level: the arena was empty before. -/
theorem scope_leaks : ∃ v : Value, v.layout.size = 1 ∧
    (∃ r, (Body.scope true (.seq (.grab (.alloc none v)) .panic)).run Sess.small.arena = some r ∧
      r.arena.allocationCounter = 1 ∧ r.arena.inner.chunks.map Chunk.used = [1] ∧
      ¬ Sess.small.arena.Restored r.arena) ∧
    ∃ r, (Body.scope true (.seq (.grab (.alloc none v))
        (.scope false (.seq (.grab (.alloc none v)) .panic)))).run Sess.small.arena = some r ∧
      r.arena.allocationCounter = 2 ∧ r.arena.inner.chunks.map Chunk.used = [2] ∧
      ¬ Sess.small.arena.Restored r.arena := by
  refine ⟨⟨.byte, [42], rfl⟩, rfl, ⟨_, rfl, rfl, by decide, fun h => ?_⟩,
    ⟨_, rfl, rfl, by decide, fun h => ?_⟩⟩
  · exact absurd h.count (by decide)
  · exact absurd h.count (by decide)

end ArenaB.Legacy
