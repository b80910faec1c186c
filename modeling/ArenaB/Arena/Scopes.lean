/-
  File:      ArenaB/Arena/Scopes.lean
  Subject:   The end of a scope: the two asserts of the rewind in `Drop for Scope`.

  A `Scope` keeps its checkpoint to itself, so nothing that happens inside can take it back. The
  asserts ask for the chunk the checkpoint points into: that it exists and that the offset is
  within its capacity. Allocations and rewinds take no chunk away; `reset_and_shrink_to_fit`,
  which needs no more than `&Arena`, takes all but the first.

  * `scopeRuns f` -- an arena in any reachable state and the scopes opened since, in a build with
    the features `f`. Scopes may end in any order: the ones around a panic end as it unwinds;
  * `Grounded` -- the condition on a step: a shrinking reset finds no open scope that began behind
    the first chunk;
  * **`scope_ends`** -- in runs whose steps all meet it both asserts hold whenever a scope ends or
    is reset, and right after a step that does not meet it the first one fails for an open scope.
    `scope_end_panics` has a run for each assert.
-/
import ArenaB.Arena.Serve

namespace ArenaB

open Base

/-! ## 1. Runs -/

/-- An arena and the checkpoints of the scopes that are open. -/
structure Scoped where
  arena : Arena
  scopes : List ArenaCheckpoint

/-- The safe calls on `&Arena` and `&Scope`; a scope is named by its position among the open
    ones. -/
inductive ScopeOp where
  /-- Every allocation, of the arena or of a scope, is an `allocate_raw`. -/
  | alloc (sys : Option Nat) (layout : Layout)
  | checkpoint
  | pushCheckpoint
  | clearCheckpoints
  | resetAndShrinkToFit
  | scopeNew
  | scopeReset (k : Nat)
  | scopeDrop (k : Nat)

namespace Scoped

/-- One call; `none` is a panic, or the abort of an allocation that fails. -/
def exec (debug : Bool) (s : Scoped) : ScopeOp → Option Scoped
  | .alloc sys layout => (s.arena.allocateRaw sys layout).map fun r => { s with arena := r.2 }
  | .checkpoint => s.arena.checkpoint.map fun r => { s with arena := r.2 }
  | .pushCheckpoint => s.arena.pushCheckpoint.map fun r => { s with arena := r.2 }
  | .clearCheckpoints => some { s with arena := s.arena.clearCheckpoints }
  | .resetAndShrinkToFit => some { s with arena := s.arena.resetAndShrinkToFit }
  | .scopeNew => s.arena.checkpoint.map fun r => ⟨r.2, s.scopes ++ [r.1]⟩
  | .scopeReset k =>
      s.scopes[k]?.bind fun cp =>
        (s.arena.rewindToCheckpoint debug cp).map fun w => { s with arena := w }
  | .scopeDrop k =>
      s.scopes[k]?.bind fun cp =>
        (s.arena.rewindToCheckpoint debug cp).map fun w => ⟨w, s.scopes.eraseIdx k⟩

end Scoped

/-- The block the system allocator stands ready to return to a call. -/
def ScopeOp.block : ScopeOp → Option Span
  | .alloc sys layout => sys.map (growthBlock · layout.size)
  | _ => none

/-- The runs that start with an arena in any reachable state and no open scope. -/
def scopeRuns (f : Features) : System Scoped ScopeOp where
  init s := ∃ t : Sess, (machine f).Reach t ∧ s = ⟨t.arena, []⟩
  ok s op := ∀ blk ∈ op.block, s.arena.inner.Fresh blk
  step s op := s.exec f.debug op

instance (f : Features) (s : Scoped) (op : ScopeOp) : Decidable ((scopeRuns f).ok s op) :=
  inferInstanceAs (Decidable (∀ blk ∈ op.block, s.arena.inner.Fresh blk))

/-- A shrinking reset finds every open scope in the first chunk. -/
def Grounded (s : Scoped) : ScopeOp → Prop
  | .resetAndShrinkToFit => ∀ cp ∈ s.scopes, cp.chunkIndex = 0
  | _ => True

instance (s : Scoped) : (op : ScopeOp) → Decidable (Grounded s op)
  | .resetAndShrinkToFit => inferInstanceAs (Decidable (∀ cp ∈ s.scopes, cp.chunkIndex = 0))
  | .alloc _ _ => isTrue trivial
  | .checkpoint => isTrue trivial
  | .pushCheckpoint => isTrue trivial
  | .clearCheckpoints => isTrue trivial
  | .scopeNew => isTrue trivial
  | .scopeReset _ => isTrue trivial
  | .scopeDrop _ => isTrue trivial

/-! ## 2. The asserts -/

namespace ArenaInner

/-- Both asserts of `rewind_to_checkpoint`. -/
def Asserts (a : ArenaInner) (cp : ArenaCheckpoint) : Prop :=
  ∃ t, a.spans[cp.chunkIndex]? = some t ∧ cp.chunkOffset ≤ t.len

variable {a a' : ArenaInner} {cp : ArenaCheckpoint}

theorem asserts_iff : a.Asserts cp ↔
    ∃ c, a.chunks[cp.chunkIndex]? = some c ∧ cp.chunkOffset ≤ c.capacity := by
  unfold Asserts spans
  rw [List.getElem?_map]
  constructor
  · intro h
    obtain ⟨t, ht, hle⟩ := h
    obtain ⟨c, hc, rfl⟩ := Option.map_eq_some_iff.mp ht
    exact ⟨c, hc, hle⟩
  · intro h
    obtain ⟨c, hc, hle⟩ := h
    exact ⟨c.span, Option.map_eq_some_iff.mpr ⟨c, hc, rfl⟩, hle⟩

/-- A rewind whose asserts hold goes through. -/
theorem Asserts.rewind (h : a.Asserts cp) (debug : Bool) :
    ∃ a', a.rewindToCheckpoint debug cp = some a' :=
  ⟨_, rewind_eq_some.mpr ⟨asserts_iff.mp h, rfl⟩⟩

theorem Asserts.more (h : a.Asserts cp) {blk : Option Span}
    (hm : MoreSpans blk a.spans a'.spans) : a'.Asserts cp := by
  obtain ⟨t, ht, hle⟩ := h
  exact ⟨t, hm.getElem? ht, hle⟩

/-- The first chunk outlives a shrinking reset. -/
theorem Asserts.shrink (h : a.Asserts cp) (h0 : cp.chunkIndex = 0)
    (hs : a'.spans = a.spans.take 1) : a'.Asserts cp := by
  obtain ⟨t, ht, hle⟩ := h
  refine ⟨t, ?_, hle⟩
  rw [hs, List.getElem?_take, if_pos (by omega)]
  exact ht

/-- They hold for a checkpoint just taken. -/
theorem asserts_checkpoint (hs : a.Shape) (e : a.checkpoint = some (cp, a')) : a'.Asserts cp := by
  have hsp := checkpoint_spans e
  obtain ⟨c, hc, hoff, hok⟩ := (within_checkpoint hs e).exists_chunk hs
  have h : a.Asserts cp := asserts_iff.mpr ⟨c, hc, hoff.trans hok.used⟩
  obtain ⟨t, ht, hle⟩ := h
  exact ⟨t, by rw [hsp]; exact ht, hle⟩

end ArenaInner

/-! ## 3. What a run keeps -/

namespace Scoped

/-- The arena is in shape and every open scope could end now. -/
structure Inv (s : Scoped) : Prop where
  shape : s.arena.inner.Shape
  asserts : ∀ cp ∈ s.scopes, s.arena.inner.Asserts cp

variable {s s' : Scoped} {w : Arena} {cps : List ArenaCheckpoint}

/-- A call that takes no block away and opens no scope. -/
theorem Inv.more (h : s.Inv) (hs : w.inner.Shape) {blk : Option Span}
    (hm : MoreSpans blk s.arena.inner.spans w.inner.spans) (hsub : cps ⊆ s.scopes) :
    Inv ⟨w, cps⟩ :=
  ⟨hs, fun cp hcp => (h.asserts cp (hsub hcp)).more hm⟩

/-- A call that keeps the blocks and opens no scope. -/
theorem Inv.same (h : s.Inv) (hs : w.inner.Shape) (hsp : w.inner.spans = s.arena.inner.spans)
    (hsub : cps ⊆ s.scopes) : Inv ⟨w, cps⟩ := by
  have hm : MoreSpans none s.arena.inner.spans w.inner.spans := Or.inl hsp
  exact h.more hs hm hsub

theorem checkpoint_shape (h : s.Inv) {cp : ArenaCheckpoint} {a' : ArenaInner}
    (e : s.arena.inner.checkpoint = some (cp, a')) : a'.Shape := by
  rw [ArenaInner.checkpoint_eq h.shape] at e
  cases e
  exact ⟨h.shape.top, h.shape.chunks⟩

theorem Inv.rewind (h : s.Inv) {debug : Bool} {cp : ArenaCheckpoint}
    (e : s.arena.rewindToCheckpoint debug cp = some w) (hsub : cps ⊆ s.scopes) :
    Inv ⟨w, cps⟩ := by
  obtain ⟨a', ha, rfl⟩ := Option.map_eq_some_iff.mp e
  exact h.same ((Arena.same_resetBuffer _).shape (h.shape.rewind ha))
    (Arena.rewind_spans s.arena ha) hsub

/-- **One call keeps every open scope able to end**, if it is grounded. -/
theorem Inv.step (h : s.Inv) {debug : Bool} {op : ScopeOp} (hg : Grounded s op)
    (e : s.exec debug op = some s') : s'.Inv := by
  cases op with
  | alloc sys l =>
      obtain ⟨⟨p, w'⟩, hw, rfl⟩ := Option.map_eq_some_iff.mp e
      exact h.more (Arena.allocateRaw_grows h.shape hw).1 (Arena.allocateRaw_spans h.shape hw)
        (List.Subset.refl _)
  | checkpoint =>
      obtain ⟨r, hr, rfl⟩ := Option.map_eq_some_iff.mp e
      obtain ⟨⟨cp, a'⟩, hcp, rfl⟩ := Option.map_eq_some_iff.mp hr
      exact h.same (checkpoint_shape h hcp) (ArenaInner.checkpoint_spans hcp) (List.Subset.refl _)
  | pushCheckpoint =>
      obtain ⟨r, hr, rfl⟩ := Option.map_eq_some_iff.mp e
      obtain ⟨r', hr', rfl⟩ := Option.map_eq_some_iff.mp hr
      obtain ⟨⟨cp, a'⟩, hcp, rfl⟩ := Option.map_eq_some_iff.mp hr'
      have hs := checkpoint_shape h hcp
      exact h.same ⟨hs.top, hs.chunks⟩ (ArenaInner.checkpoint_spans hcp) (List.Subset.refl _)
  | clearCheckpoints =>
      cases e
      exact h.same ⟨h.shape.top, h.shape.chunks⟩ rfl (List.Subset.refl _)
  | resetAndShrinkToFit =>
      cases e
      refine ⟨Arena.resetAndShrinkToFit_shape h.shape, fun cp hcp => ?_⟩
      exact (h.asserts cp hcp).shrink (hg cp hcp) (Arena.resetAndShrinkToFit_spans _)
  | scopeNew =>
      obtain ⟨r, hr, rfl⟩ := Option.map_eq_some_iff.mp e
      obtain ⟨⟨cp, a'⟩, hcp, rfl⟩ := Option.map_eq_some_iff.mp hr
      have hold : Inv ⟨s.arena.withInner a', s.scopes⟩ :=
        h.same (checkpoint_shape h hcp) (ArenaInner.checkpoint_spans hcp) (List.Subset.refl _)
      refine ⟨hold.shape, fun c hc => ?_⟩
      rcases List.mem_append.mp hc with hc | hc
      · exact hold.asserts c hc
      · rw [List.mem_singleton.mp hc]
        exact ArenaInner.asserts_checkpoint h.shape hcp
  | scopeReset k =>
      obtain ⟨cp, _, e⟩ := Option.bind_eq_some_iff.mp e
      obtain ⟨w, hw, rfl⟩ := Option.map_eq_some_iff.mp e
      exact h.rewind hw (List.Subset.refl _)
  | scopeDrop k =>
      obtain ⟨cp, _, e⟩ := Option.bind_eq_some_iff.mp e
      obtain ⟨w, hw, rfl⟩ := Option.map_eq_some_iff.mp e
      exact h.rewind hw (List.eraseIdx_sublist _ _).subset

end Scoped

theorem reach_scopeRuns {f : Features} {s : Scoped} (h : ((scopeRuns f).under Grounded).Reach s) :
    s.Inv := by
  refine h.inv (P := Scoped.Inv) (fun s hi => ?_) fun s op s' hs hok e => ?_
  · obtain ⟨t, ht, rfl⟩ := hi
    exact ⟨(reach_stackOk ht).shape, fun _ h => by cases h⟩
  · exact hs.step hok.2 e

/-- **Scopes end**: started with an arena in any reachable state, in every run whose shrinking
    resets find no open scope that began behind the first chunk, both asserts hold for every open
    scope at any time; so neither its end nor `Scope::reset` panics. Right after a shrinking reset
    that does find one, the first assert fails for it. -/
theorem scope_ends (f : Features) {s : Scoped} (h : ((scopeRuns f).under Grounded).Reach s) :
    (∀ k cp, s.scopes[k]? = some cp →
      (∃ c, s.arena.inner.chunks[cp.chunkIndex]? = some c ∧ cp.chunkOffset ≤ c.capacity) ∧
      (∃ s', s.exec f.debug (.scopeDrop k) = some s') ∧
      ∃ s', s.exec f.debug (.scopeReset k) = some s') ∧
    ∀ op s', (scopeRuns f).step s op = some s' → ¬ Grounded s op →
      ∃ cp ∈ s'.scopes, s'.arena.inner.chunks[cp.chunkIndex]? = none ∧
        s'.arena.rewindToCheckpoint f.debug cp = none := by
  have hinv := reach_scopeRuns h
  refine ⟨fun k cp hk => ?_, fun op s' e hg => ?_⟩
  · have hcp := hinv.asserts cp (List.mem_of_getElem? hk)
    obtain ⟨a', ha⟩ := hcp.rewind f.debug
    refine ⟨ArenaInner.asserts_iff.mp hcp, ?_, ?_⟩
    · simp [Scoped.exec, hk, Arena.rewindToCheckpoint, ha]
    · simp [Scoped.exec, hk, Arena.rewindToCheckpoint, ha]
  · cases op with
    | resetAndShrinkToFit =>
        cases e
        obtain ⟨cp, hcp, hne⟩ : ∃ cp ∈ s.scopes, cp.chunkIndex ≠ 0 := by
          simpa [Grounded] using hg
        have hnone : s.arena.resetAndShrinkToFit.inner.chunks[cp.chunkIndex]? = none := by
          refine List.getElem?_eq_none ?_
          show ((s.arena.inner.chunks.take 1).map _).length ≤ cp.chunkIndex
          rw [List.length_map, List.length_take]
          omega
        refine ⟨cp, hcp, hnone, ?_⟩
        simp [Arena.rewindToCheckpoint, ArenaInner.rewindToCheckpoint, hnone]
    | alloc sys l => exact absurd trivial hg
    | checkpoint => exact absurd trivial hg
    | pushCheckpoint => exact absurd trivial hg
    | clearCheckpoints => exact absurd trivial hg
    | scopeNew => exact absurd trivial hg
    | scopeReset k => exact absurd trivial hg
    | scopeDrop k => exact absurd trivial hg

/-- The start of `Sess.small`, without open scopes. -/
def Scoped.small : Scoped := ⟨(Sess.small none).arena, []⟩

theorem Scoped.init_small (debug : Bool) : (scopeRuns ⟨debug, false⟩).init Scoped.small :=
  ⟨_, .init (Sess.init_small debug), rfl⟩

/-- Two scopes, of which the inner one is reset and then opens a chunk; the outer one began in the
    first chunk, and the arena is shrunk after the inner one has ended. -/
theorem scope_ends_nested : ∃ s, ((scopeRuns ⟨false, false⟩).under Grounded).Reach s ∧
    (s.scopes.length = 1 ∧ s.arena.inner.chunks.length = 2) ∧
    ∃ s', s.exec false (.scopeDrop 0) = some s' := by
  obtain ⟨s, hr, hlen, hchunks⟩ := System.exists_reach_of_replay
    ((scopeRuns ⟨false, false⟩).under Grounded)
    [.alloc none .word, .scopeNew, .scopeNew,
      .alloc none ⟨16, 8, ⟨3, rfl⟩, by decide⟩, .scopeReset 1,
      .alloc (some 16384) ⟨100, 1, ⟨0, rfl⟩, by decide⟩, .pushCheckpoint, .clearCheckpoints,
      .scopeDrop 1, .resetAndShrinkToFit, .checkpoint,
      .alloc (some 16384) ⟨100, 1, ⟨0, rfl⟩, by decide⟩]
    (P := fun s => s.scopes.length = 1 ∧ s.arena.inner.chunks.length = 2)
    (Scoped.init_small false) (by decide)
  have hget := List.getElem?_eq_getElem (by omega : 0 < s.scopes.length)
  exact ⟨s, hr, ⟨hlen, hchunks⟩, ((scope_ends ⟨false, false⟩ hr).1 0 _ hget).2.1⟩

/-- A scope that begins in the second chunk, and a shrinking reset inside: the chunk is gone when
    the scope ends; or a smaller one has taken its place. -/
theorem scope_end_panics :
    (∃ s cp, (scopeRuns ⟨false, false⟩).Reach s ∧ s.scopes = [cp] ∧
      s.arena.inner.chunks[cp.chunkIndex]? = none ∧ (s.exec false (.scopeDrop 0)).isNone) ∧
    ∃ s cp, (scopeRuns ⟨false, false⟩).Reach s ∧ s.scopes = [cp] ∧
      (s.arena.inner.chunks[cp.chunkIndex]?.any fun c => c.capacity < cp.chunkOffset) ∧
      (s.exec false (.scopeDrop 0)).isNone := by
  refine ⟨?_, ?_⟩
  · obtain ⟨s, hr, h1, h2, h3⟩ := System.exists_reach_of_replay (scopeRuns ⟨false, false⟩)
      [.alloc (some 16384) ⟨100, 1, ⟨0, rfl⟩, by decide⟩, .scopeNew, .resetAndShrinkToFit]
      (P := fun s => s.scopes = [⟨1, 100, 0, 1⟩] ∧ s.arena.inner.chunks[1]? = none ∧
        (s.exec false (.scopeDrop 0)).isNone = true)
      (Scoped.init_small false) (by decide)
    exact ⟨s, _, hr, h1, h2, h3⟩
  · obtain ⟨s, hr, h1, h2, h3⟩ := System.exists_reach_of_replay (scopeRuns ⟨false, false⟩)
      [.alloc (some 16384) ⟨5000, 1, ⟨0, rfl⟩, by decide⟩, .scopeNew, .resetAndShrinkToFit,
        .alloc (some 16384) ⟨100, 1, ⟨0, rfl⟩, by decide⟩]
      (P := fun s => s.scopes = [⟨1, 5000, 0, 1⟩] ∧
        (s.arena.inner.chunks[1]?.any fun c => c.capacity < 5000) = true ∧
        (s.exec false (.scopeDrop 0)).isNone = true)
      (Scoped.init_small false) (by decide)
    exact ⟨s, _, hr, h1, h2, h3⟩

end ArenaB
