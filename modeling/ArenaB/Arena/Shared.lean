/-
  File:      ArenaB/Arena/Shared.lean
  Subject:   Callers that hold only `&Arena`: what their references may still reach.

  The safe methods of a shared arena can rewind it (at the end of a scope, in `Scope::reset`) and
  truncate it (`reset_and_shrink_to_fit`), while the types keep references alive: what `Arena`
  returned is usable for as long as the arena is borrowed, what a `Scope` returned until that
  scope ends.

  * `Shared` -- the arena, the open scopes, the usable allocations, each with the scope that
    returned it; `shared` -- the runs of a default build;
  * `Spared` -- the condition on a step: what stays usable ends before the checkpoint that is
    rewound to, and a truncation finds nothing usable;
  * **`shared_sound`** -- in runs whose steps all meet it, the usable allocations are pairwise
    apart and lie below the offset of a chunk that exists. `shared_unsound`: other runs break this.
-/
import ArenaB.Arena.Live

namespace ArenaB

open Base

/-! ## 1. Runs -/

/-- An allocation that may still be used: who returned it (`none` is the arena itself, otherwise
    the scope at that depth) and where it is. -/
structure Usable where
  owner : Option Nat
  span : Span
  deriving DecidableEq, Repr

/-- A shared arena, the checkpoints of the open scopes from the outermost on, what is usable. -/
structure Shared where
  arena : Arena
  scopes : List ArenaCheckpoint
  usable : List Usable

/-- The safe calls on `&Arena` and `&Scope`. -/
inductive SharedOp where
  /-- `alloc`, `alloc_str`, `alloc_slice_copy`, ..., `allocate_raw`, of the arena or a scope. -/
  | alloc (owner : Option Nat) (sys : Option Nat) (layout : Layout)
  /-- The caller is done with the `i`th allocation. -/
  | forget (i : Nat)
  | checkpoint
  | pushCheckpoint
  | clearCheckpoints
  | resetAndShrinkToFit
  | scopeNew
  /-- The innermost closure returns or unwinds. -/
  | scopeDrop
  /-- `Scope::reset`, by a caller who no longer uses what that scope returned. -/
  | scopeReset (k : Nat)

namespace Shared

/-- What stays usable without the references of the scope at depth `k`. -/
def without (s : Shared) (k : Nat) : List Usable := s.usable.filter fun u => u.owner ≠ some k

/-- The arena rewound to a scope's checkpoint; a failed assert panics before anything changes. -/
def rewound (s : Shared) (cp : ArenaCheckpoint) : Arena :=
  (s.arena.rewindToCheckpoint false cp).getD s.arena

/-- One call. -/
def exec (s : Shared) : SharedOp → Option Shared
  | .alloc owner sys layout =>
      if owner.all (· < s.scopes.length) then
        (s.arena.allocateRaw sys layout).map fun r =>
          ⟨r.2, s.scopes, s.usable ++ [⟨owner, r.1, layout.size⟩]⟩
      else none
  | .forget i => some { s with usable := s.usable.eraseIdx i }
  | .checkpoint => s.arena.checkpoint.map fun r => { s with arena := r.2 }
  | .pushCheckpoint => s.arena.pushCheckpoint.map fun r => { s with arena := r.2 }
  | .clearCheckpoints => some { s with arena := s.arena.clearCheckpoints }
  | .resetAndShrinkToFit => some { s with arena := s.arena.resetAndShrinkToFit }
  | .scopeNew => s.arena.checkpoint.map fun r => ⟨r.2, s.scopes ++ [r.1], s.usable⟩
  | .scopeDrop =>
      s.scopes.getLast?.map fun cp =>
        ⟨s.rewound cp, s.scopes.dropLast, s.without (s.scopes.length - 1)⟩
  | .scopeReset k => s.scopes[k]?.map fun cp => ⟨s.rewound cp, s.scopes, s.without k⟩

end Shared

/-- The block the system allocator stands ready to return to a call. -/
def SharedOp.block : SharedOp → Option Span
  | .alloc _ sys layout => sys.map (growthBlock · layout.size)
  | _ => none

/-- The runs of a default build that start with a new arena. -/
def shared : System Shared SharedOp where
  init s := ∃ t : Sess, t.Init ⟨false, false⟩ ∧ s = ⟨t.arena, [], []⟩
  ok s op := ∀ blk ∈ op.block, s.arena.inner.Fresh blk
  step := Shared.exec

instance (s : Shared) (op : SharedOp) : Decidable (shared.ok s op) :=
  inferInstanceAs (Decidable (∀ blk ∈ op.block, s.arena.inner.Fresh blk))

/-! ## 2. The condition -/

/-- The range ends before the checkpoint: in a chunk in front of the checkpoint's, or in the same
    chunk below the checkpoint's offset. -/
def EndsBefore (cs : List Chunk) (cp : ArenaCheckpoint) (t : Span) : Prop :=
  ∃ (k : Nat) (c : Chunk), cs[k]? = some c ∧ c.ptr ≤ t.base ∧
    (k < cp.chunkIndex ∧ t.fin ≤ c.ptr + c.used ∨
      k = cp.chunkIndex ∧ t.fin ≤ c.ptr + cp.chunkOffset)

/-- The allocations end before the checkpoint. -/
def Before (s : Shared) (cp : ArenaCheckpoint) (us : List Usable) : Prop :=
  ∀ u ∈ us, u.span.len ≠ 0 → EndsBefore s.arena.inner.chunks cp u.span

/-- What stays usable is out of reach of the step. -/
def Spared (s : Shared) : SharedOp → Prop
  | .resetAndShrinkToFit => ∀ u ∈ s.usable, u.span.len = 0
  | .scopeDrop => ∀ cp ∈ s.scopes.getLast?, Before s cp (s.without (s.scopes.length - 1))
  | .scopeReset k => ∀ cp ∈ s.scopes[k]?, Before s cp (s.without k)
  | _ => True

instance (cs : List Chunk) (cp : ArenaCheckpoint) (t : Span) : Decidable (EndsBefore cs cp t) :=
  decidable_of_iff (∃ x ∈ cs.zipIdx, x.1.ptr ≤ t.base ∧
    (x.2 < cp.chunkIndex ∧ t.fin ≤ x.1.ptr + x.1.used ∨
      x.2 = cp.chunkIndex ∧ t.fin ≤ x.1.ptr + cp.chunkOffset)) <| by
    constructor
    · rintro ⟨⟨c, k⟩, hx, h⟩
      exact ⟨k, c, List.mem_zipIdx_iff_getElem?.mp hx, h⟩
    · rintro ⟨k, c, hk, h⟩
      exact ⟨(c, k), List.mem_zipIdx_iff_getElem?.mpr hk, h⟩

instance (s : Shared) (cp : ArenaCheckpoint) (us : List Usable) : Decidable (Before s cp us) :=
  inferInstanceAs (Decidable (∀ u ∈ us, u.span.len ≠ 0 → EndsBefore _ cp u.span))

instance (s : Shared) : (op : SharedOp) → Decidable (Spared s op)
  | .resetAndShrinkToFit => inferInstanceAs (Decidable (∀ u ∈ s.usable, u.span.len = 0))
  | .scopeDrop => inferInstanceAs (Decidable (∀ cp ∈ s.scopes.getLast?, Before s cp _))
  | .scopeReset k => inferInstanceAs (Decidable (∀ cp ∈ s.scopes[k]?, Before s cp _))
  | .alloc _ _ _ => isTrue trivial
  | .forget _ => isTrue trivial
  | .checkpoint => isTrue trivial
  | .pushCheckpoint => isTrue trivial
  | .clearCheckpoints => isTrue trivial
  | .scopeNew => isTrue trivial

/-- What ends before the checkpoint is what a rewind to it leaves in place: the chunks behind the
    checkpoint's are empty then. -/
theorem inChunk_rewindChunks {cs : List Chunk} {cp : ArenaCheckpoint} {t : Span}
    (h0 : t.len ≠ 0) : InChunk (ArenaInner.rewindChunks cs cp) t ↔ EndsBefore cs cp t := by
  rw [ArenaInner.rewindChunks_eq]
  constructor
  · rintro ⟨k, c, hk, h1, h2⟩
    rcases Nat.lt_trichotomy k cp.chunkIndex with hlt | rfl | hgt
    · rw [Gauge.getElem?_cut_lt hlt] at hk
      exact ⟨k, c, hk, h1, Or.inl ⟨hlt, h2⟩⟩
    · rw [Gauge.getElem?_cut_self, Option.map_eq_some_iff] at hk
      obtain ⟨d, hd, rfl⟩ := hk
      exact ⟨_, d, hd, h1, Or.inr ⟨rfl, h2⟩⟩
    · rw [Gauge.getElem?_cut_gt hgt, Option.map_eq_some_iff] at hk
      obtain ⟨d, hd, rfl⟩ := hk
      have h1' : d.ptr ≤ t.base := h1
      have h2' : t.base + t.len ≤ d.ptr + 0 := h2
      omega
  · rintro ⟨k, c, hk, h1, ⟨hlt, h2⟩ | ⟨rfl, h2⟩⟩
    · exact ⟨k, c, (Gauge.getElem?_cut_lt hlt).trans hk, h1, h2⟩
    · refine ⟨cp.chunkIndex, c.setUsed cp.chunkOffset, ?_, h1, h2⟩
      rw [Gauge.getElem?_cut_self, hk]
      rfl

/-! ## 3. The invariant -/

/-- The allocations are apart and lie below the offsets of a well-shaped arena. -/
structure Sound (w : Arena) (us : List Usable) : Prop where
  shape : w.inner.Shape
  buffer : w.inner.lockfreeBuffer = none
  separate : w.inner.Separate
  placed : ∀ u ∈ us, u.span.len ≠ 0 → InChunk w.inner.chunks u.span
  apart : us.Pairwise fun u v => u.span.Apart v.span

namespace Sound

variable {w w' : Arena} {us vs : List Usable}

theorem sub (h : Sound w us) (hs : vs.Sublist us) : Sound w vs :=
  ⟨h.shape, h.buffer, h.separate, fun u hu => h.placed u (hs.subset hu), h.apart.sublist hs⟩

/-- Only the chunks matter. -/
theorem same (h : Sound w us) (h1 : w'.inner.chunks = w.inner.chunks)
    (h2 : w'.inner.currentChunk = w.inner.currentChunk)
    (h3 : w'.inner.lockfreeBuffer = none) : Sound w' us := by
  refine ⟨⟨by rw [h1, h2]; exact h.shape.top, by rw [h1]; exact h.shape.chunks⟩, h3,
    h.separate.congr ?_ ?_, by rw [h1]; exact h.placed, h.apart⟩
  · unfold ArenaInner.spans
    rw [h1]
  · unfold ArenaInner.block
    rw [h3, h.buffer]

theorem checkpoint (h : Sound w us) {r : ArenaCheckpoint × ArenaInner}
    (e : w.inner.checkpoint = some r) : Sound (w.withInner r.2) us := by
  rw [ArenaInner.checkpoint_eq h.shape] at e
  cases e
  exact h.same rfl rfl h.buffer

theorem alloc (h : Sound w us) {sys : Option Nat} {l : Layout} {p : Nat} (owner : Option Nat)
    (hf : ∀ ptr, sys = some ptr → w.inner.Fresh (growthBlock ptr l.size))
    (e : w.allocateRaw sys l = some (p, w')) : Sound w' (us ++ [⟨owner, p, l.size⟩]) := by
  have hbuf : w.BufOk := fun b hb => by
    rw [h.buffer] at hb
    cases hb
  have hb' := Arena.allocateRaw_noBuffer h.shape h.buffer e
  have ha := Arena.allocateRaw_allocated h.shape h.separate hbuf hf e
  refine ⟨(Arena.allocateRaw_grows h.shape e).1, hb', ha.separate, fun u hu hlen => ?_, ?_⟩
  · rcases List.mem_append.mp hu with hu | hu
    · exact (h.placed u hu hlen).above ha.above
    · rw [List.mem_singleton.mp hu] at hlen ⊢
      rcases ha.placed hlen with hp | ⟨b, hb, _⟩
      · exact hp
      · rw [hb'] at hb
        cases hb
  · refine List.pairwise_append.mpr ⟨h.apart, List.pairwise_singleton _ _, fun u hu v hv => ?_⟩
    rw [List.mem_singleton.mp hv]
    by_cases hu0 : u.span.len = 0
    · exact Or.inl hu0
    · by_cases h0 : l.size = 0
      · exact Or.inr (Or.inl h0)
      · exact ha.apart h0 _ (Or.inl (h.placed u hu hu0))

/-- A rewind that spares the allocations, or trips an assert. -/
theorem rewind {s : Shared} (h : Sound s.arena us) {cp : ArenaCheckpoint}
    (hb : Before s cp us) : Sound (s.rewound cp) us := by
  unfold Shared.rewound Arena.rewindToCheckpoint
  cases e : s.arena.inner.rewindToCheckpoint false cp with
  | none => exact h
  | some a' =>
      have hs := h.shape.rewind e
      obtain ⟨_, rfl⟩ := ArenaInner.rewind_eq_some.mp e
      rw [Option.map_some, Option.getD_some, Arena.resetBuffer_noBuffer]
      · refine ⟨hs, h.buffer, h.separate.congr ?_ rfl, fun u hu h0 => ?_, h.apart⟩
        · exact ArenaInner.map_span_rewindChunks _ _
        · exact (inChunk_rewindChunks h0).mpr (hb u hu h0)
      · exact h.buffer

theorem shrink (h : Sound w us) (h0 : ∀ u ∈ us, u.span.len = 0) :
    Sound w.resetAndShrinkToFit us :=
  ⟨Arena.resetAndShrinkToFit_shape h.shape, h.buffer, h.separate.shrink,
    fun u hu hlen => absurd (h0 u hu) hlen, h.apart⟩

end Sound

theorem init_sound {s : Shared} (h : shared.init s) : Sound s.arena s.usable := by
  obtain ⟨t, ht, rfl⟩ := h
  have hr : (machine ⟨false, false⟩).Reach t := .init ht
  exact ⟨(reach_stackOk hr).shape, reach_noBuffer hr, (reach_live_default hr).separate,
    (fun _ h => nomatch h), .nil⟩

/-- **One call keeps what stays usable sound**, if it is spared. -/
theorem step_sound {s s' : Shared} {op : SharedOp} (hok : shared.ok s op) (hsp : Spared s op)
    (h : Sound s.arena s.usable) (e : shared.step s op = some s') :
    Sound s'.arena s'.usable := by
  have e' : s.exec op = some s' := e
  cases op with
  | alloc owner sys l =>
      simp only [Shared.exec] at e'
      split at e'
      · obtain ⟨⟨p, w'⟩, hw, rfl⟩ := Option.map_eq_some_iff.mp e'
        exact h.alloc owner (fun ptr hp => hok _ (by simp [SharedOp.block, hp])) hw
      · cases e'
  | forget i =>
      cases e'
      exact h.sub (List.eraseIdx_sublist _ _)
  | checkpoint =>
      obtain ⟨r, hr, rfl⟩ := Option.map_eq_some_iff.mp e'
      obtain ⟨r', hr', rfl⟩ := Option.map_eq_some_iff.mp hr
      exact h.checkpoint hr'
  | pushCheckpoint =>
      obtain ⟨r, hr, rfl⟩ := Option.map_eq_some_iff.mp e'
      obtain ⟨r', hr', rfl⟩ := Option.map_eq_some_iff.mp hr
      obtain ⟨r'', hr'', rfl⟩ := Option.map_eq_some_iff.mp hr'
      exact (h.checkpoint hr'').same rfl rfl (h.checkpoint hr'').buffer
  | clearCheckpoints =>
      cases e'
      exact h.same rfl rfl h.buffer
  | resetAndShrinkToFit =>
      cases e'
      exact h.shrink hsp
  | scopeNew =>
      obtain ⟨r, hr, rfl⟩ := Option.map_eq_some_iff.mp e'
      obtain ⟨r', hr', rfl⟩ := Option.map_eq_some_iff.mp hr
      exact h.checkpoint hr'
  | scopeDrop =>
      obtain ⟨cp, hcp, rfl⟩ := Option.map_eq_some_iff.mp e'
      exact (h.sub List.filter_sublist).rewind (hsp cp hcp)
  | scopeReset k =>
      obtain ⟨cp, hcp, rfl⟩ := Option.map_eq_some_iff.mp e'
      exact (h.sub List.filter_sublist).rewind (hsp cp hcp)

/-- **Shared callers**: in every run whose rewinds spare what stays usable and whose truncations
    find nothing usable, the usable allocations never overlap and never lie in a freed chunk. -/
theorem shared_sound {s : Shared} (h : (shared.under Spared).Reach s) :
    (s.usable.Pairwise fun u v => u.span.Apart v.span) ∧
    ∀ u ∈ s.usable, u.span.len ≠ 0 → ∃ c ∈ s.arena.inner.chunks,
      c.ptr ≤ u.span.base ∧ u.span.fin ≤ c.ptr + c.used := by
  have hs : Sound s.arena s.usable := by
    refine h.inv (P := fun s => Sound s.arena s.usable) (fun s hi => ?_) fun s op s' hs hok e => ?_
    · exact init_sound hi
    · exact step_sound hok.1 hok.2 hs e
  refine ⟨hs.apart, fun u hu hlen => ?_⟩
  obtain ⟨k, c, hk, hc⟩ := hs.placed u hu hlen
  exact ⟨c, List.mem_of_getElem? hk, hc⟩

/-- The start of `Sess.small`, for shared callers. -/
def Shared.small : Shared := ⟨(Sess.small none).arena, [], []⟩

theorem Shared.init_small : shared.init Shared.small := ⟨_, Sess.init_small false, rfl⟩

/-- A scope that allocates through itself, nested in one that is reset; then the arena allocates. -/
theorem shared_sound_nested : ∃ s, (shared.under Spared).Reach s ∧
    s.usable.map Usable.owner = [none, none] ∧
    (s.usable.Pairwise fun u v => u.span.Apart v.span) := by
  obtain ⟨s, hr, hs⟩ := System.exists_reach_of_replay (shared.under Spared)
    [.alloc none none .word, .scopeNew,
      .alloc (some 0) none ⟨16, 8, ⟨3, rfl⟩, by decide⟩, .scopeReset 0, .scopeNew,
      .alloc (some 1) (some 16384) ⟨100, 1, ⟨0, rfl⟩, by decide⟩, .scopeDrop, .scopeDrop,
      .alloc none none .word]
    (P := fun s => s.usable.map Usable.owner = [none, none]) Shared.init_small (by decide)
  exact ⟨s, hr, hs, (shared_sound hr).1⟩

/-- An allocation of the arena inside a scope, and one after it, at the same place; and one whose
    chunk `reset_and_shrink_to_fit` frees. -/
theorem shared_unsound :
    (∃ s, shared.Reach s ∧ s.usable = [⟨none, 8192, 8⟩, ⟨none, 8192, 8⟩]) ∧
    ∃ s, shared.Reach s ∧ s.usable = [⟨none, 16384, 100⟩] ∧
      s.arena.inner.chunks = [⟨8192, 64, 0⟩] := by
  refine ⟨?_, ?_⟩
  · exact System.exists_reach_of_replay shared
      [.scopeNew, .alloc none none .word, .scopeDrop,
        .alloc none none .word] Shared.init_small (by decide)
  · exact System.exists_reach_of_replay shared
      [.alloc none (some 16384) ⟨100, 1, ⟨0, rfl⟩, by decide⟩, .resetAndShrinkToFit]
      Shared.init_small (by decide)

end ArenaB
