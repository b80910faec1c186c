/-
  File:      ArenaB/Legacy/Live.lean
  Subject:   Runs of the legacy arena: where its live allocations are, and what a scope can undo.

  A closure passed to `Arena::scope` may do anything with the arena, so a run opens and closes
  scopes among its other operations. When a scope closes, the arena goes back to the scope's own
  checkpoint, also if the closure has meanwhile rewound or reset the arena below it. A session
  therefore keeps, beside the live allocations and the valid checkpoints, the open scopes with how
  many of either their end will keep; a rewind or a reset inside lowers these numbers.

  * `Acts` and **`exec_acts`** -- what each operation does, once for all invariants;
  * `Live` -- the invariant; its clause `covered` says of a valid checkpoint and of an open scope
    alike that what they keep lies in the chunks AS CUT BACK to them;
  * **`InChunk.rewind_rewind`** -- what two cuts both keep, one after the other keeps: why a scope
    that closes above or below an inner rewind loses nothing it should keep;
  * `ScopeFits` -- a scope closes within its chunk. It fails after a `reset_and_shrink_to_fit` in
    the closure, which drops the chunk, if a smaller one has taken its place: `set_used` then
    passes the capacity (`legacy_overruns`).
  * **`legacy_sound`** -- on the runs whose scopes close so the invariants hold.
-/
import ArenaB.Legacy.Arena
import ArenaB.Arena.Live

namespace ArenaB

open Base

/-! ## 1. Cutting back twice -/

/-- A cut behind an earlier cut only adds. -/
theorem above_rewindChunks {cs : List Chunk} {cp cp' : ArenaCheckpoint}
    (h : cp.chunkIndex < cp'.chunkIndex) :
    Above (ArenaInner.rewindChunks cs cp)
      (ArenaInner.rewindChunks (ArenaInner.rewindChunks cs cp) cp') := by
  intro k c hk
  rw [ArenaInner.rewindChunks_eq _ cp']
  rcases Nat.lt_trichotomy k cp'.chunkIndex with hlt | heq | hgt
  · rw [Gauge.getElem?_cut_lt hlt]
    exact ⟨c.used, Nat.le_refl _, hk⟩
  · subst heq
    rw [Gauge.getElem?_cut_self, hk]
    rw [ArenaInner.rewindChunks_eq, Gauge.getElem?_cut_gt h, Option.map_eq_some_iff] at hk
    obtain ⟨d, _, rfl⟩ := hk
    exact ⟨_, Nat.zero_le _, rfl⟩
  · rw [Gauge.getElem?_cut_gt hgt, hk]
    rw [ArenaInner.rewindChunks_eq, Gauge.getElem?_cut_gt (h.trans hgt),
      Option.map_eq_some_iff] at hk
    obtain ⟨d, _, rfl⟩ := hk
    exact ⟨_, Nat.le_refl _, rfl⟩

/-- **What two cuts both keep** is kept by one after the other, in whatever order they lie. -/
theorem InChunk.rewind_rewind {cs : List Chunk} {cp cp' : ArenaCheckpoint} {t : Span}
    (h : InChunk (ArenaInner.rewindChunks cs cp) t)
    (h' : InChunk (ArenaInner.rewindChunks cs cp') t) :
    InChunk (ArenaInner.rewindChunks (ArenaInner.rewindChunks cs cp) cp') t := by
  by_cases hle : cp'.chunkIndex ≤ cp.chunkIndex
  · rw [ArenaInner.rewindChunks_eq _ cp', ArenaInner.rewindChunks_eq, Gauge.cut_cut hle]
    exact h'
  · exact h.above (above_rewindChunks (Nat.not_le.mp hle))

namespace Legacy

/-! ## 2. Sessions -/

/-- A scope whose closure is running: what `Arena::scope` holds in its two locals, and how many of
    the live allocations and of the valid checkpoints its end keeps. -/
structure OpenScope where
  checkpoint : ArenaCheckpoint
  allocationCountBefore : Nat
  kept : Nat
  valid : Nat

/-- Less has remained to be kept. -/
def OpenScope.clamp (n k : Nat) (sc : OpenScope) : OpenScope :=
  { sc with kept := min sc.kept n, valid := min sc.valid k }

/-- A legacy arena, the live allocations and valid checkpoints, the open scopes (innermost
    first). -/
structure Sess where
  arena : Arena
  ledger : Ledger Span ArenaCheckpoint
  scopes : List OpenScope

/-- What a caller may do; a checkpoint is named by its position among the valid ones. -/
inductive Op where
  | allocLayout (sys : Option Nat) (layout : Layout)
  | alloc (sys : Option Nat) (value : Value)
  | allocSliceCopy (sys : Option Nat) (slice : Slice)
  | checkpoint
  | pushCheckpoint
  | clearCheckpoints
  | rewindToCheckpoint (i : Nat)
  | scopeEnter
  | scopeExit
  | reset
  | resetAndShrinkToFit

namespace Sess

/-- The caller now also holds an allocation. -/
def record (s : Sess) (r : Nat × Arena) (size : Nat) : Sess :=
  { s with arena := r.2, ledger := s.ledger.record ⟨r.1, size⟩ }

/-- The first `n` allocations and the first `k` checkpoints have remained. -/
def back (s : Sess) (w : Arena) (n k : Nat) : Sess :=
  ⟨w, s.ledger.cutTo n k, s.scopes.map (OpenScope.clamp n k)⟩

/-- The innermost closure returns. -/
def closeScope (s : Sess) : Option Sess :=
  match s.scopes with
  | [] => none
  | sc :: outer =>
      (s.arena.scopeExit sc.checkpoint sc.allocationCountBefore).map fun w =>
        { s with scopes := outer }.back w sc.kept sc.valid

/-- One operation of the caller. -/
def exec (s : Sess) : Op → Option Sess
  | .allocLayout sys layout =>
      (s.arena.allocLayout sys layout).toOption.map fun r => s.record r layout.size
  | .alloc sys value =>
      (s.arena.alloc sys value).map fun r => s.record r value.layout.size
  | .allocSliceCopy sys slice =>
      (s.arena.allocSliceCopy sys slice).map fun r =>
        match r.1 with
        | none => { s with arena := r.2 }
        | some p => s.record (p, r.2) (slice.elem.size * slice.len)
  | .checkpoint => s.arena.checkpoint.map fun cp => { s with ledger := s.ledger.mark cp }
  | .pushCheckpoint =>
      s.arena.pushCheckpoint.map fun r => { s with arena := r.2, ledger := s.ledger.mark r.1 }
  | .clearCheckpoints => some { s with arena := s.arena.clearCheckpoints }
  | .rewindToCheckpoint i =>
      s.ledger.marks[i]?.bind fun m =>
        (s.arena.rewindToCheckpoint m.1).map fun w => s.back w m.2 (i + 1)
  | .scopeEnter =>
      s.arena.scopeEnter.map fun r =>
        { s with scopes := ⟨r.1, r.2, s.ledger.log.length, s.ledger.marks.length⟩ :: s.scopes }
  | .scopeExit => s.closeScope
  | .reset => some (s.back s.arena.reset 0 0)
  | .resetAndShrinkToFit => some (s.back s.arena.resetAndShrinkToFit 0 0)

/-- A new arena of any capacity. -/
def Init (s : Sess) : Prop :=
  ∃ (sys : Option Nat) (mem : Mem) (capacity : Nat),
    Arena.withCapacity sys mem capacity = some s.arena ∧ s.ledger = .empty ∧ s.scopes = []

/-- The session of a new arena with one chunk of 64 bytes. -/
def small : Sess where
  arena := ⟨⟨[⟨8192, 64, 0⟩], 0, [], 0, ⟨0, 64, 0, 1⟩, none⟩, 0, fun _ => 0⟩
  ledger := .empty
  scopes := []

theorem init_small : small.Init := ⟨some 8192, fun _ => 0, 64, rfl, rfl, rfl⟩

end Sess

/-- The block the system allocator stands ready to return to a request of `size` bytes. -/
def growthBlock (ptr size : Nat) : Span := ⟨ptr, Chunk.roundCapacity (newCapacity size)⟩

/-- The block it stands ready to return to an operation. -/
def Op.block : Op → Option Span
  | .allocLayout sys layout => sys.map (growthBlock · layout.size)
  | .alloc sys value => sys.map (growthBlock · value.layout.size)
  | .allocSliceCopy sys slice => sys.map (growthBlock · (slice.elem.size * slice.len))
  | _ => none

/-- The runs of a legacy arena. -/
def machine : System Sess Op where
  init := Sess.Init
  ok s op := ∀ blk ∈ op.block, s.arena.inner.Fresh blk
  step := Sess.exec

instance (s : Sess) (op : Op) : Decidable (machine.ok s op) :=
  inferInstanceAs (Decidable (∀ blk ∈ op.block, s.arena.inner.Fresh blk))

/-- A scope that closes finds its offset within the chunk that has its index now. -/
def ScopeFits (s : Sess) : Op → Prop
  | .scopeExit => ∀ sc ∈ s.scopes.head?,
      ∀ c ∈ s.arena.inner.chunks[sc.checkpoint.chunkIndex]?, sc.checkpoint.chunkOffset ≤ c.capacity
  | _ => True

instance (s : Sess) (op : Op) : Decidable (ScopeFits s op) := by
  cases op <;> unfold ScopeFits <;> infer_instance

/-! ## 3. What an operation does -/

/-- The two arenas have the same chunks. -/
structure Arena.Alike (w w' : Arena) : Prop where
  chunks : w'.inner.chunks = w.inner.chunks
  currentChunk : w'.inner.currentChunk = w.inner.currentChunk
  buffer : w'.inner.lockfreeBuffer = w.inner.lockfreeBuffer

/-- The operation asks the arena for memory of the layout `l`. -/
inductive Op.Asks : Op → Option Nat → Layout → Prop where
  | allocLayout (sys : Option Nat) (l : Layout) : Asks (.allocLayout sys l) sys l
  | alloc (sys : Option Nat) (v : Value) : Asks (.alloc sys v) sys v.layout
  | allocSliceCopy (sys : Option Nat) {sl : Slice} {l : Layout} :
      sl.elem.array sl.len = some l → Asks (.allocSliceCopy sys sl) sys l

/-- **What each operation does**; `Alike` leaves out the counter, the memory and the stack. -/
inductive Acts (s : Sess) : Op → Sess → Prop where
  | take {op : Op} {sys : Option Nat} {l : Layout} {p : Nat} {w w' : Arena} : op.Asks sys l →
      s.arena.allocLayout sys l = .ok (p, w) → w.Alike w' → Acts s op (s.record (p, w') l.size)
  /-- A slice that is too large for a layout. -/
  | skip {sys : Option Nat} {sl : Slice} : sl.elem.array sl.len = none →
      Acts s (.allocSliceCopy sys sl) s
  | mark {cp : ArenaCheckpoint} : s.arena.checkpoint = some cp →
      Acts s .checkpoint { s with ledger := s.ledger.mark cp }
  | push {cp : ArenaCheckpoint} {w : Arena} : s.arena.checkpoint = some cp → s.arena.Alike w →
      Acts s .pushCheckpoint { s with arena := w, ledger := s.ledger.mark cp }
  | clear : Acts s .clearCheckpoints { s with arena := s.arena.clearCheckpoints }
  | rewind {i : Nat} {m : ArenaCheckpoint × Nat} {w : Arena} : s.ledger.marks[i]? = some m →
      s.arena.rewindToCheckpoint m.1 = some w →
      Acts s (.rewindToCheckpoint i) (s.back w m.2 (i + 1))
  | enter {cp : ArenaCheckpoint} {n : Nat} : s.arena.checkpoint = some cp →
      Acts s .scopeEnter { s with
        scopes := ⟨cp, n, s.ledger.log.length, s.ledger.marks.length⟩ :: s.scopes }
  | exit {sc : OpenScope} {outer : List OpenScope} {w w' : Arena} : s.scopes = sc :: outer →
      s.arena.rewindToCheckpoint sc.checkpoint = some w → w.Alike w' →
      Acts s .scopeExit ({ s with scopes := outer }.back w' sc.kept sc.valid)
  | reset : Acts s .reset (s.back s.arena.reset 0 0)
  | shrink : Acts s .resetAndShrinkToFit (s.back s.arena.resetAndShrinkToFit 0 0)

theorem Sess.exec_acts {s s' : Sess} {op : Op} (e : s.exec op = some s') : Acts s op s' := by
  cases op with
  | allocLayout sys l =>
      obtain ⟨⟨p, w⟩, hw, rfl⟩ := Option.map_eq_some_iff.mp e
      exact .take (.allocLayout sys l) (toOption_eq_some hw) ⟨rfl, rfl, rfl⟩
  | alloc sys v =>
      obtain ⟨r, hr, rfl⟩ := Option.map_eq_some_iff.mp e
      obtain ⟨⟨p, w⟩, hw, rfl⟩ := Option.map_eq_some_iff.mp hr
      exact .take (.alloc sys v) (toOption_eq_some hw) ⟨rfl, rfl, rfl⟩
  | allocSliceCopy sys sl =>
      obtain ⟨r, hr, rfl⟩ := Option.map_eq_some_iff.mp e
      unfold Arena.allocSliceCopy at hr
      split at hr
      · next hnone =>
        cases hr
        exact .skip hnone
      · next l hl =>
        obtain ⟨⟨p, w⟩, hw, rfl⟩ := Option.map_eq_some_iff.mp hr
        rw [Layout.size_array hl]
        exact .take (.allocSliceCopy sys hl) (toOption_eq_some hw) ⟨rfl, rfl, rfl⟩
  | checkpoint =>
      obtain ⟨cp, hcp, rfl⟩ := Option.map_eq_some_iff.mp e
      exact .mark hcp
  | pushCheckpoint =>
      obtain ⟨r, hr, rfl⟩ := Option.map_eq_some_iff.mp e
      obtain ⟨cp, hcp, rfl⟩ := Option.map_eq_some_iff.mp hr
      exact .push hcp ⟨rfl, rfl, rfl⟩
  | clearCheckpoints =>
      cases e
      exact .clear
  | rewindToCheckpoint i =>
      obtain ⟨m, hm, e⟩ := Option.bind_eq_some_iff.mp e
      obtain ⟨w, hw, rfl⟩ := Option.map_eq_some_iff.mp e
      exact .rewind hm hw
  | scopeEnter =>
      obtain ⟨r, hr, rfl⟩ := Option.map_eq_some_iff.mp e
      obtain ⟨cp, hcp, rfl⟩ := Option.map_eq_some_iff.mp hr
      exact .enter hcp
  | scopeExit =>
      have e' : s.closeScope = some s' := e
      unfold Sess.closeScope at e'
      split at e'
      · cases e'
      · next sc outer hsc =>
        obtain ⟨w', hw', rfl⟩ := Option.map_eq_some_iff.mp e'
        obtain ⟨w, hw, rfl⟩ := Option.map_eq_some_iff.mp hw'
        exact .exit hsc hw ⟨rfl, rfl, rfl⟩
  | reset =>
      cases e
      exact .reset
  | resetAndShrinkToFit =>
      cases e
      exact .shrink

/-- The block for a request is free if the environment keeps its promise. -/
theorem Op.Asks.fresh {op : Op} {sys : Option Nat} {l : Layout} (h : op.Asks sys l)
    {a : ArenaInner} (hfresh : ∀ blk ∈ op.block, a.Fresh blk) :
    ∀ ptr, sys = some ptr → a.Fresh (growthBlock ptr l.size) := by
  rintro ptr rfl
  refine hfresh _ ?_
  cases h with
  | allocLayout _ l => rfl
  | alloc _ v => rfl
  | allocSliceCopy _ hl =>
      rw [← Layout.size_array hl]
      rfl

/-! ## 4. The invariant -/

/-- What will be rewound to, with how many of the live allocations are then kept. -/
def Sess.pending (s : Sess) : List (ArenaCheckpoint × Nat) :=
  s.ledger.marks ++ s.scopes.map fun sc => (sc.checkpoint, sc.kept)

/-- The position lies within the block of its index. -/
def Fits (blocks : List Span) (cp : ArenaCheckpoint) : Prop :=
  ∃ blk, blocks[cp.chunkIndex]? = some blk ∧ cp.chunkOffset ≤ blk.len

/-- **The invariant of live allocations.** -/
structure Live (s : Sess) : Prop where
  shape : s.arena.inner.Shape
  separate : s.arena.inner.Separate
  placed : ∀ t ∈ s.ledger.log, t.len ≠ 0 → InChunk s.arena.inner.chunks t
  apart : s.ledger.log.Pairwise Span.Apart
  bounded : ∀ m ∈ s.pending, m.2 ≤ s.ledger.log.length
  covered : ∀ m ∈ s.pending, ∀ t ∈ s.ledger.log.take m.2, t.len ≠ 0 →
    InChunk (ArenaInner.rewindChunks s.arena.inner.chunks m.1) t
  fits : ∀ m ∈ s.ledger.marks, Fits s.arena.inner.spans m.1

section Steps

variable {s : Sess} {w w' : Arena} {cp : ArenaCheckpoint}

theorem Arena.Alike.spans (e : w.Alike w') : w'.inner.spans = w.inner.spans :=
  congrArg (List.map Chunk.span) e.chunks

theorem Arena.Alike.block (e : w.Alike w') : w'.inner.block = w.inner.block := by
  unfold ArenaInner.block
  rw [e.buffer]

/-- The invariant is about the chunks alone. -/
theorem Live.congr (h : Live s) (e : s.arena.Alike w) : Live { s with arena := w } := by
  refine ⟨⟨?_, ?_⟩, h.separate.congr e.spans e.block, ?_, h.apart, h.bounded, ?_, ?_⟩
  · show Chunk.gauge.Top w.inner.chunks w.inner.currentChunk
    rw [e.chunks, e.currentChunk]
    exact h.shape.top
  · show ∀ c ∈ w.inner.chunks, c.Ok
    rw [e.chunks]
    exact h.shape.chunks
  · show ∀ t ∈ s.ledger.log, t.len ≠ 0 → InChunk w.inner.chunks t
    rw [e.chunks]
    exact h.placed
  · show ∀ m ∈ s.pending, ∀ t ∈ s.ledger.log.take m.2, t.len ≠ 0 →
      InChunk (ArenaInner.rewindChunks w.inner.chunks m.1) t
    rw [e.chunks]
    exact h.covered
  · show ∀ m ∈ s.ledger.marks, Fits w.inner.spans m.1
    rw [e.spans]
    exact h.fits

theorem Fits.append {blocks : List Span} (h : Fits blocks cp) (more : List Span) :
    Fits (blocks ++ more) cp := by
  obtain ⟨blk, hblk, hle⟩ := h
  refine ⟨blk, ?_, hle⟩
  rw [List.getElem?_append_left (List.getElem?_eq_some_iff.mp hblk).1]
  exact hblk

/-- An allocation goes behind everything live, and below every position still to be rewound to
    nothing changes. -/
theorem Live.take (h : Live s) {sys : Option Nat} {l : Layout} {p : Nat}
    (hf : ∀ ptr, sys = some ptr → s.arena.inner.Fresh (growthBlock ptr l.size))
    (e : s.arena.allocLayout sys l = .ok (p, w)) : Live (s.record (p, w) l.size) := by
  obtain ⟨hs', hg, hp, hspans, hbuf⟩ := Arena.allocLayout_spec h.shape e
  have hblk : w.inner.block = s.arena.inner.block := by
    unfold ArenaInner.block
    rw [hbuf]
  have hsep : w.inner.Separate := by
    rcases hspans with hsp | ⟨ptr, hptr, hsp⟩
    · exact h.separate.congr hsp hblk
    · exact h.separate.append (hf ptr hptr) hsp hblk
  refine ⟨hs', hsep, fun t ht hne => ?_, ?_, fun m hm => ?_, fun m hm t ht hne => ?_,
    fun m hm => ?_⟩
  · rcases List.mem_append.mp ht with ht | ht
    · exact (h.placed t ht hne).above hg.chunks
    · rw [List.mem_singleton.mp ht]
      exact hp.inChunk
  · refine List.pairwise_append.mpr ⟨h.apart, List.pairwise_singleton _ _, fun t ht u hu => ?_⟩
    rw [List.mem_singleton.mp hu]
    by_cases hne : t.len = 0
    · exact Or.inl hne
    · exact hp.apart hg hs' hsep (h.placed t ht hne)
  · have hle : m.2 ≤ s.ledger.log.length := h.bounded m hm
    exact hle.trans (List.length_append ▸ Nat.le_add_right _ _)
  · have ht' : t ∈ (s.ledger.log ++ [(⟨p, l.size⟩ : Span)]).take m.2 := ht
    rw [List.take_append_of_le_length (h.bounded m hm)] at ht'
    exact (h.covered m hm t ht' hne).above (Above.rewind hg.chunks m.1)
  · show Fits w.inner.spans m.1
    rcases hspans with hsp | ⟨ptr, _, hsp⟩ <;> rw [hsp]
    · exact h.fits m hm
    · exact (h.fits m hm).append _

/-- The present position: rewinding to it at once changes nothing. -/
theorem Live.here (h : Live s) (e : s.arena.checkpoint = some cp) :
    ArenaInner.rewindChunks s.arena.inner.chunks cp = s.arena.inner.chunks ∧
      Fits s.arena.inner.spans cp := by
  rw [Arena.checkpoint_eq h.shape] at e
  cases e
  obtain ⟨c, hc, hb, hok⟩ := h.shape.exists_current
  refine ⟨?_, c.span, ArenaInner.getElem?_spans _ hc, ?_⟩
  · rw [ArenaInner.rewindChunks_eq, hb]
    exact Gauge.cut_self h.shape.top hc
  · show s.arena.inner.bump ≤ c.capacity
    rw [hb]
    exact hok.used

/-- One more position to be rewound to, the present one. -/
theorem Live.stake (h : Live s) {s' : Sess} (e : s.arena.checkpoint = some cp)
    (h1 : s'.arena = s.arena) (h2 : s'.ledger.log = s.ledger.log)
    (h3 : ∀ m ∈ s'.ledger.marks, m ∈ s.ledger.marks ∨ m = (cp, s.ledger.log.length))
    (h4 : ∀ m ∈ s'.pending, m ∈ s.pending ∨ m = (cp, s.ledger.log.length)) : Live s' := by
  obtain ⟨hself, hfit⟩ := h.here e
  refine ⟨h1 ▸ h.shape, h1 ▸ h.separate, ?_, h2 ▸ h.apart, fun m hm => ?_,
    fun m hm t ht hne => ?_, fun m hm => ?_⟩
  · rw [h1, h2]
    exact h.placed
  · rw [h2]
    rcases h4 m hm with hm | rfl
    · exact h.bounded m hm
    · exact Nat.le_refl _
  · rw [h2] at ht
    rw [h1]
    rcases h4 m hm with hm | rfl
    · exact h.covered m hm t ht hne
    · rw [hself]
      exact h.placed t (List.mem_of_mem_take ht) hne
  · rw [h1]
    rcases h3 m hm with hm | rfl
    · exact h.fits m hm
    · exact hfit

theorem mem_marks_mark {m : ArenaCheckpoint × Nat} (hm : m ∈ (s.ledger.mark cp).marks) :
    m ∈ s.ledger.marks ∨ m = (cp, s.ledger.log.length) :=
  (List.mem_append.mp hm).imp id List.mem_singleton.mp

/-- What is still to be rewound to after a checkpoint was taken. -/
theorem mem_pending_mark {m : ArenaCheckpoint × Nat}
    (hm : m ∈ Sess.pending { s with arena := w, ledger := s.ledger.mark cp }) :
    m ∈ s.pending ∨ m = (cp, s.ledger.log.length) := by
  rcases List.mem_append.mp hm with hm | hm
  · exact (mem_marks_mark hm).imp (List.mem_append_left _) id
  · exact Or.inl (List.mem_append_right _ hm)

/-- What is still to be rewound to after a scope was entered. -/
theorem mem_pending_enter {sc : OpenScope} {m : ArenaCheckpoint × Nat}
    (hm : m ∈ Sess.pending { s with scopes := sc :: s.scopes }) :
    m ∈ s.pending ∨ m = (sc.checkpoint, sc.kept) := by
  rcases List.mem_append.mp hm with hm | hm
  · exact Or.inl (List.mem_append_left _ hm)
  · rcases List.mem_cons.mp hm with rfl | hm
    · exact Or.inr rfl
    · exact Or.inl (List.mem_append_right _ hm)

/-- The innermost scope, and what is left without it. -/
theorem mem_pending_close {sc : OpenScope} {outer : List OpenScope}
    (e : s.scopes = sc :: outer) : (sc.checkpoint, sc.kept) ∈ s.pending ∧
      ∀ m ∈ Sess.pending { s with scopes := outer }, m ∈ s.pending := by
  unfold Sess.pending
  rw [e]
  refine ⟨List.mem_append_right _ List.mem_cons_self, fun m hm => ?_⟩
  rcases List.mem_append.mp hm with hm | hm
  · exact List.mem_append_left _ hm
  · exact List.mem_append_right _ (List.mem_cons_of_mem _ hm)

theorem Live.mark (h : Live s) (e : s.arena.checkpoint = some cp) :
    Live { s with ledger := s.ledger.mark cp } :=
  h.stake e rfl rfl (fun _ hm => mem_marks_mark hm) fun _ hm => mem_pending_mark hm

theorem Live.enter (h : Live s) (e : s.arena.checkpoint = some cp) (n : Nat) :
    Live { s with
      scopes := ⟨cp, n, s.ledger.log.length, s.ledger.marks.length⟩ :: s.scopes } :=
  h.stake e rfl rfl (fun _ hm => Or.inl hm) fun _ hm => mem_pending_enter hm

/-- A scope less. -/
theorem Live.close (h : Live s) {sc : OpenScope} {outer : List OpenScope}
    (e : s.scopes = sc :: outer) : Live { s with scopes := outer } := by
  obtain ⟨_, hmem⟩ := mem_pending_close e
  exact ⟨h.shape, h.separate, h.placed, h.apart, fun m hm => h.bounded m (hmem m hm),
    fun m hm => h.covered m (hmem m hm), h.fits⟩

/-- What is still to be rewound to after going back keeps no more than has remained. -/
theorem mem_pending_back {n k : Nat} {m : ArenaCheckpoint × Nat}
    (hm : m ∈ (s.back w n k).pending) : ∃ m' ∈ s.pending, m = (m'.1, min m'.2 n) := by
  rcases List.mem_append.mp hm with hm | hm
  · obtain ⟨m', hm', rfl⟩ := List.mem_map.mp hm
    exact ⟨m', List.mem_append_left _ (List.mem_of_mem_take hm'), rfl⟩
  · obtain ⟨sc, hsc, rfl⟩ := List.mem_map.mp hm
    obtain ⟨sc', hsc', rfl⟩ := List.mem_map.mp hsc
    exact ⟨_, List.mem_append_right _ (List.mem_map_of_mem hsc'), rfl⟩

/-- **Going back** to a position that keeps the first `n` allocations. -/
theorem Live.rewind (h : Live s) {n : Nat} (k : Nat)
    (hkeep : ∀ t ∈ s.ledger.log.take n, t.len ≠ 0 →
      InChunk (ArenaInner.rewindChunks s.arena.inner.chunks cp) t)
    (hfit : Fits s.arena.inner.spans cp) (e : s.arena.rewindToCheckpoint cp = some w) :
    Live (s.back w n k) := by
  obtain ⟨_, rfl⟩ := Arena.rewindToCheckpoint_eq_some.mp e
  have hspans : (ArenaInner.rewindChunks s.arena.inner.chunks cp).map Chunk.span =
      s.arena.inner.spans := ArenaInner.map_span_rewindChunks _ _
  obtain ⟨blk, hblk, hle⟩ := hfit
  rw [ArenaInner.spans, List.getElem?_map, Option.map_eq_some_iff] at hblk
  obtain ⟨c, hc, rfl⟩ := hblk
  refine ⟨h.shape.rewindChunks hc hle rfl rfl, h.separate.congr hspans rfl, hkeep,
    h.apart.sublist (List.take_sublist _ _), fun m hm => ?_, fun m hm t ht hne => ?_,
    fun m hm => ?_⟩
  · obtain ⟨m', hm', rfl⟩ := mem_pending_back hm
    have := h.bounded m' hm'
    show min m'.2 n ≤ (s.ledger.log.take n).length
    rw [List.length_take]
    omega
  · obtain ⟨m', hm', rfl⟩ := mem_pending_back hm
    have ht' : t ∈ (s.ledger.log.take n).take (min m'.2 n) := ht
    have hn := List.mem_of_mem_take ht'
    rw [List.take_take, Nat.min_assoc, Nat.min_self] at ht'
    have hm₂ : t ∈ s.ledger.log.take m'.2 :=
      (List.take_sublist_take_left (Nat.min_le_left _ _)).subset ht'
    exact (hkeep t hn hne).rewind_rewind (h.covered m' hm' t hm₂ hne)
  · obtain ⟨m', hm', rfl⟩ := List.mem_map.mp hm
    obtain ⟨blk, hblk, hle'⟩ := h.fits m' (List.mem_of_mem_take hm')
    exact ⟨blk, by rw [← hblk, ← hspans]; rfl, hle'⟩

/-- After a reset nothing is live and nothing is kept. -/
theorem live_forget (hs : w.inner.Shape) (hsep : w.inner.Separate) : Live (s.back w 0 0) := by
  have hzero : ∀ m ∈ (s.back w 0 0).pending, m.2 = 0 := by
    intro m hm
    obtain ⟨m', _, rfl⟩ := mem_pending_back hm
    exact Nat.min_zero _
  refine ⟨hs, hsep, fun t ht => ?_, .nil, fun m hm => ?_, fun m hm t ht => ?_, fun m hm => ?_⟩
  · cases ht
  · rw [hzero m hm]
    exact Nat.zero_le _
  · cases List.mem_of_mem_take ht
  · cases hm

theorem Live.reset (h : Live s) : Live (s.back s.arena.reset 0 0) := by
  refine live_forget (h.shape.emptied (List.Sublist.refl _) h.shape.length_pos rfl rfl)
    (h.separate.congr ?_ rfl)
  show (s.arena.inner.chunks.map Chunk.reset).map Chunk.span = _
  rw [List.map_map]
  rfl

theorem Live.shrink (h : Live s) : Live (s.back s.arena.resetAndShrinkToFit 0 0) := by
  have hspans : s.arena.resetAndShrinkToFit.inner.spans = s.arena.inner.spans.take 1 := by
    show ((s.arena.inner.chunks.map Chunk.reset).take 1).map Chunk.span = _
    rw [ArenaInner.spans, ← List.map_take, ← List.map_take, List.map_map]
    rfl
  exact live_forget (h.shape.emptied (List.take_sublist 1 _) h.shape.length_take_pos
    List.map_take.symm rfl) (h.separate.sublist (hspans ▸ List.take_sublist 1 _) rfl)

end Steps

/-! ## 5. Runs -/

/-- **One step keeps the invariant**, if a scope that closes fits. -/
theorem Acts.live {s s' : Sess} {op : Op} (hacts : Acts s op s')
    (hfresh : ∀ blk ∈ op.block, s.arena.inner.Fresh blk) (hfits : ScopeFits s op) (h : Live s) :
    Live s' := by
  cases hacts with
  | take hask e ea => exact (h.take (hask.fresh hfresh) e).congr ea
  | skip _ => exact h
  | mark e => exact h.mark e
  | push e ea => exact (h.mark e).congr ea
  | clear => exact h.congr ⟨rfl, rfl, rfl⟩
  | rewind hm e =>
      have hmem := List.mem_of_getElem? hm
      exact h.rewind _ (h.covered _ (List.mem_append_left _ hmem)) (h.fits _ hmem) e
  | enter e => exact h.enter e _
  | @exit sc outer w w' hsc e ea =>
      obtain ⟨hmem, _⟩ := mem_pending_close hsc
      have hlt := (Arena.rewindToCheckpoint_eq_some.mp e).1
      have hc := List.getElem?_eq_getElem hlt
      have hfit : Fits s.arena.inner.spans sc.checkpoint :=
        ⟨_, ArenaInner.getElem?_spans _ hc, hfits sc (by rw [hsc]; rfl) _ hc⟩
      exact ((h.close hsc).rewind _ (h.covered _ hmem) hfit e).congr ea
  | reset => exact h.reset
  | shrink => exact h.shrink

theorem Sess.Init.live {s : Sess} (h : s.Init) : Live s := by
  obtain ⟨sys, mem, cap, e, hl, hsc⟩ := h
  obtain ⟨w, L, scs⟩ := s
  subst hl hsc
  unfold Arena.withCapacity at e
  split at e
  · rename_i a ha
    cases e
    have hs := ArenaInner.new_shape ha
    refine live_forget (s := ⟨⟨a, 0, mem⟩, .empty, []⟩) hs ⟨?_, fun u hu => ?_⟩
    · obtain ⟨_, c, hc, _⟩ := ArenaInner.new_stats ha
      show (a.chunks.map Chunk.span).Pairwise Span.Apart
      rw [hc]
      exact List.pairwise_singleton _ _
    · rw [ArenaInner.block, (ArenaInner.new_eq_ok ha).2.2] at hu
      cases hu
  · cases e

/-- **Runs whose scopes close within their chunks.** -/
theorem reach_live {s : Sess} (h : (machine.under ScopeFits).Reach s) : Live s := by
  refine h.inv (P := Live) (fun s (hs : s.Init) => hs.live) fun s op s' hs hok e => ?_
  exact (s.exec_acts e).live hok.1 hok.2 hs

/-- A scope that closes keeps the offsets within the capacities exactly if it fits. -/
theorem scopeExit_used_iff {s s' : Sess} (h : s.arena.inner.Shape)
    (e : machine.step s .scopeExit = some s') :
    (∀ c ∈ s'.arena.inner.chunks, c.used ≤ c.capacity) ↔ ScopeFits s .scopeExit := by
  have hacts : Acts s .scopeExit s' := s.exec_acts e
  cases hacts with
  | take hask _ _ => cases hask
  | @exit sc outer w w' hsc hw ea =>
      obtain ⟨hlt, rfl⟩ := Arena.rewindToCheckpoint_eq_some.mp hw
      show (∀ c ∈ w'.inner.chunks, c.used ≤ c.capacity) ↔ _
      rw [ea.chunks]
      constructor
      · intro hall sc' hsc' c hc
        rw [hsc] at hsc'
        cases hsc'
        have hcut : (ArenaInner.rewindChunks s.arena.inner.chunks sc.checkpoint)[
            sc.checkpoint.chunkIndex]? = some (c.setUsed sc.checkpoint.chunkOffset) := by
          rw [ArenaInner.rewindChunks_eq, Gauge.getElem?_cut_self, hc]
          rfl
        exact hall _ (List.mem_of_getElem? hcut)
      · intro hset c hc
        have hfit := hset sc (by rw [hsc]; rfl) _ (List.getElem?_eq_getElem hlt)
        exact (h.rewindChunks (List.getElem?_eq_getElem hlt) hfit rfl rfl).chunks c hc |>.used

/-- **The legacy arena keeps its contract** as long as every scope closes within its chunk: the
    current chunk exists, the chunks are in bounds and empty behind it, the live allocations are
    pairwise apart and lie below the offset of a chunk, and the panic in a new chunk is left to
    sizes whose double overflows. The condition on the scopes is what the bounds need. -/
theorem legacy_sound {s : Sess} (h : (machine.under ScopeFits).Reach s) :
    s.arena.inner.currentChunk < s.arena.inner.chunks.length ∧
    (∀ c ∈ s.arena.inner.chunks, c.used ≤ c.capacity) ∧
    (∀ (k : Nat) (c : Chunk), s.arena.inner.currentChunk < k →
      s.arena.inner.chunks[k]? = some c → c.used = 0) ∧
    s.ledger.log.Pairwise Span.Apart ∧
    (∀ t ∈ s.ledger.log, t.len ≠ 0 → ∃ c ∈ s.arena.inner.chunks,
      c.ptr ≤ t.base ∧ t.fin ≤ c.ptr + c.used) ∧
    (∀ (sys : Option Nat) (l : Layout), s.arena.allocLayout sys l = .error .inNewChunk ↔
      2 ^ 64 ≤ l.size * 2 + 63 ∧ sys.isSome) ∧
    ∀ s', machine.step s .scopeExit = some s' →
      ((∀ c ∈ s'.arena.inner.chunks, c.used ≤ c.capacity) ↔ ScopeFits s .scopeExit) := by
  have hl := reach_live h
  refine ⟨hl.shape.current_lt, fun c hc => (hl.shape.chunks c hc).used, hl.shape.top.empty,
    hl.apart, fun t ht hne => ?_, fun sys l => Arena.allocLayout_inNewChunk hl.shape,
    fun s' e => scopeExit_used_iff hl.shape e⟩
  obtain ⟨k, c, hc, h1, h2⟩ := hl.placed t ht hne
  exact ⟨c, List.mem_of_getElem? hc, h1, h2⟩

/-- An inner rewind below an open scope, which then closes above it. -/
theorem legacy_sound_nested : ∃ s, (machine.under ScopeFits).Reach s ∧
    (s.ledger.log = [⟨8192, 8⟩] ∧ s.arena.inner.currentChunk = 1 ∧
      s.arena.inner.chunks.map Chunk.used = [24, 100]) ∧
    s.ledger.log.Pairwise Span.Apart ∧ ∀ c ∈ s.arena.inner.chunks, c.used ≤ c.capacity := by
  obtain ⟨s, hr, hs⟩ := System.exists_reach_of_replay (machine.under ScopeFits)
    [.allocLayout none .word, .checkpoint,
      .allocLayout (some 16384) ⟨100, 4, ⟨2, rfl⟩, by decide⟩, .scopeEnter,
      .rewindToCheckpoint 0, .allocLayout none ⟨16, 8, ⟨3, rfl⟩, by decide⟩, .scopeExit]
    (P := fun s => s.ledger.log = [⟨8192, 8⟩] ∧ s.arena.inner.currentChunk = 1 ∧
      s.arena.inner.chunks.map Chunk.used = [24, 100]) Sess.init_small (by decide +kernel)
  obtain ⟨_, h2, _, h4, _⟩ := legacy_sound hr
  exact ⟨s, hr, hs, h4, h2⟩

/-- **Two ways out of the contract.** A closure calls `reset_and_shrink_to_fit` and allocates: when
    it returns, the scope's offset 5500 is set on a chunk of 4096 bytes. And a request of
    `2 ^ 63 - 31` bytes is refused in the chunk that `Chunk::new` has just returned for it. -/
theorem legacy_overruns :
    (∃ s, machine.Reach s ∧ s.arena.inner.chunks = [⟨8192, 64, 0⟩, ⟨65536, 4096, 5500⟩]) ∧
    ∃ s, machine.Reach s ∧ ∃ l : Layout, l.size = 2 ^ 63 - 31 ∧
      (∃ c, Chunk.new (some 65536) (newCapacity l.size) = .ok c) ∧
      s.arena.allocLayout (some 65536) l = .error .inNewChunk := by
  refine ⟨System.exists_reach_of_replay machine
    [.allocLayout (some 16384) ⟨3000, 1, ⟨0, rfl⟩, by decide⟩,
      .allocLayout none ⟨2500, 1, ⟨0, rfl⟩, by decide⟩, .scopeEnter, .resetAndShrinkToFit,
      .allocLayout (some 65536) ⟨100, 1, ⟨0, rfl⟩, by decide⟩, .scopeExit]
    (P := fun s => s.arena.inner.chunks = [⟨8192, 64, 0⟩, ⟨65536, 4096, 5500⟩])
    Sess.init_small (by decide +kernel), Sess.small, .init Sess.init_small,
    ⟨2 ^ 63 - 31, 1, ⟨0, rfl⟩, by decide⟩, rfl, ⟨⟨65536, 0, 0⟩, by decide +kernel⟩, ?_⟩
  exact (Arena.allocLayout_inNewChunk Sess.init_small.live.shape).mpr ⟨by decide, rfl⟩

end Legacy

end ArenaB
