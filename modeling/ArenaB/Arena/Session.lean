/-
  File:      ArenaB/Arena/Session.lean
  Subject:   Runs of an arena: the operations a caller issues, and what the caller then holds.

  A session is an arena together with the caller's side of the contract: a ledger of the live
  allocations (what the caller may still read and write, with the bytes last written) and of the
  checkpoints that are still valid. A checkpoint stays valid until a reset or a rewind to an
  earlier one; the allocations made since are forgotten by a rewind, all of them by a reset.

  * `exec` -- one operation, executable; `Scope::new` is a checkpoint, `Scope::reset` and the drop
    of a scope are rewinds to it;
  * `machine f` -- the runs for a build with the features `f`. The environment condition says that
    the system allocator returns blocks that no chunk and no lock-free buffer owns;
  * `Acts` and **`exec_acts`** -- what each operation does, once. The three ways to ask for memory
    are one case, the two that take a checkpoint another, the three that go back to a given one a
    third (`Op.Asks`, `Op.Marks`, `Op.Rewinds`). Every invariant of a run is proved by cases on
    `Acts`; where it needs what the environment or a guarded run promises, it asks for it (the
    block is free, `safe` holds for each rewind).
-/
import ArenaB.Base.System
import ArenaB.Base.Ledger
import ArenaB.Arena.Growth

namespace ArenaB

open Base

/-! ## 1. Sessions -/

/-- A live allocation: the pointer the caller got and the bytes last written through it. -/
structure Obj where
  addr : Nat
  data : List (Option UInt8)

namespace Obj

def span (o : Obj) : Span := ⟨o.addr, o.data.length⟩

/-- One byte written through the reference. -/
def set (j : Nat) (b : UInt8) (o : Obj) : Obj := { o with data := o.data.set j (some b) }

@[simp] theorem set_span (j : Nat) (b : UInt8) (o : Obj) : (o.set j b).span = o.span := by
  simp [set, span]

@[simp] theorem set_data_nil (j : Nat) (b : UInt8) (o : Obj) :
    (o.set j b).data = [] ↔ o.data = [] := by
  simp [set]

end Obj

/-- An arena, the live allocations and the valid checkpoints. -/
structure Sess where
  arena : Arena
  ledger : Ledger Obj ArenaCheckpoint

/-- The features of a build that the sessions distinguish. -/
structure Features where
  debug : Bool
  lockfree : Bool

/-- What a caller may do; a checkpoint is named by its position among the valid ones. -/
inductive Op where
  | allocateRaw (sys : Option Nat) (layout : Layout)
  | alloc (sys : Option Nat) (value : Value)
  | allocSliceCopy (sys : Option Nat) (slice : Slice)
  | write (i j : Nat) (b : UInt8)
  | checkpoint
  | pushCheckpoint
  | scopeNew
  | rewindToCheckpoint (i : Nat)
  | scopeReset (i : Nat)
  | scopeDrop (i : Nat)
  | popAndRewind
  | clearCheckpoints
  | reset
  | resetAndShrinkToFit

namespace Sess

/-- The position among the valid checkpoints of the one on top of the stack. -/
def popIndex (s : Sess) : Nat :=
  match s.arena.inner.checkpoints.getLast? with
  | none => 0
  | some cp => s.ledger.marks.findIdx fun m => m.1 = cp

/-- The caller now also holds an allocation. -/
def record (s : Sess) (r : Nat × Arena) (data : List (Option UInt8)) : Sess :=
  ⟨r.2, s.ledger.record ⟨r.1, data⟩⟩

/-- A rewind to the `i`th valid checkpoint. -/
def rewind (s : Sess) (debug : Bool) (i : Nat) : Option Sess :=
  s.ledger.marks[i]?.bind fun m =>
    (s.arena.rewindToCheckpoint debug m.1).map fun w => ⟨w, s.ledger.rewind i⟩

/-- One operation of the caller. -/
def exec (debug : Bool) (s : Sess) : Op → Option Sess
  | .allocateRaw sys layout =>
      (s.arena.allocateRaw sys layout).map fun r => s.record r (List.replicate layout.size none)
  | .alloc sys value =>
      (s.arena.alloc sys value).map fun r => s.record r (value.bytes.map some)
  | .allocSliceCopy sys slice =>
      (s.arena.allocSliceCopy sys slice).map fun r =>
        match r.1 with
        | none => { s with arena := r.2 }
        | some p => s.record (p, r.2) (slice.bytes.map some)
  | .write i j b =>
      s.ledger.log[i]?.bind fun o =>
        if j < o.data.length then
          some ⟨s.arena.withMem (s.arena.mem.write (o.addr + j) [b]),
            s.ledger.amend i (Obj.set j b)⟩
        else none
  | .checkpoint => s.arena.checkpoint.map fun r => ⟨r.2, s.ledger.mark r.1⟩
  | .scopeNew => s.arena.checkpoint.map fun r => ⟨r.2, s.ledger.mark r.1⟩
  | .pushCheckpoint => s.arena.pushCheckpoint.map fun r => ⟨r.2, s.ledger.mark r.1⟩
  | .rewindToCheckpoint i => s.rewind debug i
  | .scopeReset i => s.rewind debug i
  | .scopeDrop i => s.rewind debug i
  | .popAndRewind =>
      (s.arena.popAndRewind debug).map fun r => ⟨r.2, s.ledger.rewind s.popIndex⟩
  | .clearCheckpoints => some { s with arena := s.arena.clearCheckpoints }
  | .reset => some ⟨s.arena.reset, .empty⟩
  | .resetAndShrinkToFit => some ⟨s.arena.resetAndShrinkToFit, .empty⟩

end Sess

/-! ## 2. The environment -/

/-- The block of the lock-free buffer, if it has one. -/
def ArenaInner.block (a : ArenaInner) : Option Span :=
  (a.lockfreeBuffer.map LockFreeBuffer.span).filter fun u => u.base ≠ 0

/-- No two blocks of the arena overlap, the lock-free block included. -/
def ArenaInner.Separate (a : ArenaInner) : Prop :=
  a.spans.Pairwise Span.Apart ∧ ∀ u ∈ a.block, ∀ t ∈ a.spans, t.Apart u

/-- A block that overlaps none of the arena's. -/
def ArenaInner.Fresh (a : ArenaInner) (blk : Span) : Prop :=
  (∀ t ∈ a.spans, t.Apart blk) ∧ ∀ u ∈ a.block, blk.Apart u

instance (a : ArenaInner) (blk : Span) : Decidable (a.Fresh blk) := by
  unfold ArenaInner.Fresh
  infer_instance

/-- The block a request of `size` bytes makes the arena ask for, at the address it would get. -/
def growthBlock (ptr size : Nat) : Span :=
  ⟨ptr, Chunk.roundCapacity (nextChunkCapacity size)⟩

/-- The block the system allocator stands ready to return to an operation. -/
def Op.block : Op → Option Span
  | .allocateRaw sys layout => sys.map (growthBlock · layout.size)
  | .alloc sys value => sys.map (growthBlock · value.layout.size)
  | .allocSliceCopy sys slice => sys.map (growthBlock · (slice.elem.size * slice.len))
  | _ => none

/-- A fresh arena of any capacity, its blocks apart, in a thread whose slab is not its own. -/
def Sess.Init (f : Features) (s : Sess) : Prop :=
  ∃ (sys sys' : Option Nat) (lockfree : Option (Option Nat)) (owner : Nat) (slab : ThreadSlab)
    (mem : Mem) (capacity : Nat), lockfree.isSome = f.lockfree ∧
    Arena.withCapacity sys sys' lockfree owner slab mem capacity = some s.arena ∧
    s.arena.inner.Separate ∧ ¬ slab.Matches owner 0 ∧ s.ledger = .empty

/-- The runs of an arena in a build with the features `f`. -/
def machine (f : Features) : System Sess Op where
  init := Sess.Init f
  ok s op := ∀ blk ∈ op.block, s.arena.inner.Fresh blk
  step s op := s.exec f.debug op

/-- The session of a new arena with one chunk of 64 bytes, the block of its buffer as given. -/
def Sess.small (lockfree : Option (Option Nat)) : Sess where
  arena := ⟨⟨[⟨8192, 64, 0⟩], 0, [], 0, ⟨0, 64, 0, 1⟩, lockfree.map LockFreeBuffer.new⟩,
    LockFreeStats.new, 1024, ThreadSlab.new, fun _ => 0⟩
  ledger := .empty

theorem Sess.init_small (debug : Bool) : (Sess.small none).Init ⟨debug, false⟩ :=
  ⟨some 8192, none, none, 1024, ThreadSlab.new, fun _ => 0, 64, rfl, rfl,
    ⟨List.pairwise_singleton _ _, (fun _ h => nomatch h)⟩, ThreadSlab.not_matches_new _ _, rfl⟩

instance (f : Features) (s : Sess) (op : Op) : Decidable ((machine f).ok s op) :=
  inferInstanceAs (Decidable (∀ blk ∈ op.block, s.arena.inner.Fresh blk))

/-- The rewinds among the operations, by the checkpoint they go to. -/
def Sess.target (s : Sess) : Op → Option Nat
  | .rewindToCheckpoint i => some i
  | .scopeReset i => some i
  | .scopeDrop i => some i
  | .popAndRewind => some s.popIndex
  | _ => none

/-- What a guarded run demands of its rewinds. -/
def RewindsMeet (safe : Sess → Nat → Prop) (s : Sess) (op : Op) : Prop :=
  ∀ i ∈ s.target op, safe s i

instance {safe : Sess → Nat → Prop} [∀ s i, Decidable (safe s i)] (s : Sess) (op : Op) :
    Decidable (RewindsMeet safe s op) :=
  inferInstanceAs (Decidable (∀ i ∈ s.target op, safe s i))

/-! ## 3. What an operation does -/

/-- The operation asks the arena for memory of the layout `l`, to put `data` there. -/
inductive Op.Asks : Op → Option Nat → Layout → List (Option UInt8) → Prop where
  | allocateRaw (sys : Option Nat) (l : Layout) :
      Asks (.allocateRaw sys l) sys l (List.replicate l.size none)
  | alloc (sys : Option Nat) (v : Value) : Asks (.alloc sys v) sys v.layout (v.bytes.map some)
  | allocSliceCopy (sys : Option Nat) {sl : Slice} {l : Layout} : sl.len ≠ 0 →
      sl.elem.array sl.len = some l → Asks (.allocSliceCopy sys sl) sys l (sl.bytes.map some)

/-- The operation takes a checkpoint and leaves the stack alone. -/
inductive Op.Marks : Op → Prop where
  | checkpoint : Marks .checkpoint
  | scopeNew : Marks .scopeNew

/-- The operation goes back to the `i`th valid checkpoint. -/
inductive Op.Rewinds : Op → Nat → Prop where
  | rewindToCheckpoint (i : Nat) : Rewinds (.rewindToCheckpoint i) i
  | scopeReset (i : Nat) : Rewinds (.scopeReset i) i
  | scopeDrop (i : Nat) : Rewinds (.scopeDrop i) i

/-- **What each operation does.** -/
inductive Acts (debug : Bool) (s : Sess) : Op → Sess → Prop where
  /-- An allocation whose bytes `data` are in memory, and nothing else changed. -/
  | take {op : Op} {sys : Option Nat} {l : Layout} {data : List (Option UInt8)} {p : Nat}
      {w' : Arena} {m : Mem} : op.Asks sys l data →
      s.arena.allocateRaw sys l = some (p, w') → Holds m p data →
      (∀ t : Span, t.Apart ⟨p, l.size⟩ → Mem.Agree w'.mem m t) →
      Acts debug s op ⟨w'.withMem m, s.ledger.record ⟨p, data⟩⟩
  /-- A slice that is empty, or too large for a layout. -/
  | skip {sys : Option Nat} {sl : Slice} : sl.len = 0 ∨ sl.elem.array sl.len = none →
      Acts debug s (.allocSliceCopy sys sl) s
  | write {i j : Nat} {o : Obj} {b : UInt8} : s.ledger.log[i]? = some o → j < o.data.length →
      Acts debug s (.write i j b) ⟨s.arena.withMem (s.arena.mem.write (o.addr + j) [b]),
        s.ledger.amend i (Obj.set j b)⟩
  | mark {op : Op} {cp : ArenaCheckpoint} {a' : ArenaInner} : op.Marks →
      s.arena.inner.checkpoint = some (cp, a') →
      Acts debug s op ⟨s.arena.withInner a', s.ledger.mark cp⟩
  | push {cp : ArenaCheckpoint} {a' : ArenaInner} :
      s.arena.inner.checkpoint = some (cp, a') →
      Acts debug s .pushCheckpoint
        ⟨s.arena.withInner { a' with checkpoints := a'.checkpoints ++ [cp] }, s.ledger.mark cp⟩
  | rewind {op : Op} {i : Nat} {m : ArenaCheckpoint × Nat} {a' : ArenaInner} : op.Rewinds i →
      s.ledger.marks[i]? = some m → s.arena.inner.rewindToCheckpoint debug m.1 = some a' →
      Acts debug s op ⟨(s.arena.withInner a').resetBuffer, s.ledger.rewind i⟩
  | pop {cp : ArenaCheckpoint} {a' : ArenaInner} :
      s.arena.inner.checkpoints.getLast? = some cp →
      { s.arena.inner with
        checkpoints := s.arena.inner.checkpoints.dropLast }.rewindToCheckpoint debug cp = some a' →
      Acts debug s .popAndRewind
        ⟨(s.arena.withInner a').resetBuffer, s.ledger.rewind s.popIndex⟩
  | clear : Acts debug s .clearCheckpoints { s with arena := s.arena.clearCheckpoints }
  | reset : Acts debug s .reset ⟨s.arena.reset, .empty⟩
  | shrink : Acts debug s .resetAndShrinkToFit ⟨s.arena.resetAndShrinkToFit, .empty⟩

section Acts

variable {debug : Bool} {s s' : Sess} {op : Op}

/-- A write of the allocated bytes touches nothing apart from them. -/
theorem agree_write_alloc {m : Mem} {p n : Nat} {bs : List UInt8} (h : bs.length = n) (t : Span)
    (ht : t.Apart ⟨p, n⟩) : Mem.Agree m (m.write p bs) t := by
  subst h
  exact Mem.agree_write ht

theorem Sess.checkpoint_acts (hop : op.Marks)
    (e : (s.arena.checkpoint.map fun r => (⟨r.2, s.ledger.mark r.1⟩ : Sess)) = some s') :
    Acts debug s op s' := by
  obtain ⟨r, hr, rfl⟩ := Option.map_eq_some_iff.mp e
  obtain ⟨⟨cp, a'⟩, ha, rfl⟩ := Option.map_eq_some_iff.mp hr
  exact .mark hop ha

theorem Sess.rewind_eq_some {i : Nat} (e : s.rewind debug i = some s') :
    ∃ m a', s.ledger.marks[i]? = some m ∧
      s.arena.inner.rewindToCheckpoint debug m.1 = some a' ∧
      s' = ⟨(s.arena.withInner a').resetBuffer, s.ledger.rewind i⟩ := by
  obtain ⟨m, hm, e⟩ := Option.bind_eq_some_iff.mp e
  obtain ⟨w, hw, rfl⟩ := Option.map_eq_some_iff.mp e
  obtain ⟨a', ha, rfl⟩ := Option.map_eq_some_iff.mp hw
  exact ⟨m, a', hm, ha, rfl⟩

theorem Sess.rewind_acts {i : Nat} (hop : op.Rewinds i) (e : s.rewind debug i = some s') :
    Acts debug s op s' := by
  obtain ⟨m, a', hm, ha, rfl⟩ := rewind_eq_some e
  exact .rewind hop hm ha

theorem Sess.exec_acts (e : s.exec debug op = some s') : Acts debug s op s' := by
  cases op with
  | allocateRaw sys l =>
      obtain ⟨⟨p, w'⟩, hw, rfl⟩ := Option.map_eq_some_iff.mp e
      exact .take (.allocateRaw sys l) hw (holds_replicate _ _ _) fun t _ => Mem.agree_refl _ t
  | alloc sys v =>
      obtain ⟨r, hr, rfl⟩ := Option.map_eq_some_iff.mp e
      obtain ⟨⟨p, w'⟩, hw, rfl⟩ := Option.map_eq_some_iff.mp hr
      exact .take (.alloc sys v) hw (holds_write _ _ _) (agree_write_alloc v.length_eq)
  | allocSliceCopy sys sl =>
      obtain ⟨r, hr, rfl⟩ := Option.map_eq_some_iff.mp e
      rcases Arena.allocSliceCopy_eq_some hr with ⟨h0, rfl⟩ | ⟨l, p, w', h0, hl, hw, rfl⟩
      · exact .skip h0
      · have hlen : sl.bytes.length = l.size := sl.length_eq.trans (Layout.size_array hl)
        exact .take (.allocSliceCopy sys h0 hl) hw (holds_write _ _ _) (agree_write_alloc hlen)
  | write i j b =>
      obtain ⟨o, ho, e⟩ := Option.bind_eq_some_iff.mp e
      split at e
      · next hj =>
        cases e
        exact .write ho hj
      · cases e
  | checkpoint => exact checkpoint_acts .checkpoint e
  | scopeNew => exact checkpoint_acts .scopeNew e
  | pushCheckpoint =>
      obtain ⟨r, hr, rfl⟩ := Option.map_eq_some_iff.mp e
      obtain ⟨r', hr', rfl⟩ := Option.map_eq_some_iff.mp hr
      obtain ⟨⟨cp, a'⟩, ha, rfl⟩ := Option.map_eq_some_iff.mp hr'
      exact .push ha
  | rewindToCheckpoint i => exact rewind_acts (.rewindToCheckpoint i) e
  | scopeReset i => exact rewind_acts (.scopeReset i) e
  | scopeDrop i => exact rewind_acts (.scopeDrop i) e
  | popAndRewind =>
      obtain ⟨⟨cp, w⟩, hr, rfl⟩ := Option.map_eq_some_iff.mp e
      obtain ⟨hcp, a', ha, rfl⟩ := Arena.popAndRewind_eq_some.mp hr
      exact .pop hcp ha
  | clearCheckpoints =>
      cases e
      exact .clear
  | reset =>
      cases e
      exact .reset
  | resetAndShrinkToFit =>
      cases e
      exact .shrink

section Asks

variable {sys : Option Nat} {l : Layout} {data : List (Option UInt8)}

theorem Op.Asks.length (h : op.Asks sys l data) : data.length = l.size := by
  cases h with
  | allocateRaw sys l => exact List.length_replicate
  | alloc sys v => rw [List.length_map, v.length_eq]
  | @allocSliceCopy sys sl l _ hl =>
      rw [List.length_map, sl.length_eq]
      exact Layout.size_array hl

/-- The block for a request is the one its operation may be given. -/
theorem Op.Asks.block (h : op.Asks sys l data) : op.block = sys.map (growthBlock · l.size) := by
  cases h with
  | allocateRaw sys l => rfl
  | alloc sys v => rfl
  | allocSliceCopy sys _ hl =>
      rw [← Layout.size_array hl]
      rfl

/-- It is free if the environment keeps its promise. -/
theorem Op.Asks.fresh (h : op.Asks sys l data) {a : ArenaInner}
    (hfresh : ∀ blk ∈ op.block, a.Fresh blk) :
    ∀ ptr, sys = some ptr → a.Fresh (growthBlock ptr l.size) := by
  intro ptr hptr
  refine hfresh _ ?_
  rw [h.block, hptr]
  rfl

end Asks

theorem Op.Rewinds.target {i : Nat} (h : op.Rewinds i) : s.target op = some i := by
  cases h <;> rfl

end Acts

end ArenaB
