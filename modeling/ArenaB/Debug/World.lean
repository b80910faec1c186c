/-
  File:      ArenaB/Debug/World.lean
  Subject:   Processes with any number of arenas, in a build with the debug feature and without
             lockfree and thread_local.

  * `DebugArena` -- an arena: its `ArenaInner`, the id its `DebugAllocator` got, the address it
    lives at, and what its callers know: a chronicle of the references they got, of the checkpoints
    they took and of the rewinds. No function of the source reads the chronicle;
  * `allocateRaw` -- the source function with its guards: a guarded copy on every path, and on the
    path of the current chunk one more registration;
  * `worlds` -- the machine: arenas are created, moved, dropped and used in any order. The
    environment hands out blocks that overlap neither a chunk nor a guard block;
  * `Turn` and **`exec_turn`** -- everything one call can do, once;
  * `World.Inv` and **`reach_inv`** -- what holds in every process: each arena's checkpoints are in
    order, guard blocks belong to one reference each, and the registry lists, under the id of an
    arena, every registration its references made -- and nothing under any other key;
  * `Happens` and **`exec_happens`** -- everything one event can do, once. What is proved about
    processes elsewhere goes by cases on `Happens` and on `Turn`.
-/
import ArenaB.Base.Chronicle
import ArenaB.Arena.Live
import ArenaB.Debug.State

namespace ArenaB

open Base

/-! ## 1. Arenas with guards -/

/-- A reference a caller got: the pointer, the size, the checkpoint id of that moment, the guard
    block if there is one, and whether the arena had to grow for it. -/
structure Ref where
  ptr : Nat
  size : Nat
  checkpointId : Nat
  block : Option Nat
  grown : Bool
  deriving DecidableEq, Repr

namespace Ref

/-- The guard block. -/
def span (r : Ref) : Option Span := r.block.map fun b => ⟨b, guardedSize r.size⟩

/-- The bytes the caller may use. -/
def data (r : Ref) : Span := ⟨r.ptr, r.size⟩

/-- What the allocation may write to: its guard block, or the memory of the arena itself. -/
def place (r : Ref) : Span := r.span.getD r.data

/-- How often the allocation is registered: with its guard, and on the path of the current
    chunk. -/
def registered (r : Ref) : Nat :=
  if r.size = 0 then 0 else (!r.grown).toNat + r.block.isSome.toNat

/-- The records it leaves in the registry. -/
def infos (r : Ref) : List AllocationInfo :=
  List.replicate r.registered ⟨r.ptr, r.size, r.checkpointId⟩

theorem span_eq_some {r : Ref} {s : Span} :
    r.span = some s ↔ ∃ b, r.block = some b ∧ ⟨b, guardedSize r.size⟩ = s :=
  Option.map_eq_some_iff

theorem mem_infos {r : Ref} {info : AllocationInfo} :
    info ∈ r.infos ↔ r.registered ≠ 0 ∧ info = ⟨r.ptr, r.size, r.checkpointId⟩ :=
  List.mem_replicate

theorem size_ne_zero {r : Ref} (h : r.registered ≠ 0) : r.size ≠ 0 := by
  intro h0
  exact h (if_pos h0)

theorem registered_ne_zero {r : Ref} {b : Nat} (h : r.size ≠ 0) (hb : r.block = some b) :
    r.registered ≠ 0 := by
  unfold registered
  rw [if_neg h, hb]
  simp

end Ref

/-- A byte of the guard in front of the data lies in the guard block. -/
theorem guardBlock_has {b n i : Nat} (hi : i < guardSize) :
    Span.Has ⟨b, guardedSize n⟩ (b + debugGuardSize + i) := by
  simp only [Span.Has, Span.fin, guardedSize, debugGuardSize, guardSize] at hi ⊢
  omega

/-- `Arena` in a debug build, and what its callers know. -/
structure DebugArena where
  inner : ArenaInner
  arenaId : Nat
  addr : Nat
  chronicle : Chronicle Ref ArenaCheckpoint

/-- What `allocate_raw` returns and leaves. -/
structure Grant where
  ref : Ref
  inner : ArenaInner
  process : Process

namespace DebugArena

def withInner (d : DebugArena) (inner : ArenaInner) : DebugArena := { d with inner := inner }

/-- The arena as a build without guards has it. -/
def bare (d : DebugArena) : Arena :=
  ⟨d.inner, LockFreeStats.new, d.addr, ThreadSlab.new, fun _ => 0⟩

/-- The valid checkpoints, oldest first. -/
def cps (d : DebugArena) : List ArenaCheckpoint := d.chronicle.ledger.marks.map fun m => m.1.1

/-- The end of both chunk paths of `allocate_raw`: the guarded copy of what is at `ptr`, and, if
    the arena did not grow, the second registration. -/
def protect (d : DebugArena) (p : Process) (guard : Option Nat) (ptr size : Nat)
    (inner : ArenaInner) (grown : Bool) : Grant :=
  let r := p.allocateWithGuard d.arenaId guard ptr size inner.currentCheckpointId
  { ref := ⟨r.1, size, inner.currentCheckpointId, guardBlock guard size, grown⟩
    inner := inner
    process :=
      if grown then r.2
      else r.2.registerAllocation d.arenaId r.1 size inner.currentCheckpointId }

/-- `Arena::allocate_raw`; `guard` is what the system allocator returns for the guard block. -/
def allocateRaw (d : DebugArena) (p : Process) (sys guard : Option Nat) (layout : Layout) :
    Option Grant :=
  if layout.size = 0 then
    some ⟨⟨1, 0, d.inner.currentCheckpointId, none, false⟩, d.bare.countZeroSize.inner, p⟩
  else
    match d.inner.allocate layout with
    | some r => some (d.protect p guard r.1 layout.size r.2 false)
    | none =>
        match d.inner.addChunk sys (nextChunkCapacity layout.size) with
        | .error _ => none
        | .ok r =>
            (r.2.allocate layout).map fun r => d.protect p guard r.1 layout.size r.2 true

/-- The caller got a reference. -/
def took (d : DebugArena) (g : Grant) : DebugArena :=
  { d with inner := g.inner, chronicle := d.chronicle.record g.ref }

/-- The caller took a checkpoint. -/
def marked (d : DebugArena) (cp : ArenaCheckpoint) (inner : ArenaInner) : DebugArena :=
  { d with inner := inner, chronicle := d.chronicle.mark cp }

/-- The caller rewound to the `i`th valid checkpoint. -/
def rewound (d : DebugArena) (i : Nat) (inner : ArenaInner) : DebugArena :=
  { d with inner := inner, chronicle := d.chronicle.rewind i }

/-- The caller reset the arena. -/
def cleared (d : DebugArena) (inner : ArenaInner) : DebugArena :=
  { d with inner := inner, chronicle := d.chronicle.clear }

/-- `Arena::rewind_to_checkpoint` to the `i`th valid checkpoint. -/
def rewind (d : DebugArena) (p : Process) (i : Nat) : Option (DebugArena × Process) :=
  d.chronicle.ledger.marks[i]?.bind fun m =>
    (d.inner.rewindToCheckpoint true m.1.1).map fun inner =>
      (d.rewound i inner, p.rewindToCheckpoint m.1.1.checkpointId)

/-- The position among the valid checkpoints of the one on top of the stack. -/
def popIndex (d : DebugArena) : Nat :=
  match d.inner.checkpoints.getLast? with
  | none => 0
  | some cp => d.cps.findIdx fun c => c = cp

/-- One call. -/
def exec (d : DebugArena) (p : Process) (guard : Option Nat) : Op → Option (DebugArena × Process)
  | .allocateRaw sys layout =>
      (d.allocateRaw p sys guard layout).map fun g => (d.took g, g.process)
  | .alloc sys value =>
      (d.allocateRaw p sys guard value.layout).map fun g =>
        (d.took g, g.process.withMem (g.process.mem.write g.ref.ptr value.bytes))
  | .allocSliceCopy sys slice =>
      if slice.len = 0 then some (d, p)
      else
        match slice.elem.array slice.len with
        | none => some (d, p)
        | some layout =>
            (d.allocateRaw p sys guard layout).map fun g =>
              (d.took g, g.process.withMem (g.process.mem.write g.ref.ptr slice.bytes))
  | .write i j b =>
      d.chronicle.ledger.log[i]?.bind fun x =>
        if j < x.1.size then some (d, p.withMem (p.mem.write (x.1.ptr + j) [b])) else none
  | .checkpoint => d.inner.checkpoint.map fun r => (d.marked r.1 r.2, p)
  | .scopeNew => d.inner.checkpoint.map fun r => (d.marked r.1 r.2, p)
  | .pushCheckpoint => d.inner.pushCheckpoint.map fun r => (d.marked r.1 r.2, p)
  | .rewindToCheckpoint i => d.rewind p i
  | .scopeReset i => d.rewind p i
  | .scopeDrop i => d.rewind p i
  | .popAndRewind =>
      d.inner.checkpoints.getLast?.bind fun cp =>
        ({ d.inner with
            checkpoints := d.inner.checkpoints.dropLast
          }.rewindToCheckpoint true cp).map fun inner =>
            (d.rewound d.popIndex inner, p.rewindToCheckpoint cp.checkpointId)
  | .clearCheckpoints => some (d.withInner d.bare.clearCheckpoints.inner, p)
  | .reset => some (d.cleared d.bare.reset.inner, p)
  | .resetAndShrinkToFit => some (d.cleared d.bare.resetAndShrinkToFit.inner, p)

end DebugArena

/-! ## 2. Processes -/

/-- A process: what its arenas share, and the arenas. -/
structure World where
  process : Process
  arenas : List DebugArena

/-- `DebugStats`. -/
structure DebugStats where
  totalAllocations : Nat
  activeCheckpoints : Nat
  currentCheckpointId : Nat
  corruptedAllocations : Nat
  leakReports : Nat
  deriving DecidableEq, Repr

/-- What happens in a process; an arena is named by its position. -/
inductive WorldOp where
  | create (sys sys' : Option Nat) (capacity addr : Nat)
  | move (k addr : Nat)
  | drop (k : Nat)
  | call (k : Nat) (guard : Option Nat) (op : Op)

namespace World

/-- `Arena::check_valid`: the key is the address of the arena. -/
def checkValid (w : World) (d : DebugArena) (ptr : Nat) : Except String Unit :=
  w.process.state.validateAllocation w.process.mem d.addr ptr

/-- `Arena::debug_stats`: the key is the address of the arena. -/
def debugStats (w : World) (d : DebugArena) : DebugStats where
  totalAllocations := (w.process.state.getStats d.addr).1
  activeCheckpoints := w.process.state.getCurrentCheckpointId d.addr - 1
  currentCheckpointId := w.process.state.getCurrentCheckpointId d.addr
  corruptedAllocations := (w.process.state.getStats d.addr).2
  leakReports := 0

/-- One event in a process. -/
def exec (w : World) : WorldOp → Option World
  | .create sys sys' capacity addr =>
      (Arena.withCapacity sys sys' none addr ThreadSlab.new (fun _ => 0) capacity).map fun a =>
        ⟨w.process.newArenaId.2,
          w.arenas ++ [⟨a.inner, w.process.newArenaId.1, addr, .empty⟩]⟩
  | .move k addr =>
      w.arenas[k]?.map fun d => { w with arenas := w.arenas.set k { d with addr := addr } }
  | .drop k =>
      w.arenas[k]?.map fun d => ⟨w.process.cleanupArena d.arenaId, w.arenas.eraseIdx k⟩
  | .call k guard op =>
      w.arenas[k]?.bind fun d =>
        (d.exec w.process guard op).map fun r => ⟨r.2, w.arenas.set k r.1⟩

/-- A block that overlaps no chunk and no guard block. -/
def Fresh (w : World) (blk : Span) : Prop :=
  (∀ g ∈ w.process.guards, g.Apart blk) ∧ ∀ d ∈ w.arenas, ∀ t ∈ d.inner.spans, t.Apart blk

instance (w : World) (blk : Span) : Decidable (w.Fresh blk) := by
  unfold Fresh
  infer_instance

end World

/-- The number of bytes an operation asks for. -/
def Op.size? : Op → Option Nat
  | .allocateRaw _ layout => some layout.size
  | .alloc _ value => some value.layout.size
  | .allocSliceCopy _ slice => some (slice.elem.size * slice.len)
  | _ => none

/-- The two resets among the operations. -/
def Op.isReset : Op → Bool
  | .reset => true
  | .resetAndShrinkToFit => true
  | _ => false

/-- The id of the checkpoint an operation rewinds to. -/
def DebugArena.target (d : DebugArena) : Op → Option Nat
  | .rewindToCheckpoint i => d.cps[i]?.map ArenaCheckpoint.checkpointId
  | .scopeReset i => d.cps[i]?.map ArenaCheckpoint.checkpointId
  | .scopeDrop i => d.cps[i]?.map ArenaCheckpoint.checkpointId
  | .popAndRewind => d.inner.checkpoints.getLast?.map ArenaCheckpoint.checkpointId
  | _ => none

/-- The blocks the system allocator stands ready to return. -/
def WorldOp.blocks : WorldOp → List Span
  | .create sys sys' capacity addr =>
      ((Arena.withCapacity sys sys' none addr ThreadSlab.new (fun _ => 0) capacity).map fun a =>
        a.inner.spans).getD []
  | .call _ guard op =>
      op.block.toList ++ (guard.bind fun b => op.size?.map fun n => ⟨b, guardedSize n⟩).toList
  | _ => []

/-- The address an arena comes to live at. -/
def WorldOp.addr? : WorldOp → Option Nat
  | .create _ _ _ addr => some addr
  | .move _ addr => some addr
  | _ => none

/-- The processes of a debug build: an arena lives at an aligned address, blocks do not overlap. -/
def worlds : System World WorldOp where
  init w := w = ⟨⟨w.process.mem, DebugState.new, []⟩, []⟩
  ok w op := (∀ blk ∈ op.blocks, w.Fresh blk) ∧ op.blocks.Pairwise Span.Apart ∧
    ∀ addr ∈ op.addr?, addr ≠ 0 ∧ addr % 8 = 0
  step := World.exec

instance (w : World) (op : WorldOp) : Decidable (worlds.ok w op) :=
  inferInstanceAs (Decidable ((∀ blk ∈ op.blocks, w.Fresh blk) ∧ op.blocks.Pairwise Span.Apart ∧
    ∀ addr ∈ op.addr?, addr ≠ 0 ∧ addr % 8 = 0))

/-- A process that has just started. -/
def World.start : World := ⟨⟨fun _ => 0, DebugState.new, []⟩, []⟩

theorem World.init_start : worlds.init World.start := rfl

/-! ## 3. What an allocation does -/

/-- The reference `r` is admitted to the process and registered `n` times. -/
structure Admits (arenaId n : Nat) (r : Ref) (p p' : Process) : Prop where
  records : ∀ k, p'.state.records k = p.state.records k ++
    if k = arenaId then List.replicate n ⟨r.ptr, r.size, r.checkpointId⟩ else []
  recorded : ∀ k, p'.state.recorded k =
    if k = arenaId ∧ n ≠ 0 then some r.checkpointId else p.state.recorded k
  nextArenaId : p'.state.nextArenaId = p.state.nextArenaId
  sane : p.state.Sane → p'.state.Sane
  guards : p'.guards = r.span.toList ++ p.guards
  agree : ∀ t : Span, t.Apart r.place → Mem.Agree p.mem p'.mem t
  guard : ∀ b ∈ r.block, r.ptr = b + (debugGuardSize + guardSize) ∧
    ∀ i < guardSize, p'.mem (b + debugGuardSize + i) = guardByte i

section Admits

variable {p p' : Process} {arenaId n : Nat} {r : Ref}

/-- The caller's bytes lie in the place of the reference. -/
theorem Ref.data_inside (h : ∀ b ∈ r.block, r.ptr = b + (debugGuardSize + guardSize)) :
    r.data.Inside r.place := by
  unfold Ref.place Ref.span
  cases hb : r.block with
  | none => exact Span.Inside.refl _
  | some b =>
      have hp := h b hb
      simp only [Option.map_some, Option.getD_some, Ref.data, Span.Inside, Span.fin, guardedSize,
        debugGuardSize, guardSize] at hp ⊢
      omega

/-- The caller writes into what it got. -/
theorem Admits.write (h : Admits arenaId n r p p') (bs : List UInt8) (hbs : bs.length ≤ r.size) :
    Admits arenaId n r p (p'.withMem (p'.mem.write r.ptr bs)) := by
  have hin : Span.Inside ⟨r.ptr, bs.length⟩ r.place := by
    have hd := r.data_inside fun b hb => (h.guard b hb).1
    exact ⟨hd.1, (Nat.add_le_add_left hbs r.ptr).trans hd.2⟩
  refine ⟨h.records, h.recorded, h.nextArenaId, h.sane, h.guards, fun t ht => ?_, fun b hb => ?_⟩
  · exact (h.agree t ht).trans (Mem.agree_write (ht.mono (Span.Inside.refl t) hin))
  · obtain ⟨hptr, hg⟩ := h.guard b hb
    refine ⟨hptr, fun i hi => ?_⟩
    rw [← hg i hi]
    refine if_neg ?_
    rw [hptr]
    simp only [guardSize] at hi ⊢
    omega

/-- A further registration. -/
theorem Admits.register (h : Admits arenaId n r p p') :
    Admits arenaId (n + 1) r p
      (p'.registerAllocation arenaId r.ptr r.size r.checkpointId) := by
  refine ⟨fun k => ?_, fun k => ?_, h.nextArenaId, fun hs => (h.sane hs).registerAllocation _ _ _ _,
    h.guards, h.agree, h.guard⟩
  · refine DebugState.records_registerAllocation.trans ?_
    by_cases hk : k = arenaId
    · subst hk
      simp [h.records, List.replicate_succ']
    · simp [h.records, hk]
  · refine DebugState.recorded_registerAllocation.trans ?_
    by_cases hk : k = arenaId
    · simp [hk]
    · simp [h.recorded, hk]

/-- `allocate_with_guard` registers what it copies. -/
theorem Process.allocateWithGuard_admits (p : Process) (arenaId : Nat) (sys : Option Nat)
    (ptr size cp : Nat) (grown : Bool) :
    Admits arenaId (guardBlock sys size).isSome.toNat
      ⟨(p.allocateWithGuard arenaId sys ptr size cp).1, size, cp, guardBlock sys size, grown⟩ p
      (p.allocateWithGuard arenaId sys ptr size cp).2 := by
  unfold Process.allocateWithGuard
  cases hb : guardBlock sys size with
  | none =>
      exact ⟨fun k => by simp, fun k => by simp, rfl, id, rfl, fun t _ => Mem.agree_refl _ t,
        (fun _ h => by cases h)⟩
  | some b =>
      -- one registration of a reference whose copy has just been written
      have h0 : Admits arenaId 0
          ⟨b + (debugGuardSize + guardSize), size, cp, some b, grown⟩ p
          { p with
            mem := writeGuarded p.mem b ptr size cp
            guards := ⟨b, guardedSize size⟩ :: p.guards } := by
        refine ⟨fun k => by simp, fun k => by simp, rfl, id, rfl,
          fun t ht => writeGuarded_agree ht, fun c hc => ?_⟩
        cases hc
        exact ⟨rfl, fun i hi => writeGuarded_guard hi⟩
      exact h0.register

end Admits

namespace DebugArena

variable {d d' : DebugArena} {p p' : Process} {sys guard : Option Nat} {l : Layout} {g : Grant}
  {op : Op}

/-- The two ways through `allocate_raw`. -/
theorem allocateRaw_cases (e : d.allocateRaw p sys guard l = some g) :
    (l.size = 0 ∧
      g = ⟨⟨1, 0, d.inner.currentCheckpointId, none, false⟩, d.bare.countZeroSize.inner, p⟩) ∨
    (l.size ≠ 0 ∧ ∃ ptr inner grown, d.inner.allocateOrGrow sys l = some (ptr, inner) ∧
      g = d.protect p guard ptr l.size inner grown) := by
  unfold allocateRaw at e
  split at e
  · next h0 =>
    cases e
    exact Or.inl ⟨h0, rfl⟩
  · next h0 =>
    refine Or.inr ⟨h0, ?_⟩
    split at e
    · next r hr =>
      cases e
      refine ⟨r.1, r.2, false, ?_, rfl⟩
      simp only [ArenaInner.allocateOrGrow, hr]
    · next hr =>
      split at e
      · cases e
      · next r hc =>
        obtain ⟨r', hr', rfl⟩ := Option.map_eq_some_iff.mp e
        refine ⟨r'.1, r'.2, true, ?_, rfl⟩
        simp only [ArenaInner.allocateOrGrow, hr, hc]
        exact hr'

/-- **What `allocate_raw` does**, to the arena and to the process. -/
structure Granted (d : DebugArena) (p : Process) (sys guard : Option Nat) (l : Layout)
    (g : Grant) : Prop where
  shape : g.inner.Shape
  grows : d.inner.Grows g.inner
  size : g.ref.size = l.size
  checkpointId : g.ref.checkpointId = d.inner.currentCheckpointId
  block : g.ref.block = if l.size = 0 then none else guardBlock guard l.size
  spans : g.inner.spans = d.inner.spans ∨
    ∃ ptr, sys = some ptr ∧ g.inner.spans = d.inner.spans ++ [growthBlock ptr l.size]
  raw : g.ref.block = none → g.ref.size ≠ 0 → ∃ s ∈ g.inner.spans, g.ref.data.Inside s
  admits : Admits d.arenaId g.ref.registered g.ref p g.process

theorem allocateRaw_granted (h : d.inner.Shape) (e : d.allocateRaw p sys guard l = some g) :
    Granted d p sys guard l g := by
  rcases allocateRaw_cases e with ⟨h0, rfl⟩ | ⟨h0, ptr, inner, grown, ha, rfl⟩
  · have hs : d.inner.Same d.bare.countZeroSize.inner := ⟨rfl, rfl, rfl, rfl⟩
    exact ⟨hs.shape h, hs.grows h, h0.symm, rfl, (if_pos h0).symm, Or.inl hs.spans,
      fun _ hne => absurd rfl hne,
      ⟨fun k => by simp [Ref.registered], fun k => by simp [Ref.registered], rfl, id, rfl,
        fun t _ => Mem.agree_refl _ t, (fun _ h => by cases h)⟩⟩
  · obtain ⟨h1, h2, h3, h4⟩ := ArenaInner.allocateOrGrow_spec h ha
    have hadm := p.allocateWithGuard_admits d.arenaId guard ptr l.size
      inner.currentCheckpointId grown
    refine ⟨h1, h2, rfl, h2.nextId, (if_neg h0).symm, h4, fun hb _ => ?_, ?_⟩
    · -- without a guard the caller has the arena's own memory
      have hptr : (d.protect p guard ptr l.size inner grown).ref.ptr = ptr := by
        have hb' : guardBlock guard l.size = none := hb
        simp only [protect, Process.allocateWithGuard_none hb']
      obtain ⟨s, hs, hin⟩ := h3.inChunk.inside h1
      refine ⟨s, hs, ?_⟩
      rw [Ref.data, hptr]
      exact hin
    · cases grown with
      | true =>
          simpa [protect, Ref.registered, h0] using hadm
      | false =>
          have hreg := hadm.register
          simpa [protect, Ref.registered, h0, Nat.add_comm] using hreg

/-- A guard block is for a request of non-zero size, and came from the environment. -/
theorem Granted.of_block (hg : Granted d p sys guard l g) {b : Nat} (hb : g.ref.block = some b) :
    g.ref.size ≠ 0 ∧ guard = some b := by
  have hb' := hg.block.symm.trans hb
  rw [hg.size]
  split at hb'
  · cases hb'
  · next h0 => exact ⟨h0, guardBlock_eq_some hb'⟩

/-! ## 4. What a call can do -/

/-- What the environment has ready for a request of `n` bytes. -/
structure Ready (fresh : Span → Prop) (sys guard : Option Nat) (n : Nat) : Prop where
  newChunk : ∀ ptr, sys = some ptr → fresh (growthBlock ptr n)
  newGuard : ∀ b, guard = some b → fresh ⟨b, guardedSize n⟩
  apart : ∀ ptr b, sys = some ptr → guard = some b →
    (growthBlock ptr n).Apart ⟨b, guardedSize n⟩

/-- **Everything a call can do.** -/
inductive Turn (fresh : Span → Prop) (guard : Option Nat) (op : Op) (d : DebugArena)
    (p : Process) : DebugArena → Process → Prop where
  | idle : d.target op = none → Turn fresh guard op d p d p
  /-- An allocation, and the bytes the caller puts into it. -/
  | take {sys : Option Nat} {l : Layout} {g : Grant} {bs : List UInt8} :
      op.size? = some l.size → Ready fresh sys guard l.size → Granted d p sys guard l g →
      bs.length ≤ l.size → d.target op = none →
      Turn fresh guard op d p (d.took g) (g.process.withMem (g.process.mem.write g.ref.ptr bs))
  | write {x : Ref × Nat} {j : Nat} {b : UInt8} : x ∈ d.chronicle.ledger.log → j < x.1.size →
      d.target op = none →
      Turn fresh guard op d p d (p.withMem (p.mem.write (x.1.ptr + j) [b]))
  /-- A checkpoint, kept by the caller or on the stack as well. -/
  | mark {cp : ArenaCheckpoint} {a a' : ArenaInner} : d.inner.checkpoint = some (cp, a) →
      a' = a ∨ a' = { a with checkpoints := a.checkpoints ++ [cp] } → d.target op = none →
      Turn fresh guard op d p (d.marked cp a') p
  /-- A rewind, after which no more than before is on the stack. -/
  | rewind {i : Nat} {m : (ArenaCheckpoint × Nat) × Nat} {stack : List ArenaCheckpoint}
      {a' : ArenaInner} : d.chronicle.ledger.marks[i]? = some m →
      stack.Sublist d.inner.checkpoints →
      { d.inner with checkpoints := stack }.rewindToCheckpoint true m.1.1 = some a' →
      d.target op = some m.1.1.checkpointId →
      Turn fresh guard op d p (d.rewound i a') (p.rewindToCheckpoint m.1.1.checkpointId)
  | clear : d.target op = none →
      Turn fresh guard op d p (d.withInner { d.inner with checkpoints := [] }) p
  /-- A reset, which may give chunks back. -/
  | forget {a' : ArenaInner} : op.isReset = true → a'.Shape → a'.checkpoints = [] →
      a'.currentCheckpointId = d.inner.currentCheckpointId → a'.spans ⊆ d.inner.spans →
      d.target op = none →
      Turn fresh guard op d p (d.cleared a') p

theorem cps_getElem? {i : Nat} {m : (ArenaCheckpoint × Nat) × Nat}
    (h : d.chronicle.ledger.marks[i]? = some m) : d.cps[i]? = some m.1.1 := by
  rw [cps, List.getElem?_map, h]
  rfl

/-- The top of the stack is found among the valid checkpoints. -/
theorem popIndex_spec (h : StackOk d.inner d.cps) {cp : ArenaCheckpoint}
    (hcp : d.inner.checkpoints.getLast? = some cp) :
    ∃ m, d.chronicle.ledger.marks[d.popIndex]? = some m ∧ m.1.1 = cp := by
  have hmem : cp ∈ d.cps := h.stack.subset (List.mem_of_getLast? hcp)
  have hlt : d.cps.findIdx (fun c => c = cp) < d.cps.length :=
    List.findIdx_lt_length_of_exists ⟨cp, hmem, by simp⟩
  have hget : d.cps[d.popIndex]? = some cp := by
    rw [popIndex, hcp]
    refine (List.getElem?_eq_getElem hlt).trans (congrArg some ?_)
    simpa using List.findIdx_getElem (w := hlt)
  rw [cps, List.getElem?_map, Option.map_eq_some_iff] at hget
  exact hget

theorem rewind_turn {fresh : Span → Prop} {i : Nat}
    (htarget : d.target op = d.cps[i]?.map ArenaCheckpoint.checkpointId)
    (e : d.rewind p i = some (d', p')) : Turn fresh guard op d p d' p' := by
  obtain ⟨m, hm, e⟩ := Option.bind_eq_some_iff.mp e
  obtain ⟨a', ha, e⟩ := Option.map_eq_some_iff.mp e
  cases e
  refine .rewind hm (List.Sublist.refl _) ha ?_
  rw [htarget, cps_getElem? hm]
  rfl

theorem exec_turn {fresh : Span → Prop} (hk : StackOk d.inner d.cps)
    (hready : ∀ sys n, op.block = sys.map (growthBlock · n) → op.size? = some n →
      Ready fresh sys guard n)
    (e : d.exec p guard op = some (d', p')) : Turn fresh guard op d p d' p' := by
  cases op with
  | allocateRaw sys l =>
      obtain ⟨g, hg, e⟩ := Option.map_eq_some_iff.mp e
      cases e
      have ht : Turn fresh guard (.allocateRaw sys l) d p (d.took g)
          (g.process.withMem (g.process.mem.write g.ref.ptr [])) :=
        .take rfl (hready _ _ rfl rfl) (allocateRaw_granted hk.shape hg) (Nat.zero_le _) rfl
      rwa [Mem.write_nil] at ht
  | alloc sys v =>
      obtain ⟨g, hg, e⟩ := Option.map_eq_some_iff.mp e
      cases e
      exact .take rfl (hready _ _ rfl rfl) (allocateRaw_granted hk.shape hg)
        (Nat.le_of_eq v.length_eq) rfl
  | allocSliceCopy sys sl =>
      have e' : (if sl.len = 0 then some (d, p) else _) = some (d', p') := e
      split at e'
      · cases e'
        exact .idle rfl
      · split at e'
        · cases e'
          exact .idle rfl
        · next l hl =>
          have hsize := Layout.size_array hl
          obtain ⟨g, hg, e'⟩ := Option.map_eq_some_iff.mp e'
          cases e'
          have hn : (Op.allocSliceCopy sys sl).size? = some l.size := congrArg some hsize
          exact .take hn (hready _ _ (by rw [← hsize]; rfl) hn) (allocateRaw_granted hk.shape hg)
            (Nat.le_of_eq (sl.length_eq.trans hsize)) rfl
  | write i j b =>
      obtain ⟨x, hx, e⟩ := Option.bind_eq_some_iff.mp e
      split at e
      · next hj =>
        cases e
        exact .write (List.mem_of_getElem? hx) hj rfl
      · cases e
  | checkpoint =>
      obtain ⟨r, hr, e⟩ := Option.map_eq_some_iff.mp e
      cases e
      exact .mark hr (Or.inl rfl) rfl
  | scopeNew =>
      obtain ⟨r, hr, e⟩ := Option.map_eq_some_iff.mp e
      cases e
      exact .mark hr (Or.inl rfl) rfl
  | pushCheckpoint =>
      obtain ⟨r, hr, e⟩ := Option.map_eq_some_iff.mp e
      obtain ⟨r', hr', rfl⟩ := Option.map_eq_some_iff.mp hr
      cases e
      exact .mark hr' (Or.inr rfl) rfl
  | rewindToCheckpoint i => exact rewind_turn rfl e
  | scopeReset i => exact rewind_turn rfl e
  | scopeDrop i => exact rewind_turn rfl e
  | popAndRewind =>
      obtain ⟨cp, hcp, e⟩ := Option.bind_eq_some_iff.mp e
      obtain ⟨a', ha, e⟩ := Option.map_eq_some_iff.mp e
      cases e
      obtain ⟨m, hm, rfl⟩ := popIndex_spec hk hcp
      exact .rewind hm (List.dropLast_sublist _) ha (by rw [target, hcp]; rfl)
  | clearCheckpoints =>
      cases e
      exact .clear rfl
  | reset =>
      cases e
      have hs := Arena.same_resetBuffer (d.bare.withInner { d.inner with
        chunks := d.inner.chunks.map Chunk.reset
        currentChunk := 0
        stats := { d.inner.stats with bytesUsed := 0, bytesAllocated := 0, allocationCount := 0 }
        checkpoints := [] })
      refine .forget rfl (Arena.reset_shape hk.shape) hs.checkpoints hs.nextId ?_ rfl
      rw [Arena.reset_spans]
      exact List.Subset.refl _
  | resetAndShrinkToFit =>
      cases e
      refine .forget rfl (Arena.resetAndShrinkToFit_shape hk.shape) rfl rfl (fun t ht => ?_) rfl
      rw [Arena.resetAndShrinkToFit_spans] at ht
      exact List.mem_of_mem_take ht

/-- What the environment promises for a call is what its request needs. -/
theorem ready_of_blocks {fresh : Span → Prop} {k : Nat}
    (hf : ∀ blk ∈ (WorldOp.call k guard op).blocks, fresh blk)
    (hp : (WorldOp.call k guard op).blocks.Pairwise Span.Apart) (sys : Option Nat) (n : Nat)
    (hb : op.block = sys.map (growthBlock · n)) (hn : op.size? = some n) :
    Ready fresh sys guard n := by
  simp only [WorldOp.blocks, hb, hn] at hf hp
  refine ⟨fun ptr hs => hf _ ?_, fun b hg => hf _ ?_, fun ptr b hs hg => ?_⟩
  · simp [hs]
  · simp [hg]
  · simpa [hs, hg] using hp

/-- What a rewind leaves. -/
theorem Turn.of_target {fresh : Span → Prop} (ht : Turn fresh guard op d p d' p') {c : Nat}
    (h : d.target op = some c) : p' = p.rewindToCheckpoint c ∧
      ∃ i a', d' = d.rewound i a' ∧ a'.currentCheckpointId = c + 1 := by
  have hno : d.target op ≠ none := by
    rw [h]
    exact Option.some_ne_none c
  cases ht with
  | rewind hm _ e htarget =>
      rw [h] at htarget
      cases htarget
      obtain ⟨_, rfl⟩ := ArenaInner.rewind_eq_some.mp e
      exact ⟨rfl, _, _, rfl, rfl⟩
  | idle hn => exact absurd hn hno
  | take _ _ _ _ hn => exact absurd hn hno
  | write _ _ hn => exact absurd hn hno
  | mark _ _ hn => exact absurd hn hno
  | clear hn => exact absurd hn hno
  | forget _ _ _ _ _ hn => exact absurd hn hno

/-- A rewind asks for no memory, so nothing need be promised for it. -/
theorem exec_target {c : Nat} (hk : StackOk d.inner d.cps) (h : d.target op = some c)
    (e : d.exec p guard op = some (d', p')) : p' = p.rewindToCheckpoint c ∧
      ∃ i a', d' = d.rewound i a' ∧ a'.currentCheckpointId = c + 1 := by
  have hsize : op.size? = none := by
    cases op <;> first | rfl | cases h
  have hturn : Turn (fun _ => False) guard op d p d' p' := by
    refine exec_turn hk (fun sys n _ hn => ?_) e
    rw [hsize] at hn
    cases hn
  exact hturn.of_target h

/-! ## 5. What every process keeps -/

/-- The guard blocks of all references an arena ever gave. -/
def guardSpans (d : DebugArena) : List Span := d.chronicle.entries.filterMap Ref.span

/-- An arena and its part of the registry. -/
structure Good (p : Process) (d : DebugArena) : Prop where
  stack : StackOk d.inner d.cps
  owned : ∀ r ∈ d.chronicle.entries, ∀ b ∈ r.block, r.size ≠ 0 ∧
    r.ptr = b + (debugGuardSize + guardSize) ∧ (⟨b, guardedSize r.size⟩ : Span) ∈ p.guards
  single : d.guardSpans.Pairwise Span.Apart
  apart : ∀ t ∈ d.inner.spans, ∀ g ∈ p.guards, t.Apart g
  id_lt : d.arenaId < p.state.nextArenaId
  registry : p.state.records d.arenaId = d.chronicle.entries.flatMap Ref.infos

theorem mem_guardSpans {s : Span} : s ∈ d.guardSpans ↔
    ∃ r ∈ d.chronicle.entries, ∃ b, r.block = some b ∧ ⟨b, guardedSize r.size⟩ = s := by
  simp only [guardSpans, List.mem_filterMap, Ref.span_eq_some]

theorem guardSpans_took (g : Grant) :
    (d.took g).guardSpans = d.guardSpans ++ g.ref.span.toList := by
  rw [guardSpans, took, Chronicle.entries_record, List.filterMap_append]
  cases hs : g.ref.span <;> simp [guardSpans, hs]

theorem guardSpans_marked (cp : ArenaCheckpoint) (a : ArenaInner) :
    (d.marked cp a).guardSpans = d.guardSpans := by
  rw [guardSpans, marked, Chronicle.entries_mark]
  rfl

theorem guardSpans_rewound (i : Nat) (a : ArenaInner) :
    (d.rewound i a).guardSpans = d.guardSpans := by
  rw [guardSpans, rewound, Chronicle.entries_rewind]
  rfl

theorem guardSpans_cleared (a : ArenaInner) : (d.cleared a).guardSpans = d.guardSpans := by
  rw [guardSpans, cleared, Chronicle.entries_clear]
  rfl

theorem Good.mem_guards (h : d.Good p) {s : Span} (hs : s ∈ d.guardSpans) : s ∈ p.guards := by
  obtain ⟨r, hr, b, hb, rfl⟩ := mem_guardSpans.mp hs
  exact (h.owned r hr b hb).2.2

/-- Where the guard in front of the data begins. -/
theorem Good.ptr_sub (h : d.Good p) {r : Ref} (hr : r ∈ d.chronicle.entries) {b : Nat}
    (hb : r.block = some b) : r.ptr - guardSize = b + debugGuardSize := by
  rw [(h.owned r hr b hb).2.1]
  simp only [guardSize]
  omega

/-- A record under the id of an arena is that of a reference. -/
theorem Good.of_record (h : d.Good p) {info : AllocationInfo}
    (hi : info ∈ p.state.records d.arenaId) : ∃ r ∈ d.chronicle.entries, r.registered ≠ 0 ∧
      info = ⟨r.ptr, r.size, r.checkpointId⟩ := by
  rw [h.registry] at hi
  obtain ⟨r, hr, hi⟩ := List.mem_flatMap.mp hi
  exact ⟨r, hr, Ref.mem_infos.mp hi⟩

/-- A guarded reference is registered. -/
theorem Good.mem_records (h : d.Good p) {r : Ref} (hr : r ∈ d.chronicle.entries) {b : Nat}
    (hb : r.block = some b) : ⟨r.ptr, r.size, r.checkpointId⟩ ∈ p.state.records d.arenaId := by
  rw [h.registry]
  refine List.mem_flatMap.mpr ⟨r, hr, Ref.mem_infos.mpr ⟨?_, rfl⟩⟩
  exact Ref.registered_ne_zero (h.owned r hr b hb).1 hb

/-- A rewind to a lower id taints the guard of a reference. -/
theorem Good.tainted (h : d.Good p)
    (hrec : p.state.recorded d.arenaId = none ↔ p.state.records d.arenaId = []) {r : Ref}
    (hr : r ∈ d.chronicle.entries) {b : Nat} (hb : r.block = some b) {c : Nat}
    (hc : c < r.checkpointId) : (p.rewindToCheckpoint c).mem (b + debugGuardSize) = 0 := by
  have hi := h.mem_records hr hb
  refine Process.rewind_mem_tainted (fun hnone => ?_) hi hc (h.ptr_sub hr hb)
  rw [hrec.mp hnone] at hi
  cases hi

/-- What a call does to the process, as the other arenas see it. -/
structure Leaves (fresh : Span → Prop) (arenaId : Nat) (p p' : Process) : Prop where
  guards : ∃ new, p'.guards = new ++ p.guards ∧ ∀ g ∈ new, fresh g
  records : ∀ k, k ≠ arenaId → p'.state.records k = p.state.records k
  recorded : (∀ k, p.state.recorded k = none ↔ p.state.records k = []) →
    ∀ k, p'.state.recorded k = none ↔ p'.state.records k = []
  nextArenaId : p'.state.nextArenaId = p.state.nextArenaId
  sane : p.state.Sane → p'.state.Sane

theorem leaves_withMem {fresh : Span → Prop} (arenaId : Nat) (p : Process) (m : Mem) :
    Leaves fresh arenaId p (p.withMem m) :=
  ⟨⟨[], rfl, (fun _ h => by cases h)⟩, fun _ _ => rfl, id, rfl, id⟩

/-- The new guard block, if the environment gave one. -/
theorem Granted.fresh {fresh : Span → Prop} (hg : Granted d p sys guard l g)
    (hr : Ready fresh sys guard l.size) {s : Span} (hs : s ∈ g.ref.span) : fresh s := by
  obtain ⟨b, hb, rfl⟩ := Ref.span_eq_some.mp hs
  rw [hg.size]
  exact hr.newGuard b (hg.of_block hb).2

theorem Turn.leaves {fresh : Span → Prop} (ht : Turn fresh guard op d p d' p') :
    Leaves fresh d.arenaId p p' ∧ d'.arenaId = d.arenaId ∧ d'.addr = d.addr ∧
      ∀ s ∈ d'.guardSpans, s ∈ d.guardSpans ∨ fresh s := by
  cases ht with
  | idle => exact ⟨leaves_withMem _ _ _, rfl, rfl, fun _ h => Or.inl h⟩
  | @take sys l g bs _ hr hg hbs =>
      refine ⟨⟨⟨_, hg.admits.guards, fun s hs => hg.fresh hr (Option.mem_toList.mp hs)⟩,
        fun k hk => ?_, fun h k => ?_, hg.admits.nextArenaId, hg.admits.sane⟩, rfl, rfl,
        fun s hs => ?_⟩
      · refine (hg.admits.records k).trans ?_
        rw [if_neg hk, List.append_nil]
      · show g.process.state.recorded k = none ↔ g.process.state.records k = []
        rw [hg.admits.records, hg.admits.recorded]
        by_cases hk : k = d.arenaId
        · by_cases hn : g.ref.registered = 0
          · simp [hn, h k]
          · simp [hk, hn]
        · simp [hk, h k]
      · rw [guardSpans_took] at hs
        rcases List.mem_append.mp hs with hs | hs
        · exact Or.inl hs
        · exact Or.inr (hg.fresh hr (Option.mem_toList.mp hs))
  | write _ _ => exact ⟨leaves_withMem _ _ _, rfl, rfl, fun _ h => Or.inl h⟩
  | mark _ _ =>
      refine ⟨leaves_withMem _ _ _, rfl, rfl, fun s hs => Or.inl ?_⟩
      rwa [guardSpans_marked] at hs
  | rewind _ _ _ _ =>
      refine ⟨⟨⟨[], rfl, (fun _ h => by cases h)⟩, fun k _ => Process.rewind_records, fun h k => ?_,
        Process.rewind_nextArenaId, fun h => h.foldl_rewind _ _ _⟩, rfl, rfl,
        fun s hs => Or.inl ?_⟩
      · rw [Process.rewind_records, Process.rewind_recorded, Option.map_eq_none_iff]
        exact h k
      · rwa [guardSpans_rewound] at hs
  | clear => exact ⟨leaves_withMem _ _ _, rfl, rfl, fun _ h => Or.inl h⟩
  | forget _ _ _ _ _ =>
      refine ⟨leaves_withMem _ _ _, rfl, rfl, fun s hs => Or.inl ?_⟩
      rwa [guardSpans_cleared] at hs

/-- An arena that is not called stays as it is. -/
theorem Good.frame {fresh : Span → Prop} {arenaId : Nat} (h : d.Good p)
    (hl : Leaves fresh arenaId p p') (hne : d.arenaId ≠ arenaId)
    (hf : ∀ g, fresh g → ∀ t ∈ d.inner.spans, t.Apart g) : d.Good p' := by
  obtain ⟨new, hnew, hfresh⟩ := hl.guards
  refine ⟨h.stack, fun r hr b hb => ?_, h.single, fun t ht g hg => ?_, ?_, ?_⟩
  · obtain ⟨h0, h1, h2⟩ := h.owned r hr b hb
    exact ⟨h0, h1, by rw [hnew]; exact List.mem_append_right _ h2⟩
  · rw [hnew] at hg
    rcases List.mem_append.mp hg with hg | hg
    · exact hf g (hfresh g hg) t ht
    · exact h.apart t ht g hg
  · rw [hl.nextArenaId]
    exact h.id_lt
  · rw [hl.records _ hne]
    exact h.registry

theorem cps_rewound {i : Nat} {m : (ArenaCheckpoint × Nat) × Nat} {a' : ArenaInner}
    (h : d.chronicle.ledger.marks[i]? = some m) : (d.rewound i a').cps = d.cps.take (i + 1) := by
  rw [cps, rewound, (Chronicle.rewind_eq h).2]
  exact List.map_take

theorem Turn.stackOk {fresh : Span → Prop} (ht : Turn fresh guard op d p d' p')
    (h : StackOk d.inner d.cps) : StackOk d'.inner d'.cps := by
  cases ht with
  | idle => exact h
  | take _ _ hg _ => exact h.grows hg.shape hg.grows
  | write _ _ => exact h
  | @mark cp a a' hcp ha =>
      have hc : (d.marked cp a').cps = d.cps ++ [cp] := List.map_append
      rw [hc]
      rcases ha with rfl | rfl
      · exact h.mark hcp
      · exact h.push hcp
  | rewind hm hsub e _ =>
      rw [cps_rewound hm]
      exact (h.sub hsub).rewind (cps_getElem? hm) e
  | clear => exact h.sub (List.nil_sublist _)
  | forget _ hs hc _ _ => exact .nil hs hc

/-- Neither a checkpoint nor a rewind takes or gives back a chunk. -/
theorem mark_spans {cp : ArenaCheckpoint} {a a' : ArenaInner}
    (e : d.inner.checkpoint = some (cp, a))
    (ha : a' = a ∨ a' = { a with checkpoints := a.checkpoints ++ [cp] }) :
    a'.spans = d.inner.spans := by
  obtain ⟨c, _, e⟩ := Option.map_eq_some_iff.mp e
  cases e
  rcases ha with rfl | rfl <;> rfl

theorem rewind_spans {stack : List ArenaCheckpoint} {cp : ArenaCheckpoint} {a' : ArenaInner}
    (e : { d.inner with checkpoints := stack }.rewindToCheckpoint true cp = some a') :
    a'.spans = d.inner.spans := by
  obtain ⟨_, rfl⟩ := ArenaInner.rewind_eq_some.mp e
  exact ArenaInner.map_span_rewindChunks _ _

/-- The chunks and the guard blocks stay apart. -/
theorem Turn.apart {fresh : Span → Prop} (ht : Turn fresh guard op d p d' p')
    (h : ∀ t ∈ d.inner.spans, ∀ g ∈ p.guards, t.Apart g)
    (hf : ∀ g, fresh g → (∀ t ∈ p.guards, t.Apart g) ∧ ∀ t ∈ d.inner.spans, t.Apart g) :
    ∀ t ∈ d'.inner.spans, ∀ g ∈ p'.guards, t.Apart g := by
  cases ht with
  | idle => exact h
  | @take sys l g bs _ hr hg _ =>
      intro t ht u hu
      have hu' : u ∈ g.ref.span.toList ++ p.guards := hg.admits.guards ▸ hu
      have hnew : t ∈ d.inner.spans ∨ ∃ ptr, sys = some ptr ∧ t = growthBlock ptr l.size := by
        rcases hg.spans with hs | ⟨ptr, hsys, hs⟩
        · exact Or.inl (hs ▸ ht)
        · rcases List.mem_append.mp (hs ▸ ht) with ht | ht
          · exact Or.inl ht
          · exact Or.inr ⟨ptr, hsys, List.mem_singleton.mp ht⟩
      rcases hnew with ht | ⟨ptr, hsys, rfl⟩
      · rcases List.mem_append.mp hu' with hu | hu
        · exact (hf u (hg.fresh hr (Option.mem_toList.mp hu))).2 t ht
        · exact h t ht u hu
      · rcases List.mem_append.mp hu' with hu | hu
        · -- both blocks were handed out by this call
          obtain ⟨b, hb, rfl⟩ := Ref.span_eq_some.mp (Option.mem_toList.mp hu)
          rw [hg.size]
          exact hr.apart ptr b hsys (hg.of_block hb).2
        · exact ((hf _ (hr.newChunk ptr hsys)).1 u hu).symm
  | write _ _ => exact h
  | mark hcp ha =>
      intro t ht
      exact h t (mark_spans hcp ha ▸ ht)
  | rewind _ _ e _ =>
      intro t ht
      exact h t (rewind_spans e ▸ ht)
  | clear => exact h
  | forget _ _ _ _ hs =>
      intro t ht
      exact h t (hs ht)

/-- Every reference has its guard block, no two the same one. -/
theorem Turn.owned {fresh : Span → Prop} (ht : Turn fresh guard op d p d' p') (h : d.Good p)
    (hf : ∀ g, fresh g → ∀ t ∈ p.guards, t.Apart g) :
    (∀ r ∈ d'.chronicle.entries, ∀ b ∈ r.block, r.size ≠ 0 ∧
      r.ptr = b + (debugGuardSize + guardSize) ∧ (⟨b, guardedSize r.size⟩ : Span) ∈ p'.guards) ∧
    d'.guardSpans.Pairwise Span.Apart ∧
    p'.state.records d'.arenaId = d'.chronicle.entries.flatMap Ref.infos := by
  cases ht with
  | idle => exact ⟨h.owned, h.single, h.registry⟩
  | @take sys l g bs _ hr hg _ =>
      refine ⟨fun r hr' b hb => ?_, ?_, ?_⟩
      · rw [took, Chronicle.entries_record] at hr'
        have hgs : (g.process.withMem (g.process.mem.write g.ref.ptr bs)).guards =
            g.ref.span.toList ++ p.guards := hg.admits.guards
        rw [hgs]
        rcases List.mem_append.mp hr' with hr' | hr'
        · obtain ⟨h0, h1, h2⟩ := h.owned r hr' b hb
          exact ⟨h0, h1, List.mem_append_right _ h2⟩
        · rw [List.mem_singleton.mp hr'] at hb ⊢
          refine ⟨(hg.of_block hb).1, (hg.admits.guard b hb).1, List.mem_append_left _ ?_⟩
          exact Option.mem_toList.mpr (Ref.span_eq_some.mpr ⟨b, hb, rfl⟩)
      · rw [guardSpans_took]
        refine List.pairwise_append.mpr ⟨h.single, ?_, fun s hs t ht => ?_⟩
        · cases g.ref.span <;> simp
        · exact hf t (hg.fresh hr (Option.mem_toList.mp ht)) s (h.mem_guards hs)
      · refine (hg.admits.records d.arenaId).trans ?_
        rw [took, Chronicle.entries_record, List.flatMap_append, ← h.registry, if_pos rfl,
          List.flatMap_singleton]
        rfl
  | write _ _ => exact ⟨h.owned, h.single, h.registry⟩
  | mark _ _ =>
      rw [guardSpans_marked, marked, Chronicle.entries_mark]
      exact ⟨h.owned, h.single, h.registry⟩
  | rewind _ _ _ _ =>
      rw [guardSpans_rewound, rewound, Chronicle.entries_rewind, Process.rewind_records]
      exact ⟨h.owned, h.single, h.registry⟩
  | clear => exact ⟨h.owned, h.single, h.registry⟩
  | forget _ _ _ _ _ =>
      rw [guardSpans_cleared, cleared, Chronicle.entries_clear]
      exact ⟨h.owned, h.single, h.registry⟩

/-- **One call keeps its arena in order.** -/
theorem Turn.good {fresh : Span → Prop} (ht : Turn fresh guard op d p d' p') (h : d.Good p)
    (hf : ∀ g, fresh g → (∀ t ∈ p.guards, t.Apart g) ∧ ∀ t ∈ d.inner.spans, t.Apart g) :
    d'.Good p' := by
  obtain ⟨h1, h2, h3⟩ := ht.owned h fun g hg => (hf g hg).1
  obtain ⟨hl, hid, _⟩ := ht.leaves
  exact ⟨ht.stackOk h.stack, h1, h2, ht.apart h.apart hf,
    by rw [hid, hl.nextArenaId]; exact h.id_lt, h3⟩

end DebugArena

/-- Two arenas have different ids and no guard block in common. -/
def DebugArena.Foreign (d e : DebugArena) : Prop :=
  d.arenaId ≠ e.arenaId ∧ ∀ s ∈ d.guardSpans, ∀ t ∈ e.guardSpans, s.Apart t

theorem DebugArena.Foreign.symm {d e : DebugArena} (h : d.Foreign e) : e.Foreign d :=
  ⟨h.1.symm, fun s hs t ht => (h.2 t ht s hs).symm⟩

/-- What holds in every process. -/
structure World.Inv (w : World) : Prop where
  good : ∀ d ∈ w.arenas, d.Good w.process
  aligned : ∀ d ∈ w.arenas, d.addr % 8 = 0
  foreign : w.arenas.Pairwise DebugArena.Foreign
  keys : ∀ k, (∀ d ∈ w.arenas, d.arenaId ≠ k) → w.process.state.records k = []
  recorded : ∀ k, w.process.state.recorded k = none ↔ w.process.state.records k = []
  sane : w.process.state.Sane

namespace World

variable {w : World} {d d' : DebugArena} {p' : Process} {k : Nat}

theorem Inv.create (h : w.Inv) {sys sys' : Option Nat} {capacity addr : Nat} {a : Arena}
    (hf : ∀ blk ∈ (WorldOp.create sys sys' capacity addr).blocks, w.Fresh blk)
    (ha : addr % 8 = 0)
    (e : Arena.withCapacity sys sys' none addr ThreadSlab.new (fun _ => 0) capacity = some a) :
    Inv ⟨w.process.newArenaId.2,
      w.arenas ++ [⟨a.inner, w.process.newArenaId.1, addr, .empty⟩]⟩ := by
  have hlt : ∀ d ∈ w.arenas, d.arenaId ≠ w.process.state.nextArenaId := fun d hd =>
    Nat.ne_of_lt (h.good d hd).id_lt
  have hgood : ∀ d ∈ w.arenas, d.Good w.process.newArenaId.2 := fun d hd =>
    have hd := h.good d hd
    ⟨hd.stack, hd.owned, hd.single, hd.apart, Nat.lt_succ_of_lt hd.id_lt, hd.registry⟩
  have hnew : DebugArena.Good w.process.newArenaId.2
      ⟨a.inner, w.process.newArenaId.1, addr, .empty⟩ := by
    obtain ⟨_, _, b, hb, hw⟩ := Arena.withCapacity_eq_some e
    refine ⟨.nil (hw ▸ ArenaInner.new_shape hb) (hw ▸ (ArenaInner.new_eq_ok hb).1),
      (fun _ h => by cases h), .nil, fun t ht g hg => ?_, Nat.lt_succ_self _, h.keys _ hlt⟩
    have ht' : t ∈ (WorldOp.create sys sys' capacity addr).blocks := by
      simpa only [WorldOp.blocks, e, Option.map_some, Option.getD_some] using ht
    exact ((hf t ht').1 g hg).symm
  refine ⟨fun d hd => ?_, fun d hd => ?_, ?_, fun k hk => ?_, h.recorded,
    ⟨h.sane.corrupted, h.sane.lookup⟩⟩
  · rcases List.mem_append.mp hd with hd | hd
    · exact hgood d hd
    · rw [List.mem_singleton.mp hd]
      exact hnew
  · rcases List.mem_append.mp hd with hd | hd
    · exact h.aligned d hd
    · rw [List.mem_singleton.mp hd]
      exact ha
  · refine List.pairwise_append.mpr ⟨h.foreign, List.pairwise_singleton _ _, fun d hd e he => ?_⟩
    rw [List.mem_singleton.mp he]
    exact ⟨hlt d hd, fun _ _ _ ht => by cases ht⟩
  · exact h.keys k fun d hd => hk d (List.mem_append_left _ hd)

theorem Inv.move (h : w.Inv) (hd : w.arenas[k]? = some d) {addr : Nat} (ha : addr % 8 = 0) :
    Inv { w with arenas := w.arenas.set k { d with addr := addr } } := by
  have hg := h.good d (List.mem_of_getElem? hd)
  refine ⟨forall_set h.good ⟨hg.stack, hg.owned, hg.single, hg.apart, hg.id_lt, hg.registry⟩,
    forall_set h.aligned ha,
    pairwise_set (fun _ _ => DebugArena.Foreign.symm) h.foreign hd fun e _ he => he,
    fun k' hk => ?_, h.recorded, h.sane⟩
  have hd' : d.arenaId ≠ k' := hk { d with addr := addr }
    (List.mem_of_getElem? (List.getElem?_set_self (List.getElem?_eq_some_iff.mp hd).1))
  exact h.keys k' (forall_mem_of_set hd hd' hk)

/-- The drop of an arena takes its part of the registry with it. -/
theorem leaves_cleanup (p : Process) (arenaId : Nat) (fresh : Span → Prop) :
    DebugArena.Leaves fresh arenaId p (p.cleanupArena arenaId) := by
  refine ⟨⟨[], rfl, (fun _ h => by cases h)⟩, fun k hk => ?_, fun h k => ?_, rfl,
    fun h => h.cleanupArena _⟩
  · exact DebugState.records_cleanupArena.trans (if_neg hk)
  · show (p.state.cleanupArena arenaId).recorded k = none ↔
      (p.state.cleanupArena arenaId).records k = []
    rw [DebugState.recorded_cleanupArena, DebugState.records_cleanupArena]
    split
    · simp
    · exact h k

theorem Inv.drop (h : w.Inv) (hd : w.arenas[k]? = some d) :
    Inv ⟨w.process.cleanupArena d.arenaId, w.arenas.eraseIdx k⟩ := by
  have hl := leaves_cleanup w.process d.arenaId fun _ => False
  refine ⟨fun e he => ?_, fun e he => h.aligned e (List.mem_of_mem_eraseIdx he),
    h.foreign.sublist (List.eraseIdx_sublist _ _), fun k' hk => ?_,
    hl.recorded h.recorded, hl.sane h.sane⟩
  · obtain ⟨j, hj, he⟩ := List.mem_eraseIdx_iff_getElem?.mp he
    have hne := pairwise_getElem?_ne (fun _ _ => DebugArena.Foreign.symm) h.foreign hj he hd
    exact (h.good e (List.mem_of_getElem? he)).frame hl hne.1 fun _ hf => hf.elim
  · refine DebugState.records_cleanupArena.trans ?_
    split
    · rfl
    · next hne =>
      refine h.keys k' fun e he => ?_
      obtain ⟨j, hj⟩ := List.mem_iff_getElem?.mp he
      by_cases hjk : j = k
      · subst hjk
        rw [hd] at hj
        cases hj
        exact fun heq => hne heq.symm
      · exact hk e (List.mem_eraseIdx_iff_getElem?.mpr ⟨j, hjk, hj⟩)

theorem Inv.call (h : w.Inv) (hd : w.arenas[k]? = some d) {guard : Option Nat} {op : Op}
    (ht : DebugArena.Turn w.Fresh guard op d w.process d' p') : Inv ⟨p', w.arenas.set k d'⟩ := by
  have hmem := List.mem_of_getElem? hd
  obtain ⟨hl, hid, haddr, hspans⟩ := ht.leaves
  have hother : ∀ j e, j ≠ k → w.arenas[j]? = some e → e.Good p' := by
    intro j e hj he
    have hne := pairwise_getElem?_ne (fun _ _ => DebugArena.Foreign.symm) h.foreign hj he hd
    exact (h.good e (List.mem_of_getElem? he)).frame hl hne.1 fun g hg =>
      hg.2 e (List.mem_of_getElem? he)
  refine ⟨forall_mem_set hd (ht.good (h.good d hmem) fun g hg => ⟨hg.1, hg.2 d hmem⟩) hother,
    forall_set h.aligned (haddr ▸ h.aligned d hmem),
    pairwise_set (fun _ _ => DebugArena.Foreign.symm) h.foreign hd fun e he hde => ?_,
    fun k' hk => ?_, hl.recorded h.recorded, hl.sane h.sane⟩
  · refine ⟨by rw [hid]; exact hde.1, fun s hs t ht' => ?_⟩
    rcases hspans s hs with hs | hs
    · exact hde.2 s hs t ht'
    · exact (hs.1 t ((h.good e he).mem_guards ht')).symm
  · have hd' : d'.arenaId ≠ k' := hk d'
      (List.mem_of_getElem? (List.getElem?_set_self (List.getElem?_eq_some_iff.mp hd).1))
    rw [hid] at hd'
    rw [hl.records k' (Ne.symm hd')]
    exact h.keys k' (forall_mem_of_set hd hd' hk)

/-- **Everything an event can do.** -/
inductive Happens (w : World) : WorldOp → World → Prop where
  | create {sys sys' : Option Nat} {capacity addr : Nat} {a : Arena} :
      (∀ blk ∈ (WorldOp.create sys sys' capacity addr).blocks, w.Fresh blk) → addr % 8 = 0 →
      Arena.withCapacity sys sys' none addr ThreadSlab.new (fun _ => 0) capacity = some a →
      Happens w (.create sys sys' capacity addr) ⟨w.process.newArenaId.2,
        w.arenas ++ [⟨a.inner, w.process.newArenaId.1, addr, .empty⟩]⟩
  | move {k addr : Nat} {d : DebugArena} : w.arenas[k]? = some d → addr % 8 = 0 →
      Happens w (.move k addr) { w with arenas := w.arenas.set k { d with addr := addr } }
  | drop {k : Nat} {d : DebugArena} : w.arenas[k]? = some d →
      Happens w (.drop k) ⟨w.process.cleanupArena d.arenaId, w.arenas.eraseIdx k⟩
  | call {k : Nat} {guard : Option Nat} {op : Op} {d d' : DebugArena} {p' : Process} :
      w.arenas[k]? = some d → d.exec w.process guard op = some (d', p') →
      DebugArena.Turn w.Fresh guard op d w.process d' p' →
      Happens w (.call k guard op) ⟨p', w.arenas.set k d'⟩

theorem exec_happens {w' : World} {op : WorldOp} (h : w.Inv) (hok : worlds.ok w op)
    (e : w.exec op = some w') : Happens w op w' := by
  cases op with
  | create sys sys' capacity addr =>
      obtain ⟨a, ha, rfl⟩ := Option.map_eq_some_iff.mp e
      exact .create hok.1 (hok.2.2 addr rfl).2 ha
  | move k addr =>
      obtain ⟨d, hd, rfl⟩ := Option.map_eq_some_iff.mp e
      exact .move hd (hok.2.2 addr rfl).2
  | drop k =>
      obtain ⟨d, hd, rfl⟩ := Option.map_eq_some_iff.mp e
      exact .drop hd
  | call k guard op =>
      obtain ⟨d, hd, e⟩ := Option.bind_eq_some_iff.mp e
      obtain ⟨⟨d', p'⟩, hx, rfl⟩ := Option.map_eq_some_iff.mp e
      exact .call hd hx (DebugArena.exec_turn (h.good d (List.mem_of_getElem? hd)).stack
        (DebugArena.ready_of_blocks hok.1 hok.2.1) hx)

/-- **One event keeps the process in order.** -/
theorem Inv.step {w' : World} {op : WorldOp} (h : w.Inv) (hx : Happens w op w') : w'.Inv := by
  cases hx with
  | create hf ha e => exact h.create hf ha e
  | move hd ha => exact h.move hd ha
  | drop hd => exact h.drop hd
  | call hd _ ht => exact h.call hd ht

/-- At first there is no arena and nothing is registered. -/
theorem of_init (h : worlds.init w) : w.arenas = [] ∧ w.process.state = DebugState.new := by
  have h' : w = ⟨⟨w.process.mem, DebugState.new, []⟩, []⟩ := h
  rw [h']
  exact ⟨rfl, rfl⟩

/-- What holds of every arena holds at first. -/
theorem forall_of_init (h : worlds.init w) {P : DebugArena → Prop} : ∀ d ∈ w.arenas, P d := by
  rw [(of_init h).1]
  exact fun _ h => by cases h

theorem inv_init (h : worlds.init w) : w.Inv := by
  obtain ⟨harenas, hstate⟩ := of_init h
  refine ⟨forall_of_init h, forall_of_init h, by rw [harenas]; exact .nil, ?_, ?_, ?_⟩
  · rw [hstate]
    exact fun _ _ => rfl
  · rw [hstate]
    exact fun _ => ⟨fun _ => rfl, fun _ => rfl⟩
  · rw [hstate]
    exact DebugState.sane_new

theorem reach_inv (h : worlds.Reach w) : w.Inv :=
  h.inv (P := Inv) (fun _ => inv_init) fun _ _ _ hw hok e => hw.step (exec_happens hw hok e)

end World

end ArenaB
