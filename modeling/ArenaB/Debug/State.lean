/-
  File:      ArenaB/Debug/State.lean
  Subject:   The guards and the registry of the debug feature (src/debug.rs).

  * `DebugGuard` -- the record written in front of every guarded allocation, and its check;
  * `DebugState` -- the registry: for each key the records of the allocations registered under it
    and the checkpoint id recorded last. The hash maps are association lists;
  * `Process` -- what the arenas of one process share: the memory, the registry and the guard
    blocks. Nothing frees a guard block; the list is read by no function, it says what the system
    allocator may not hand out again. The functions of the module that take the lock of the
    registry are functions of the process, one call a step;
  * `DebugState.Sane` -- what no function does: it counts no corruption, and it leaves no key
    without records;
  * a pointer is an address, a message is the source's. The record of an allocation is kept without
    its backtrace, of which Debug/Reports knows the text only. The switch of `DebugAllocator`, which
    no arena ever turns off, is left out.
-/
import Mathlib.Data.List.AList
import ArenaB.Core.Chunk

namespace ArenaB

open Base

/-! ## 1. Guards -/

def guardMagic : Nat := 0xDEADBEEFCAFEBABE

def guardSize : Nat := 16

/-- `size_of::<DebugGuard>()`. -/
def debugGuardSize : Nat := 56

/-- `to_ne_bytes` of a 64-bit word, on a little-endian machine. -/
def toNeBytes (n : Nat) : List UInt8 := (List.range 8).map fun i => UInt8.ofNat (n / 256 ^ i)

/-- The word whose bytes are given. -/
def ofNeBytes (bs : List UInt8) : Nat := bs.foldr (fun b n => b.toNat + 256 * n) 0

/-- `bytes[i % bytes.len()]` for the bytes of the magic number. -/
def guardByte (i : Nat) : UInt8 := (toNeBytes guardMagic).getD (i % 8) 0

theorem ofNeBytes_inj {xs ys : List UInt8} (hlen : xs.length = ys.length)
    (h : ofNeBytes xs = ofNeBytes ys) : xs = ys := by
  induction xs generalizing ys with
  | nil => exact (List.length_eq_zero_iff.mp hlen.symm).symm
  | cons x xs ih =>
      cases ys with
      | nil => cases hlen
      | cons y ys =>
          simp only [ofNeBytes, List.foldr_cons] at h
          have hx := x.toNat_lt
          have hy := y.toNat_lt
          have hhead : x = y := UInt8.toNat_inj.mp (by omega)
          have htail : ofNeBytes xs = ofNeBytes ys := by
            simp only [ofNeBytes]
            omega
          rw [hhead, ih (Nat.succ.inj hlen) htail]

/-- Eight bytes are the magic number exactly if they are the pattern. -/
theorem ofNeBytes_eq_guardMagic {bs : List UInt8} (hlen : bs.length = 8) :
    ofNeBytes bs = guardMagic ↔ ∀ i < 8, bs[i]? = some (guardByte i) := by
  have hmagic : ofNeBytes (toNeBytes guardMagic) = guardMagic := by decide
  have hpattern : ∀ i < 8, (toNeBytes guardMagic)[i]? = some (guardByte i) := by decide
  have hlen' : (toNeBytes guardMagic).length = 8 := rfl
  constructor
  · intro h i hi
    rw [ofNeBytes_inj (hlen.trans hlen'.symm) (h.trans hmagic.symm)]
    exact hpattern i hi
  · intro h
    have heq : bs = toNeBytes guardMagic := by
      refine List.ext_getElem? fun i => ?_
      by_cases hi : i < 8
      · rw [h i hi, hpattern i hi]
      · rw [List.getElem?_eq_none (by omega), List.getElem?_eq_none (by omega)]
    rw [heq]
    exact hmagic

/-- `DebugGuard`. -/
structure DebugGuard where
  preGuard : List UInt8
  postGuard : List UInt8
  magic : Nat
  size : Nat
  checkpointId : Nat

namespace DebugGuard

/-- `DebugGuard::new`. -/
def new (size checkpointId : Nat) : DebugGuard where
  preGuard := (List.range guardSize).map guardByte
  postGuard := (List.range guardSize).map guardByte
  magic := guardMagic
  size := size
  checkpointId := checkpointId

/-- The guard as `repr(C)` lays it out. -/
def bytes (g : DebugGuard) : List UInt8 :=
  g.preGuard ++ g.postGuard ++ toNeBytes g.magic ++ toNeBytes g.size ++ toNeBytes g.checkpointId

/-- `read_unaligned` of a guard. -/
def read (m : Mem) (a : Nat) : DebugGuard where
  preGuard := m.read a guardSize
  postGuard := m.read (a + 16) guardSize
  magic := ofNeBytes (m.read (a + 32) 8)
  size := ofNeBytes (m.read (a + 40) 8)
  checkpointId := ofNeBytes (m.read (a + 48) 8)

/-- The loop of `validate` over the positions that are left. -/
def validateBytes (g : DebugGuard) : List Nat → Except String Unit
  | [] => .ok ()
  | i :: is =>
      if g.preGuard[i]? ≠ some (guardByte i) then .error "Pre-guard corrupted"
      else if g.postGuard[i]? ≠ some (guardByte i) then .error "Post-guard corrupted"
      else g.validateBytes is

/-- `DebugGuard::validate`. -/
def validate (g : DebugGuard) : Except String Unit :=
  if g.magic ≠ guardMagic then .error "Magic number corrupted"
  else g.validateBytes (List.range guardSize)

theorem validateBytes_eq_ok {g : DebugGuard} {is : List Nat} : g.validateBytes is = .ok () ↔
    ∀ i ∈ is, g.preGuard[i]? = some (guardByte i) ∧ g.postGuard[i]? = some (guardByte i) := by
  induction is with
  | nil => simp [validateBytes]
  | cons i is ih =>
      rw [List.forall_mem_cons, ← ih]
      by_cases h1 : g.preGuard[i]? = some (guardByte i)
      · by_cases h2 : g.postGuard[i]? = some (guardByte i)
        · simp [validateBytes, h1, h2]
        · simp [validateBytes, h1, h2]
      · simp [validateBytes, h1]

/-- **What `validate` accepts**: the magic number and both patterns. -/
theorem validate_eq_ok {g : DebugGuard} : g.validate = .ok () ↔ g.magic = guardMagic ∧
    ∀ i < guardSize, g.preGuard[i]? = some (guardByte i) ∧
      g.postGuard[i]? = some (guardByte i) := by
  unfold validate
  by_cases h : g.magic = guardMagic
  · rw [if_neg (not_not.mpr h), validateBytes_eq_ok]
    simp [h]
  · simp [h]

/-- **What `validate` accepts of a guard read at `a`**: the pattern in the first and in the second
    16 bytes, and the magic number behind them. -/
theorem validate_read_eq_ok {m : Mem} {a : Nat} : (read m a).validate = .ok () ↔
    (∀ i < guardSize, m (a + i) = guardByte i) ∧ (∀ i < guardSize, m (a + 16 + i) = guardByte i) ∧
      ofNeBytes (m.read (a + 32) 8) = guardMagic := by
  have hget (o i : Nat) (hi : i < guardSize) :
      (m.read o guardSize)[i]? = some (guardByte i) ↔ m (o + i) = guardByte i := by
    simp [Mem.read, hi]
  rw [validate_eq_ok]
  simp only [read]
  constructor
  · intro h
    exact ⟨fun i hi => (hget _ i hi).mp (h.2 i hi).1, fun i hi => (hget _ i hi).mp (h.2 i hi).2,
      h.1⟩
  · intro h
    exact ⟨h.2.2, fun i hi => ⟨(hget _ i hi).mpr (h.1 i hi), (hget _ i hi).mpr (h.2.1 i hi)⟩⟩

/-- The last two fields `validate` looks at, as one run of the pattern. -/
theorem spelled_iff {m : Mem} {a : Nat} :
    ((∀ i < guardSize, m (a + i) = guardByte i) ∧
      ofNeBytes (m.read (a + guardSize) 8) = guardMagic) ↔ ∀ i < 24, m (a + i) = guardByte i := by
  have hbytes : ofNeBytes (m.read (a + guardSize) 8) = guardMagic ↔
      ∀ i < 8, m (a + guardSize + i) = guardByte i := by
    rw [ofNeBytes_eq_guardMagic (Mem.length_read m _ 8)]
    refine forall₂_congr fun i hi => ?_
    simp [Mem.read, hi]
  have hperiod : ∀ i < 8, guardByte (guardSize + i) = guardByte i := by decide
  rw [hbytes]
  constructor
  · intro h i hi
    by_cases hlt : i < guardSize
    · exact h.1 i hlt
    · obtain ⟨j, rfl⟩ := Nat.exists_eq_add_of_le (Nat.not_lt.mp hlt)
      have hj : j < 8 := by
        simp only [guardSize] at hi
        omega
      rw [← Nat.add_assoc, h.2 j hj, hperiod j hj]
  · intro h
    refine ⟨fun i hi => h i (Nat.lt_trans hi (by decide)), fun i hi => ?_⟩
    rw [Nat.add_assoc, h (guardSize + i) (by simp only [guardSize]; omega), hperiod i hi]

/-- Where two memories agree the guards read are the same. -/
theorem read_congr {m m' : Mem} {a : Nat} (h : Mem.Agree m m' ⟨a, debugGuardSize⟩) :
    read m' a = read m a := by
  have hpart {o n : Nat} (hn : o + n ≤ debugGuardSize) : m'.read (a + o) n = m.read (a + o) n := by
    refine Mem.Agree.read fun x hx => h x ⟨?_, ?_⟩
    · exact Nat.le_trans (Nat.le_add_right a o) hx.1
    · exact Nat.lt_of_lt_of_le hx.2 (by simp only [Span.fin]; omega)
  have h0 := hpart (o := 0) (n := guardSize) (by decide)
  rw [Nat.add_zero] at h0
  unfold read
  rw [h0, hpart (by decide), hpart (by decide), hpart (by decide), hpart (by decide)]

end DebugGuard

/-! ## 2. The registry -/

/-- `AllocationInfo`. -/
structure AllocationInfo where
  ptr : Nat
  size : Nat
  checkpointId : Nat
  deriving DecidableEq, Repr

/-- `DebugState`. -/
structure DebugState where
  allocations : AList fun _ : Nat => List AllocationInfo
  arenaCheckpoints : AList fun _ : Nat => Nat
  nextArenaId : Nat
  corruptedAllocations : Nat

/-- One round of the loop of `rewind_to_checkpoint`: the first guard byte of a record made after
    the checkpoint is tainted. -/
def taint (checkpointId : Nat) (m : Mem) (info : AllocationInfo) : Mem :=
  if info.checkpointId > checkpointId then m.write (info.ptr - guardSize) [0] else m

namespace DebugState

/-- `DebugState::new`. -/
def new : DebugState := ⟨∅, ∅, 1, 0⟩

/-- The records under a key. -/
def records (d : DebugState) (arenaId : Nat) : List AllocationInfo :=
  (d.allocations.lookup arenaId).getD []

/-- The checkpoint id recorded under a key. -/
def recorded (d : DebugState) (arenaId : Nat) : Option Nat := d.arenaCheckpoints.lookup arenaId

/-- `DebugState::register_allocation`. -/
def registerAllocation (d : DebugState) (arenaId ptr size checkpointId : Nat) : DebugState :=
  { d with
    allocations := d.allocations.insert arenaId (d.records arenaId ++ [⟨ptr, size, checkpointId⟩])
    arenaCheckpoints := d.arenaCheckpoints.insert arenaId checkpointId }

/-- `DebugState::validate_allocation`. -/
def validateAllocation (d : DebugState) (m : Mem) (arenaId ptr : Nat) : Except String Unit :=
  match (d.records arenaId).find? (fun info => info.ptr = ptr) with
  | none => .error "Allocation not found"
  | some info =>
      if (d.recorded arenaId).any (fun current => info.checkpointId > current) then
        .error "Use-after-rewind detected"
      else (DebugGuard.read m (ptr - guardSize)).validate

/-- `DebugState::rewind_to_checkpoint`, with the memory it writes to. -/
def rewindToCheckpoint (d : DebugState) (m : Mem) (arenaId checkpointId : Nat) :
    DebugState × Mem :=
  ({ d with arenaCheckpoints := d.arenaCheckpoints.insert arenaId checkpointId },
    (d.records arenaId).foldl (taint checkpointId) m)

/-- `DebugState::get_stats`. -/
def getStats (d : DebugState) (arenaId : Nat) : Nat × Nat :=
  ((d.records arenaId).length, d.corruptedAllocations)

/-- `DebugState::get_current_checkpoint_id`. -/
def getCurrentCheckpointId (d : DebugState) (arenaId : Nat) : Nat := (d.recorded arenaId).getD 0

/-- `DebugState::cleanup_arena`. -/
def cleanupArena (d : DebugState) (arenaId : Nat) : DebugState :=
  { d with
    allocations := d.allocations.erase arenaId
    arenaCheckpoints := d.arenaCheckpoints.erase arenaId }

section Lookup

variable {d : DebugState} {k arenaId ptr size cp : Nat} {m : Mem}

theorem records_registerAllocation : (d.registerAllocation arenaId ptr size cp).records k =
    if k = arenaId then d.records arenaId ++ [⟨ptr, size, cp⟩] else d.records k := by
  unfold records registerAllocation
  split
  · next h =>
    subst h
    rw [AList.lookup_insert, Option.getD_some]
    rfl
  · next h => rw [AList.lookup_insert_ne h]

theorem recorded_registerAllocation : (d.registerAllocation arenaId ptr size cp).recorded k =
    if k = arenaId then some cp else d.recorded k := by
  unfold recorded registerAllocation
  split
  · next h =>
    subst h
    exact AList.lookup_insert _
  · next h => exact AList.lookup_insert_ne h

theorem records_cleanupArena : (d.cleanupArena arenaId).records k =
    if k = arenaId then [] else d.records k := by
  unfold records cleanupArena
  split
  · next h =>
    subst h
    rw [AList.lookup_erase]
    rfl
  · next h => rw [AList.lookup_erase_ne h]

theorem recorded_cleanupArena : (d.cleanupArena arenaId).recorded k =
    if k = arenaId then none else d.recorded k := by
  unfold recorded cleanupArena
  split
  · next h =>
    subst h
    exact AList.lookup_erase _ _
  · next h => exact AList.lookup_erase_ne h

theorem recorded_rewindToCheckpoint : (d.rewindToCheckpoint m arenaId cp).1.recorded k =
    if k = arenaId then some cp else d.recorded k := by
  unfold recorded rewindToCheckpoint
  split
  · next h =>
    subst h
    exact AList.lookup_insert _
  · next h => exact AList.lookup_insert_ne h

/-- No corruption was counted, and no key is without records. -/
structure Sane (d : DebugState) : Prop where
  corrupted : d.corruptedAllocations = 0
  lookup : ∀ k, d.allocations.lookup k ≠ some []

theorem sane_new : new.Sane := ⟨rfl, fun _ hk => by cases hk⟩

theorem Sane.registerAllocation (h : d.Sane) (arenaId ptr size cp : Nat) :
    (d.registerAllocation arenaId ptr size cp).Sane := by
  refine ⟨h.corrupted, fun k hk => ?_⟩
  have hk' : (d.allocations.insert arenaId _).lookup k = some [] := hk
  by_cases hne : k = arenaId
  · rw [hne, AList.lookup_insert] at hk'
    exact List.append_ne_nil_of_right_ne_nil _ (List.cons_ne_nil _ _) (Option.some.inj hk')
  · rw [AList.lookup_insert_ne hne] at hk'
    exact h.lookup k hk'

theorem Sane.cleanupArena (h : d.Sane) (arenaId : Nat) : (d.cleanupArena arenaId).Sane := by
  refine ⟨h.corrupted, fun k hk => ?_⟩
  have hk' : (d.allocations.erase arenaId).lookup k = some [] := hk
  by_cases hne : k = arenaId
  · rw [hne, AList.lookup_erase] at hk'
    cases hk'
  · rw [AList.lookup_erase_ne hne] at hk'
    exact h.lookup k hk'

theorem Sane.foldl_rewind (h : d.Sane) (cp : Nat) (ids : List Nat) (m : Mem) :
    (ids.foldl (fun r arenaId => r.1.rewindToCheckpoint r.2 arenaId cp) (d, m)).1.Sane := by
  induction ids generalizing d m with
  | nil => exact h
  | cons id ids ih =>
      have hstep : (d.rewindToCheckpoint m id cp).1.Sane := ⟨h.corrupted, h.lookup⟩
      exact ih hstep _

/-- Under a key there is a record, or nothing. -/
theorem Sane.lookup_eq_none (h : d.Sane) : d.allocations.lookup k = none ↔ d.records k = [] := by
  unfold records
  cases hk : d.allocations.lookup k with
  | none => simp
  | some infos => simpa using fun hnil : infos = [] => h.lookup k (hnil ▸ hk)

/-- What is not registered under a key is not found under it. -/
theorem validateAllocation_of_nil (h : d.records arenaId = []) :
    d.validateAllocation m arenaId ptr = .error "Allocation not found" := by
  unfold validateAllocation
  rw [h]
  rfl

/-- The verdict depends on the records, the recorded id and the guard read. -/
theorem validateAllocation_congr {d' : DebugState} {m' : Mem}
    (hrec : d'.records arenaId = d.records arenaId)
    (hcur : d'.recorded arenaId = d.recorded arenaId)
    (hmem : ∀ info ∈ d.records arenaId, info.ptr = ptr →
      Mem.Agree m m' ⟨ptr - guardSize, debugGuardSize⟩) :
    d'.validateAllocation m' arenaId ptr = d.validateAllocation m arenaId ptr := by
  unfold validateAllocation
  rw [hrec, hcur]
  split
  · rfl
  · next info hi =>
    have hptr : info.ptr = ptr := by simpa using List.find?_some hi
    rw [DebugGuard.read_congr (hmem info (List.mem_of_find?_eq_some hi) hptr)]

end Lookup

/-! ### Tainting -/

/-- A rewind to the checkpoint taints address `x` for this record. -/
def taints (checkpointId x : Nat) (info : AllocationInfo) : Bool :=
  checkpointId < info.checkpointId && info.ptr - guardSize == x

theorem foldl_taint (cp x : Nat) (infos : List AllocationInfo) (m : Mem) :
    infos.foldl (taint cp) m x = if infos.any (taints cp x) then 0 else m x := by
  induction infos generalizing m with
  | nil => rfl
  | cons info infos ih =>
      rw [List.foldl_cons, ih, List.any_cons]
      by_cases ha : infos.any (taints cp x) = true
      · rw [if_pos ha, ha, Bool.or_true, if_pos rfl]
      · have ha' : infos.any (taints cp x) = false := by simpa using ha
        rw [ha', Bool.or_false, if_neg Bool.false_ne_true]
        unfold taint taints
        by_cases hc : cp < info.checkpointId
        · by_cases hx : info.ptr - guardSize = x
          · subst hx
            simp [hc, Mem.write]
          · have hne : (m.write (info.ptr - guardSize) [0]) x = m x :=
              if_neg (by simp only [List.length_singleton]; omega)
            simp [hc, hx, hne]
        · simp [hc]

end DebugState

/-! ## 3. The process -/

/-- What the arenas of a process share. -/
structure Process where
  mem : Mem
  state : DebugState
  guards : List Span

namespace Process

def withMem (p : Process) (mem : Mem) : Process := { p with mem := mem }

/-- `debug::register_allocation`. -/
def registerAllocation (p : Process) (arenaId ptr size checkpointId : Nat) : Process :=
  { p with state := p.state.registerAllocation arenaId ptr size checkpointId }

/-- `debug::rewind_to_checkpoint`: every arena in the registry is rewound. -/
def rewindToCheckpoint (p : Process) (checkpointId : Nat) : Process :=
  let r := p.state.arenaCheckpoints.keys.foldl
    (fun r arenaId => r.1.rewindToCheckpoint r.2 arenaId checkpointId) (p.state, p.mem)
  { p with state := r.1, mem := r.2 }

/-- `debug::cleanup_arena`, which the drop of an arena's `DebugAllocator` calls. -/
def cleanupArena (p : Process) (arenaId : Nat) : Process :=
  { p with state := p.state.cleanupArena arenaId }

/-- `DebugAllocator::new`: the next arena id. -/
def newArenaId (p : Process) : Nat × Process :=
  (p.state.nextArenaId,
    { p with state := { p.state with nextArenaId := p.state.nextArenaId + 1 } })

end Process

/-- `size + 2 * GUARD_SIZE + size_of::<DebugGuard>()`. -/
def guardedSize (size : Nat) : Nat := size + 2 * guardSize + debugGuardSize

/-- The block `allocate_with_guard` gets for its copy: none if the layout is invalid or `alloc`
    returns null. -/
def guardBlock (sys : Option Nat) (size : Nat) : Option Nat :=
  (Layout.fromSizeAlign (guardedSize size) 16).bind fun _ => sys

/-- The four copies of `allocate_with_guard`. -/
def writeGuarded (m : Mem) (block ptr size checkpointId : Nat) : Mem :=
  let guard := DebugGuard.new size checkpointId
  let m := m.write block guard.bytes
  let m := m.write (block + debugGuardSize) guard.preGuard
  let m := m.write (block + (debugGuardSize + guardSize)) (m.read ptr size)
  m.write (block + (debugGuardSize + guardSize) + size) guard.postGuard

/-- `DebugAllocator::allocate_with_guard`: the pointer into a guarded copy, which is registered,
    or the pointer given. -/
def Process.allocateWithGuard (p : Process) (arenaId : Nat) (sys : Option Nat)
    (ptr size checkpointId : Nat) : Nat × Process :=
  match guardBlock sys size with
  | none => (ptr, p)
  | some block =>
      (block + (debugGuardSize + guardSize),
        Process.registerAllocation
          { p with
            mem := writeGuarded p.mem block ptr size checkpointId
            guards := ⟨block, guardedSize size⟩ :: p.guards }
          arenaId (block + (debugGuardSize + guardSize)) size checkpointId)

/-! ## 4. What the functions of the process do -/

section Spec

variable {p : Process} {cp k : Nat}

theorem foldl_rewind (cp : Nat) (ids : List Nat) (d : DebugState) (m : Mem) :
    let r := ids.foldl (fun r arenaId => r.1.rewindToCheckpoint r.2 arenaId cp) (d, m)
    r.1.allocations = d.allocations ∧ r.1.nextArenaId = d.nextArenaId ∧
      (∀ k, r.1.recorded k = if k ∈ ids then some cp else d.recorded k) ∧
      ∀ x, r.2 x = if ids.any fun k => (d.records k).any (DebugState.taints cp x) then 0
        else m x := by
  induction ids generalizing d m with
  | nil => exact ⟨rfl, rfl, fun _ => rfl, fun _ => rfl⟩
  | cons id ids ih =>
      obtain ⟨h1, h2, h3, h4⟩ :=
        ih (d.rewindToCheckpoint m id cp).1 (d.rewindToCheckpoint m id cp).2
      refine ⟨h1, h2, fun k => ?_, fun x => ?_⟩
      · rw [List.foldl_cons]
        refine (h3 k).trans ?_
        rw [DebugState.recorded_rewindToCheckpoint]
        by_cases hk : k = id
        · simp [hk]
        · simp [hk]
      · rw [List.foldl_cons]
        refine (h4 x).trans ?_
        have hm : (d.rewindToCheckpoint m id cp).2 x =
            if (d.records id).any (DebugState.taints cp x) then 0 else m x :=
          DebugState.foldl_taint cp x _ m
        have hr (k : Nat) : (d.rewindToCheckpoint m id cp).1.records k = d.records k := rfl
        rw [hm, List.any_cons]
        simp only [hr]
        by_cases hid : (d.records id).any (DebugState.taints cp x) = true
        · simp [hid]
        · simp [hid]

theorem Process.rewind_records : (p.rewindToCheckpoint cp).state.records k = p.state.records k := by
  have h : (p.rewindToCheckpoint cp).state.allocations = p.state.allocations :=
    (foldl_rewind cp _ p.state p.mem).1
  rw [DebugState.records, h]
  rfl

theorem Process.rewind_nextArenaId :
    (p.rewindToCheckpoint cp).state.nextArenaId = p.state.nextArenaId :=
  (foldl_rewind cp _ p.state p.mem).2.1

/-- **Every key is set to the target**, whichever arena is rewound. -/
theorem Process.rewind_recorded :
    (p.rewindToCheckpoint cp).state.recorded k = (p.state.recorded k).map fun _ => cp := by
  refine ((foldl_rewind cp _ p.state p.mem).2.2.1 k).trans ?_
  cases h : p.state.recorded k with
  | none =>
      rw [if_neg]
      · rfl
      · rw [← AList.mem_keys]
        exact AList.lookup_eq_none.mp h
  | some c =>
      rw [if_pos]
      · rfl
      · rw [← AList.mem_keys, ← AList.lookup_isSome]
        exact Option.isSome_iff_exists.mpr ⟨c, h⟩

/-- **The bytes a rewind taints**: the first guard bytes of the later records, under every key. -/
theorem Process.rewind_mem_tainted {x : Nat} {info : AllocationInfo}
    (hk : p.state.recorded k ≠ none) (hi : info ∈ p.state.records k)
    (hc : cp < info.checkpointId) (hx : info.ptr - guardSize = x) :
    (p.rewindToCheckpoint cp).mem x = 0 := by
  refine ((foldl_rewind cp _ p.state p.mem).2.2.2 x).trans (if_pos ?_)
  refine List.any_eq_true.mpr ⟨k, ?_, List.any_eq_true.mpr ⟨info, hi, ?_⟩⟩
  · rw [← AList.mem_keys, ← AList.lookup_isSome]
    exact Option.isSome_iff_ne_none.mpr hk
  · simp [DebugState.taints, hc, hx]

/-- No other byte changes. -/
theorem Process.rewind_mem_other {x : Nat}
    (h : ∀ k, ∀ info ∈ p.state.records k, cp < info.checkpointId → info.ptr - guardSize ≠ x) :
    (p.rewindToCheckpoint cp).mem x = p.mem x := by
  refine ((foldl_rewind cp _ p.state p.mem).2.2.2 x).trans (if_neg ?_)
  intro hany
  obtain ⟨k, _, hk⟩ := List.any_eq_true.mp hany
  obtain ⟨info, hi, ht⟩ := List.any_eq_true.mp hk
  simp only [DebugState.taints, Bool.and_eq_true, decide_eq_true_eq, beq_iff_eq] at ht
  exact h k info hi ht.1 ht.2

/-- What is tainted stays tainted. -/
theorem Process.rewind_mem_zero {x : Nat} (h : p.mem x = 0) :
    (p.rewindToCheckpoint cp).mem x = 0 := by
  refine ((foldl_rewind cp _ p.state p.mem).2.2.2 x).trans ?_
  split
  · rfl
  · exact h

theorem guardBlock_eq_some {sys : Option Nat} {size block : Nat}
    (h : guardBlock sys size = some block) : sys = some block := by
  obtain ⟨_, _, h⟩ := Option.bind_eq_some_iff.mp h
  exact h

/-- Without a guard block the pointer is the one given, and nothing is registered. -/
theorem Process.allocateWithGuard_none {sys : Option Nat} {size : Nat}
    (h : guardBlock sys size = none) (arenaId ptr : Nat) :
    p.allocateWithGuard arenaId sys ptr size cp = (ptr, p) := by
  unfold Process.allocateWithGuard
  rw [h]

/-- With one, the pointer is the start of the copy in it. -/
theorem Process.allocateWithGuard_ptr {sys : Option Nat} {size block : Nat}
    (h : guardBlock sys size = some block) (arenaId ptr : Nat) :
    (p.allocateWithGuard arenaId sys ptr size cp).1 = block + (debugGuardSize + guardSize) := by
  unfold Process.allocateWithGuard
  rw [h]

theorem length_guardBytes (size cp : Nat) :
    (DebugGuard.new size cp).bytes.length = debugGuardSize := rfl

theorem length_preGuard (size cp : Nat) :
    (DebugGuard.new size cp).preGuard.length = guardSize := rfl

theorem length_postGuard (size cp : Nat) :
    (DebugGuard.new size cp).postGuard.length = guardSize := rfl

/-- The copies stay inside the block. -/
theorem writeGuarded_agree {m : Mem} {block ptr size : Nat} {t : Span}
    (h : t.Apart ⟨block, guardedSize size⟩) :
    Mem.Agree m (writeGuarded m block ptr size cp) t := by
  have hpart {o n : Nat} {bs : List UInt8} (hbs : bs.length = n) (hn : o + n ≤ guardedSize size)
      (m : Mem) : Mem.Agree m (m.write (block + o) bs) t := by
    subst hbs
    refine Mem.agree_write (h.mono (Span.Inside.refl t) ⟨Nat.le_add_right _ _, ?_⟩)
    simp only [Span.fin]
    omega
  have hsz : guardedSize size = size + 88 := by
    simp only [guardedSize, guardSize, debugGuardSize]
  simp only [hsz] at hpart
  have h1 (m : Mem) : Mem.Agree m (m.write block (DebugGuard.new size cp).bytes) t :=
    hpart (o := 0) (length_guardBytes size cp) (by simp only [debugGuardSize]; omega) m
  have h2 (m : Mem) :
      Mem.Agree m (m.write (block + debugGuardSize) (DebugGuard.new size cp).preGuard) t :=
    hpart (length_preGuard size cp) (by simp only [guardSize, debugGuardSize]; omega) m
  have h3 (m : Mem) :
      Mem.Agree m (m.write (block + (debugGuardSize + guardSize)) (m.read ptr size)) t :=
    hpart (Mem.length_read m ptr size) (by simp only [guardSize, debugGuardSize]; omega) m
  have h4 (m : Mem) : Mem.Agree m
      (m.write (block + (debugGuardSize + guardSize) + size) (DebugGuard.new size cp).postGuard)
      t := by
    rw [Nat.add_assoc]
    exact hpart (length_postGuard size cp) (by simp only [guardSize, debugGuardSize]; omega) m
  exact ((h1 m).trans (h2 _)).trans ((h3 _).trans (h4 _))

/-- The guard in front of the copy holds the pattern. -/
theorem writeGuarded_guard {m : Mem} {block ptr size i : Nat} (hi : i < guardSize) :
    writeGuarded m block ptr size cp (block + debugGuardSize + i) = guardByte i := by
  unfold writeGuarded
  simp only [guardSize] at hi
  rw [Mem.write, if_neg (by simp only [debugGuardSize, guardSize]; omega), Mem.write,
    if_neg (by simp only [debugGuardSize, guardSize]; omega)]
  refine holds_write _ _ _ i (guardByte i) ?_
  simp [DebugGuard.new, guardSize, hi]

end Spec

end ArenaB
