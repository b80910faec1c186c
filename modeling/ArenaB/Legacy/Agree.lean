/-
  File:      ArenaB/Legacy/Agree.lean
  Subject:   The two arenas of the crate side by side: `allocation_count` and `checkpoint_count`.

  The same calls go to the `Arena` of arena.rs and to the one of legacy_arena.rs. Where the two
  count differently:

  * a slice copy counts in the first and not in the second;
  * a rewind takes the first one's count back to that of the checkpoint and drops the checkpoints
    pushed since from its stack; the second one keeps count and stack;
  * the end of a scope takes both counts back, but drops checkpoints only from the first stack.

  `InStep` says that an operation does none of this. **`counts_agree`**: as long as every operation
  does, both numbers agree, and the first one that does not sets them apart.
-/
import ArenaB.Arena.Session
import ArenaB.Legacy.Arena

namespace ArenaB

open Base

/-! ## 1. What the operations do to the two numbers -/

namespace ArenaInner

variable {a a' : ArenaInner} {sys : Option Nat} {l : Layout} {p : Nat}

theorem allocate_tally (e : a.allocate l = some (p, a')) :
    a'.stats.allocationCount = a.stats.allocationCount + 1 ∧
      a'.checkpoints = a.checkpoints := by
  obtain ⟨c, _, e⟩ := Option.bind_eq_some_iff.mp e
  obtain ⟨r, _, e⟩ := Option.map_eq_some_iff.mp e
  cases e
  exact ⟨rfl, rfl⟩

theorem allocateOrGrow_tally (e : a.allocateOrGrow sys l = some (p, a')) :
    a'.stats.allocationCount = a.stats.allocationCount + 1 ∧
      a'.checkpoints = a.checkpoints := by
  rcases allocateOrGrow_cases e with e | ⟨_, n, a₁, e₁, e₂⟩
  · exact allocate_tally e
  · have h := allocate_tally e₂
    obtain ⟨c, _, _, _, _, rfl⟩ := addChunk_ok e₁
    exact h

end ArenaInner

namespace Arena

variable {w w' : Arena} {sys : Option Nat} {l : Layout} {p : Nat} {r : Option Nat}

theorem tryLockfree_tally (e : w.tryLockfree l = (r, w')) :
    w'.inner.stats.allocationCount = w.inner.stats.allocationCount + r.toList.length := by
  unfold tryLockfree at e
  split at e
  · cases e
    rfl
  · split at e
    · split at e <;> cases e <;> rfl
    · cases e
      rfl

/-- `allocate_raw` counts once, on every path. -/
theorem allocateRaw_tally (e : w.allocateRaw sys l = some (p, w')) :
    w'.stats.allocationCount = w.stats.allocationCount + 1 ∧
      w'.inner.checkpoints = w.inner.checkpoints := by
  rcases allocateRaw_cases e with ⟨_, _, rfl⟩ | ⟨_, hl⟩ | ⟨_, w₁, a', hl, ha, rfl⟩
  · exact ⟨rfl, rfl⟩
  · exact ⟨tryLockfree_tally hl, (tryLockfree_same hl).1.checkpoints⟩
  · obtain ⟨h1, h2⟩ := ArenaInner.allocateOrGrow_tally ha
    have h3 := tryLockfree_tally hl
    exact ⟨h1.trans (congrArg (· + 1) h3), h2.trans (tryLockfree_same hl).1.checkpoints⟩

theorem alloc_tally {value : Value} {r : Nat × Arena} (e : w.alloc sys value = some r) :
    r.2.stats.allocationCount = w.stats.allocationCount + 1 ∧
      r.2.inner.checkpoints = w.inner.checkpoints := by
  obtain ⟨⟨p, w'⟩, hw, rfl⟩ := Option.map_eq_some_iff.mp e
  have h := allocateRaw_tally hw
  exact h

/-- A slice copy counts, unless the slice has no layout. -/
theorem allocSliceCopy_tally {slice : Slice} {r : Option Nat × Arena} (hlen : 0 < slice.len)
    (e : w.allocSliceCopy sys slice = some r) :
    r.2.inner.checkpoints = w.inner.checkpoints ∧ r.2.stats.allocationCount =
      w.stats.allocationCount + if slice.elem.array slice.len = none then 0 else 1 := by
  rcases allocSliceCopy_eq_some e with ⟨hnone, rfl⟩ | ⟨l, p, w', _, hl, hw, rfl⟩
  · have hl := hnone.resolve_left (Nat.ne_of_gt hlen)
    rw [if_pos hl]
    exact ⟨rfl, rfl⟩
  · obtain ⟨h1, h2⟩ := allocateRaw_tally hw
    rw [if_neg (by rw [hl]; exact Option.some_ne_none l)]
    exact ⟨h2, h1⟩

/-- A checkpoint remembers the count. -/
theorem checkpoint_tally {r : ArenaCheckpoint × Arena} (e : w.checkpoint = some r) :
    r.1.allocationCount = w.stats.allocationCount ∧ r.2.stats = w.stats ∧
      r.2.inner.checkpoints = w.inner.checkpoints := by
  obtain ⟨r', hr', rfl⟩ := Option.map_eq_some_iff.mp e
  obtain ⟨c, _, rfl⟩ := Option.map_eq_some_iff.mp hr'
  exact ⟨rfl, rfl, rfl⟩

theorem pushCheckpoint_tally {r : ArenaCheckpoint × Arena} (e : w.pushCheckpoint = some r) :
    r.2.stats = w.stats ∧ r.2.inner.checkpoints = w.inner.checkpoints ++ [r.1] := by
  obtain ⟨r', hr', rfl⟩ := Option.map_eq_some_iff.mp e
  obtain ⟨r'', hr'', rfl⟩ := Option.map_eq_some_iff.mp hr'
  obtain ⟨c, _, rfl⟩ := Option.map_eq_some_iff.mp hr''
  exact ⟨rfl, rfl⟩

/-- A rewind restores the count and trims the stack. -/
theorem rewind_tally {debug : Bool} {cp : ArenaCheckpoint}
    (e : w.rewindToCheckpoint debug cp = some w') :
    w'.stats.allocationCount = cp.allocationCount ∧
      w'.inner.checkpoints =
        w.inner.checkpoints.filter fun c => c.checkpointId < cp.checkpointId := by
  obtain ⟨a', ha, rfl⟩ := Option.map_eq_some_iff.mp e
  obtain ⟨_, rfl⟩ := ArenaInner.rewind_eq_some.mp ha
  refine ⟨?_, (same_resetBuffer _).checkpoints⟩
  show (Arena.resetBuffer _).inner.stats.allocationCount = _
  rw [resetBuffer_stats]
  rfl

/-- A reset puts both to zero. -/
theorem reset_tally (w : Arena) :
    w.reset.stats.allocationCount = 0 ∧ w.reset.inner.checkpoints = [] := by
  refine ⟨?_, (same_resetBuffer _).checkpoints⟩
  show (Arena.resetBuffer _).inner.stats.allocationCount = _
  rw [resetBuffer_stats]
  rfl

end Arena

namespace Legacy.Arena

variable {w w' : Legacy.Arena}

theorem allocLayout_tally {sys : Option Nat} {l : Layout} {p : Nat}
    (e : w.allocLayout sys l = .ok (p, w')) :
    w'.allocationCounter = w.allocationCounter ∧ w'.inner.checkpoints = w.inner.checkpoints := by
  obtain ⟨a', hcase, rfl⟩ := allocLayout_eq_ok e
  refine ⟨rfl, ?_⟩
  rcases hcase with ha | ⟨n, a₁, ha₁, ha⟩
  · exact (ArenaInner.allocate_tally ha).2
  · have h := (ArenaInner.allocate_tally ha).2
    obtain ⟨c, _, _, _, _, rfl⟩ := ArenaInner.addChunk_ok ha₁
    exact h

theorem alloc_tally {sys : Option Nat} {value : Value} {r : Nat × Legacy.Arena}
    (e : w.alloc sys value = some r) :
    r.2.allocationCounter = w.allocationCounter + 1 ∧
      r.2.inner.checkpoints = w.inner.checkpoints := by
  obtain ⟨⟨p, w'⟩, hw, rfl⟩ := Option.map_eq_some_iff.mp e
  obtain ⟨h1, h2⟩ := allocLayout_tally (Legacy.toOption_eq_some hw)
  exact ⟨congrArg (· + 1) h1, h2⟩

/-- A slice copy does not count. -/
theorem allocSliceCopy_tally {sys : Option Nat} {slice : Slice} {r : Option Nat × Legacy.Arena}
    (e : w.allocSliceCopy sys slice = some r) :
    r.2.allocationCounter = w.allocationCounter ∧
      r.2.inner.checkpoints = w.inner.checkpoints := by
  unfold allocSliceCopy at e
  split at e
  · cases e
    exact ⟨rfl, rfl⟩
  · obtain ⟨⟨p, w'⟩, hw, rfl⟩ := Option.map_eq_some_iff.mp e
    have h := allocLayout_tally (Legacy.toOption_eq_some hw)
    exact h

/-- A rewind leaves both numbers alone. -/
theorem rewind_tally {cp : ArenaCheckpoint} (e : w.rewindToCheckpoint cp = some w') :
    w'.allocationCounter = w.allocationCounter ∧ w'.inner.checkpoints = w.inner.checkpoints := by
  obtain ⟨_, rfl⟩ := rewindToCheckpoint_eq_some.mp e
  exact ⟨rfl, rfl⟩

end Legacy.Arena

/-! ## 2. Both arenas -/

/-- A scope open on both arenas: the checkpoint that `Scope` of arena.rs keeps, the two locals of
    the legacy `scope`, and how many of the valid checkpoints its end leaves valid. -/
structure TwinScope where
  checkpoint : ArenaCheckpoint
  legacyCheckpoint : ArenaCheckpoint
  allocationCountBefore : Nat
  valid : Nat

/-- Both arenas, their valid checkpoints (oldest first) and their open scopes (innermost first). -/
structure Twins where
  modern : Arena
  legacy : Legacy.Arena
  valid : List (ArenaCheckpoint × ArenaCheckpoint)
  scopes : List TwinScope

/-- The same call on both; each has its own answer from the system allocator. -/
inductive TwinOp where
  | alloc (sys sys' : Option Nat) (value : Value)
  | allocSliceCopy (sys sys' : Option Nat) (slice : Slice)
  | checkpoint
  | pushCheckpoint
  | rewindToCheckpoint (i : Nat)
  | scopeEnter
  | scopeExit
  | clearCheckpoints
  | reset

namespace Twins

/-- The first `k` checkpoints have remained valid. -/
def back (x : Twins) (k : Nat) : Twins :=
  { x with
    valid := x.valid.take k
    scopes := x.scopes.map fun sc => { sc with valid := min sc.valid k } }

/-- The innermost closure returns: `Drop for Scope`, and the end of the legacy `scope`. -/
def closeScope (x : Twins) (debug : Bool) : Option Twins :=
  match x.scopes with
  | [] => none
  | sc :: outer =>
      (x.modern.rewindToCheckpoint debug sc.checkpoint).bind fun w =>
        (x.legacy.scopeExit sc.legacyCheckpoint sc.allocationCountBefore).map fun w' =>
          Twins.back { x with modern := w, legacy := w', scopes := outer } sc.valid

/-- One call. -/
def exec (debug : Bool) (x : Twins) : TwinOp → Option Twins
  | .alloc sys sys' value =>
      (x.modern.alloc sys value).bind fun r =>
        (x.legacy.alloc sys' value).map fun r' => { x with modern := r.2, legacy := r'.2 }
  | .allocSliceCopy sys sys' slice =>
      (x.modern.allocSliceCopy sys slice).bind fun r =>
        (x.legacy.allocSliceCopy sys' slice).map fun r' =>
          { x with modern := r.2, legacy := r'.2 }
  | .checkpoint =>
      x.modern.checkpoint.bind fun r =>
        x.legacy.checkpoint.map fun cp =>
          { x with modern := r.2, valid := x.valid ++ [(r.1, cp)] }
  | .pushCheckpoint =>
      x.modern.pushCheckpoint.bind fun r =>
        x.legacy.pushCheckpoint.map fun r' =>
          { x with modern := r.2, legacy := r'.2, valid := x.valid ++ [(r.1, r'.1)] }
  | .rewindToCheckpoint i =>
      x.valid[i]?.bind fun cps =>
        (x.modern.rewindToCheckpoint debug cps.1).bind fun w =>
          (x.legacy.rewindToCheckpoint cps.2).map fun w' =>
            Twins.back { x with modern := w, legacy := w' } (i + 1)
  | .scopeEnter =>
      x.modern.checkpoint.bind fun r =>
        x.legacy.scopeEnter.map fun r' =>
          { x with modern := r.2, scopes := ⟨r.1, r'.1, r'.2, x.valid.length⟩ :: x.scopes }
  | .scopeExit => x.closeScope debug
  | .clearCheckpoints =>
      some { x with modern := x.modern.clearCheckpoints, legacy := x.legacy.clearCheckpoints }
  | .reset =>
      some (Twins.back { x with modern := x.modern.reset, legacy := x.legacy.reset } 0)

/-- Two new arenas of the same capacity. -/
def Init (f : Features) (x : Twins) : Prop :=
  ∃ (sys sys' sys'' : Option Nat) (lockfree : Option (Option Nat)) (owner : Nat)
    (slab : ThreadSlab) (mem mem' : Mem) (capacity : Nat), 0 < capacity ∧
    lockfree.isSome = f.lockfree ∧
    Arena.withCapacity sys sys' lockfree owner slab mem capacity = some x.modern ∧
    Legacy.Arena.withCapacity sys'' mem' capacity = some x.legacy ∧ x.valid = [] ∧ x.scopes = []

/-- The two numbers agree. -/
def Agree (x : Twins) : Prop :=
  x.modern.stats.allocationCount = x.legacy.stats.allocationCount ∧
    x.modern.checkpointCount = x.legacy.checkpointCount

instance (x : Twins) : Decidable x.Agree := by unfold Agree; infer_instance

end Twins

/-- What a caller passes: values of 1 byte to 16 MiB, slices that are not empty. -/
def TwinOp.Admissible : TwinOp → Prop
  | .alloc _ _ value => 0 < value.layout.size ∧ value.layout.size ≤ maxChunkSize
  | .allocSliceCopy _ _ slice => 0 < slice.len
  | _ => True

instance (op : TwinOp) : Decidable op.Admissible := by
  cases op <;> unfold TwinOp.Admissible <;> infer_instance

/-- The same calls on both arenas, in a build with the features `f`. -/
def twins (f : Features) : System Twins TwinOp where
  init := Twins.Init f
  ok _ op := op.Admissible
  step x op := x.exec f.debug op

instance (f : Features) (x : Twins) (op : TwinOp) : Decidable ((twins f).ok x op) :=
  inferInstanceAs (Decidable op.Admissible)

/-- The operation moves both counts and both stacks alike: no slice is copied (one without a
    layout is not), a rewind undoes no counted allocation, and neither a rewind nor the end of a
    scope takes a checkpoint off the stack of arena.rs. -/
def InStep (x : Twins) : TwinOp → Prop
  | .allocSliceCopy _ _ slice => slice.elem.array slice.len = none
  | .rewindToCheckpoint i => ∀ cps ∈ x.valid[i]?,
      cps.1.allocationCount = x.modern.stats.allocationCount ∧
      ∀ c ∈ x.modern.inner.checkpoints, c.checkpointId < cps.1.checkpointId
  | .scopeExit => ∀ sc ∈ x.scopes.head?,
      ∀ c ∈ x.modern.inner.checkpoints, c.checkpointId < sc.checkpoint.checkpointId
  | _ => True

instance (x : Twins) (op : TwinOp) : Decidable (InStep x op) := by
  cases op <;> unfold InStep <;> infer_instance

/-! ## 3. Runs -/

/-- The numbers agree, and so do the counts that the ends of the open scopes go back to. -/
structure Paired (x : Twins) : Prop where
  agree : x.Agree
  scopes : ∀ sc ∈ x.scopes, sc.checkpoint.allocationCount = sc.allocationCountBefore

namespace Paired

variable {x x' : Twins} {debug : Bool}

/-- Going back changes no open scope's counts. -/
theorem scopes_back {k : Nat}
    (h : ∀ sc ∈ x.scopes, sc.checkpoint.allocationCount = sc.allocationCountBefore) :
    ∀ sc ∈ (x.back k).scopes, sc.checkpoint.allocationCount = sc.allocationCountBefore := by
  intro sc hsc
  obtain ⟨sc', hsc', rfl⟩ := List.mem_map.mp hsc
  exact h sc' hsc'

/-- After a rewind of arena.rs: its count is that of the checkpoint, and its stack is as long as
    before exactly if nothing was trimmed. -/
theorem agree_rewound (h : x.Agree) {cp : ArenaCheckpoint}
    (e : x.modern.rewindToCheckpoint debug cp = some x'.modern)
    (h' : x'.legacy.inner.checkpoints = x.legacy.inner.checkpoints) :
    x'.Agree ↔ cp.allocationCount = x'.legacy.allocationCounter ∧
      ∀ c ∈ x.modern.inner.checkpoints, c.checkpointId < cp.checkpointId := by
  obtain ⟨h1, h2⟩ := Arena.rewind_tally e
  have hlen : x.modern.inner.checkpoints.length = x.legacy.inner.checkpoints.length := h.2
  show x'.modern.stats.allocationCount = x'.legacy.allocationCounter ∧
    x'.modern.inner.checkpoints.length = x'.legacy.inner.checkpoints.length ↔ _
  rw [h1, h2, h', ← hlen, List.length_filter_eq_length_iff]
  simp only [decide_eq_true_eq]

/-- Both numbers moved by the same amounts. -/
theorem moved (h : Paired x) {n m : Nat}
    (h1 : x'.modern.stats.allocationCount = x.modern.stats.allocationCount + n)
    (h2 : x'.legacy.allocationCounter = x.legacy.allocationCounter + n)
    (h3 : x'.modern.checkpointCount = x.modern.checkpointCount + m)
    (h4 : x'.legacy.checkpointCount = x.legacy.checkpointCount + m) : x'.Agree := by
  refine ⟨?_, by rw [h3, h4, h.agree.2]⟩
  show x'.modern.stats.allocationCount = x'.legacy.allocationCounter
  rw [h1, h2, h.agree.1]
  rfl

/-- A slice copy moves the count of arena.rs only. -/
theorem sliceCopy_iff (h : Paired x) {sys sys' : Option Nat} {slice : Slice}
    (hlen : 0 < slice.len) (e : x.exec debug (.allocSliceCopy sys sys' slice) = some x') :
    (x'.Agree ↔ InStep x (.allocSliceCopy sys sys' slice)) ∧ x'.scopes = x.scopes := by
  obtain ⟨r, hr, e⟩ := Option.bind_eq_some_iff.mp e
  obtain ⟨r', hr', rfl⟩ := Option.map_eq_some_iff.mp e
  obtain ⟨h1, h2⟩ := Arena.allocSliceCopy_tally hlen hr
  obtain ⟨h3, h4⟩ := Legacy.Arena.allocSliceCopy_tally hr'
  refine ⟨⟨fun ha => ?_, fun hs => ?_⟩, rfl⟩
  · have h5 : r.2.stats.allocationCount = r'.2.allocationCounter := ha.1
    have h6 : x.modern.stats.allocationCount = x.legacy.allocationCounter := h.agree.1
    rw [h2, h3, h6] at h5
    by_contra hne
    have hne' : slice.elem.array slice.len ≠ none := hne
    rw [if_neg hne'] at h5
    omega
  · have hs' : slice.elem.array slice.len = none := hs
    rw [if_pos hs'] at h2
    exact h.moved (m := 0) h2 h3 (congrArg List.length h1) (congrArg List.length h4)

/-- A rewind moves neither number of the legacy arena. -/
theorem rewind_iff (h : Paired x) {i : Nat}
    (e : x.exec debug (.rewindToCheckpoint i) = some x') :
    (x'.Agree ↔ InStep x (.rewindToCheckpoint i)) ∧
      ∀ sc ∈ x'.scopes, sc.checkpoint.allocationCount = sc.allocationCountBefore := by
  obtain ⟨cps, hcps, e⟩ := Option.bind_eq_some_iff.mp e
  obtain ⟨w, hw, e⟩ := Option.bind_eq_some_iff.mp e
  obtain ⟨w', hw', rfl⟩ := Option.map_eq_some_iff.mp e
  obtain ⟨h1, h2⟩ := Legacy.Arena.rewind_tally hw'
  refine ⟨(agree_rewound h.agree hw h2).trans ?_, scopes_back h.scopes⟩
  show cps.1.allocationCount = w'.allocationCounter ∧ _ ↔ ∀ cps ∈ x.valid[i]?, _ ∧ _
  have hcount : x.modern.stats.allocationCount = x.legacy.allocationCounter := h.agree.1
  rw [hcps, h1, hcount]
  simp only [Option.mem_some_iff, forall_eq']

/-- The end of a scope takes both counts back to the same number. -/
theorem scopeExit_iff (h : Paired x) (e : x.exec debug .scopeExit = some x') :
    (x'.Agree ↔ InStep x .scopeExit) ∧
      ∀ sc ∈ x'.scopes, sc.checkpoint.allocationCount = sc.allocationCountBefore := by
  have e' : x.closeScope debug = some x' := e
  unfold Twins.closeScope at e'
  split at e'
  · cases e'
  rename_i sc outer hsc
  obtain ⟨w, hw, e'⟩ := Option.bind_eq_some_iff.mp e'
  obtain ⟨w', hw', rfl⟩ := Option.map_eq_some_iff.mp e'
  obtain ⟨w'', hw'', rfl⟩ := Option.map_eq_some_iff.mp hw'
  obtain ⟨_, h2⟩ := Legacy.Arena.rewind_tally hw''
  have hmem : ∀ sc' ∈ outer, sc' ∈ x.scopes := fun sc' h' => hsc ▸ List.mem_cons_of_mem sc h'
  refine ⟨(agree_rewound h.agree hw h2).trans ?_,
    scopes_back fun sc' h' => h.scopes sc' (hmem sc' h')⟩
  show sc.checkpoint.allocationCount = sc.allocationCountBefore ∧ _ ↔ ∀ sc ∈ x.scopes.head?, _
  rw [hsc, List.head?_cons]
  simp only [Option.mem_some_iff, forall_eq', and_iff_right_iff_imp]
  exact fun _ => h.scopes sc (hsc ▸ List.mem_cons_self)

/-- **One step**: the numbers agree after it exactly if it moves them alike. -/
theorem step (h : Paired x) {op : TwinOp} (hop : op.Admissible) (e : x.exec debug op = some x') :
    (x'.Agree ↔ InStep x op) ∧
      ∀ sc ∈ x'.scopes, sc.checkpoint.allocationCount = sc.allocationCountBefore := by
  cases op with
  | alloc sys sys' value =>
      obtain ⟨r, hr, e⟩ := Option.bind_eq_some_iff.mp e
      obtain ⟨r', hr', rfl⟩ := Option.map_eq_some_iff.mp e
      obtain ⟨h1, h2⟩ := Arena.alloc_tally hr
      obtain ⟨h3, h4⟩ := Legacy.Arena.alloc_tally hr'
      exact ⟨iff_of_true (h.moved (m := 0) h1 h3 (congrArg List.length h2)
        (congrArg List.length h4)) trivial, h.scopes⟩
  | allocSliceCopy sys sys' slice =>
      obtain ⟨hiff, hsc⟩ := h.sliceCopy_iff hop e
      exact ⟨hiff, hsc ▸ h.scopes⟩
  | checkpoint =>
      obtain ⟨r, hr, e⟩ := Option.bind_eq_some_iff.mp e
      obtain ⟨cp, hcp, rfl⟩ := Option.map_eq_some_iff.mp e
      obtain ⟨_, h2, h3⟩ := Arena.checkpoint_tally hr
      exact ⟨iff_of_true (h.moved (n := 0) (m := 0) (congrArg ArenaStats.allocationCount h2) rfl
        (congrArg List.length h3) rfl) trivial, h.scopes⟩
  | pushCheckpoint =>
      obtain ⟨r, hr, e⟩ := Option.bind_eq_some_iff.mp e
      obtain ⟨r', hr', rfl⟩ := Option.map_eq_some_iff.mp e
      obtain ⟨h1, h2⟩ := Arena.pushCheckpoint_tally hr
      obtain ⟨cp, _, rfl⟩ := Option.map_eq_some_iff.mp hr'
      refine ⟨iff_of_true (h.moved (n := 0) (m := 1) (congrArg ArenaStats.allocationCount h1) rfl
        ?_ List.length_append) trivial, h.scopes⟩
      show r.2.inner.checkpoints.length = _
      rw [h2, List.length_append]
      rfl
  | rewindToCheckpoint i => exact h.rewind_iff e
  | scopeEnter =>
      obtain ⟨r, hr, e⟩ := Option.bind_eq_some_iff.mp e
      obtain ⟨r', hr', rfl⟩ := Option.map_eq_some_iff.mp e
      obtain ⟨cp, _, rfl⟩ := Option.map_eq_some_iff.mp hr'
      obtain ⟨h1, h2, h3⟩ := Arena.checkpoint_tally hr
      refine ⟨iff_of_true (h.moved (n := 0) (m := 0) (congrArg ArenaStats.allocationCount h2) rfl
        (congrArg List.length h3) rfl) trivial, fun sc hsc => ?_⟩
      rcases List.mem_cons.mp hsc with rfl | hsc
      · exact h1.trans h.agree.1
      · exact h.scopes sc hsc
  | scopeExit => exact h.scopeExit_iff e
  | clearCheckpoints =>
      cases e
      exact ⟨iff_of_true ⟨h.agree.1, rfl⟩ trivial, h.scopes⟩
  | reset =>
      cases e
      obtain ⟨h1, h2⟩ := Arena.reset_tally x.modern
      exact ⟨iff_of_true ⟨h1, congrArg List.length h2⟩ trivial, scopes_back h.scopes⟩

end Paired

/-- Two new arenas have counted nothing. -/
theorem Twins.Init.paired {f : Features} {x : Twins} (h : x.Init f) : Paired x := by
  obtain ⟨sys, sys', sys'', lf, owner, slab, mem, mem', cap, _, _, hm, hl, _, hsc⟩ := h
  obtain ⟨_, _, a, ha, hw⟩ := Arena.withCapacity_eq_some hm
  unfold Legacy.Arena.withCapacity at hl
  split at hl
  · rename_i a' ha'
    simp only [Option.some.injEq] at hl
    refine ⟨⟨?_, ?_⟩, fun sc h => ?_⟩
    · rw [hw, ← hl]
      show a.stats.allocationCount = 0
      rw [(ArenaInner.new_stats ha).1]
    · rw [hw, ← hl]
      exact congrArg List.length
        ((ArenaInner.new_eq_ok ha).1.trans (ArenaInner.new_eq_ok ha').1.symm)
    · rw [hsc] at h
      cases h
  · cases hl

theorem reach_paired {f : Features} {x : Twins} (h : ((twins f).under InStep).Reach x) :
    Paired x := by
  refine h.inv (P := Paired) (fun x (hx : x.Init f) => hx.paired) fun x op x' hx hok e => ?_
  obtain ⟨h1, h2⟩ := hx.step hok.1 e
  exact ⟨h1.mpr hok.2, h2⟩

/-- **The two arenas agree** on `allocation_count` and `checkpoint_count` after every step of a run
    whose operations are all in step, and the first operation that is not sets them apart. -/
theorem counts_agree {f : Features} {x : Twins} (h : ((twins f).under InStep).Reach x) :
    x.modern.stats.allocationCount = x.legacy.stats.allocationCount ∧
    x.modern.checkpointCount = x.legacy.checkpointCount ∧
    ∀ op x', (twins f).ok x op → (twins f).step x op = some x' →
      (x'.modern.stats.allocationCount = x'.legacy.stats.allocationCount ∧
        x'.modern.checkpointCount = x'.legacy.checkpointCount ↔ InStep x op) := by
  have hp := reach_paired h
  exact ⟨hp.agree.1, hp.agree.2, fun op x' hok e => (hp.step hok e).1⟩

/-- Two new arenas with one chunk of 64 bytes. -/
def Twins.small : Twins where
  modern := (Sess.small none).arena
  legacy := ⟨⟨[⟨8192, 64, 0⟩], 0, [], 0, ⟨0, 64, 0, 1⟩, none⟩, 0, fun _ => 0⟩
  valid := []
  scopes := []

theorem Twins.init_small (debug : Bool) : Twins.small.Init ⟨debug, false⟩ :=
  ⟨some 8192, none, some 8192, none, 1024, ThreadSlab.new, fun _ => 0, fun _ => 0, 64,
    by decide, rfl, rfl, rfl, rfl, rfl⟩

/-- A pushed checkpoint below a scope that allocates, and a rewind that undoes nothing. -/
theorem counts_agree_scoped : ∃ x, ((twins ⟨false, false⟩).under InStep).Reach x ∧
    (x.modern.stats.allocationCount = 1 ∧ x.modern.checkpointCount = 1) ∧
    x.modern.stats.allocationCount = x.legacy.stats.allocationCount ∧
    x.modern.checkpointCount = x.legacy.checkpointCount := by
  obtain ⟨x, hr, hx⟩ := System.exists_reach_of_replay ((twins ⟨false, false⟩).under InStep)
    [.alloc none none ⟨.byte, [42], rfl⟩, .pushCheckpoint, .checkpoint,
      .scopeEnter, .alloc none none ⟨⟨2, 2, ⟨1, rfl⟩, by decide⟩, [7, 8], rfl⟩, .scopeExit,
      .rewindToCheckpoint 1]
    (P := fun x => x.modern.stats.allocationCount = 1 ∧ x.modern.checkpointCount = 1)
    (Twins.init_small false) (by decide +kernel)
  obtain ⟨h1, h2, _⟩ := counts_agree hr
  exact ⟨x, hr, hx, h1, h2⟩

/-- **Where they part**, the first arena's number before the second's: a slice copy, a rewind over
    an allocation, a rewind and the end of a scope over a pushed checkpoint. -/
theorem counts_drift :
    (∃ x, (twins ⟨false, false⟩).Reach x ∧ x.modern.stats.allocationCount = 1 ∧
      x.legacy.stats.allocationCount = 0) ∧
    (∃ x, (twins ⟨false, false⟩).Reach x ∧ x.modern.stats.allocationCount = 0 ∧
      x.legacy.stats.allocationCount = 1) ∧
    (∃ x, (twins ⟨false, false⟩).Reach x ∧ x.modern.checkpointCount = 0 ∧
      x.legacy.checkpointCount = 1 ∧ x.valid.length = 1) ∧
    ∃ x, (twins ⟨false, false⟩).Reach x ∧ x.modern.checkpointCount = 0 ∧
      x.legacy.checkpointCount = 1 ∧ x.valid = [] :=
  ⟨System.exists_reach_of_replay (twins ⟨false, false⟩)
      [.allocSliceCopy none none ⟨.byte, 2, [1, 2], rfl⟩]
      (Twins.init_small false) (by decide +kernel),
    System.exists_reach_of_replay (twins ⟨false, false⟩)
      [.checkpoint, .alloc none none ⟨.byte, [42], rfl⟩,
        .rewindToCheckpoint 0] (Twins.init_small false) (by decide +kernel),
    System.exists_reach_of_replay (twins ⟨false, false⟩)
      [.checkpoint, .pushCheckpoint, .rewindToCheckpoint 0] (Twins.init_small false)
      (by decide +kernel),
    System.exists_reach_of_replay (twins ⟨false, false⟩)
      [.scopeEnter, .pushCheckpoint, .scopeExit] (Twins.init_small false) (by decide +kernel)⟩

end ArenaB
