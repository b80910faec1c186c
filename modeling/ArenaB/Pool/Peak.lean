/-
  File:      ArenaB/Pool/Peak.lean
  Subject:   `Pool::alloc` (src/lib.rs) grows the pool only when it must.

  `alloc` pushes a slot only if the free list is empty. So the number of slots is the initial
  capacity until more handles are live at once than there are slots, and from then on the largest
  number that was.

  * `dropRuns`, `peakRuns` -- runs of a pool of a given initial capacity in which every handle is
    dropped, not leaked; beside the state, the largest number of handles live at once so far;
  * `WF.alloc_stats` -- an `alloc` raises the capacity to one more than `in_use` if it is less, by
    `WF.capacity`: all slots are in use or on the free list;
  * **`capacity_eq_peak`**.
-/
import ArenaB.Pool.Slots

namespace ArenaB

open Base

universe u

variable {T : Type u}

/-! ## 1. The statistics after a call -/

namespace PoolInner

variable {p : PoolInner T} {i : Nat} {v : T} {debugAssertions : Bool}

/-- **`alloc` grows the pool only if every slot is in use.** -/
theorem WF.alloc_stats (h : p.WF) {blk cap : Nat} {r : Nat × PoolInner T}
    (e : p.alloc debugAssertions blk cap v = some r) :
    r.2.stats.inUse = p.stats.inUse + 1 ∧
      r.2.stats.capacity = max p.stats.capacity (p.stats.inUse + 1) := by
  have hcap : p.storage.items.length = p.inUse + p.free.length := h.capacity
  obtain ⟨p₂, hfill, rfl⟩ := Option.map_eq_some_iff.mp e
  -- What `fill` leaves of the pool after `takeIndex`.
  obtain ⟨slot, hslot, hfill⟩ := Option.bind_eq_some_iff.mp hfill
  split at hfill
  · cases hfill
  · cases hfill
    show (p.takeIndex blk cap).2.inUse + 1 = p.inUse + 1 ∧
      ((p.takeIndex blk cap).2.storage.items.set _ _).length =
        max p.storage.items.length (p.inUse + 1)
    rw [List.length_set]
    unfold PoolInner.takeIndex
    cases hf : p.free.getLast? with
    | some i =>
        obtain ⟨l, hl⟩ := List.getLast?_eq_some_iff.mp hf
        rw [hl, List.length_append, List.length_singleton] at hcap
        refine ⟨rfl, ?_⟩
        show p.storage.items.length = max p.storage.items.length (p.inUse + 1)
        omega
    | none =>
        rw [List.getLast?_eq_none_iff.mp hf, List.length_nil] at hcap
        refine ⟨rfl, ?_⟩
        show (p.storage.push none blk cap).items.length = max p.storage.items.length (p.inUse + 1)
        rw [Vec.push_items, List.length_append, List.length_singleton]
        omega

theorem putBack_stats (hi : p.storage.items[i]? = some (some v)) {p' : PoolInner T}
    (e : p.putBack i = some p') :
    p'.stats.inUse = p.stats.inUse - 1 ∧ p'.stats.capacity = p.stats.capacity := by
  unfold putBack at e
  rw [hi] at e
  cases e
  exact ⟨rfl, List.length_set⟩

theorem derefMut_stats {p' : PoolInner T} (e : p.derefMut i v = some p') :
    p'.stats.inUse = p.stats.inUse ∧ p'.stats.capacity = p.stats.capacity := by
  obtain ⟨_, _, rfl⟩ := Option.map_eq_some_iff.mp e
  exact ⟨rfl, List.length_set⟩

end PoolInner

/-! ## 2. Runs with their peak -/

/-- No handle is leaked. -/
def PoolOp.keepsHandles : PoolOp T → Bool
  | .leak _ => false
  | _ => true

/-- The largest number of live handles so far, after a call. -/
def PoolSess.peak (debugAssertions : Bool) (s : PoolSess T) (op : PoolOp T) (peak : Nat) : Nat :=
  match s.exec debugAssertions op with
  | none => peak
  | some s' => max peak s'.live.length

/-- The runs of a pool of initial capacity `c` without leaks. -/
def dropRuns (T : Type u) (debugAssertions : Bool) (c : Nat) : System (PoolSess T) (PoolOp T) where
  init s := ∃ blk cap, c ≤ cap ∧ s = ⟨.withCapacity blk cap c, []⟩
  ok s op := s.Ok op ∧ op.keepsHandles = true
  step := PoolSess.exec debugAssertions

instance (T : Type u) (debugAssertions : Bool) (c : Nat) (s : PoolSess T) (op : PoolOp T) :
    Decidable ((dropRuns T debugAssertions c).ok s op) :=
  inferInstanceAs (Decidable (s.Ok op ∧ op.keepsHandles = true))

/-- These runs, with the largest number of live handles so far. -/
def peakRuns (T : Type u) (debugAssertions : Bool) (c : Nat) :
    System (PoolSess T × Nat) (PoolOp T) :=
  (dropRuns T debugAssertions c).withGhost 0 (PoolSess.peak debugAssertions)

instance (T : Type u) (debugAssertions : Bool) (c : Nat) (x : PoolSess T × Nat) (op : PoolOp T) :
    Decidable ((peakRuns T debugAssertions c).ok x op) :=
  inferInstanceAs (Decidable ((dropRuns T debugAssertions c).ok x.1 op))

/-- The books, and the capacity as the peak has it. -/
structure PoolSess.Peaked (c : Nat) (s : PoolSess T) (peak : Nat) : Prop where
  held : s.Held
  inUse : s.pool.stats.inUse = s.live.length
  bound : s.live.length ≤ peak
  capacity : s.pool.stats.capacity = max c peak

section Runs

variable {c peak : Nat} {s s' : PoolSess T} {debugAssertions : Bool}

/-- A call that makes no handle live leaves capacity and peak. -/
theorem PoolSess.Peaked.shrink (h : s.Peaked c peak) (hheld : s'.Held)
    (hin : s'.pool.stats.inUse = s'.live.length)
    (hcap : s'.pool.stats.capacity = s.pool.stats.capacity)
    (hlen : s'.live.length ≤ s.live.length) : s'.Peaked c (max peak s'.live.length) := by
  have hle := Nat.le_trans hlen h.bound
  rw [Nat.max_eq_left hle]
  exact ⟨hheld, hin, hle, hcap.trans h.capacity⟩

/-- **One call keeps the capacity at the peak.** -/
theorem PoolSess.Peaked.step (h : s.Peaked c peak) {op : PoolOp T} (hop : op.keepsHandles = true)
    (e : s.exec debugAssertions op = some s') : s'.Peaked c (max peak s'.live.length) := by
  have hheld := (h.held.step e).1
  cases op with
  | alloc blk cap v =>
      obtain ⟨r, hr, rfl⟩ := Option.map_eq_some_iff.mp e
      obtain ⟨hin, hcap⟩ := h.held.wf.alloc_stats hr
      have hlen : (s.live ++ [(⟨r.1, r.2.storage.block, v⟩ : Pooled T)]).length =
          s.live.length + 1 := by
        rw [List.length_append, List.length_singleton]
      rw [h.inUse] at hin hcap
      refine ⟨hheld, hin.trans hlen.symm, Nat.le_max_right _ _, ?_⟩
      show r.2.stats.capacity = max c (max peak (s.live ++ [_]).length)
      rw [hcap, h.capacity, hlen, Nat.max_assoc]
  | write i v =>
      obtain ⟨k, hk, e⟩ := Option.bind_eq_some_iff.mp e
      obtain ⟨p, hp, rfl⟩ := Option.map_eq_some_iff.mp e
      obtain ⟨hin, hcap⟩ := PoolInner.derefMut_stats hp
      have hlen : (s.live.set i { k with value := v }).length = s.live.length := List.length_set
      exact h.shrink hheld (hin.trans (h.inUse.trans hlen.symm)) hcap (Nat.le_of_eq hlen)
  | drop i =>
      obtain ⟨k, hk, e⟩ := Option.bind_eq_some_iff.mp e
      obtain ⟨p, hp, rfl⟩ := Option.map_eq_some_iff.mp e
      obtain ⟨hin, hcap⟩ := PoolInner.putBack_stats (h.held.value k (List.mem_of_getElem? hk)) hp
      have hlt := (List.getElem?_eq_some_iff.mp hk).1
      have hlen : (s.live.eraseIdx i).length = s.live.length - 1 := List.length_eraseIdx_of_lt hlt
      rw [h.inUse] at hin
      exact h.shrink hheld (hin.trans hlen.symm) hcap (by rw [hlen]; exact Nat.sub_le _ _)
  | leak i => cases hop

theorem reach_peaked (h : (peakRuns T debugAssertions c).Reach (s, peak)) : s.Peaked c peak := by
  refine h.inv (P := fun x => x.1.Peaked c x.2) (fun x hi => ?_) fun x op x' hx hok e => ?_
  · obtain ⟨s, peak⟩ := x
    obtain ⟨⟨blk, cap, _, rfl⟩, rfl⟩ := hi
    refine ⟨⟨PoolInner.wf_withCapacity _ _ _, .nil, (fun _ h => by cases h)⟩, rfl,
      Nat.le_refl _, ?_⟩
    exact List.length_replicate.trans (Nat.max_eq_left (Nat.zero_le c)).symm
  · obtain ⟨s', hs', rfl⟩ := Option.map_eq_some_iff.mp e
    have hstep := hx.step hok.2 hs'
    have hpeak : x.1.peak debugAssertions op x.2 = max x.2 s'.live.length := by
      have hs : x.1.exec debugAssertions op = some s' := hs'
      simp only [PoolSess.peak, hs]
    rw [← hpeak] at hstep
    exact hstep

end Runs

/-- **A pool grows only when it must**: for every initial capacity and in every run of allocs,
    writes and drops, `stats().capacity` is the larger of the initial capacity and the largest
    number of handles that were live at the same time so far. -/
theorem capacity_eq_peak (T : Type u) (debugAssertions : Bool) (c : Nat) {s : PoolSess T}
    {peak : Nat} (h : (peakRuns T debugAssertions c).Reach (s, peak)) :
    s.pool.stats.capacity = max c peak :=
  (reach_peaked h).capacity

/-- Two slots, three handles at once, then one. -/
theorem capacity_eq_peak_three : ∃ s peak, (peakRuns Nat true 2).Reach (s, peak) ∧
    (peak = 3 ∧ s.live.length = 2) ∧ s.pool.stats.capacity = max 2 3 := by
  obtain ⟨⟨s, peak⟩, hr, rfl, hlen⟩ := System.exists_reach_of_replay (peakRuns Nat true 2)
    [.alloc 0 0 5, .alloc 0 0 6, .drop 0, .alloc 0 0 7, .alloc 8192 4 8, .drop 1, .drop 0,
      .alloc 0 0 9]
    (P := fun x => 3 = x.2 ∧ x.1.live.length = 2)
    (s := (⟨.withCapacity 4096 2 2, []⟩, 0)) ⟨⟨4096, 2, Nat.le_refl _, rfl⟩, rfl⟩ (by decide)
  exact ⟨s, 3, hr, ⟨rfl, hlen⟩, capacity_eq_peak Nat true 2 hr⟩

end ArenaB
