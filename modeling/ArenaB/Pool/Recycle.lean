/-
  File:      ArenaB/Pool/Recycle.lean
  Subject:   The two `Pool<T>` of the crate (src/lib.rs and src/arena.rs) side by side.

  The pool of lib.rs writes the new value into a slot. The pool of arena.rs keeps the objects of
  dropped handles and hands the last one out again; the value passed to `alloc` is used only if
  there is none, and dropped otherwise.

  * `ArenaModule.PoolInner` -- the pool of arena.rs, with its statistics; a `Pooled` carries the
    object itself;
  * `PoolPair` -- the same calls on both pools, one handle at a time; `dropped` is what the last
    handle of the second pool held when it was dropped;
  * `Related` -- with one handle at a time the second pool never keeps more than that one object;
  * **`pools_agree`** -- in every state the first pool's handle holds the value it was made with,
    and the second one's does exactly if the object recycled holds it, too.
-/
import ArenaB.Pool.Slots

namespace ArenaB

open Base

universe u

/-! ## 1. The pool of arena.rs -/

namespace ArenaModule

/-- `arena::PoolStats`. -/
structure PoolStats where
  allocations : Nat
  deallocations : Nat
  peakUsage : Nat
  deriving DecidableEq, Repr

/-- `arena::PoolInner<T>`. -/
structure PoolInner (T : Type u) where
  objects : List (Option T)
  stats : PoolStats

/-- `arena::Pooled`; the pool it borrows is passed along. -/
structure Pooled (T : Type u) where
  value : Option T

variable {T : Type u}

/-- `arena::Pool::new`. -/
def PoolInner.new : PoolInner T := ⟨[], 0, 0, 0⟩

/-- `arena::Pool::alloc`. -/
def PoolInner.alloc (p : PoolInner T) (value : T) : Pooled T × PoolInner T :=
  let obj := p.objects.getLast?.getD (some value)
  let objects := p.objects.dropLast
  (⟨obj⟩, ⟨objects, { p.stats with
    allocations := p.stats.allocations + 1
    peakUsage := max p.stats.peakUsage (objects.length + 1) }⟩)

/-- `Deref for arena::Pooled`; `none` is the panic of `unwrap`. -/
def Pooled.deref (h : Pooled T) : Option T := h.value

/-- A change through `DerefMut for arena::Pooled`. -/
def Pooled.derefMut (h : Pooled T) (f : T → T) : Option (Pooled T) :=
  h.value.map fun v => ⟨some (f v)⟩

/-- `Drop for arena::Pooled`. -/
def PoolInner.drop (p : PoolInner T) (h : Pooled T) : PoolInner T :=
  match h.value with
  | none => p
  | some v =>
      ⟨p.objects ++ [some v], { p.stats with deallocations := p.stats.deallocations + 1 }⟩

end ArenaModule

/-! ## 2. Both pools -/

/-- Both pools, and the one handle of each. -/
structure PoolPair (T : Type u) where
  slots : PoolInner T
  index : Option Nat
  objects : ArenaModule.PoolInner T
  handle : Option (ArenaModule.Pooled T)
  dropped : Option T

/-- The same call on both pools. -/
inductive PairOp (T : Type u) where
  | alloc (blk cap : Nat) (value : T)
  | modify (f : T → T)
  | drop

namespace PoolPair

variable {T : Type u}

/-- What the handle of the first pool dereferences to. -/
def slotValue (s : PoolPair T) : Option T := s.index.bind s.slots.deref

/-- What the handle of the second pool dereferences to. -/
def objectValue (s : PoolPair T) : Option T := s.handle.bind ArenaModule.Pooled.deref

/-- One call on both pools; `none` if one panics, or for an `alloc` while a handle is live. -/
def exec (debugAssertions : Bool) (s : PoolPair T) : PairOp T → Option (PoolPair T)
  | .alloc blk cap value =>
      match s.handle with
      | some _ => none
      | none =>
          (s.slots.alloc debugAssertions blk cap value).map fun r =>
            let r' := s.objects.alloc value
            ⟨r.2, some r.1, r'.2, some r'.1, s.dropped⟩
  | .modify f =>
      s.index.bind fun i => s.handle.bind fun h =>
        (s.slots.deref i).bind fun v => (s.slots.derefMut i (f v)).bind fun p =>
          (h.derefMut f).map fun h' => { s with slots := p, handle := some h' }
  | .drop =>
      s.index.bind fun i => s.handle.bind fun h =>
        (s.slots.putBack i).map fun p => ⟨p, none, s.objects.drop h, none, h.value⟩

end PoolPair

/-- The runs of both pools, the first of any initial capacity. -/
def poolPairs (T : Type u) (debugAssertions : Bool) : System (PoolPair T) (PairOp T) where
  init s := ∃ blk cap capacity, s = ⟨.withCapacity blk cap capacity, none, .new, none, none⟩
  ok _ _ := True
  step := PoolPair.exec debugAssertions

instance (T : Type u) (debugAssertions : Bool) (s : PoolPair T) (op : PairOp T) :
    Decidable ((poolPairs T debugAssertions).ok s op) := .isTrue trivial

/-! ## 3. What is kept -/

namespace PoolPair

variable {T : Type u} {s s' : PoolPair T}

/-- What holds between the calls: while a handle is live, its slot and its object are filled and
    nothing is kept; else the object of the last handle is. -/
inductive Related : PoolPair T → Prop where
  | live {slots : PoolInner T} {i : Nat} {st : ArenaModule.PoolStats} {v w : T}
      {dropped : Option T} (wf : slots.WF) (slot : slots.storage.items[i]? = some (some v)) :
      Related ⟨slots, some i, ⟨[], st⟩, some ⟨some w⟩, dropped⟩
  | idle {slots : PoolInner T} {st : ArenaModule.PoolStats} {dropped : Option T}
      (wf : slots.WF) : Related ⟨slots, none, ⟨dropped.toList.map some, st⟩, none, dropped⟩

/-- **`alloc` on both pools**: neither panics, and what the handles then hold. -/
theorem Related.alloc (h : Related s) (hs : s.handle = none) (debugAssertions : Bool)
    (blk cap : Nat) (v : T) :
    ∃ s', s.exec debugAssertions (.alloc blk cap v) = some s' ∧ Related s' ∧
      s'.slotValue = some v ∧ s'.objectValue = some (s.dropped.getD v) := by
  cases h with
  | live _ _ => cases hs
  | @idle slots st dropped wf =>
      obtain ⟨i, p', hal, hwf, hslot, _⟩ := wf.alloc debugAssertions blk cap v
      have hv := PoolInner.deref_eq_some.mpr hslot
      refine ⟨⟨p', some i, _, some _, dropped⟩, Option.map_eq_some_iff.mpr ⟨_, hal, rfl⟩, ?_,
        hv, ?_⟩
      · cases dropped with
        | none => exact .live hwf hslot
        | some w => exact .live hwf hslot
      · cases dropped with
        | none => rfl
        | some w => rfl

theorem Related.modify (h : Related s) (debugAssertions : Bool) {f : T → T}
    (e : s.exec debugAssertions (.modify f) = some s') : Related s' := by
  cases h with
  | @live slots i st v w dropped wf slot =>
      obtain ⟨p', hde, hwf, _, hslot, _⟩ := wf.derefMut slot (f v)
      have hv := PoolInner.deref_eq_some.mpr slot
      simp only [exec, Option.bind_some, hv, hde, ArenaModule.Pooled.derefMut, Option.map_some,
        Option.some.injEq] at e
      rw [← e]
      exact .live hwf hslot
  | idle wf => cases e

theorem Related.drop (h : Related s) (debugAssertions : Bool)
    (e : s.exec debugAssertions .drop = some s') : Related s' := by
  cases h with
  | @live slots i st v w dropped wf slot =>
      obtain ⟨p', hpb, hwf, _⟩ := wf.putBack slot
      simp only [exec, Option.bind_some, hpb, ArenaModule.PoolInner.drop, Option.map_some,
        Option.some.injEq] at e
      rw [← e]
      exact @Related.idle _ _ _ (some w) hwf
  | idle wf => cases e

end PoolPair

theorem reach_related {T : Type u} {debugAssertions : Bool} {s : PoolPair T}
    (h : (poolPairs T debugAssertions).Reach s) : s.Related := by
  refine h.inv (P := PoolPair.Related) (fun s hi => ?_) fun s l s' hs _ e => ?_
  · obtain ⟨blk, cap, n, rfl⟩ := hi
    exact @PoolPair.Related.idle _ _ _ none (PoolInner.wf_withCapacity blk cap n)
  · cases l with
    | alloc blk cap v =>
        cases hh : s.handle with
        | some _ =>
            have hnone : s.exec debugAssertions (.alloc blk cap v) = none := by
              simp only [PoolPair.exec, hh]
            cases hnone.symm.trans e
        | none =>
            obtain ⟨s₁, he, hr, _⟩ := hs.alloc hh debugAssertions blk cap v
            cases he.symm.trans e
            exact hr
    | modify f => exact hs.modify debugAssertions e
    | drop => exact hs.drop debugAssertions e

/-- **What a new handle holds**: wherever `alloc(v)` is called, the handle of the first pool holds
    `v`, and the one of the second holds `v` exactly if no handle was dropped yet or the last one
    held `v` when it was. -/
theorem pools_agree {T : Type u} {debugAssertions : Bool} {s : PoolPair T}
    (h : (poolPairs T debugAssertions).Reach s) (hs : s.handle = none) (blk cap : Nat) (v : T) :
    ∃ s', s.exec debugAssertions (.alloc blk cap v) = some s' ∧ s'.slotValue = some v ∧
      (s'.objectValue = some v ↔ ∀ w ∈ s.dropped, w = v) := by
  obtain ⟨s', he, _, hslot, hobj⟩ := (reach_related h).alloc hs debugAssertions blk cap v
  refine ⟨s', he, hslot, ?_⟩
  rw [hobj, Option.some.injEq]
  cases s.dropped with
  | none => exact ⟨(fun _ w hw => by cases hw), fun _ => rfl⟩
  | some w =>
      refine ⟨fun hw w' hw' => ?_, fun hw => hw w rfl⟩
      cases hw'
      exact hw

/-- A handle made with 5, raised to 6 and dropped: both pools give 6 for an `alloc(6)`. -/
theorem pools_agree_raised : ∃ s : PoolPair Nat, (poolPairs Nat true).Reach s ∧
    s.dropped = some 6 ∧ ∃ s', s.exec true (.alloc 0 4 6) = some s' ∧ s'.slotValue = some 6 ∧
      s'.objectValue = some 6 := by
  obtain ⟨s, hr, hs⟩ := System.exists_reach_of_replay (poolPairs Nat true)
    [.alloc 1 4 5, .modify (· + 1), .drop]
    (P := fun s => s.handle.isNone = true ∧ s.dropped = some 6)
    (s := ⟨.withCapacity 0 0 0, none, .new, none, none⟩) ⟨0, 0, 0, rfl⟩ (by decide)
  obtain ⟨s', he, hslot, hobj⟩ :=
    pools_agree hr (Option.isNone_iff_eq_none.mp hs.1) 0 4 6
  refine ⟨s, hr, hs.2, s', he, hslot, hobj.mpr fun w hw => ?_⟩
  rw [hs.2] at hw
  cases hw
  rfl

/-- A handle made with 5 and dropped: an `alloc(7)` gives 7 in the first pool and 5 in the
    second. -/
theorem pools_differ : ∃ s : PoolPair Nat, (poolPairs Nat true).Reach s ∧
    s.slotValue = some 7 ∧ s.objectValue = some 5 := by
  exact System.exists_reach_of_replay (poolPairs Nat true)
    [.alloc 1 4 5, .drop, .alloc 2 4 7]
    (P := fun s => s.slotValue = some 7 ∧ s.objectValue = some 5)
    (s := ⟨.withCapacity 0 0 0, none, .new, none, none⟩) ⟨0, 0, 0, rfl⟩ (by decide)

end ArenaB
