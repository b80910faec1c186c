/-
  File:      ArenaB/Pool/Unwind.lean
  Subject:   `Pool::put_back` (src/lib.rs) when the destructor of the stored value panics.

  `put_back` assigns `None` to the slot, then lowers `in_use`, then pushes the index to the free
  list. The assignment runs the destructor of the old value; if that unwinds, the slot is empty and
  the two updates behind it do not happen.

  * `putBackPanics`, `unwinds` -- that partial execution, and runs with any number of them; `panics`
    counts them and is read by nothing;
  * `Fills lost l l'` -- the slots `l'` are the slots `l` with something in each lost one. With the
    lost slots filled the pool behaves as if the handle had been leaked instead: every call goes
    through the same way (`exec_shadow`), so the books of the filled pool are right in every run
    (`reach_shadowed`, from `PoolSess.Held.step`);
  * **`unwind_exact`** -- `in_use` is the number of occupied slots plus that of the panics. The
    books are right exactly as long as there was none, and no panic leaves them right.
-/
import ArenaB.Pool.Slots

namespace ArenaB

open Base

universe u

variable {T : Type u}

/-! ## 1. The machine -/

/-- `Pool::put_back` unwinding out of the assignment of `None`. -/
def PoolInner.putBackPanics (p : PoolInner T) (index : Nat) : Option (PoolInner T) :=
  match p.storage.items[index]? with
  | none => none
  | some none => some p
  | some (some _) => some { p with storage := p.storage.set index none }

/-- A pool with its live handles, and how many destructors have panicked. -/
structure Unwound (T : Type u) where
  sess : PoolSess T
  panics : Nat

/-- A call that returns, or the drop of a handle whose value panics in its destructor. -/
inductive UnwindOp (T : Type u) where
  | call (op : PoolOp T)
  | dropPanics (i : Nat)

namespace Unwound

/-- One call. -/
def exec (debugAssertions : Bool) (x : Unwound T) : UnwindOp T → Option (Unwound T)
  | .call op => (x.sess.exec debugAssertions op).map fun s => ⟨s, x.panics⟩
  | .dropPanics i =>
      x.sess.live[i]?.bind fun h =>
        (x.sess.pool.putBackPanics h.index).map fun p =>
          ⟨⟨p, x.sess.live.eraseIdx i⟩, x.panics + 1⟩

/-- What the environment may do. -/
def Ok (x : Unwound T) : UnwindOp T → Prop
  | .call op => x.sess.Ok op
  | .dropPanics _ => True

instance (x : Unwound T) : (op : UnwindOp T) → Decidable (x.Ok op)
  | .call op => inferInstanceAs (Decidable (x.sess.Ok op))
  | .dropPanics _ => isTrue trivial

end Unwound

/-- The runs of a pool of any initial capacity, with panicking destructors. -/
def unwinds (T : Type u) (debugAssertions : Bool) : System (Unwound T) (UnwindOp T) where
  init x := ∃ blk cap capacity, capacity ≤ cap ∧ x = ⟨⟨.withCapacity blk cap capacity, []⟩, 0⟩
  ok := Unwound.Ok
  step := Unwound.exec debugAssertions

instance (T : Type u) (debugAssertions : Bool) (x : Unwound T) (op : UnwindOp T) :
    Decidable ((unwinds T debugAssertions).ok x op) :=
  inferInstanceAs (Decidable (x.Ok op))

/-! ## 2. Lost slots, filled -/

/-- The slots `l'` are the slots `l` with something in each of the lost ones. -/
structure Fills (lost : List Nat) (l l' : List (Option T)) : Prop where
  nodup : lost.Nodup
  length : l'.length = l.length
  same : ∀ i, i ∉ lost → l'[i]? = l[i]?
  lost : ∀ i ∈ lost, l[i]? = some none ∧ ∃ v, l'[i]? = some (some v)

namespace Fills

variable {lost : List Nat} {l l' : List (Option T)} {i : Nat}

theorem nil (l : List (Option T)) : Fills [] l l :=
  ⟨.nil, rfl, fun _ _ => rfl, (fun _ h => by cases h)⟩

/-- An empty slot of `l'` is no lost one. -/
theorem not_lost (h : Fills lost l l') (hi : l'[i]? = some none) : i ∉ lost := by
  intro hm
  obtain ⟨_, v, hv⟩ := h.lost i hm
  rw [hi] at hv
  cases hv

theorem lost_lt (h : Fills lost l l') (hi : i ∈ lost) : i < l.length :=
  (List.getElem?_eq_some_iff.mp (h.lost i hi).1).1

theorem push (h : Fills lost l l') : Fills lost (l ++ [none]) (l' ++ [none]) := by
  refine ⟨h.nodup, by simp [h.length], fun i hi => ?_, fun i hi => ?_⟩
  · rw [List.getElem?_append, List.getElem?_append, h.length, h.same i hi]
  · have hlt := h.lost_lt hi
    rw [List.getElem?_append_left hlt, List.getElem?_append_left (h.length.symm ▸ hlt)]
    exact h.lost i hi

theorem set (h : Fills lost l l') (hi : i ∉ lost) (x : Option T) :
    Fills lost (l.set i x) (l'.set i x) := by
  refine ⟨h.nodup, by simp [h.length], fun j hj => ?_, fun j hj => ?_⟩
  · rw [List.getElem?_set, List.getElem?_set, h.length, h.same j hj]
  · have hne : i ≠ j := by
      rintro rfl
      exact hi hj
    rw [List.getElem?_set_ne hne, List.getElem?_set_ne hne]
    exact h.lost j hj

/-- A filled slot is lost: emptied in `l`, kept in `l'`. -/
theorem lose (h : Fills lost l l') (hi : i ∉ lost) {v : T} (hv : l[i]? = some (some v)) :
    Fills (i :: lost) (l.set i none) l' := by
  have hlt := (List.getElem?_eq_some_iff.mp hv).1
  refine ⟨List.nodup_cons.mpr ⟨hi, h.nodup⟩, by simp [h.length], fun j hj => ?_, fun j hj => ?_⟩
  · rw [List.mem_cons, not_or] at hj
    rw [List.getElem?_set_ne (Ne.symm hj.1)]
    exact h.same j hj.2
  · rcases List.mem_cons.mp hj with rfl | hj
    · exact ⟨List.getElem?_set_self hlt, v, (h.same j hi).trans hv⟩
    · have hne : i ≠ j := by
        rintro rfl
        exact hi hj
      rw [List.getElem?_set_ne hne]
      exact h.lost j hj

/-- **Each lost slot is one that is occupied in `l'` and not in `l`.** -/
theorem count (h : Fills lost l l') :
    l'.countP Option.isSome = l.countP Option.isSome + lost.length := by
  have hnd : ((List.range l.length).filter fun i => l[i]?.any Option.isSome).Nodup :=
    List.nodup_range.filter _
  have hperm : ((List.range l'.length).filter fun i => l'[i]?.any Option.isSome).Perm
      (((List.range l.length).filter fun i => l[i]?.any Option.isSome) ++ lost) := by
    refine (List.perm_ext_iff_of_nodup (List.nodup_range.filter _) ?_).mpr fun i => ?_
    · refine List.nodup_append.mpr ⟨hnd, h.nodup, fun a ha b hb e => ?_⟩
      subst e
      have ha' := (List.mem_filter.mp ha).2
      rw [(h.lost a hb).1] at ha'
      cases ha'
    · rw [List.mem_append, List.mem_filter, List.mem_filter, List.mem_range, List.mem_range,
        h.length]
      by_cases hi : i ∈ lost
      · obtain ⟨_, v, hv⟩ := h.lost i hi
        simp [hi, hv, h.lost_lt hi]
      · rw [h.same i hi]
        simp [hi]
  rw [← length_filter_range, ← length_filter_range, hperm.length_eq, List.length_append]

end Fills

/-- The pool with other contents in its slots. -/
def PoolInner.withItems (p : PoolInner T) (items : List (Option T)) : PoolInner T :=
  { p with storage := { p.storage with items := items } }

section Pool

variable {p : PoolInner T} {lost : List Nat} {l : List (Option T)} {i : Nat} {v : T}

/-- The slot that is taken is the same one with the lost slots filled. -/
theorem Fills.takeIndex (h : Fills lost p.storage.items l) (blk cap : Nat) :
    ∃ l', (p.withItems l).takeIndex blk cap =
        ((p.takeIndex blk cap).1, (p.takeIndex blk cap).2.withItems l') ∧
      Fills lost (p.takeIndex blk cap).2.storage.items l' := by
  unfold PoolInner.takeIndex
  cases hf : p.free.getLast? with
  | some i =>
      have hf' : (p.withItems l).free.getLast? = some i := hf
      simp only [hf']
      exact ⟨l, rfl, h⟩
  | none =>
      have hf' : (p.withItems l).free.getLast? = none := hf
      simp only [hf']
      refine ⟨l ++ [none], ?_, by rw [Vec.push_items]; exact h.push⟩
      have hlen : (p.withItems l).storage.items.length = p.storage.items.length := h.length
      have hpush : (p.withItems l).storage.push none blk cap =
          { p.storage.push none blk cap with items := l ++ [none] } := by
        have hcap : (p.withItems l).storage.capacity = p.storage.capacity := rfl
        unfold Vec.push
        rw [hlen, hcap]
        split
        · rfl
        · rfl
      rw [hlen, hpush]
      rfl

/-- **`alloc` goes through the same way.** -/
theorem Fills.alloc (h : Fills lost p.storage.items l) (hwf : (p.withItems l).WF)
    (debugAssertions : Bool) (blk cap : Nat) (v : T) :
    ∃ i p' l', p.alloc debugAssertions blk cap v = some (i, p') ∧
      (p.withItems l).alloc debugAssertions blk cap v = some (i, p'.withItems l') ∧
      Fills lost p'.storage.items l' ∧ i ∉ lost := by
  obtain ⟨l₁, htake, hfills⟩ := h.takeIndex blk cap
  have hslot := (hwf.takeIndex blk cap).slot
  unfold PoolInner.alloc
  rw [htake] at hslot ⊢
  generalize p.takeIndex blk cap = r at hfills hslot ⊢
  obtain ⟨i, p₁⟩ := r
  have hslot' : l₁[i]? = some none := hslot
  have hi := hfills.not_lost hslot'
  have hp : p₁.storage.items[i]? = some none := (hfills.same i hi).symm.trans hslot'
  refine ⟨i, ⟨p₁.storage.set i (some v), p₁.free, p₁.inUse + 1⟩, l₁.set i (some v), ?_, ?_,
    hfills.set hi _, hi⟩
  · simp [PoolInner.fill, hp]
  · simp [PoolInner.fill, PoolInner.withItems, Vec.set, hslot']

theorem Fills.derefMut (h : Fills lost p.storage.items l) (hi : i ∉ lost)
    (hv : l[i]? = some (some v)) (value : T) :
    p.derefMut i value = some { p with storage := p.storage.set i (some value) } ∧
      (p.withItems l).derefMut i value =
        some (PoolInner.withItems { p with storage := p.storage.set i (some value) }
          (l.set i (some value))) := by
  have hp : p.storage.items[i]? = some (some v) := (h.same i hi).symm.trans hv
  constructor
  · simp [PoolInner.derefMut, PoolInner.deref, hp]
  · simp [PoolInner.derefMut, PoolInner.deref, PoolInner.withItems, Vec.set, hv]

theorem Fills.putBack (h : Fills lost p.storage.items l) (hi : i ∉ lost)
    (hv : l[i]? = some (some v)) :
    p.putBack i = some ⟨p.storage.set i none, p.free ++ [i], p.inUse - 1⟩ ∧
      (p.withItems l).putBack i =
        some (PoolInner.withItems ⟨p.storage.set i none, p.free ++ [i], p.inUse - 1⟩
          (l.set i none)) := by
  have hp : p.storage.items[i]? = some (some v) := (h.same i hi).symm.trans hv
  constructor
  · simp [PoolInner.putBack, hp]
  · simp [PoolInner.putBack, PoolInner.withItems, Vec.set, hv]

end Pool

/-! ## 3. Runs -/

/-- The pool and the handles, with other contents in the slots. -/
def PoolSess.shadow (s : PoolSess T) (items : List (Option T)) : PoolSess T :=
  ⟨s.pool.withItems items, s.live⟩

/-- With the lost slots filled, the books are right and the live handles hold their values; no live
    handle has a lost slot. -/
structure PoolSess.Shadowed (s : PoolSess T) (lost : List Nat) (l : List (Option T)) : Prop where
  held : (s.shadow l).Held
  fills : Fills lost s.pool.storage.items l
  apart : ∀ k ∈ s.live, k.index ∉ lost

section Runs

variable {s s' : PoolSess T} {lost : List Nat} {l : List (Option T)} {debugAssertions : Bool}

/-- **A call that returns goes through the same way with the lost slots filled.** -/
theorem PoolSess.Shadowed.exec_shadow (h : s.Shadowed lost l) {op : PoolOp T}
    (e : s.exec debugAssertions op = some s') :
    ∃ l', (s.shadow l).exec debugAssertions op = some (s'.shadow l') ∧
      Fills lost s'.pool.storage.items l' ∧ ∀ k ∈ s'.live, k.index ∉ lost := by
  have hvalue {k : Pooled T} {i : Nat} (hk : s.live[i]? = some k) :
      k.index ∉ lost ∧ l[k.index]? = some (some k.value) :=
    ⟨h.apart k (List.mem_of_getElem? hk), h.held.value k (List.mem_of_getElem? hk)⟩
  cases op with
  | alloc blk cap v =>
      obtain ⟨i, p', l', hp, hq, hfills, hi⟩ := h.fills.alloc h.held.wf debugAssertions blk cap v
      obtain ⟨r, hr, rfl⟩ := Option.map_eq_some_iff.mp e
      obtain rfl : (i, p') = r := Option.some.inj (hp.symm.trans hr)
      refine ⟨l', ?_, hfills, fun k hk => ?_⟩
      · simp only [PoolSess.exec, PoolSess.shadow, hq, Option.map_some]
        rfl
      · rcases List.mem_append.mp hk with hk | hk
        · exact h.apart k hk
        · rw [List.mem_singleton.mp hk]
          exact hi
  | write i v =>
      obtain ⟨k, hk, e⟩ := Option.bind_eq_some_iff.mp e
      obtain ⟨hi, hslot⟩ := hvalue hk
      obtain ⟨hp, hq⟩ := h.fills.derefMut hi hslot v
      rw [hp] at e
      cases e
      refine ⟨l.set k.index (some v), ?_, h.fills.set hi _, ?_⟩
      · simp only [PoolSess.exec, PoolSess.shadow, hk, Option.bind_some, hq, Option.map_some]
      · exact forall_mem_set hk hi fun j k' _ hk' => h.apart k' (List.mem_of_getElem? hk')
  | drop i =>
      obtain ⟨k, hk, e⟩ := Option.bind_eq_some_iff.mp e
      obtain ⟨hi, hslot⟩ := hvalue hk
      obtain ⟨hp, hq⟩ := h.fills.putBack hi hslot
      rw [hp] at e
      cases e
      refine ⟨l.set k.index none, ?_, h.fills.set hi _, fun k' hk' => ?_⟩
      · simp only [PoolSess.exec, PoolSess.shadow, hk, Option.bind_some, hq, Option.map_some]
      · exact h.apart k' ((List.eraseIdx_sublist _ _).subset hk')
  | leak i =>
      obtain ⟨k, hk, rfl⟩ := Option.map_eq_some_iff.mp e
      refine ⟨l, ?_, h.fills, fun k' hk' => h.apart k' ((List.eraseIdx_sublist _ _).subset hk')⟩
      simp only [PoolSess.exec, PoolSess.shadow, hk, Option.map_some]

theorem PoolSess.Shadowed.call (h : s.Shadowed lost l) {op : PoolOp T}
    (e : s.exec debugAssertions op = some s') : ∃ l', s'.Shadowed lost l' := by
  obtain ⟨l', he, hfills, hapart⟩ := h.exec_shadow e
  exact ⟨l', (h.held.step he).1, hfills, hapart⟩

/-- **A destructor that panics**: the drop of a live handle empties its slot and loses it. -/
theorem PoolSess.Shadowed.dropPanics (h : s.Shadowed lost l) {i : Nat} {k : Pooled T}
    (hk : s.live[i]? = some k) :
    ∃ p, s.pool.putBackPanics k.index = some p ∧
      PoolSess.Shadowed ⟨p, s.live.eraseIdx i⟩ (k.index :: lost) l := by
  have hi := h.apart k (List.mem_of_getElem? hk)
  have hslot : s.pool.storage.items[k.index]? = some (some k.value) :=
    (h.fills.same _ hi).symm.trans (h.held.value k (List.mem_of_getElem? hk))
  refine ⟨{ s.pool with storage := s.pool.storage.set k.index none }, ?_, ?_⟩
  · simp [PoolInner.putBackPanics, hslot]
  · refine ⟨h.held.erase i, h.fills.lose hi hslot, fun k' hk' => ?_⟩
    obtain ⟨j, hj, hjk⟩ := List.mem_eraseIdx_iff_getElem?.mp hk'
    have hne : k'.index ≠ k.index :=
      pairwise_getElem?_ne (fun _ _ h => Ne.symm h) h.held.distinct hj hjk hk
    rw [List.mem_cons, not_or]
    exact ⟨hne, h.apart k' (List.mem_of_getElem? hjk)⟩

/-- A lost slot is empty, and not on the free list. -/
theorem PoolSess.Shadowed.lost_slot (h : s.Shadowed lost l) {i : Nat} (hi : i ∈ lost) :
    s.pool.storage.items[i]? = some none ∧ i ∉ s.pool.free := by
  refine ⟨(h.fills.lost i hi).1, fun hf => ?_⟩
  exact h.fills.not_lost ((h.held.wf.free i).mp hf) hi

theorem PoolSess.Shadowed.inUse (h : s.Shadowed lost l) :
    s.pool.inUse = s.pool.storage.items.countP Option.isSome + lost.length :=
  h.held.wf.inUse.trans h.fills.count

/-- The books are right exactly if no slot was lost. -/
theorem PoolSess.Shadowed.wf_iff (h : s.Shadowed lost l) : s.pool.WF ↔ lost.length = 0 := by
  have hin := h.inUse
  constructor
  · intro hwf
    have := hwf.inUse
    omega
  · intro h0
    obtain rfl : lost = [] := List.length_eq_zero_iff.mp h0
    refine ⟨h.held.wf.nodup, fun i => ?_, hin⟩
    exact (h.held.wf.free i).trans (by rw [← h.fills.same i List.not_mem_nil]; exact Iff.rfl)

end Runs

section Reached

variable {x : Unwound T} {debugAssertions : Bool}

/-- What holds in every run: as many slots are lost as destructors have panicked. -/
theorem reach_shadowed (h : (unwinds T debugAssertions).Reach x) :
    ∃ lost l, x.sess.Shadowed lost l ∧ lost.length = x.panics := by
  refine h.inv (P := fun x => ∃ lost l, x.sess.Shadowed lost l ∧ lost.length = x.panics)
    (fun x hi => ?_) fun x op x' hx _ e => ?_
  · obtain ⟨blk, cap, capacity, _, rfl⟩ := hi
    exact ⟨[], _, ⟨⟨PoolInner.wf_withCapacity _ _ _, .nil, (fun _ h => by cases h)⟩, .nil _,
      (fun _ h => by cases h)⟩, rfl⟩
  · obtain ⟨lost, l, hs, hlen⟩ := hx
    cases op with
    | call op =>
        obtain ⟨s, hs', rfl⟩ := Option.map_eq_some_iff.mp e
        obtain ⟨l', hl'⟩ := hs.call hs'
        exact ⟨lost, l', hl', hlen⟩
    | dropPanics i =>
        obtain ⟨k, hk, e⟩ := Option.bind_eq_some_iff.mp e
        obtain ⟨p, hp, hs'⟩ := hs.dropPanics hk
        rw [hp] at e
        cases e
        exact ⟨k.index :: lost, l, hs', congrArg (· + 1) hlen⟩

/-- **A pool whose destructors panic.** In every run `in_use` is the number of occupied slots plus
    the number of destructors that panicked, and the books (`in_use` counts the occupied slots, the
    free list names exactly the empty ones) are right if and only if none did. The drop of a live
    handle whose destructor panics leaves `in_use` wrong and an empty slot off the free list. -/
theorem unwind_exact (T : Type u) (debugAssertions : Bool) {x : Unwound T}
    (h : (unwinds T debugAssertions).Reach x) :
    x.sess.pool.inUse = x.sess.pool.storage.items.countP Option.isSome + x.panics ∧
    (x.sess.pool.WF ↔ x.panics = 0) ∧
    ∀ i < x.sess.live.length, ∃ x', (unwinds T debugAssertions).step x (.dropPanics i) = some x' ∧
      x'.sess.pool.inUse ≠ x'.sess.pool.storage.items.countP Option.isSome ∧
      ∃ j, x'.sess.pool.storage.items[j]? = some none ∧ j ∉ x'.sess.pool.free := by
  obtain ⟨lost, l, hs, hlen⟩ := reach_shadowed h
  refine ⟨hlen ▸ hs.inUse, hlen ▸ hs.wf_iff, fun i hi => ?_⟩
  have hk := List.getElem?_eq_getElem hi
  obtain ⟨p, hp, hs'⟩ := hs.dropPanics hk
  refine ⟨⟨⟨p, x.sess.live.eraseIdx i⟩, x.panics + 1⟩, ?_, ?_, _, hs'.lost_slot List.mem_cons_self⟩
  · show x.sess.live[i]?.bind _ = _
    rw [hk, Option.bind_some, hp]
    rfl
  · have hin : p.inUse = p.storage.items.countP Option.isSome + (lost.length + 1) := hs'.inUse
    show p.inUse ≠ p.storage.items.countP Option.isSome
    omega

end Reached

/-- Two values, one given back without a panic. -/
theorem unwind_exact_quiet : ∃ x, (unwinds Nat true).Reach x ∧
    (x.sess.pool.stats = ⟨2, 1, 1⟩ ∧ x.panics = 0) ∧ x.sess.pool.WF := by
  obtain ⟨x, hr, hst, h0⟩ := System.exists_reach_of_replay (unwinds Nat true)
    [.call (.alloc 0 0 5), .call (.alloc 8192 4 6), .call (.drop 0)]
    (P := fun x => x.sess.pool.stats = ⟨2, 1, 1⟩ ∧ x.panics = 0)
    (s := ⟨⟨.withCapacity 4096 1 1, []⟩, 0⟩) ⟨4096, 1, 1, Nat.le_refl _, rfl⟩ (by decide)
  exact ⟨x, hr, ⟨hst, h0⟩, (unwind_exact Nat true hr).2.1.mpr h0⟩

/-- One value whose destructor panics: no handle is live and no slot occupied, but one counts as in
    use and the free list is empty. -/
theorem unwind_loses_slot : ∃ x, (unwinds Nat true).Reach x ∧ x.sess.live = [] ∧
    x.sess.pool.storage.items = [none] ∧ x.sess.pool.free = [] ∧ x.sess.pool.inUse = 1 :=
  System.exists_reach_of_replay (unwinds Nat true) [.call (.alloc 0 0 5), .dropPanics 0]
    (P := fun x => x.sess.live = [] ∧ x.sess.pool.storage.items = [none] ∧
      x.sess.pool.free = [] ∧ x.sess.pool.inUse = 1)
    (s := ⟨⟨.withCapacity 4096 1 1, []⟩, 0⟩) ⟨4096, 1, 1, Nat.le_refl _, rfl⟩ (by decide)

end ArenaB
