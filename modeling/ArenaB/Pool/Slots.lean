/-
  File:      ArenaB/Pool/Slots.lean
  Subject:   `Pool<T>` and `Pooled` (src/lib.rs): slots in one growing vector, reused through a
             free list.

  A handle dereferences to its slot in the vector, and the reference lives as long as the handle,
  while `alloc` takes `&self` and may grow the vector.

  * `Vec` -- what is assumed of the standard vector: a push at full capacity moves all elements
    to a new block, any other leaves them where they are;
  * `WF` -- the free list has no duplicates and names exactly the empty slots, `in_use` counts the
    others; `Held` -- live handles have slots of their own, which hold what was last written;
  * **`pool_consistent`** -- the two hold in every run, and no call panics;
  * `Roomy` -- the condition on an `alloc`: a free slot, spare capacity, or no live handle;
  * **`slots_stay`** -- in runs whose allocs meet it every live handle's slot is where it was when
    the handle was made; the first `alloc` that does not meet it moves them all.
-/
import ArenaB.Base.System
import ArenaB.Base.Ledger

namespace ArenaB

open Base

universe u

/-! ## 1. The vector -/

/-- A `Vec`: the block its elements are in, the reserved capacity, the elements. -/
structure Vec (α : Type u) where
  block : Nat
  capacity : Nat
  items : List α

namespace Vec

variable {α : Type u}

/-- `Vec::push`; `blk` and `cap` are the new block, if one is needed. -/
def push (v : Vec α) (a : α) (blk cap : Nat) : Vec α :=
  if v.items.length = v.capacity then ⟨blk, cap, v.items ++ [a]⟩
  else { v with items := v.items ++ [a] }

/-- `v[i] = a` for an index in bounds. -/
def set (v : Vec α) (i : Nat) (a : α) : Vec α := { v with items := v.items.set i a }

@[simp] theorem push_items (v : Vec α) (a : α) (blk cap : Nat) :
    (v.push a blk cap).items = v.items ++ [a] := by
  unfold push
  split <;> rfl

end Vec

/-- As many positions of a list satisfy a test as elements do. -/
theorem length_filter_range {α : Type u} (q : α → Bool) (l : List α) :
    ((List.range l.length).filter fun i => l[i]?.any q).length = l.countP q := by
  induction l with
  | nil => rfl
  | cons a l ih =>
      rw [List.length_cons, List.range_succ_eq_map, List.filter_cons, List.filter_map,
        List.countP_cons, ← ih]
      simp only [List.getElem?_cons_zero, Option.any_some, Function.comp_def,
        List.getElem?_cons_succ]
      split <;> simp

/-! ## 2. The pool -/

/-- `PoolInner<T>`. -/
structure PoolInner (T : Type u) where
  storage : Vec (Option T)
  free : List Nat
  inUse : Nat

/-- `PoolStats`. -/
structure PoolStats where
  capacity : Nat
  inUse : Nat
  free : Nat
  deriving DecidableEq, Repr

namespace PoolInner

variable {T : Type u}

/-- `Pool::with_capacity`, in a block that reserves `cap` slots. -/
def withCapacity (blk cap capacity : Nat) : PoolInner T :=
  ⟨⟨blk, cap, List.replicate capacity none⟩, List.range capacity, 0⟩

/-- The slot `alloc` takes: the last of the free list, else a new one. -/
def takeIndex (p : PoolInner T) (blk cap : Nat) : Nat × PoolInner T :=
  match p.free.getLast? with
  | some i => (i, { p with free := p.free.dropLast })
  | none => (p.storage.items.length, { p with storage := p.storage.push none blk cap })

/-- The rest of `alloc`: the `debug_assert!`, the write into the slot, the counter. -/
def fill (debugAssertions : Bool) (p : PoolInner T) (index : Nat) (value : T) :
    Option (PoolInner T) :=
  p.storage.items[index]?.bind fun slot =>
    if debugAssertions ∧ slot.isSome then none
    else some ⟨p.storage.set index (some value), p.free, p.inUse + 1⟩

/-- `Pool::alloc`; `none` is a panic (an index out of bounds, or the `debug_assert!`). -/
def alloc (debugAssertions : Bool) (p : PoolInner T) (blk cap : Nat) (value : T) :
    Option (Nat × PoolInner T) :=
  let r := p.takeIndex blk cap
  (r.2.fill debugAssertions r.1 value).map fun p' => (r.1, p')

/-- `Pool::put_back`. -/
def putBack (p : PoolInner T) (index : Nat) : Option (PoolInner T) :=
  match p.storage.items[index]? with
  | none => none
  | some none => some p
  | some (some _) => some ⟨p.storage.set index none, p.free ++ [index], p.inUse - 1⟩

/-- `Deref for Pooled`; `none` is a panic. -/
def deref (p : PoolInner T) (index : Nat) : Option T := p.storage.items[index]?.join

/-- A write through `DerefMut for Pooled`. -/
def derefMut (p : PoolInner T) (index : Nat) (value : T) : Option (PoolInner T) :=
  (p.deref index).map fun _ => { p with storage := p.storage.set index (some value) }

/-- `Pool::stats`. -/
def stats (p : PoolInner T) : PoolStats := ⟨p.storage.items.length, p.inUse, p.free.length⟩

/-- **The pool's own bookkeeping.** -/
structure WF (p : PoolInner T) : Prop where
  nodup : p.free.Nodup
  free : ∀ i, i ∈ p.free ↔ p.storage.items[i]? = some none
  inUse : p.inUse = p.storage.items.countP Option.isSome

variable {p p' : PoolInner T} {blk cap i : Nat} {value : T}

theorem wf_withCapacity (blk cap capacity : Nat) :
    (withCapacity blk cap capacity : PoolInner T).WF := by
  refine ⟨List.nodup_range, fun i => ?_, ?_⟩
  · show i ∈ List.range capacity ↔ (List.replicate capacity none)[i]? = some none
    rw [List.mem_range, List.getElem?_replicate]
    split <;> simp_all
  · show 0 = (List.replicate capacity none).countP Option.isSome
    rw [List.countP_replicate]
    rfl

/-- The vector moves when `alloc` finds no free slot and no spare capacity. -/
def Full (p : PoolInner T) : Prop :=
  p.free = [] ∧ p.storage.items.length = p.storage.capacity

instance (p : PoolInner T) : Decidable p.Full :=
  inferInstanceAs (Decidable (p.free = [] ∧ p.storage.items.length = p.storage.capacity))

/-- A slot has been taken out of the free list or pushed, and is still empty. -/
structure Taken (p : PoolInner T) (blk i : Nat) (p' : PoolInner T) : Prop where
  slot : p'.storage.items[i]? = some none
  nodup : p'.free.Nodup
  free : ∀ j, j ∈ p'.free ↔ j ≠ i ∧ p'.storage.items[j]? = some none
  inUse : p'.inUse = p'.storage.items.countP Option.isSome
  keeps : ∀ (j : Nat) (v : T), p.storage.items[j]? = some (some v) →
    p'.storage.items[j]? = some (some v)
  block : p'.storage.block = if p.Full then blk else p.storage.block

/-- The last free index is taken. -/
theorem WF.taken_pop (h : p.WF) {i : Nat} (hf : p.free.getLast? = some i) (blk : Nat) :
    Taken p blk i { p with free := p.free.dropLast } := by
  obtain ⟨l, hl⟩ := List.getLast?_eq_some_iff.mp hf
  have hnd := h.nodup
  rw [hl, List.nodup_append] at hnd
  have hnot : i ∉ l := fun hi => hnd.2.2 i hi i (List.mem_singleton_self i) rfl
  have hfull : ¬ p.Full := fun hp => by rw [hp.1] at hl; simp at hl
  refine ⟨(h.free i).mp ?_, ?_, fun j => ?_, h.inUse, fun _ _ hj => hj, ?_⟩
  · rw [hl]
    simp
  · show p.free.dropLast.Nodup
    rw [hl, List.dropLast_concat]
    exact hnd.1
  · show j ∈ p.free.dropLast ↔ j ≠ i ∧ p.storage.items[j]? = some none
    rw [← h.free j, hl, List.dropLast_concat, List.mem_append, List.mem_singleton]
    constructor
    · exact fun hj => ⟨fun e => hnot (e ▸ hj), Or.inl hj⟩
    · exact fun ⟨hne, hj⟩ => hj.resolve_right hne
  · rw [if_neg hfull]

/-- No index is free: a slot is pushed. -/
theorem WF.taken_push (h : p.WF) (hnil : p.free = []) (blk cap : Nat) :
    Taken p blk p.storage.items.length { p with storage := p.storage.push none blk cap } := by
  have hnone : ∀ j, p.storage.items[j]? ≠ some none := fun j hj => by
    have := (h.free j).mpr hj
    rw [hnil] at this
    cases this
  refine ⟨?_, h.nodup, fun j => ?_, ?_, fun j v hj => ?_, ?_⟩
  · simp
  · show j ∈ p.free ↔ _ ∧ (p.storage.push none blk cap).items[j]? = some none
    rw [hnil, Vec.push_items]
    refine ⟨(fun h => nomatch h), fun ⟨hne, hj⟩ => ?_⟩
    rw [List.getElem?_append] at hj
    split at hj
    · exact absurd hj (hnone j)
    · next hlt =>
      have hj' := (List.getElem?_eq_some_iff.mp hj).1
      simp only [List.length_singleton] at hj'
      exact absurd (by omega : j = p.storage.items.length) hne
  · show p.inUse = (p.storage.push none blk cap).items.countP _
    rw [Vec.push_items, List.countP_append, h.inUse]
    rfl
  · show (p.storage.push none blk cap).items[j]? = _
    rw [Vec.push_items, List.getElem?_append_left (List.getElem?_eq_some_iff.mp hj).1]
    exact hj
  · show (p.storage.push none blk cap).block = _
    unfold Vec.push
    by_cases hc : p.storage.items.length = p.storage.capacity
    · rw [if_pos hc, if_pos ⟨hnil, hc⟩]
    · rw [if_neg hc, if_neg fun hp => hc hp.2]

theorem WF.takeIndex (h : p.WF) (blk cap : Nat) :
    Taken p blk (p.takeIndex blk cap).1 (p.takeIndex blk cap).2 := by
  unfold PoolInner.takeIndex
  cases hf : p.free.getLast? with
  | some i => exact h.taken_pop hf blk
  | none => exact h.taken_push (List.getLast?_eq_none_iff.mp hf) blk cap

/-- **What `alloc` does** in a pool whose books are right: it never panics, keeps the books, fills
    a slot no value was in, and moves the slots exactly if the pool is full. -/
theorem WF.alloc (h : p.WF) (debugAssertions : Bool) (blk cap : Nat) (value : T) :
    ∃ i p', p.alloc debugAssertions blk cap value = some (i, p') ∧ p'.WF ∧
      p'.storage.items[i]? = some (some value) ∧
      (∀ (j : Nat) (v : T), p.storage.items[j]? = some (some v) →
        j ≠ i ∧ p'.storage.items[j]? = some (some v)) ∧
      p'.storage.block = if p.Full then blk else p.storage.block := by
  have ht := h.takeIndex blk cap
  unfold PoolInner.alloc
  generalize p.takeIndex blk cap = r at ht ⊢
  obtain ⟨i, p₁⟩ := r
  have hslot : p₁.storage.items[i]? = some none := ht.slot
  have hlt := (List.getElem?_eq_some_iff.mp hslot).1
  refine ⟨i, ⟨p₁.storage.set i (some value), p₁.free, p₁.inUse + 1⟩, ?_,
    ⟨ht.nodup, fun j => ?_, ?_⟩, List.getElem?_set_self hlt, fun j v hj => ?_, ht.block⟩
  · simp [fill, hslot]
  · show j ∈ p₁.free ↔ (p₁.storage.items.set i (some value))[j]? = some none
    rw [ht.free j, List.getElem?_set]
    split
    · rename_i hij
      simp [hij, Ne.symm]
    · rename_i hij
      simp [Ne.symm hij]
  · show p₁.inUse + 1 = (p₁.storage.items.set i (some value)).countP Option.isSome
    obtain ⟨_, hget⟩ := List.getElem?_eq_some_iff.mp hslot
    have hin : p₁.inUse = p₁.storage.items.countP Option.isSome := ht.inUse
    rw [List.countP_set hlt, hget, ← hin]
    simp
  · have hj' := ht.keeps j v hj
    have hne : j ≠ i := by
      rintro rfl
      rw [hj'] at hslot
      cases hslot
    refine ⟨hne, ?_⟩
    show (p₁.storage.items.set i (some value))[j]? = _
    rw [List.getElem?_set_ne (Ne.symm hne)]
    exact hj'

/-- **What `put_back` does** to a filled slot. -/
theorem WF.putBack (h : p.WF) {v : T} (hi : p.storage.items[i]? = some (some v)) :
    ∃ p', p.putBack i = some p' ∧ p'.WF ∧ p'.storage.block = p.storage.block ∧
      ∀ j, j ≠ i → p'.storage.items[j]? = p.storage.items[j]? := by
  have hlt := (List.getElem?_eq_some_iff.mp hi).1
  obtain ⟨_, hget⟩ := List.getElem?_eq_some_iff.mp hi
  unfold PoolInner.putBack
  rw [hi]
  refine ⟨_, rfl, ⟨?_, fun j => ?_, ?_⟩, rfl, fun j hj => List.getElem?_set_ne (Ne.symm hj)⟩
  · show (p.free ++ [i]).Nodup
    refine List.nodup_append.mpr ⟨h.nodup, List.pairwise_singleton _ i, fun a ha b hb e => ?_⟩
    obtain rfl := List.mem_singleton.mp hb
    have := (h.free a).mp ha
    rw [e, hi] at this
    cases this
  · show j ∈ p.free ++ [i] ↔ (p.storage.items.set i none)[j]? = some none
    rw [List.mem_append, List.mem_singleton, h.free j, List.getElem?_set]
    split
    · rename_i hij
      subst hij
      simp [hlt]
    · rename_i hij
      simp [Ne.symm hij]
  · show p.inUse - 1 = (p.storage.items.set i none).countP Option.isSome
    rw [List.countP_set hlt, hget, h.inUse]
    simp

theorem WF.derefMut (h : p.WF) {v : T} (hi : p.storage.items[i]? = some (some v)) (value : T) :
    ∃ p', p.derefMut i value = some p' ∧ p'.WF ∧ p'.storage.block = p.storage.block ∧
      p'.storage.items[i]? = some (some value) ∧
      ∀ j, j ≠ i → p'.storage.items[j]? = p.storage.items[j]? := by
  have hlt := (List.getElem?_eq_some_iff.mp hi).1
  obtain ⟨_, hget⟩ := List.getElem?_eq_some_iff.mp hi
  unfold PoolInner.derefMut PoolInner.deref
  rw [hi]
  refine ⟨_, rfl, ⟨h.nodup, fun j => ?_, ?_⟩, rfl, List.getElem?_set_self hlt,
    fun j hj => List.getElem?_set_ne (Ne.symm hj)⟩
  · show j ∈ p.free ↔ (p.storage.items.set i (some value))[j]? = some none
    rw [h.free j, List.getElem?_set]
    split
    · rename_i hij
      subst hij
      simp [hlt, hget]
    · rfl
  · show p.inUse = (p.storage.items.set i (some value)).countP Option.isSome
    have hpos : 0 < p.storage.items.countP Option.isSome :=
      List.countP_pos_iff.mpr ⟨_, List.mem_of_getElem? hi, rfl⟩
    rw [List.countP_set hlt, hget, h.inUse]
    simp
    omega

/-- The slots are those in use and those on the free list. -/
theorem WF.capacity (h : p.WF) : p.stats.capacity = p.stats.inUse + p.stats.free := by
  have hperm : p.free.Perm ((List.range p.storage.items.length).filter
      fun i => p.storage.items[i]?.any Option.isNone) := by
    refine (List.perm_ext_iff_of_nodup h.nodup (List.nodup_range.filter _)).mpr fun i => ?_
    rw [h.free i, List.mem_filter, List.mem_range]
    constructor
    · intro hi
      exact ⟨(List.getElem?_eq_some_iff.mp hi).1, by rw [hi]; rfl⟩
    · rintro ⟨hlt, hi⟩
      rw [List.getElem?_eq_getElem hlt] at hi ⊢
      exact congrArg some (Option.isNone_iff_eq_none.mp hi)
  show p.storage.items.length = p.inUse + p.free.length
  rw [h.inUse, hperm.length_eq, length_filter_range,
    List.length_eq_countP_add_countP Option.isSome (l := p.storage.items)]
  congr 1
  exact List.countP_congr fun o _ => by cases o <;> simp

theorem deref_eq_some {v : T} : p.deref i = some v ↔ p.storage.items[i]? = some (some v) :=
  Option.join_eq_some_iff

end PoolInner

/-! ## 3. Runs -/

/-- A live `Pooled`: its index, the block its slot was in when it was made, what was last written
    through it. -/
structure Pooled (T : Type u) where
  index : Nat
  block : Nat
  value : T
  deriving DecidableEq, Repr

/-- A pool and its live handles. -/
structure PoolSess (T : Type u) where
  pool : PoolInner T
  live : List (Pooled T)

/-- What the callers may do; a handle is named by its position among the live ones. -/
inductive PoolOp (T : Type u) where
  | alloc (blk cap : Nat) (value : T)
  | write (i : Nat) (value : T)
  | drop (i : Nat)
  /-- `mem::forget` of a handle: its slot stays filled. -/
  | leak (i : Nat)

namespace PoolSess

variable {T : Type u}

/-- One call. -/
def exec (debugAssertions : Bool) (s : PoolSess T) : PoolOp T → Option (PoolSess T)
  | .alloc blk cap value =>
      (s.pool.alloc debugAssertions blk cap value).map fun r =>
        ⟨r.2, s.live ++ [⟨r.1, r.2.storage.block, value⟩]⟩
  | .write i value =>
      s.live[i]?.bind fun h =>
        (s.pool.derefMut h.index value).map fun p => ⟨p, s.live.set i { h with value := value }⟩
  | .drop i =>
      s.live[i]?.bind fun h => (s.pool.putBack h.index).map fun p => ⟨p, s.live.eraseIdx i⟩
  | .leak i => s.live[i]?.map fun _ => { s with live := s.live.eraseIdx i }

/-- A block to move to is another one and has room. -/
def Ok (s : PoolSess T) : PoolOp T → Prop
  | .alloc blk cap _ =>
      s.pool.Full → blk ≠ s.pool.storage.block ∧ s.pool.storage.items.length < cap
  | _ => True

instance (s : PoolSess T) : (op : PoolOp T) → Decidable (s.Ok op)
  | .alloc _ _ _ => inferInstanceAs (Decidable (s.pool.Full → _ ∧ _))
  | .write _ _ => isTrue trivial
  | .drop _ => isTrue trivial
  | .leak _ => isTrue trivial

/-- The live handles have slots of their own, which hold what was last written. -/
structure Held (s : PoolSess T) : Prop where
  wf : s.pool.WF
  distinct : s.live.Pairwise fun h k => h.index ≠ k.index
  value : ∀ h ∈ s.live, s.pool.storage.items[h.index]? = some (some h.value)

/-- Every live handle's slot is in the block it was made in. -/
def Stay (s : PoolSess T) : Prop := ∀ h ∈ s.live, h.block = s.pool.storage.block

end PoolSess

/-- The runs of a pool of any initial capacity. -/
def pools (T : Type u) (debugAssertions : Bool) : System (PoolSess T) (PoolOp T) where
  init s := ∃ blk cap capacity, capacity ≤ cap ∧ s = ⟨.withCapacity blk cap capacity, []⟩
  ok := PoolSess.Ok
  step := PoolSess.exec debugAssertions

instance (T : Type u) (debugAssertions : Bool) (s : PoolSess T) (op : PoolOp T) :
    Decidable ((pools T debugAssertions).ok s op) :=
  inferInstanceAs (Decidable (s.Ok op))

/-- An `alloc` finds a free slot, spare capacity, or no live handle. -/
def Roomy {T : Type u} (s : PoolSess T) : PoolOp T → Prop
  | .alloc _ _ _ => s.pool.Full → s.live = []
  | _ => True

instance {T : Type u} [DecidableEq T] (s : PoolSess T) : (op : PoolOp T) → Decidable (Roomy s op)
  | .alloc _ _ _ => inferInstanceAs (Decidable (s.pool.Full → s.live = []))
  | .write _ _ => isTrue trivial
  | .drop _ => isTrue trivial
  | .leak _ => isTrue trivial

namespace PoolSess

variable {T : Type u} {s s' : PoolSess T} {debugAssertions : Bool}

theorem Held.alloc (h : Held s) {blk cap : Nat} {value : T} {r : Nat × PoolInner T}
    (e : s.pool.alloc debugAssertions blk cap value = some r) :
    Held ⟨r.2, s.live ++ [⟨r.1, r.2.storage.block, value⟩]⟩ ∧
      r.2.storage.block = if s.pool.Full then blk else s.pool.storage.block := by
  obtain ⟨i, p', hal, hwf, hslot, hkeep, hblk⟩ := h.wf.alloc debugAssertions blk cap value
  obtain rfl : (i, p') = r := Option.some.inj (hal.symm.trans e)
  refine ⟨⟨hwf, ?_, fun k hk => ?_⟩, hblk⟩
  · refine List.pairwise_append.mpr ⟨h.distinct, List.pairwise_singleton _ _, fun k hk k' hk' => ?_⟩
    rw [List.mem_singleton.mp hk']
    exact (hkeep k.index k.value (h.value k hk)).1
  · rcases List.mem_append.mp hk with hk | hk
    · exact (hkeep k.index k.value (h.value k hk)).2
    · rw [List.mem_singleton.mp hk]
      exact hslot

theorem Held.write (h : Held s) {i : Nat} {k : Pooled T} (hk : s.live[i]? = some k) {value : T}
    {p : PoolInner T} (e : s.pool.derefMut k.index value = some p) :
    Held ⟨p, s.live.set i { k with value := value }⟩ ∧
      p.storage.block = s.pool.storage.block := by
  have hlt := (List.getElem?_eq_some_iff.mp hk).1
  obtain ⟨p', hde, hwf, hblk, hslot, hother⟩ :=
    h.wf.derefMut (h.value k (List.mem_of_getElem? hk)) value
  obtain rfl : p' = p := Option.some.inj (hde.symm.trans e)
  refine ⟨⟨hwf, ?_, ?_⟩, hblk⟩
  · have hmap : (s.live.set i { k with value := value }).map Pooled.index =
        s.live.map Pooled.index := map_set_self hk rfl
    have hd : (s.live.map Pooled.index).Pairwise (· ≠ ·) := List.pairwise_map.mpr h.distinct
    rw [← hmap] at hd
    exact List.pairwise_map.mp hd
  · refine forall_mem_set hk hslot fun j k' hj hk' => ?_
    have hne : k'.index ≠ k.index :=
      pairwise_getElem?_ne (fun _ _ h => Ne.symm h) h.distinct hj hk' hk
    rw [hother _ hne]
    exact h.value k' (List.mem_of_getElem? hk')

theorem Held.erase (h : Held s) (i : Nat) : Held { s with live := s.live.eraseIdx i } :=
  ⟨h.wf, h.distinct.sublist (List.eraseIdx_sublist _ _),
    fun k hk => h.value k ((List.eraseIdx_sublist _ _).subset hk)⟩

theorem Held.drop (h : Held s) {i : Nat} {k : Pooled T} (hk : s.live[i]? = some k)
    {p : PoolInner T} (e : s.pool.putBack k.index = some p) :
    Held ⟨p, s.live.eraseIdx i⟩ ∧ p.storage.block = s.pool.storage.block := by
  obtain ⟨p', hpb, hwf, hblk, hother⟩ := h.wf.putBack (h.value k (List.mem_of_getElem? hk))
  obtain rfl : p' = p := Option.some.inj (hpb.symm.trans e)
  refine ⟨⟨hwf, (h.erase i).distinct, fun k' hk' => ?_⟩, hblk⟩
  -- the handles that stay have other slots
  obtain ⟨j, hj, hjk⟩ := List.mem_eraseIdx_iff_getElem?.mp hk'
  have hne : k'.index ≠ k.index :=
    pairwise_getElem?_ne (fun _ _ h => Ne.symm h) h.distinct hj hjk hk
  rw [hother _ hne]
  exact h.value k' (List.mem_of_getElem? hjk)

/-- **One call keeps the handles' slots**, and keeps them in place if it is roomy. -/
theorem Held.step (h : Held s) {op : PoolOp T} (e : s.exec debugAssertions op = some s') :
    Held s' ∧ (Roomy s op → Stay s → Stay s') := by
  cases op with
  | alloc blk cap value =>
      obtain ⟨r, hr, rfl⟩ := Option.map_eq_some_iff.mp e
      obtain ⟨h', hblk⟩ := h.alloc hr
      refine ⟨h', fun hroom hstay k hk => ?_⟩
      rcases List.mem_append.mp hk with hk | hk
      · have hfull : ¬ s.pool.Full := fun hf => by
          rw [hroom hf] at hk
          cases hk
        show k.block = r.2.storage.block
        rw [hblk, if_neg hfull]
        exact hstay k hk
      · rw [List.mem_singleton.mp hk]
  | write i value =>
      obtain ⟨k, hk, e⟩ := Option.bind_eq_some_iff.mp e
      obtain ⟨p, hp, rfl⟩ := Option.map_eq_some_iff.mp e
      obtain ⟨h', hblk⟩ := h.write hk hp
      refine ⟨h', fun _ hstay => ?_⟩
      refine forall_mem_set hk ?_ fun j k' _ hk' => ?_
      · exact (hstay k (List.mem_of_getElem? hk)).trans hblk.symm
      · exact (hstay k' (List.mem_of_getElem? hk')).trans hblk.symm
  | drop i =>
      obtain ⟨k, hk, e⟩ := Option.bind_eq_some_iff.mp e
      obtain ⟨p, hp, rfl⟩ := Option.map_eq_some_iff.mp e
      obtain ⟨h', hblk⟩ := h.drop hk hp
      refine ⟨h', fun _ hstay k' hk' => ?_⟩
      exact (hstay k' ((List.eraseIdx_sublist _ _).subset hk')).trans hblk.symm
  | leak i =>
      obtain ⟨k, hk, rfl⟩ := Option.map_eq_some_iff.mp e
      exact ⟨h.erase i, fun _ hstay k' hk' => hstay k' ((List.eraseIdx_sublist _ _).subset hk')⟩

end PoolSess

theorem reach_held {T : Type u} {debugAssertions : Bool} {s : PoolSess T}
    (h : (pools T debugAssertions).Reach s) : s.Held := by
  refine h.inv (P := PoolSess.Held) (fun s hi => ?_) fun s op s' hs _ e => (hs.step e).1
  obtain ⟨blk, cap, capacity, _, rfl⟩ := hi
  exact ⟨PoolInner.wf_withCapacity _ _ _, .nil, (fun _ h => nomatch h)⟩

theorem reach_stay {T : Type u} {debugAssertions : Bool} {s : PoolSess T}
    (h : ((pools T debugAssertions).under Roomy).Reach s) : s.Stay := by
  refine h.inv' (P := PoolSess.Stay) (fun s hi => ?_) fun s op s' hr hs hok e => ?_
  · obtain ⟨blk, cap, capacity, _, rfl⟩ := hi
    exact fun _ h => nomatch h
  · exact ((reach_held hr.of_under).step e).2 hok.2 hs

namespace PoolSess

variable {T : Type u} {s : PoolSess T} {i : Nat}

/-- The operation names a live handle, where it names one. -/
def Names (s : PoolSess T) : PoolOp T → Prop
  | .alloc _ _ _ => True
  | .write i _ => i < s.live.length
  | .drop i => i < s.live.length
  | .leak i => i < s.live.length

/-- **No call panics.** -/
theorem Held.progress (h : Held s) (debugAssertions : Bool) {op : PoolOp T} (hop : s.Names op) :
    ∃ s', s.exec debugAssertions op = some s' := by
  have hget {i : Nat} (hi : i < s.live.length) :
      ∃ k, s.live[i]? = some k ∧ s.pool.storage.items[k.index]? = some (some k.value) :=
    ⟨_, List.getElem?_eq_getElem hi, h.value _ (List.getElem_mem hi)⟩
  cases op with
  | alloc blk cap value =>
      obtain ⟨i, p', hal, _⟩ := h.wf.alloc debugAssertions blk cap value
      simp [exec, hal]
  | write i value =>
      obtain ⟨k, hk, hslot⟩ := hget hop
      obtain ⟨p', hp, _⟩ := h.wf.derefMut hslot value
      simp [exec, hk, hp]
  | drop i =>
      obtain ⟨k, hk, hslot⟩ := hget hop
      obtain ⟨p', hp, _⟩ := h.wf.putBack hslot
      simp [exec, hk, hp]
  | leak i =>
      obtain ⟨k, hk, _⟩ := hget hop
      simp [exec, hk]

end PoolSess

/-- **The three views of a pool agree**, in every run of allocs, writes, drops and leaks: the free
    list names each empty slot once and nothing else, `in_use` counts the others, the live handles
    have slots of their own and dereference to what was last written through them. No call that
    names a live handle panics, nor does any `alloc`. -/
theorem pool_consistent (T : Type u) (debugAssertions : Bool) {s : PoolSess T}
    (h : (pools T debugAssertions).Reach s) :
    s.pool.free.Nodup ∧ (∀ i, i ∈ s.pool.free ↔ s.pool.storage.items[i]? = some none) ∧
    s.pool.stats.inUse = s.pool.storage.items.countP Option.isSome ∧
    s.pool.stats.capacity = s.pool.stats.inUse + s.pool.stats.free ∧
    (s.live.Pairwise fun k k' => k.index ≠ k'.index) ∧
    (∀ k ∈ s.live, k.index < s.pool.storage.items.length ∧
      s.pool.deref k.index = some k.value) ∧
    ∀ op, s.Names op → ∃ s', s.exec debugAssertions op = some s' := by
  have hheld := reach_held h
  refine ⟨hheld.wf.nodup, hheld.wf.free, hheld.wf.inUse, hheld.wf.capacity, hheld.distinct,
    fun k hk => ⟨?_, ?_⟩, fun op hop => hheld.progress debugAssertions hop⟩
  · exact (List.getElem?_eq_some_iff.mp (hheld.value k hk)).1
  · exact PoolInner.deref_eq_some.mpr (hheld.value k hk)

/-- Three handles out of two slots, one written, one leaked, one given back. -/
theorem pool_consistent_mixed : ∃ s, (pools Nat true).Reach s ∧ s.pool.stats = ⟨3, 2, 1⟩ ∧
    s.live.map Pooled.value = [9] ∧
    ∀ k ∈ s.live, s.pool.deref k.index = some k.value := by
  obtain ⟨s, hr, hst, hv⟩ := System.exists_reach_of_replay (pools Nat true)
    [.alloc 0 0 5, .alloc 0 0 6, .alloc 8192 4 7, .write 1 9, .leak 2, .drop 0]
    (P := fun s => s.pool.stats = ⟨3, 2, 1⟩ ∧ s.live.map Pooled.value = [9])
    (s := ⟨.withCapacity 4096 2 2, []⟩) ⟨4096, 2, 2, Nat.le_refl _, rfl⟩ (by decide)
  have hc := pool_consistent Nat true hr
  exact ⟨s, hr, hst, hv, fun k hk => (hc.2.2.2.2.2.1 k hk).2⟩

/-- **Slots stay where they are**: in every run whose allocs find a free slot, spare capacity or no
    live handle, the slot of each live handle is in the block it was made in and holds the value
    last written. The first `alloc` that finds none of these moves the slots of all live handles. -/
theorem slots_stay (T : Type u) (debugAssertions : Bool) {s : PoolSess T}
    (h : ((pools T debugAssertions).under Roomy).Reach s) :
    (∀ k ∈ s.live, k.block = s.pool.storage.block ∧ s.pool.deref k.index = some k.value) ∧
    ∀ op s', (pools T debugAssertions).ok s op → (pools T debugAssertions).step s op = some s' →
      ¬ Roomy s op → s.live ≠ [] ∧
        ∀ k ∈ s.live, k ∈ s'.live ∧ k.block ≠ s'.pool.storage.block := by
  have hheld := reach_held h.of_under
  have hstay := reach_stay h
  refine ⟨fun k hk => ⟨hstay k hk, ?_⟩, fun op s' hok e hroom => ?_⟩
  · exact PoolInner.deref_eq_some.mpr (hheld.value k hk)
  · cases op with
    | alloc blk cap value =>
        obtain ⟨hfull, hlive⟩ := Classical.not_imp.mp hroom
        obtain ⟨r, hr, rfl⟩ := Option.map_eq_some_iff.mp e
        refine ⟨hlive, fun k hk => ⟨List.mem_append_left _ hk, ?_⟩⟩
        show k.block ≠ r.2.storage.block
        rw [(hheld.alloc hr).2, if_pos hfull, hstay k hk]
        exact (hok hfull).1.symm
    | write i value => exact absurd trivial hroom
    | drop i => exact absurd trivial hroom
    | leak i => exact absurd trivial hroom

/-- Two slots, filled, written, one given back and taken again. -/
theorem slots_stay_reused : ∃ s, ((pools Nat true).under Roomy).Reach s ∧
    s.live.map Pooled.value = [5, 8] ∧
    ∀ k ∈ s.live, k.block = s.pool.storage.block ∧ s.pool.deref k.index = some k.value := by
  obtain ⟨s, hr, hs⟩ := System.exists_reach_of_replay ((pools Nat true).under Roomy)
    [.alloc 0 0 5, .alloc 0 0 6, .write 1 7, .drop 1, .alloc 0 0 8]
    (P := fun s => s.live.map Pooled.value = [5, 8])
    (s := ⟨.withCapacity 4096 2 2, []⟩) ⟨4096, 2, 2, Nat.le_refl _, rfl⟩ (by decide)
  exact ⟨s, hr, hs, (slots_stay Nat true hr).1⟩

/-- A pool with one slot, in use, and a second `alloc`: the first handle's slot has moved. -/
theorem slots_move : ∃ s, (pools Nat true).Reach s ∧
    s.live = [⟨0, 4096, 5⟩, ⟨1, 8192, 6⟩] ∧ s.pool.storage.block = 8192 :=
  System.exists_reach_of_replay (pools Nat true) [.alloc 0 0 5, .alloc 8192 4 6]
    (s := ⟨.withCapacity 4096 1 1, []⟩) ⟨4096, 1, 1, Nat.le_refl _, rfl⟩ (by decide)

end ArenaB
