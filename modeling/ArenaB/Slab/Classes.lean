/-
  File:      ArenaB/Slab/Classes.lean
  Subject:   `SlabAllocator` (src/slab.rs): freed blocks kept by size class (src/size_classes.rs).

  A deposit and a withdrawal each round their size up to a class on their own, and a pool keeps no
  more of a block than its address.

  * `alloc`, `dealloc` -- the functions of slab.rs; `dealloc` returns the layout it passes on to the
    system allocator, if it does not keep the block;
  * `Deposits` -- beside the run: the size each block was last deposited with, and whether it was
    returned since. `Suffices` is what a withdrawal owes its caller;
  * `Honest` -- the condition on a deposit: a block that is kept has exactly the size of a class
    and is in no pool yet, and a block that is passed on does not contradict a pool that has it;
  * `Held` -- the invariant; **`slab_suffices_iff`** -- a deposit is honest exactly if no
    withdrawals after it can fail their callers.
-/
import Mathlib.Logic.Function.Basic
import ArenaB.Base.System
import ArenaB.Core.Chunk

namespace ArenaB

open Base

/-! ## 1. The functions of slab.rs -/

/-- `SIZE_CLASSES`. -/
def sizeClasses : List Nat := [8, 16, 32, 64, 128, 256, 512, 1024, 2048, 4096]

/-- The size of a class. -/
def classSize (i : Fin sizeClasses.length) : Nat := sizeClasses.get i

/-- `SlabAllocator`; the head of a list is the end of the `Vec`. -/
structure SlabAllocator where
  pools : Fin sizeClasses.length → List Nat

namespace SlabAllocator

/-- `SlabAllocator::new`. -/
def new : SlabAllocator := ⟨fun _ => []⟩

/-- `SlabAllocator::get_pool_index`. -/
def getPoolIndex (size : Nat) : Option (Fin sizeClasses.length) :=
  sizeClasses.findFinIdx? fun classSize => size ≤ classSize

/-- One pool changes. -/
def setPool (a : SlabAllocator) (i : Fin sizeClasses.length) (pool : List Nat) : SlabAllocator :=
  ⟨Function.update a.pools i pool⟩

/-- `SlabAllocator::alloc`. -/
def alloc (a : SlabAllocator) (size : Nat) : Option Nat × SlabAllocator :=
  match getPoolIndex size with
  | none => (none, a)
  | some i =>
      match a.pools i with
      | [] => (none, a)
      | ptr :: rest => (some ptr, a.setPool i rest)

/-- `SlabAllocator::dealloc`, with the layout passed to `std::alloc::dealloc`. -/
def dealloc (a : SlabAllocator) (ptr size : Nat) : Option Layout × SlabAllocator :=
  match getPoolIndex size with
  | none => (Layout.fromSizeAlign size 8, a)
  | some i =>
      if (a.pools i).length < 64 then (none, a.setPool i (ptr :: a.pools i))
      else (Layout.fromSizeAlign size 8, a)

/-- A deposit of this size is kept, in the pool of this class. -/
def Keeps (a : SlabAllocator) (size : Nat) (i : Fin sizeClasses.length) : Prop :=
  getPoolIndex size = some i ∧ (a.pools i).length < 64

instance (a : SlabAllocator) (size : Nat) (i : Fin sizeClasses.length) :
    Decidable (a.Keeps size i) :=
  inferInstanceAs (Decidable (_ ∧ _))

section Lemmas

variable {a : SlabAllocator} {size ptr : Nat} {i j : Fin sizeClasses.length} {pool : List Nat}

theorem pools_setPool : (a.setPool i pool).pools j = if j = i then pool else a.pools j :=
  Function.update_apply _ _ _ _

@[simp] theorem pools_setPool_self : (a.setPool i pool).pools i = pool :=
  Function.update_self _ _ _

theorem pools_setPool_ne (h : j ≠ i) : (a.setPool i pool).pools j = a.pools j :=
  Function.update_of_ne h _ _

/-- A class is at least as large as what is rounded up to it. -/
theorem le_classSize (h : getPoolIndex size = some i) : size ≤ classSize i := by
  have := (List.findFinIdx?_eq_some_iff.mp h).1
  exact of_decide_eq_true this

/-- A class is rounded up to itself. -/
theorem getPoolIndex_classSize : ∀ i, getPoolIndex (classSize i) = some i := by decide

/-- **What `alloc` does.** -/
theorem alloc_cases (a : SlabAllocator) (size : Nat) : a.alloc size = (none, a) ∨
    ∃ i ptr rest, getPoolIndex size = some i ∧ a.pools i = ptr :: rest ∧
      a.alloc size = (some ptr, a.setPool i rest) := by
  unfold alloc
  split
  · exact Or.inl rfl
  · rename_i i hi
    split
    · exact Or.inl rfl
    · rename_i ptr rest hp
      exact Or.inr ⟨i, ptr, rest, hi, hp, rfl⟩

/-- **What `dealloc` does.** -/
theorem dealloc_cases (a : SlabAllocator) (ptr size : Nat) :
    (∃ i, a.Keeps size i ∧ (a.dealloc ptr size).2 = a.setPool i (ptr :: a.pools i)) ∨
    (∀ i, ¬ a.Keeps size i) ∧ (a.dealloc ptr size).2 = a := by
  unfold dealloc
  split
  · rename_i hi
    refine Or.inr ⟨fun i hk => ?_, rfl⟩
    have := hi.symm.trans hk.1
    cases this
  · rename_i i hi
    by_cases hlen : (a.pools i).length < 64
    · rw [if_pos hlen]
      exact Or.inl ⟨i, ⟨hi, hlen⟩, rfl⟩
    · rw [if_neg hlen]
      refine Or.inr ⟨fun j hk => hlen ?_, rfl⟩
      have hij : i = j := Option.some.inj (hi.symm.trans hk.1)
      exact hij ▸ hk.2

end Lemmas

/-! ## 2. Runs -/

/-- What a caller may do. -/
inductive SlabOp where
  | alloc (size : Nat)
  | dealloc (ptr size : Nat)
  deriving DecidableEq, Repr

def exec (a : SlabAllocator) : SlabOp → SlabAllocator
  | .alloc size => (a.alloc size).2
  | .dealloc ptr size => (a.dealloc ptr size).2

/-- The runs of a new allocator. -/
def slabs : System SlabAllocator SlabOp where
  init a := a = .new
  ok _ _ := True
  step a op := some (a.exec op)

/-- The size each block was last deposited with, and whether it was returned since. -/
structure Deposits where
  last : Nat → Option Nat
  out : Nat → Bool

/-- The deposits after one more call. -/
def Deposits.next (a : SlabAllocator) (op : SlabOp) (d : Deposits) : Deposits :=
  match op with
  | .alloc size =>
      match (a.alloc size).1 with
      | none => d
      | some ptr => { d with out := Function.update d.out ptr true }
  | .dealloc ptr size => ⟨Function.update d.last ptr (some size), Function.update d.out ptr false⟩

/-- The runs, with the deposits. -/
def depositedSlabs : System (SlabAllocator × Deposits) SlabOp :=
  slabs.withGhost ⟨fun _ => none, fun _ => false⟩ Deposits.next

instance (x : SlabAllocator × Deposits) (op : SlabOp) : Decidable (depositedSlabs.ok x op) :=
  isTrue trivial

/-- The state after one more call. -/
def after (x : SlabAllocator × Deposits) (op : SlabOp) : SlabAllocator × Deposits :=
  (x.1.exec op, x.2.next x.1 op)

/-- The state after withdrawals of the given sizes. -/
def withdraw (x : SlabAllocator × Deposits) (sizes : List Nat) : SlabAllocator × Deposits :=
  sizes.foldl (fun x size => after x (.alloc size)) x

/-- **What a withdrawal owes**: the block it returns was last deposited with at least this size, and
    was not returned since. -/
def Suffices (x : SlabAllocator × Deposits) (size : Nat) : Prop :=
  ∀ ptr, (x.1.alloc size).1 = some ptr →
    (∃ s, x.2.last ptr = some s ∧ size ≤ s) ∧ x.2.out ptr = false

/-- The condition on a deposit. -/
def Honest (x : SlabAllocator × Deposits) : SlabOp → Prop
  | .alloc _ => True
  | .dealloc ptr size =>
      (∀ i, x.1.Keeps size i → size = classSize i ∧ ∀ j, ptr ∉ x.1.pools j) ∧
      ((∀ i, ¬ x.1.Keeps size i) → ∀ j, ptr ∈ x.1.pools j → classSize j ≤ size)

instance (x : SlabAllocator × Deposits) : (op : SlabOp) → Decidable (Honest x op)
  | .alloc _ => isTrue trivial
  | .dealloc _ _ => inferInstanceAs (Decidable (_ ∧ _))

/-! ## 3. The invariant -/

/-- **The invariant**: a block is in one pool at most, once, and was last deposited with at least
    the size of its class. -/
structure Held (x : SlabAllocator × Deposits) : Prop where
  once : ∀ i, (x.1.pools i).Nodup
  apart : ∀ i j ptr, ptr ∈ x.1.pools i → ptr ∈ x.1.pools j → i = j
  fits : ∀ i, ∀ ptr ∈ x.1.pools i,
    (∃ s, x.2.last ptr = some s ∧ classSize i ≤ s) ∧ x.2.out ptr = false

section Steps

variable {x : SlabAllocator × Deposits} {i : Fin sizeClasses.length} {ptr size : Nat}

theorem Held.suffices (h : Held x) (size : Nat) : Suffices x size := by
  intro ptr e
  rcases x.1.alloc_cases size with hnone | ⟨i, p, rest, hi, hp, hsome⟩
  · rw [hnone] at e
    cases e
  · rw [hsome] at e
    cases e
    obtain ⟨⟨s, hs, hle⟩, hout⟩ := h.fits i ptr (hp ▸ List.mem_cons_self)
    exact ⟨⟨s, hs, (le_classSize hi).trans hle⟩, hout⟩

/-- A withdrawal that returns nothing, or takes the top of a pool. -/
theorem after_alloc_cases (x : SlabAllocator × Deposits) (size : Nat) :
    after x (.alloc size) = x ∨ ∃ i ptr rest, getPoolIndex size = some i ∧
      x.1.pools i = ptr :: rest ∧ after x (.alloc size) =
        (x.1.setPool i rest, ⟨x.2.last, Function.update x.2.out ptr true⟩) := by
  rcases x.1.alloc_cases size with hnone | ⟨i, ptr, rest, hi, hp, hsome⟩
  · refine Or.inl ?_
    simp only [after, exec, Deposits.next, hnone]
  · refine Or.inr ⟨i, ptr, rest, hi, hp, ?_⟩
    simp only [after, exec, Deposits.next, hsome]

/-- A deposit that is kept, or passed on. -/
theorem after_dealloc_cases (x : SlabAllocator × Deposits) (ptr size : Nat) :
    (∃ i, x.1.Keeps size i ∧ after x (.dealloc ptr size) = (x.1.setPool i (ptr :: x.1.pools i),
      ⟨Function.update x.2.last ptr (some size), Function.update x.2.out ptr false⟩)) ∨
    (∀ i, ¬ x.1.Keeps size i) ∧ after x (.dealloc ptr size) = (x.1,
      ⟨Function.update x.2.last ptr (some size), Function.update x.2.out ptr false⟩) := by
  rcases x.1.dealloc_cases ptr size with ⟨i, hk, e⟩ | ⟨hnone, e⟩
  · refine Or.inl ⟨i, hk, ?_⟩
    simp only [after, exec, Deposits.next, e]
  · refine Or.inr ⟨hnone, ?_⟩
    simp only [after, exec, Deposits.next, e]

theorem Held.alloc (h : Held x) (size : Nat) : Held (after x (.alloc size)) := by
  rcases after_alloc_cases x size with hsame | ⟨i, ptr, rest, _, hp, e⟩
  · rw [hsame]
    exact h
  have hmem : ptr ∈ x.1.pools i := hp ▸ List.mem_cons_self
  obtain ⟨hnot, hrest⟩ := List.nodup_cons.mp (hp ▸ h.once i)
  -- what the pools hold now they held before, and the block returned is not among it
  have hsub : ∀ j q, q ∈ (x.1.setPool i rest).pools j → q ∈ x.1.pools j ∧ q ≠ ptr := by
    intro j q hq
    by_cases hj : j = i
    · subst hj
      rw [pools_setPool_self] at hq
      exact ⟨hp ▸ List.mem_cons_of_mem _ hq, fun e => hnot (e ▸ hq)⟩
    · rw [pools_setPool_ne hj] at hq
      exact ⟨hq, fun e => hj (h.apart j i ptr (e ▸ hq) hmem)⟩
  rw [e]
  refine ⟨fun j => ?_, fun j k q hq hq' => ?_, fun j q hq => ?_⟩
  · show ((x.1.setPool i rest).pools j).Nodup
    rw [pools_setPool]
    split
    · exact hrest
    · exact h.once j
  · exact h.apart j k q (hsub j q hq).1 (hsub k q hq').1
  · obtain ⟨hq, hne⟩ := hsub j q hq
    obtain ⟨hlast, hout⟩ := h.fits j q hq
    exact ⟨hlast, (Function.update_of_ne hne _ _).trans hout⟩

/-- An honest deposit. -/
theorem Held.dealloc (h : Held x) (ho : Honest x (.dealloc ptr size)) :
    Held (after x (.dealloc ptr size)) := by
  obtain ⟨hkept, hpassed⟩ := ho
  -- of another block nothing is recorded
  have hother : ∀ i, ∀ q ∈ x.1.pools i, q ≠ ptr →
      (∃ s, Function.update x.2.last ptr (some size) q = some s ∧ classSize i ≤ s) ∧
        Function.update x.2.out ptr false q = false := by
    intro i q hq hne
    rw [Function.update_of_ne hne, Function.update_of_ne hne]
    exact h.fits i q hq
  rcases after_dealloc_cases x ptr size with ⟨i, hk, e⟩ | ⟨hnone, e⟩
  · obtain ⟨hsize, hfresh⟩ := hkept i hk
    have hcases : ∀ j q, q ∈ (x.1.setPool i (ptr :: x.1.pools i)).pools j →
        q = ptr ∧ j = i ∨ q ∈ x.1.pools j := by
      intro j q hq
      rw [pools_setPool] at hq
      split at hq
      · rename_i hj
        subst hj
        exact (List.mem_cons.mp hq).imp_left fun hq => ⟨hq, rfl⟩
      · exact Or.inr hq
    rw [e]
    refine ⟨fun j => ?_, fun j k q hq hq' => ?_, fun j q hq => ?_⟩
    · show ((x.1.setPool i (ptr :: x.1.pools i)).pools j).Nodup
      rw [pools_setPool]
      split
      · exact List.nodup_cons.mpr ⟨hfresh i, h.once i⟩
      · exact h.once j
    · rcases hcases j q hq with ⟨e₁, rfl⟩ | h₁ <;> rcases hcases k q hq' with ⟨e₂, rfl⟩ | h₂
      · rfl
      · exact absurd (e₁ ▸ h₂) (hfresh k)
      · exact absurd (e₂ ▸ h₁) (hfresh j)
      · exact h.apart j k q h₁ h₂
    · rcases hcases j q hq with ⟨rfl, rfl⟩ | hq
      · refine ⟨⟨size, Function.update_self _ _ _, ?_⟩, Function.update_self _ _ _⟩
        rw [hsize]
      · exact hother j q hq fun e => hfresh j (e ▸ hq)
  · rw [e]
    refine ⟨h.once, h.apart, fun j q hq => ?_⟩
    by_cases hqp : q = ptr
    · subst hqp
      exact ⟨⟨size, Function.update_self _ _ _, hpassed hnone j hq⟩, Function.update_self _ _ _⟩
    · exact hother j q hq hqp

theorem Held.withdraw (h : Held x) (sizes : List Nat) : Held (withdraw x sizes) := by
  induction sizes generalizing x with
  | nil => exact h
  | cons size sizes ih => exact ih (h.alloc size)

theorem reach_held (h : (depositedSlabs.under Honest).Reach x) : Held x := by
  refine h.inv (P := Held) (fun x hi => ?_) fun x op x' hx hok e => ?_
  · obtain ⟨a, d⟩ := x
    obtain ⟨rfl, rfl⟩ := hi
    exact ⟨fun _ => .nil, (fun _ _ _ h => by cases h), (fun _ _ h => by cases h)⟩
  · cases e
    cases op with
    | alloc size => exact hx.alloc size
    | dealloc ptr size => exact hx.dealloc hok.2

/-- The top of a pool is what the class's own size withdraws. -/
theorem after_alloc_top {rest : List Nat} (hp : x.1.pools i = ptr :: rest) :
    (x.1.alloc (classSize i)).1 = some ptr ∧ after x (.alloc (classSize i)) =
      (x.1.setPool i rest, ⟨x.2.last, Function.update x.2.out ptr true⟩) := by
  have halloc : x.1.alloc (classSize i) = (some ptr, x.1.setPool i rest) := by
    rw [alloc, getPoolIndex_classSize]
    dsimp only
    rw [hp]
  refine ⟨congrArg Prod.fst halloc, ?_⟩
  simp only [after, exec, Deposits.next, halloc]

/-- **Draining a pool** reaches every block in it: one that is already out, or was last deposited
    too small, fails its caller. -/
theorem exists_fault {pool : List Nat} (hpool : x.1.pools i = pool) (hp : ptr ∈ pool)
    (hbad : x.2.out ptr = true ∨ ∃ s, x.2.last ptr = some s ∧ s < classSize i) :
    ∃ sizes, ¬ Suffices (withdraw x sizes) (classSize i) := by
  induction pool generalizing x with
  | nil => cases hp
  | cons q rest ih =>
      obtain ⟨htop, hafter⟩ := after_alloc_top hpool
      by_cases hq : q = ptr
      · subst hq
        refine ⟨[], fun h => ?_⟩
        obtain ⟨⟨s, hs, hle⟩, hout⟩ := h q htop
        rcases hbad with hb | ⟨s', hs', hlt⟩
        · cases hb.symm.trans hout
        · have hss : s = s' := Option.some.inj (hs.symm.trans hs')
          omega
      · -- a withdrawal of another block changes neither fact about this one
        have hrest : ptr ∈ rest := (List.mem_cons.mp hp).resolve_left (Ne.symm hq)
        have hbad' : (after x (.alloc (classSize i))).2.out ptr = true ∨
            ∃ s, (after x (.alloc (classSize i))).2.last ptr = some s ∧ s < classSize i := by
          rw [hafter]
          exact hbad.imp_left (Function.update_of_ne (Ne.symm hq) _ _).trans
        have hpool' : (after x (.alloc (classSize i))).1.pools i = rest := by
          rw [hafter]
          exact pools_setPool_self
        obtain ⟨sizes, hs⟩ := ih hpool' hrest hbad'
        exact ⟨classSize i :: sizes, hs⟩

/-- A deposit that is not honest. -/
theorem exists_fault_of_dealloc (hn : ¬ Honest x (.dealloc ptr size)) :
    ∃ sizes i, ¬ Suffices (withdraw (after x (.dealloc ptr size)) sizes) (classSize i) := by
  have hlast : (after x (.dealloc ptr size)).2.last ptr = some size :=
    Function.update_self _ _ _
  rcases after_dealloc_cases x ptr size with ⟨i, hk, e⟩ | ⟨hnone, e⟩
  · have hpool : (after x (.dealloc ptr size)).1.pools i = ptr :: x.1.pools i := by
      rw [e]
      exact pools_setPool_self
    by_cases hsize : size = classSize i
    · -- it is in a pool already: take it out once, then drain that pool
      obtain ⟨j, hj⟩ : ∃ j, ptr ∈ x.1.pools j := by
        refine Classical.byContradiction fun hno => hn ⟨fun i' hk' => ?_, fun h => absurd hk (h i)⟩
        have hii : i' = i := Option.some.inj (hk'.1.symm.trans hk.1)
        exact ⟨hii ▸ hsize, fun j hj => hno ⟨j, hj⟩⟩
      obtain ⟨_, hafter⟩ := after_alloc_top hpool
      have hstill :
          ptr ∈ (after (after x (.dealloc ptr size)) (.alloc (classSize i))).1.pools j := by
        rw [hafter]
        show ptr ∈ ((after x (.dealloc ptr size)).1.setPool i (x.1.pools i)).pools j
        rw [pools_setPool]
        split
        · rename_i hji
          exact hji ▸ hj
        · rename_i hji
          rw [e]
          exact (pools_setPool_ne hji).symm ▸ hj
      have hout :
          (after (after x (.dealloc ptr size)) (.alloc (classSize i))).2.out ptr = true := by
        rw [hafter]
        exact Function.update_self _ _ _
      obtain ⟨sizes, hs⟩ := exists_fault rfl hstill (Or.inl hout)
      exact ⟨classSize i :: sizes, j, hs⟩
    · have hlt : size < classSize i :=
        Nat.lt_of_le_of_ne (le_classSize hk.1) hsize
      obtain ⟨sizes, hs⟩ := exists_fault hpool List.mem_cons_self (Or.inr ⟨size, hlast, hlt⟩)
      exact ⟨sizes, i, hs⟩
  · obtain ⟨j, hj, hlt⟩ : ∃ j, ptr ∈ x.1.pools j ∧ size < classSize j := by
      refine Classical.byContradiction fun hno => hn ⟨fun i hk => absurd hk (hnone i),
        fun _ j hj => ?_⟩
      exact Nat.not_lt.mp fun hlt => hno ⟨j, hj, hlt⟩
    have hpool : (after x (.dealloc ptr size)).1.pools j = x.1.pools j := by
      rw [e]
    obtain ⟨sizes, hs⟩ := exists_fault hpool hj (Or.inr ⟨size, hlast, hlt⟩)
    exact ⟨sizes, j, hs⟩

end Steps

/-! ## 4. Results -/

/-- **What `SlabAllocator` returns suffices**, in runs whose deposits are all honest: the block was
    last deposited with at least the size requested and was not returned since. And a deposit is
    honest exactly if every withdrawal that can follow it, after any others, suffices. -/
theorem slab_suffices_iff {x : SlabAllocator × Deposits}
    (h : (depositedSlabs.under Honest).Reach x) : (∀ size, Suffices x size) ∧
    ∀ ptr size, Honest x (.dealloc ptr size) ↔
      ∀ sizes size', Suffices (withdraw (after x (.dealloc ptr size)) sizes) size' := by
  have hx := reach_held h
  refine ⟨hx.suffices, fun ptr size => ⟨fun ho sizes size' => ?_, fun hall => ?_⟩⟩
  · exact ((hx.dealloc ho).withdraw sizes).suffices size'
  · refine Classical.byContradiction fun hn => ?_
    obtain ⟨sizes, i, hs⟩ := exists_fault_of_dealloc hn
    exact hs (hall sizes (classSize i))

/-- Two blocks of one class, and one that is passed on. -/
theorem slab_suffices_two : ∃ x, (depositedSlabs.under Honest).Reach x ∧
    (x.1.alloc 9).1 = some 8192 ∧ (∃ s, x.2.last 8192 = some s ∧ 9 ≤ s) ∧
      x.2.out 8192 = false := by
  obtain ⟨x, hr, hx⟩ := System.exists_reach_of_replay (depositedSlabs.under Honest)
    [.dealloc 8192 16, .dealloc 16384 5000, .dealloc 12288 16, .alloc 12]
    (s := (.new, ⟨fun _ => none, fun _ => false⟩)) (P := fun x => (x.1.alloc 9).1 = some 8192)
    ⟨rfl, rfl⟩ (by decide)
  obtain ⟨hlast, hout⟩ := (slab_suffices_iff hr).1 9 8192 hx
  exact ⟨x, hr, hx, hlast, hout⟩

/-- **A class is not a size**: a block of 9 bytes is returned for a request of 16. And a block
    deposited twice is returned twice. -/
theorem slab_short :
    (∃ x, depositedSlabs.Reach x ∧ (x.1.alloc 16).1 = some 8192 ∧ x.2.last 8192 = some 9) ∧
    ∃ x, depositedSlabs.Reach x ∧ (x.1.alloc 8).1 = some 8192 ∧ x.2.out 8192 = true := by
  refine ⟨?_, ?_⟩
  · exact System.exists_reach_of_replay depositedSlabs [.dealloc 8192 9]
      (s := (.new, ⟨fun _ => none, fun _ => false⟩)) ⟨rfl, rfl⟩ (by decide)
  · exact System.exists_reach_of_replay depositedSlabs
      [.dealloc 8192 8, .dealloc 8192 8, .alloc 8]
      (s := (.new, ⟨fun _ => none, fun _ => false⟩)) ⟨rfl, rfl⟩ (by decide)

end SlabAllocator

end ArenaB
