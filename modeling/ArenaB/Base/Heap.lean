/-
  File:      ArenaB/Base/Heap.lean
  Subject:   The blocks that are out of a system allocator, and who owns them.

  An allocator hands out blocks of an address, a size and an alignment; a block is given back with
  all three. Giving back a block that is not out, or is out with another layout, is a `fault`.

  * `Heap.alloc`, `Heap.free`, `Heap.freeAll` -- the two calls, and a row of frees;
  * `Heap.Admits` -- what the allocator may return: not null, and apart from what is out;
  * `Heap.Owns h bs` -- no fault so far, and what is out is the row `bs`, in some order, pairwise
    apart. **`Owns.alloc`, `Owns.freeAll`**, `Owns.exchange`: a program that frees what it owns
    never faults;
  * `Owns.split` -- the blocks of a row of owners, one of which changes what it owns.
-/
import Mathlib.Data.List.Flatten
import Mathlib.Data.List.Perm.Basic
import ArenaB.Base.Ledger
import ArenaB.Base.Span

namespace Base

universe u v

/-! ## 1. The allocator -/

/-- A block: where it is, and the layout it was asked for with. -/
structure Block where
  base : Nat
  size : Nat
  align : Nat
  deriving DecidableEq, Repr

/-- The addresses of a block. -/
def Block.span (b : Block) : Span := ⟨b.base, b.size⟩

/-- The blocks that are out; whether one was given back that was not. -/
structure Heap where
  live : List Block
  fault : Bool
  deriving DecidableEq, Repr

namespace Heap

/-- Blocks go out. -/
def alloc (h : Heap) (bs : List Block) : Heap := { h with live := bs ++ h.live }

def free (h : Heap) (b : Block) : Heap :=
  if b ∈ h.live then { h with live := h.live.erase b } else { h with fault := true }

def freeAll (h : Heap) (bs : List Block) : Heap := bs.foldl free h

/-- What the allocator may return. -/
def Admits (h : Heap) (bs : List Block) : Prop :=
  (∀ b ∈ bs, b.base ≠ 0 ∧ ∀ c ∈ h.live, c.span.Apart b.span) ∧
    bs.Pairwise fun b c => b.span.Apart c.span

instance (h : Heap) (bs : List Block) : Decidable (h.Admits bs) :=
  inferInstanceAs (Decidable ((∀ b ∈ bs, _) ∧ List.Pairwise _ bs))

/-! ## 2. Ownership -/

/-- What is out is owned: it is the row `bs`, and no fault has happened. -/
structure Owns (h : Heap) (bs : List Block) : Prop where
  fault : h.fault = false
  perm : h.live.Perm bs
  apart : bs.Pairwise fun b c => b.span.Apart c.span

variable {h : Heap} {b : Block} {bs cs : List Block}

/-- The order in which the blocks are listed does not matter. -/
theorem Owns.of_perm (ho : h.Owns bs) (hp : bs.Perm cs) : h.Owns cs :=
  ⟨ho.fault, ho.perm.trans hp, (hp.pairwise_iff fun hbc => hbc.symm).mp ho.apart⟩

theorem Owns.alloc (ho : h.Owns bs) (ha : h.Admits cs) : (h.alloc cs).Owns (cs ++ bs) := by
  refine ⟨ho.fault, ho.perm.append_left cs,
    List.pairwise_append.mpr ⟨ha.2, ho.apart, fun c hc b hb => ?_⟩⟩
  exact ((ha.1 c hc).2 b (ho.perm.mem_iff.mpr hb)).symm

theorem Owns.free (ho : h.Owns (b :: bs)) : (h.free b).Owns bs := by
  have hmem : b ∈ h.live := ho.perm.mem_iff.mpr List.mem_cons_self
  have hperm : (h.live.erase b).Perm bs := by
    have := ho.perm.erase b
    rwa [List.erase_cons_head] at this
  rw [Heap.free, if_pos hmem]
  exact ⟨ho.fault, hperm, (List.pairwise_cons.mp ho.apart).2⟩

/-- **Freeing what is owned**, one block after the other, never faults. -/
theorem Owns.freeAll (ho : h.Owns (cs ++ bs)) : (h.freeAll cs).Owns bs := by
  induction cs generalizing h with
  | nil => exact ho
  | cons c cs ih => exact ih ho.free

/-- **An exchange**: some blocks are obtained, some given back, and the balance is right. -/
theorem Owns.exchange {got freed xs ys rest : List Block} (ho : h.Owns (xs ++ rest))
    (ha : h.Admits got) (hp : (got ++ xs).Perm (freed ++ ys)) :
    ((h.alloc got).freeAll freed).Owns (ys ++ rest) := by
  refine ((ho.alloc ha).of_perm ?_).freeAll
  rw [← List.append_assoc, ← List.append_assoc]
  exact hp.append_right rest

end Heap

/-! ## 3. Owners in a row -/

section Owners

variable {α : Type u} {β : Type v} {f : α → List β} {l : List α}

/-- One owner's share, and the rest: replacing the owner replaces its share, also when shares are
    counted anew and come out the same for the others. -/
theorem flatMap_set {g : α → List β} {k : Nat} {a : α} (h : l[k]? = some a)
    (hg : ∀ (j : Nat) (b : α), j ≠ k → l[j]? = some b → g b = f b) :
    ∃ rest, (l.flatMap f).Perm (f a ++ rest) ∧
      ∀ b, ((l.set k b).flatMap g).Perm (g b ++ rest) := by
  induction l generalizing k with
  | nil => cases h
  | cons c l ih =>
      cases k with
      | zero =>
          cases h
          refine ⟨l.flatMap f, .refl _, fun b => .of_eq (congrArg (g b ++ ·) ?_)⟩
          refine List.flatMap_congr fun x hx => ?_
          obtain ⟨j, hj⟩ := List.mem_iff_getElem?.mp hx
          exact hg (j + 1) x (Nat.succ_ne_zero j) hj
      | succ k =>
          obtain ⟨rest, h₁, h₂⟩ := ih h fun j b hj hb => hg (j + 1) b (by omega) hb
          have hswap (x : List β) : (f c ++ (x ++ rest)).Perm (x ++ (f c ++ rest)) := by
            rw [← List.append_assoc, ← List.append_assoc]
            exact List.perm_append_comm.append_right rest
          have hc : g c = f c := hg 0 c (Nat.succ_ne_zero k).symm rfl
          refine ⟨f c ++ rest, (h₁.append_left (f c)).trans (hswap _), fun b => ?_⟩
          show (g c ++ (l.set k b).flatMap g).Perm _
          rw [hc]
          exact ((h₂ b).append_left (f c)).trans (hswap _)

/-- What two owners own is related, if everything owned is. -/
theorem pairwise_flatMap_ne {R : β → β → Prop} (hR : ∀ x y, R x y → R y x)
    (h : (l.flatMap f).Pairwise R) {j k : Nat} {a b : α} (hj : l[j]? = some a)
    (hk : l[k]? = some b) (hjk : j ≠ k) {x y : β} (hx : x ∈ f a) (hy : y ∈ f b) : R x y := by
  have hp := (List.pairwise_flatMap.mp h).2
  refine pairwise_getElem?_ne (fun a b hab x hx y hy => ?_) hp hjk hj hk x hx y hy
  exact hR _ _ (hab y hy x hx)

/-- One owner's blocks and the rest; what then owns them as another owner does, in its place. -/
theorem Heap.Owns.split {h : Heap} {f : α → List Block} {others : List Block}
    (ho : h.Owns (l.flatMap f ++ others)) {k : Nat} {a : α} (hk : l[k]? = some a) :
    ∃ rest, h.Owns (f a ++ rest) ∧
      ∀ {h' : Heap} {b : α}, h'.Owns (f b ++ rest) → h'.Owns ((l.set k b).flatMap f ++ others) := by
  obtain ⟨rest, h₁, h₂⟩ := flatMap_set (f := f) hk fun _ _ _ _ => rfl
  refine ⟨rest ++ others, ho.of_perm ?_, fun {h' b} ho' => ho'.of_perm ?_⟩
  · rw [← List.append_assoc]
    exact h₁.append_right others
  · rw [← List.append_assoc]
    exact ((h₂ b).append_right others).symm

end Owners

end Base
