/-
  File:      ArenaB/Base/Span.lean
  Subject:   Address ranges and a flat byte memory.

  A `Span` is a half-open range of addresses. Two spans are `Apart` when no address lies in both
  (an empty span is apart from every span); a span lies `Inside` another. A memory gives every
  address a byte; `Holds m a data` says that the object of contents `data` at address `a` reads
  back what was last written into it -- a byte that was never written (`none`) promises nothing.
  The frame lemma `Holds.frame` is the only way a proof below moves an object to a new memory.
-/
import Mathlib.Data.List.Basic

namespace Base

/-! ## 1. Spans -/

/-- The addresses `base, …, base + len - 1`. -/
structure Span where
  base : Nat
  len : Nat
  deriving DecidableEq, Repr

namespace Span

/-- One past the last address. -/
def fin (s : Span) : Nat := s.base + s.len

/-- No address lies in both spans. -/
def Apart (s t : Span) : Prop := s.len = 0 ∨ t.len = 0 ∨ s.fin ≤ t.base ∨ t.fin ≤ s.base

instance (s t : Span) : Decidable (s.Apart t) := by unfold Apart; infer_instance

/-- Every address of `s` lies in `t`. -/
def Inside (s t : Span) : Prop := t.base ≤ s.base ∧ s.fin ≤ t.fin

instance (s t : Span) : Decidable (s.Inside t) := by unfold Inside; infer_instance

/-- Membership of one address. -/
def Has (s : Span) (a : Nat) : Prop := s.base ≤ a ∧ a < s.fin

/-- **`Apart` says what its name says.** -/
theorem apart_iff {s t : Span} : s.Apart t ↔ ∀ a, s.Has a → ¬ t.Has a := by
  unfold Apart Has fin
  constructor
  · intro h a hs ht
    omega
  · intro h
    by_cases hs : s.len = 0
    · exact Or.inl hs
    by_cases ht : t.len = 0
    · exact Or.inr (Or.inl ht)
    -- the larger of the two bases would otherwise lie in both
    have h1 := h s.base
    have h2 := h t.base
    omega

theorem Apart.symm {s t : Span} (h : s.Apart t) : t.Apart s := by
  unfold Apart at h ⊢
  omega

theorem Inside.refl (s : Span) : s.Inside s := ⟨Nat.le_refl _, Nat.le_refl _⟩

theorem Inside.has {s t : Span} (h : s.Inside t) {a : Nat} (ha : s.Has a) : t.Has a :=
  ⟨Nat.le_trans h.1 ha.1, Nat.lt_of_lt_of_le ha.2 h.2⟩

/-- The addresses of a range that starts `o` behind a base. -/
theorem Has.offset {base o n y : Nat} (h : Has ⟨base + o, n⟩ y) :
    ∃ x, y = base + x ∧ o ≤ x ∧ x < o + n := by
  simp only [Has, fin] at h
  exact ⟨y - base, by omega, by omega, by omega⟩

/-- Parts of spans that are apart are apart. -/
theorem Apart.mono {s s' t t' : Span} (h : s'.Apart t') (hs : s.Inside s') (ht : t.Inside t') :
    s.Apart t :=
  apart_iff.mpr fun a h1 h2 => apart_iff.mp h a (hs.has h1) (ht.has h2)

end Span

/-! ## 2. Memory -/

/-- A flat memory of bytes. -/
def Mem := Nat → UInt8

namespace Mem

/-- Writes the bytes `bs` from address `a` on. -/
def write (m : Mem) (a : Nat) (bs : List UInt8) : Mem :=
  fun x => if a ≤ x ∧ x < a + bs.length then bs.getD (x - a) 0 else m x

/-- `write_bytes`: sets the bytes of a span to `b`. -/
def fill (m : Mem) (s : Span) (b : UInt8) : Mem :=
  fun x => if s.base ≤ x ∧ x < s.fin then b else m x

/-- The `n` bytes from address `a` on. -/
def read (m : Mem) (a n : Nat) : List UInt8 := (List.range n).map fun i => m (a + i)

/-- The two memories agree on a span. -/
def Agree (m m' : Mem) (s : Span) : Prop := ∀ a, s.Has a → m' a = m a

theorem agree_refl (m : Mem) (s : Span) : Agree m m s := fun _ _ => rfl

theorem Agree.trans {m m' m'' : Mem} {s : Span} (h : Agree m m' s) (h' : Agree m' m'' s) :
    Agree m m'' s :=
  fun a ha => (h' a ha).trans (h a ha)

theorem Agree.read {m m' : Mem} {a n : Nat} (h : Agree m m' ⟨a, n⟩) : m'.read a n = m.read a n :=
  List.map_congr_left fun i hi =>
    h (a + i) ⟨Nat.le_add_right a i, Nat.add_lt_add_left (List.mem_range.mp hi) a⟩

@[simp] theorem length_read (m : Mem) (a n : Nat) : (m.read a n).length = n := by simp [Mem.read]

theorem write_nil (m : Mem) (a : Nat) : m.write a [] = m := by
  funext x
  refine if_neg ?_
  simp only [List.length_nil]
  omega

theorem agree_write {m : Mem} {a : Nat} {bs : List UInt8} {s : Span}
    (h : s.Apart ⟨a, bs.length⟩) : Agree m (m.write a bs) s := by
  intro x hx
  have hn := Span.apart_iff.mp h x hx
  exact if_neg hn

theorem agree_fill {m : Mem} {s t : Span} {b : UInt8} (h : s.Apart t) :
    Agree m (m.fill t b) s := by
  intro x hx
  exact if_neg (Span.apart_iff.mp h x hx)

end Mem

/-- The object of contents `data` at address `a` reads back what was last written into it. -/
def Holds (m : Mem) (a : Nat) (data : List (Option UInt8)) : Prop :=
  ∀ (j : Nat) (b : UInt8), data[j]? = some (some b) → m (a + j) = b

/-- **Frame**: an object survives every change of memory outside its own span. -/
theorem Holds.frame {m m' : Mem} {a : Nat} {data : List (Option UInt8)} (h : Holds m a data)
    (hm : Mem.Agree m m' ⟨a, data.length⟩) : Holds m' a data := by
  intro j b hj
  have hlt : j < data.length := (List.getElem?_eq_some_iff.mp hj).1
  rw [hm (a + j) ⟨by simp, by simp [Span.fin]; omega⟩]
  exact h j b hj

/-- An object of which nothing was written yet promises nothing. -/
theorem holds_replicate (m : Mem) (a n : Nat) : Holds m a (List.replicate n none) := by
  intro j b hj
  rw [List.getElem?_replicate] at hj
  split at hj <;> simp at hj

theorem holds_write (m : Mem) (a : Nat) (bs : List UInt8) :
    Holds (m.write a bs) a (bs.map some) := by
  intro j b hj
  rw [List.getElem?_map, Option.map_eq_some_iff] at hj
  obtain ⟨b', hb, e⟩ := hj
  have hlt : j < bs.length := (List.getElem?_eq_some_iff.mp hb).1
  rw [Mem.write, if_pos ⟨by omega, by omega⟩, Nat.add_sub_cancel_left, List.getD_eq_getElem?_getD,
    hb]
  simpa using e

/-- One byte written into an object. -/
theorem Holds.set {m : Mem} {a : Nat} {data : List (Option UInt8)} (h : Holds m a data)
    (j : Nat) (b : UInt8) : Holds (m.write (a + j) [b]) a (data.set j (some b)) := by
  intro k c hk
  rw [List.getElem?_set] at hk
  by_cases hjk : j = k
  · subst hjk
    rw [if_pos rfl] at hk
    split at hk
    · simp only [Option.some.injEq] at hk
      simp [Mem.write, hk]
    · cases hk
  · rw [if_neg hjk] at hk
    rw [Mem.write, if_neg (by simp; omega)]
    exact h k c hk

end Base
