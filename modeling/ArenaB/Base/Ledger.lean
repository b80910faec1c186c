/-
  File:      ArenaB/Base/Ledger.lean
  Subject:   A log that can be marked and rewound: the abstract purpose of an arena.

  A `Ledger` lists the entries that are live, oldest first, and the marks that are still valid,
  oldest first, each with the number of entries live when it was taken. Rewinding to a mark
  forgets the entries recorded since and the marks taken since; the mark itself stays valid.
  The two fields `sorted` and `bounded` are carried by the structure, so a ledger whose marks do
  not nest cannot be built.

  `Covered P L` -- every entry recorded before a mark satisfies `P` at that mark -- is the shape
  of every fact a rewind relies on: it survives each operation (`Covered.record`, `.mark`,
  `.rewind`, `.amend`) and hands the kept entries over at a rewind (`Covered.kept`). `Ahead` is the
  same for the entries recorded after a mark, which a rewind to it drops (`Ahead.dropped`).
-/
import Mathlib.Data.List.Basic
import Mathlib.Data.List.Forall2
import Mathlib.Data.List.Pairwise
import Mathlib.Order.Basic

namespace Base

universe u v

/-- A relation that holds along a list and is reflexive holds between any two positions in
    order. -/
theorem pairwise_getElem? {α : Type u} {R : α → α → Prop} (hR : ∀ a, R a a) {l : List α}
    (hl : l.Pairwise R) {j i : Nat} (hji : j ≤ i) {a b : α} (ha : l[j]? = some a)
    (hb : l[i]? = some b) : R a b := by
  obtain ⟨h1, e1⟩ := List.getElem?_eq_some_iff.mp ha
  obtain ⟨h2, e2⟩ := List.getElem?_eq_some_iff.mp hb
  rcases Nat.lt_or_eq_of_le hji with h | h
  · rw [← e1, ← e2]
    exact List.pairwise_iff_getElem.mp hl j i h1 h2 h
  · subst h
    rw [← e1, ← e2]
    exact hR _

/-- Lists that are related entry by entry have related entries at each position. -/
theorem forall₂_getElem? {α : Type u} {β : Type v} {R : α → β → Prop} {l : List α} {m : List β}
    (h : List.Forall₂ R l m) {i : Nat} {a : α} (ha : l[i]? = some a) :
    ∃ b, m[i]? = some b ∧ R a b := by
  induction h generalizing i with
  | nil => cases ha
  | cons hr _ ih =>
      cases i with
      | zero =>
          cases ha
          exact ⟨_, rfl, hr⟩
      | succ i => exact ih ha

/-- Replacing an entry by one with the same image. -/
theorem map_set_self {α : Type u} {β : Type v} {f : α → β} {l : List α} {i : Nat} {a a' : α}
    (h : l[i]? = some a) (he : f a' = f a) : (l.set i a').map f = l.map f := by
  rw [List.map_set, he]
  refine List.ext_getElem? fun k => ?_
  rw [List.getElem?_set]
  split
  · rename_i hk
    subst hk
    rw [List.getElem?_map, h, List.length_map, if_pos (List.getElem?_eq_some_iff.mp h).1]
    rfl
  · rfl

/-- Replacing an entry by one with the same image, where not every entry has one. -/
theorem filterMap_set_self {α : Type u} {β : Type v} {f : α → Option β} {l : List α} {i : Nat}
    {a a' : α} (h : l[i]? = some a) (he : f a' = f a) :
    (l.set i a').filterMap f = l.filterMap f := by
  have hid (l : List α) : l.filterMap f = (l.map f).filterMap id := by
    rw [List.filterMap_map]
    rfl
  rw [hid, hid, map_set_self h he]

/-- The entries of a list that grew by one. -/
theorem getElem?_concat_iff {α : Type u} {l : List α} {a b : α} {t : Nat} :
    (l ++ [a])[t]? = some b ↔ l[t]? = some b ∨ t = l.length ∧ b = a := by
  rw [List.getElem?_append]
  split
  · next h =>
    constructor
    · exact Or.inl
    · intro h'
      rcases h' with h' | ⟨rfl, _⟩
      · exact h'
      · exact absurd h (Nat.lt_irrefl _)
  · next h =>
    rw [List.getElem?_eq_none (Nat.not_lt.mp h), List.getElem?_singleton]
    constructor
    · intro h'
      split at h'
      · cases h'
        exact Or.inr ⟨by omega, rfl⟩
      · cases h'
    · intro h'
      rcases h' with h' | ⟨rfl, rfl⟩
      · cases h'
      · rw [if_pos (Nat.sub_self _)]

/-- Counting in a list with one more entry. -/
theorem countP_concat {α : Type u} (p : α → Bool) (l : List α) (a : α) :
    (l ++ [a]).countP p = l.countP p + (p a).toNat := by
  rw [List.countP_append, List.countP_singleton]
  cases p a <;> rfl

/-- A list in which one entry alone has an image. -/
theorem filterMap_only {α : Type u} {β : Type v} {f : α → Option β} {l : List α} {i : Nat} {a : α}
    (h : l[i]? = some a) (hother : ∀ j b, j ≠ i → l[j]? = some b → f b = none) :
    l.filterMap f = (f a).toList := by
  induction l generalizing i with
  | nil => cases h
  | cons x l ih =>
      cases i with
      | zero =>
          cases h
          have hnil : l.filterMap f = [] := List.filterMap_eq_nil_iff.mpr fun b hb => by
            obtain ⟨j, hj⟩ := List.mem_iff_getElem?.mp hb
            exact hother (j + 1) b (Nat.succ_ne_zero j) hj
          rw [List.filterMap_cons, hnil]
          cases f a <;> rfl
      | succ i =>
          have hx : f x = none := hother 0 x (Nat.succ_ne_zero i).symm rfl
          rw [List.filterMap_cons_none hx]
          exact ih h fun j b hj hb => hother (j + 1) b (by omega) hb

/-- What holds of a replaced list: the new entry, and the others. -/
theorem forall_mem_set {α : Type u} {P : α → Prop} {l : List α} {i : Nat} {a a' : α}
    (h : l[i]? = some a) (ha : P a') (hother : ∀ j b, j ≠ i → l[j]? = some b → P b) :
    ∀ b ∈ l.set i a', P b := by
  intro b hb
  obtain ⟨j, hj⟩ := List.mem_iff_getElem?.mp hb
  by_cases hji : j = i
  · subst hji
    rw [List.getElem?_set_self (List.getElem?_eq_some_iff.mp h).1] at hj
    cases hj
    exact ha
  · rw [List.getElem?_set_ne (Ne.symm hji)] at hj
    exact hother j b hji hj

/-- What holds of a list and of a new entry holds of the list with the entry in it. -/
theorem forall_set {α : Type u} {P : α → Prop} {l : List α} {i : Nat} {a : α}
    (h : ∀ b ∈ l, P b) (ha : P a) : ∀ b ∈ l.set i a, P b := by
  intro b hb
  rcases List.mem_or_eq_of_mem_set hb with hb | rfl
  · exact h b hb
  · exact ha

/-- What holds at the place that is set, and at the others, holds at all. -/
theorem forall_getElem?_set {α : Type u} {P : Nat → α → Prop} {l : List α} {i : Nat} {a : α}
    (h : P i a) (hother : ∀ j b, j ≠ i → l[j]? = some b → P j b) :
    ∀ j b, (l.set i a)[j]? = some b → P j b := by
  intro j b hj
  by_cases hji : j = i
  · subst hji
    rw [List.getElem?_set] at hj
    simp only [if_true] at hj
    split at hj
    · cases hj
      exact h
    · cases hj
  · rw [List.getElem?_set_ne (Ne.symm hji)] at hj
    exact hother j b hji hj

/-- What holds of a replaced list and of the entry that was replaced holds of the list. -/
theorem forall_mem_of_set {α : Type u} {P : α → Prop} {l : List α} {i : Nat} {a a' : α}
    (h : l[i]? = some a) (ha : P a) (hset : ∀ b ∈ l.set i a', P b) : ∀ b ∈ l, P b := by
  intro b hb
  obtain ⟨j, hj⟩ := List.mem_iff_getElem?.mp hb
  by_cases hji : j = i
  · subst hji
    rw [h] at hj
    cases hj
    exact ha
  · rw [← List.getElem?_set_ne (Ne.symm hji)] at hj
    exact hset b (List.mem_of_getElem? hj)

/-- A symmetric relation that holds along a list holds between any two different positions. -/
theorem pairwise_getElem?_ne {α : Type u} {R : α → α → Prop} (hR : ∀ a b, R a b → R b a)
    {l : List α} (hl : l.Pairwise R) {j i : Nat} (hji : j ≠ i) {a b : α} (ha : l[j]? = some a)
    (hb : l[i]? = some b) : R a b := by
  obtain ⟨h1, rfl⟩ := List.getElem?_eq_some_iff.mp ha
  obtain ⟨h2, rfl⟩ := List.getElem?_eq_some_iff.mp hb
  rcases Nat.lt_or_gt_of_ne hji with h | h
  · exact List.pairwise_iff_getElem.mp hl j i h1 h2 h
  · exact hR _ _ (List.pairwise_iff_getElem.mp hl i j h2 h1 h)

/-- A symmetric relation along a list in which one entry is replaced. -/
theorem pairwise_set {α : Type u} {R : α → α → Prop} (hR : ∀ a b, R a b → R b a) {l : List α}
    (hl : l.Pairwise R) {i : Nat} {a a' : α} (hi : l[i]? = some a)
    (h : ∀ b ∈ l, R a b → R a' b) : (l.set i a').Pairwise R := by
  have hnew : ∀ j b, j ≠ i → l[j]? = some b → R a' b := fun j b hj hb =>
    h b (List.mem_of_getElem? hb) (pairwise_getElem?_ne hR hl (Ne.symm hj) hi hb)
  refine List.pairwise_iff_getElem.mpr fun j k hj hk hjk => ?_
  have hj' : j < l.length := List.length_set ▸ hj
  have hk' : k < l.length := List.length_set ▸ hk
  by_cases hji : j = i
  · subst hji
    rw [List.getElem_set_self, List.getElem_set_ne (by omega)]
    exact hnew k _ (by omega) (List.getElem?_eq_getElem hk')
  · rw [List.getElem_set_ne (Ne.symm hji)]
    by_cases hki : k = i
    · subst hki
      rw [List.getElem_set_self]
      exact hR _ _ (hnew j _ hji (List.getElem?_eq_getElem hj'))
    · rw [List.getElem_set_ne (Ne.symm hki)]
      exact List.pairwise_iff_getElem.mp hl j k hj' hk' hjk

/-- A member of a prefix stands at a position of the prefix. -/
theorem mem_take_getElem? {α : Type u} {l : List α} {n : Nat} {a : α} (h : a ∈ l.take n) :
    ∃ j, j < n ∧ l[j]? = some a := by
  obtain ⟨j, hj⟩ := List.mem_iff_getElem?.mp h
  rw [List.getElem?_take] at hj
  split at hj
  · rename_i hlt
    exact ⟨j, hlt, hj⟩
  · cases hj

/-- Two tests that agree on a list find the same position. -/
theorem findIdx_congr {α : Type u} {p q : α → Bool} :
    ∀ {l : List α}, (∀ a ∈ l, p a = q a) → l.findIdx p = l.findIdx q
  | [], _ => rfl
  | a :: l, h => by
      rw [List.findIdx_cons, List.findIdx_cons, h a List.mem_cons_self,
        findIdx_congr fun b hb => h b (List.mem_cons_of_mem a hb)]

/-- The live entries and the valid marks, oldest first. -/
@[ext] structure Ledger (α : Type u) (κ : Type v) where
  log : List α
  marks : List (κ × Nat)
  sorted : marks.Pairwise fun m m' => m.2 ≤ m'.2
  bounded : ∀ m ∈ marks, m.2 ≤ log.length

namespace Ledger

variable {α : Type u} {κ : Type v}

/-- Nothing recorded, nothing marked. -/
def empty : Ledger α κ := ⟨[], [], .nil, by simp⟩

/-- One more live entry. -/
def record (L : Ledger α κ) (a : α) : Ledger α κ where
  log := L.log ++ [a]
  marks := L.marks
  sorted := L.sorted
  bounded m hm := by
    have := L.bounded m hm
    simp only [List.length_append, List.length_singleton]
    omega

/-- Changes the entry at position `i` in place. -/
def amend (L : Ledger α κ) (i : Nat) (f : α → α) : Ledger α κ where
  log := L.log.modify i f
  marks := L.marks
  sorted := L.sorted
  bounded m hm := by
    rw [List.length_modify]
    exact L.bounded m hm

/-- An amended log, entry by entry. -/
theorem getElem?_amend {L : Ledger α κ} {i k : Nat} {f : α → α} {x : α}
    (h : (L.amend i f).log[k]? = some x) :
    ∃ y, L.log[k]? = some y ∧ x = if i = k then f y else y := by
  have h' : (L.log.modify i f)[k]? = some x := h
  rw [List.getElem?_modify, Option.map_eq_map, Option.map_eq_some_iff] at h'
  obtain ⟨y, hy, rfl⟩ := h'
  refine ⟨y, hy, ?_⟩
  split <;> rfl

/-- Takes a mark. -/
def mark (L : Ledger α κ) (k : κ) : Ledger α κ where
  log := L.log
  marks := L.marks ++ [(k, L.log.length)]
  sorted := by
    rw [List.pairwise_append]
    refine ⟨L.sorted, List.pairwise_singleton _ _, fun m hm m' hm' => ?_⟩
    rw [List.mem_singleton.mp hm']
    exact L.bounded m hm
  bounded m hm := by
    rcases List.mem_append.mp hm with h | h
    · exact L.bounded m h
    · obtain rfl := List.mem_singleton.mp h
      exact Nat.le_refl _

/-- The number of entries that survive a rewind to the `i`th mark. -/
def keep (L : Ledger α κ) (i : Nat) : Nat := (L.marks[i]?.map Prod.snd).getD L.log.length

theorem keep_eq {L : Ledger α κ} {i : Nat} {m : κ × Nat} (h : L.marks[i]? = some m) :
    L.keep i = m.2 := by
  rw [keep, h]
  rfl

theorem le_keep {L : Ledger α κ} {i : Nat} {m : κ × Nat} (hm : m ∈ L.marks.take (i + 1)) :
    m.2 ≤ L.keep i := by
  obtain ⟨j, hj, em⟩ := mem_take_getElem? hm
  cases hi : L.marks[i]? with
  | none =>
      rw [keep, hi]
      exact L.bounded m (List.mem_of_getElem? em)
  | some m' =>
      rw [keep_eq hi]
      exact pairwise_getElem? (R := fun m m' => m.2 ≤ m'.2) (fun _ => Nat.le_refl _) L.sorted
        (Nat.le_of_lt_succ hj) em hi

/-- Rewinds to the `i`th valid mark. -/
def rewind (L : Ledger α κ) (i : Nat) : Ledger α κ where
  log := L.log.take (L.keep i)
  marks := L.marks.take (i + 1)
  sorted := L.sorted.sublist (List.take_sublist _ _)
  bounded m hm := by
    rw [List.length_take]
    exact Nat.le_min.mpr ⟨le_keep hm, L.bounded m (List.mem_of_mem_take hm)⟩

/-- Keeps the first `n` entries and the first `k` marks, which then stand for no more than that. -/
def cutTo (L : Ledger α κ) (n k : Nat) : Ledger α κ where
  log := L.log.take n
  marks := (L.marks.take k).map fun m => (m.1, min m.2 n)
  sorted := by
    refine List.pairwise_map.mpr ((L.sorted.sublist (List.take_sublist _ _)).imp ?_)
    intro m m' h
    show min m.2 n ≤ min m'.2 n
    omega
  bounded m hm := by
    obtain ⟨m', hm', rfl⟩ := List.mem_map.mp hm
    have := L.bounded m' (List.mem_of_mem_take hm')
    show min m'.2 n ≤ (L.log.take n).length
    rw [List.length_take]
    omega

/-! ## Forgetting detail -/

section Map

variable {β : Type u} {μ : Type v} {f : α → β} {g : κ → μ}

/-- The ledger with its entries and marks seen through `f` and `g`. -/
def map (f : α → β) (g : κ → μ) (L : Ledger α κ) : Ledger β μ where
  log := L.log.map f
  marks := L.marks.map fun m => (g m.1, m.2)
  sorted := List.pairwise_map.mpr L.sorted
  bounded m hm := by
    obtain ⟨m', hm', rfl⟩ := List.mem_map.mp hm
    rw [List.length_map]
    exact L.bounded m' hm'

@[simp] theorem map_record (L : Ledger α κ) (a : α) :
    (L.record a).map f g = (L.map f g).record (f a) :=
  Ledger.ext List.map_append rfl

@[simp] theorem map_mark (L : Ledger α κ) (k : κ) :
    (L.mark k).map f g = (L.map f g).mark (g k) := by
  refine Ledger.ext rfl ?_
  show (L.marks ++ [(k, L.log.length)]).map _ = L.marks.map _ ++ [(g k, (L.log.map f).length)]
  rw [List.map_append, List.length_map]
  rfl

theorem map_amend (L : Ledger α κ) (i : Nat) {h : α → α} {h' : β → β}
    (hf : ∀ a, f (h a) = h' (f a)) : (L.amend i h).map f g = (L.map f g).amend i h' := by
  refine Ledger.ext ?_ rfl
  show (L.log.modify i h).map f = (L.log.map f).modify i h'
  refine List.ext_getElem? fun k => ?_
  rw [List.getElem?_map, List.getElem?_modify, List.getElem?_modify, List.getElem?_map]
  cases L.log[k]? with
  | none => rfl
  | some a =>
      by_cases hk : i = k
      · simp [hk, hf]
      · simp [hk]

theorem getElem?_marks_map (L : Ledger α κ) (i : Nat) :
    (L.map f g).marks[i]? = L.marks[i]?.map fun m => (g m.1, m.2) := List.getElem?_map

@[simp] theorem map_rewind (L : Ledger α κ) (i : Nat) :
    (L.rewind i).map f g = (L.map f g).rewind i := by
  have hk : (L.map f g).keep i = L.keep i := by
    unfold keep
    rw [getElem?_marks_map]
    cases L.marks[i]? with
    | none => exact List.length_map _
    | some m => rfl
  refine Ledger.ext ?_ List.map_take
  show (L.log.take (L.keep i)).map f = (L.log.map f).take ((L.map f g).keep i)
  rw [hk, List.map_take]

end Map

/-! ## What the entries before a mark satisfy -/

/-- Every entry recorded before a valid mark satisfies `P` at that mark. -/
def Covered (P : κ → α → Prop) (L : Ledger α κ) : Prop :=
  ∀ m ∈ L.marks, ∀ a ∈ L.log.take m.2, P m.1 a

section Covered

variable {P Q : κ → α → Prop} {L : Ledger α κ}

theorem covered_empty : Covered P (empty : Ledger α κ) := by
  intro m hm
  cases hm

theorem Covered.imp (h : Covered P L) (hPQ : ∀ m ∈ L.marks, ∀ a, P m.1 a → Q m.1 a) :
    Covered Q L :=
  fun m hm a ha => hPQ m hm a (h m hm a ha)

theorem Covered.record (h : Covered P L) (a : α) : Covered P (L.record a) := by
  intro m hm b hb
  have e : (L.log ++ [a]).take m.2 = L.log.take m.2 :=
    List.take_append_of_le_length (L.bounded m hm)
  exact h m hm b (e ▸ hb)

theorem Covered.mark (h : Covered P L) {k : κ} (hk : ∀ a ∈ L.log, P k a) :
    Covered P (L.mark k) := by
  intro m hm a ha
  rcases List.mem_append.mp hm with hm | hm
  · exact h m hm a ha
  · rw [List.mem_singleton.mp hm] at ha ⊢
    exact hk a (List.mem_of_mem_take ha)

theorem Covered.rewind (h : Covered P L) (i : Nat) : Covered P (L.rewind i) := by
  intro m hm a ha
  have e : (L.log.take (L.keep i)).take m.2 = L.log.take m.2 := by
    rw [List.take_take, Nat.min_eq_left (le_keep hm)]
  exact h m (List.mem_of_mem_take hm) a (e ▸ ha)

theorem Covered.amend (h : Covered P L) {f : α → α} (hf : ∀ k a, P k a → P k (f a)) (i : Nat) :
    Covered P (L.amend i f) := by
  intro m hm a ha
  obtain ⟨j, hj, e⟩ := mem_take_getElem? ha
  have e' : (L.log.modify i f)[j]? = some a := e
  rw [List.getElem?_modify, Option.map_eq_map, Option.map_eq_some_iff] at e'
  obtain ⟨b, hb, eb⟩ := e'
  have hPb : P m.1 b := h m hm b (by
    rw [List.mem_iff_getElem?]
    exact ⟨j, by rw [List.getElem?_take, if_pos hj]; exact hb⟩)
  by_cases hij : i = j
  · rw [if_pos hij] at eb
    exact eb ▸ hf _ _ hPb
  · rw [if_neg hij] at eb
    exact eb ▸ hPb

/-- **What a rewind may rely on**: the entries it keeps satisfy `P` at its target. -/
theorem Covered.kept (h : Covered P L) {i : Nat} {m : κ × Nat} (hi : L.marks[i]? = some m) :
    ∀ a ∈ (L.rewind i).log, P m.1 a := by
  intro a ha
  have e : (L.rewind i).log = L.log.take m.2 := by
    show L.log.take (L.keep i) = _
    rw [keep_eq hi]
  exact h m (List.mem_of_getElem? hi) a (e ▸ ha)

end Covered

/-! ## What the entries after a mark satisfy -/

/-- Every live entry recorded after a valid mark satisfies `P` at that mark. -/
def Ahead (P : κ → α → Prop) (L : Ledger α κ) : Prop :=
  ∀ m ∈ L.marks, ∀ a ∈ L.log.drop m.2, P m.1 a

section Ahead

variable {P : κ → α → Prop} {L : Ledger α κ}

theorem ahead_empty : Ahead P (empty : Ledger α κ) := by
  intro m hm
  cases hm

theorem Ahead.record (h : Ahead P L) {a : α} (ha : ∀ m ∈ L.marks, P m.1 a) :
    Ahead P (L.record a) := by
  intro m hm b hb
  have e : (L.log ++ [a]).drop m.2 = L.log.drop m.2 ++ [a] :=
    List.drop_append_of_le_length (L.bounded m hm)
  rcases List.mem_append.mp (e ▸ hb) with hb | hb
  · exact h m hm b hb
  · rw [List.mem_singleton.mp hb]
    exact ha m hm

theorem Ahead.mark (h : Ahead P L) (k : κ) : Ahead P (L.mark k) := by
  intro m hm a ha
  rcases List.mem_append.mp hm with hm | hm
  · exact h m hm a ha
  · rw [List.mem_singleton.mp hm] at ha
    have ha' : a ∈ L.log.drop L.log.length := ha
    rw [List.drop_length] at ha'
    cases ha'

theorem Ahead.rewind (h : Ahead P L) (i : Nat) : Ahead P (L.rewind i) := by
  intro m hm a ha
  have ha' : a ∈ (L.log.take (L.keep i)).drop m.2 := ha
  rw [List.drop_take] at ha'
  exact h m (List.mem_of_mem_take hm) a (List.mem_of_mem_take ha')

/-- **What a rewind may rely on**: the entries it drops satisfy `P` at its target. -/
theorem Ahead.dropped (h : Ahead P L) {i : Nat} {m : κ × Nat} (hi : L.marks[i]? = some m) {a : α}
    (ha : a ∈ L.log) (hd : a ∉ (L.rewind i).log) : P m.1 a := by
  have e : (L.rewind i).log = L.log.take m.2 := by
    show L.log.take (L.keep i) = _
    rw [keep_eq hi]
  rw [← List.take_append_drop m.2 L.log] at ha
  rcases List.mem_append.mp ha with ha | ha
  · exact absurd (e ▸ ha) hd
  · exact h m (List.mem_of_getElem? hi) a ha

end Ahead

end Ledger

end Base
