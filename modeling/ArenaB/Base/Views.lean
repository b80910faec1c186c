/-
  File:      ArenaB/Base/Views.lean
  Subject:   Memory with release and acquire, by messages and views.

  Every location has a list of messages in its modification order, and a thread has a view: for
  each location the first message it may still read. A load picks any message from there on, so
  it may be old. What a thread has seen travels with the message of a releasing write, and an
  acquiring load takes it over; a read-modify-write reads the last message and passes the view of
  that message on, released or not (a release sequence).

  Writes go to the end of the modification order. That is no restriction for a location all of
  whose writes are read-modify-writes, or made by one thread at a time, each of which has seen the
  one before.

  * `load`, `store`, `exchange` -- the atomic operations, by memory order;
  * `Covers m v l` -- the view leaves only the last message of `l` to read: an access that is not
    atomic and not covered is a race. `Covers.load_latest`: what is loaded is then the last value;
  * `Closed` -- views point to messages there are, so a load is always possible
    (`Closed.exists_load`); every operation keeps it.
-/
import Mathlib.Order.Lattice
import Mathlib.Order.BoundedOrder.Basic
import Mathlib.Order.Nat
import Mathlib.Data.List.Basic

namespace Base

universe u v

/-- The memory orders of the atomic operations. -/
inductive MemOrder where
  | relaxed
  | acquire
  | release
  | acqRel
  deriving DecidableEq, Repr

namespace MemOrder

def acquires : MemOrder → Bool
  | .acquire => true
  | .acqRel => true
  | _ => false

def releases : MemOrder → Bool
  | .release => true
  | .acqRel => true
  | _ => false

end MemOrder

/-- For each location the first message that may still be read. -/
abbrev View (L : Type u) := L → Nat

/-- A write: the value, and what goes with it. -/
structure Message (L : Type u) (V : Type v) where
  val : V
  view : View L

/-- The messages of each location, in modification order. -/
abbrev Messages (L : Type u) (V : Type v) := L → List (Message L V)

variable {L : Type u} {V : Type v}

/-- Message `t` of `l` has been seen. -/
def View.see [DecidableEq L] (v : View L) (l : L) (t : Nat) : View L :=
  fun k => if k = l then max (v k) t else v k

namespace View

variable [DecidableEq L] {l k : L} {t : Nat}

theorem le_see (v : View L) (l : L) (t : Nat) : v ≤ v.see l t := by
  intro k
  show v k ≤ if k = l then max (v k) t else v k
  split
  · exact Nat.le_max_left _ _
  · exact Nat.le_refl _

theorem see_self (v : View L) (l : L) (t : Nat) : v.see l t l = max (v l) t := if_pos rfl

theorem see_of_ne (v : View L) (t : Nat) (h : k ≠ l) : v.see l t k = v k := if_neg h

end View

namespace Messages

/-- The last value written. -/
def latest (m : Messages L V) (l : L) : Option V := (m l).getLast?.map Message.val

/-- Only the last message of `l` is left to read. -/
def Covers (m : Messages L V) (v : View L) (l : L) : Prop := (m l).length ≤ v l + 1

instance (m : Messages L V) (v : View L) (l : L) : Decidable (Covers m v l) :=
  inferInstanceAs (Decidable (_ ≤ _))

/-- What an acquiring read takes over. -/
def acquired (o : MemOrder) (v w : View L) : View L := if o.acquires then v ⊔ w else v

variable [DecidableEq L]

/-- A load that reads message `t`, which the view has to allow. -/
def load (m : Messages L V) (o : MemOrder) (v : View L) (l : L) (t : Nat) :
    Option (V × View L) :=
  if v l ≤ t then (m l)[t]?.map fun x => (x.val, (acquired o v x.view).see l t) else none

/-- A message goes to the end. -/
def post (m : Messages L V) (l : L) (x : Message L V) : Messages L V :=
  fun k => if k = l then m k ++ [x] else m k

/-- What goes with a write at the end of `l` by a thread with view `v`. -/
def released (m : Messages L V) (o : MemOrder) (v : View L) (l : L) : View L :=
  if o.releases then v.see l (m l).length else (⊥ : View L).see l (m l).length

/-- A store. -/
def store (m : Messages L V) (o : MemOrder) (v : View L) (l : L) (x : V) :
    Messages L V × View L :=
  (m.post l ⟨x, m.released o v l⟩, v.see l (m l).length)

/-- A read-modify-write that succeeds: it reads the last message. -/
def exchange (m : Messages L V) (o : MemOrder) (v : View L) (l : L) (x : V) :
    Option (Messages L V × View L) :=
  (m l).getLast?.map fun y =>
    (m.post l ⟨x, m.released o (acquired o v y.view) l ⊔ y.view⟩,
      (acquired o v y.view).see l (m l).length)

section

variable {m m' : Messages L V} {o : MemOrder} {v v' w : View L} {l k : L} {t : Nat} {x : V}

omit [DecidableEq L] in
theorem Covers.mono (h : Covers m v l) (hv : v ≤ v') : Covers m v' l :=
  Nat.le_trans h (Nat.succ_le_succ (hv l))

omit [DecidableEq L] in
theorem Covers.congr (h : Covers m v l) (hm : m' l = m l) : Covers m' v l := by
  unfold Covers
  rw [hm]
  exact h

omit [DecidableEq L] in
theorem le_acquired (o : MemOrder) (v w : View L) : v ≤ acquired o v w := by
  unfold acquired
  split
  · exact le_sup_left
  · exact le_refl v

/-- **What a load does.** -/
theorem load_eq_some {r : V × View L} (h : m.load o v l t = some r) :
    ∃ y, (m l)[t]? = some y ∧ r.1 = y.val ∧ v l ≤ t ∧ v ≤ r.2 ∧
      (o.acquires = true → y.view ≤ r.2) ∧ t ≤ r.2 l := by
  unfold load at h
  split at h
  · rename_i hle
    obtain ⟨y, hy, rfl⟩ := Option.map_eq_some_iff.mp h
    refine ⟨y, hy, rfl, hle, (le_acquired o v y.view).trans (View.le_see _ _ _), fun ho => ?_, ?_⟩
    · refine le_trans ?_ (View.le_see _ _ _)
      rw [acquired, if_pos ho]
      exact le_sup_right
    · show t ≤ View.see _ l t l
      rw [View.see_self]
      exact Nat.le_max_right _ _
  · cases h

/-- **A covered location** is read as it is. -/
theorem Covers.load_latest (hc : Covers m v l) {r : V × View L} (h : m.load o v l t = some r) :
    m.latest l = some r.1 := by
  obtain ⟨y, hy, hr, hle, _, _, _⟩ := load_eq_some h
  have hlt := (List.getElem?_eq_some_iff.mp hy).1
  have hlast : t = (m l).length - 1 := by
    unfold Covers at hc
    omega
  rw [latest, List.getLast?_eq_getElem?, ← hlast, hy, hr]
  rfl

theorem post_self (m : Messages L V) (l : L) (y : Message L V) : m.post l y l = m l ++ [y] :=
  if_pos rfl

theorem post_of_ne (m : Messages L V) (y : Message L V) (h : k ≠ l) : m.post l y k = m k :=
  if_neg h

theorem latest_post (m : Messages L V) (l : L) (y : Message L V) :
    (m.post l y).latest l = some y.val := by
  rw [latest, post_self, List.getLast?_concat]
  rfl

/-- The writer covers what it wrote. -/
theorem covers_post (m : Messages L V) (l : L) (y : Message L V) (v : View L) :
    Covers (m.post l y) (v.see l (m l).length) l := by
  unfold Covers
  rw [post_self, View.see_self, List.length_append, List.length_singleton]
  have := Nat.le_max_right (v l) (m l).length
  omega

/-- **What a store does**: nothing elsewhere, and the writer knows its own write. -/
theorem store_of_ne (m : Messages L V) (o : MemOrder) (v : View L) (x : V) (h : k ≠ l) :
    (m.store o v l x).1 k = m k := post_of_ne _ _ h

theorem le_store (m : Messages L V) (o : MemOrder) (v : View L) (l : L) (x : V) :
    v ≤ (m.store o v l x).2 := View.le_see _ _ _

theorem latest_store (m : Messages L V) (o : MemOrder) (v : View L) (l : L) (x : V) :
    (m.store o v l x).1.latest l = some x := latest_post _ _ _

theorem covers_store (m : Messages L V) (o : MemOrder) (v : View L) (l : L) (x : V) :
    Covers (m.store o v l x).1 (m.store o v l x).2 l := covers_post _ _ _ _

theorem Covers.store (h : Covers m v k) (o : MemOrder) (l : L) (x : V) :
    Covers (m.store o v l x).1 (m.store o v l x).2 k := by
  by_cases hk : k = l
  · subst hk
    exact covers_store m o v k x
  · exact (h.mono (le_store m o v l x)).congr (store_of_ne m o v x hk)

/-- **What a successful exchange does.** -/
theorem exchange_eq_some {r : Messages L V × View L} (h : m.exchange o v l x = some r) :
    ∃ y z, (m l).getLast? = some y ∧ r.1 = m.post l z ∧ z.val = x ∧ v ≤ r.2 ∧ y.view ≤ z.view ∧
      (o.releases = true → v ≤ z.view) ∧ (m l).length ≤ r.2 l := by
  obtain ⟨y, hy, rfl⟩ := Option.map_eq_some_iff.mp h
  refine ⟨y, _, hy, rfl, rfl, (le_acquired o v y.view).trans (View.le_see _ _ _),
    le_sup_right, fun ho => ?_, ?_⟩
  · refine le_trans ?_ (le_sup_left)
    rw [released, if_pos ho]
    exact (le_acquired o v y.view).trans (View.le_see _ _ _)
  · show (m l).length ≤ View.see _ l (m l).length l
    rw [View.see_self]
    exact Nat.le_max_right _ _

end

/-! ## Closed views -/

/-- The view points to messages there are. -/
def ClosedView (m : Messages L V) (v : View L) : Prop := ∀ l, v l < (m l).length

/-- The views of all messages do, and every location has one. -/
structure Closed (m : Messages L V) : Prop where
  bot : ClosedView m ⊥
  view : ∀ l, ∀ x ∈ m l, ClosedView m x.view

section

variable {m : Messages L V} {o : MemOrder} {v w : View L} {l : L} {t : Nat} {x : V}

omit [DecidableEq L] in
theorem ClosedView.sup (h : ClosedView m v) (hw : ClosedView m w) : ClosedView m (v ⊔ w) :=
  fun l => Nat.max_lt.mpr ⟨h l, hw l⟩

omit [DecidableEq L] in
theorem ClosedView.acquired (h : ClosedView m v) (hw : ClosedView m w) :
    ClosedView m (acquired o v w) := by
  unfold Messages.acquired
  split
  · exact h.sup hw
  · exact h

theorem ClosedView.post (h : ClosedView m v) (l : L) (y : Message L V) :
    ClosedView (m.post l y) v := by
  intro k
  by_cases hk : k = l
  · subst hk
    rw [post_self, List.length_append, List.length_singleton]
    exact Nat.lt_succ_of_lt (h k)
  · rw [post_of_ne m y hk]
    exact h k

theorem ClosedView.see_post (h : ClosedView m v) (l : L) (y : Message L V) :
    ClosedView (m.post l y) (v.see l (m l).length) := by
  intro k
  by_cases hk : k = l
  · subst hk
    rw [post_self, View.see_self, List.length_append, List.length_singleton]
    exact Nat.max_lt.mpr ⟨Nat.lt_succ_of_lt (h k), Nat.lt_succ_self _⟩
  · rw [View.see_of_ne v _ hk]
    exact h.post l y k

/-- A write keeps memory closed if the view that goes with it is. -/
theorem Closed.post (h : Closed m) {y : Message L V} (hy : ClosedView (m.post l y) y.view) :
    Closed (m.post l y) := by
  refine ⟨h.bot.post l y, fun k z hz => ?_⟩
  by_cases hk : k = l
  · subst hk
    rw [post_self] at hz
    rcases List.mem_append.mp hz with hz | hz
    · exact (h.view k z hz).post k y
    · rw [List.mem_singleton.mp hz]
      exact hy
  · rw [post_of_ne m y hk] at hz
    exact (h.view k z hz).post l y

theorem Closed.load (h : Closed m) (hv : ClosedView m v) {r : V × View L}
    (e : m.load o v l t = some r) : ClosedView m r.2 := by
  unfold Messages.load at e
  split at e
  · obtain ⟨y, hy, rfl⟩ := Option.map_eq_some_iff.mp e
    have ha := hv.acquired (o := o) (h.view l y (List.mem_of_getElem? hy))
    intro k
    show View.see _ l t k < _
    by_cases hk : k = l
    · subst hk
      rw [View.see_self]
      exact Nat.max_lt.mpr ⟨ha k, (List.getElem?_eq_some_iff.mp hy).1⟩
    · rw [View.see_of_ne _ _ hk]
      exact ha k
  · cases e

theorem ClosedView.released (hv : ClosedView m v) (hn : ClosedView m ⊥)
    (y : Message L V) : ClosedView (m.post l y) (m.released o v l) := by
  unfold Messages.released
  split
  · exact hv.see_post l y
  · exact hn.see_post l y

theorem ClosedView.store (hw : ClosedView m w) (o : MemOrder) (v : View L) (l : L) (x : V) :
    ClosedView (m.store o v l x).1 w := hw.post l _

theorem ClosedView.exchange (hw : ClosedView m w) {r : Messages L V × View L}
    (e : m.exchange o v l x = some r) : ClosedView r.1 w := by
  obtain ⟨y, hy, rfl⟩ := Option.map_eq_some_iff.mp e
  exact hw.post l _

theorem Closed.store (h : Closed m) (hv : ClosedView m v) :
    Closed (m.store o v l x).1 ∧ ClosedView (m.store o v l x).1 (m.store o v l x).2 :=
  ⟨h.post (hv.released h.bot _), hv.see_post l _⟩

theorem Closed.exchange (h : Closed m) (hv : ClosedView m v) {r : Messages L V × View L}
    (e : m.exchange o v l x = some r) : Closed r.1 ∧ ClosedView r.1 r.2 := by
  obtain ⟨y, hy, rfl⟩ := Option.map_eq_some_iff.mp e
  have hyv := h.view l y (List.mem_of_getLast? hy)
  have ha := hv.acquired (o := o) hyv
  exact ⟨h.post ((ha.released h.bot _).sup (hyv.post l _)), ha.see_post l _⟩

/-- **A load is always possible.** -/
theorem ClosedView.exists_load (hv : ClosedView m v) (o : MemOrder) (l : L) :
    ∃ t r, m.load o v l t = some r := by
  refine ⟨v l, ?_⟩
  rw [Messages.load, if_pos (Nat.le_refl _), List.getElem?_eq_getElem (hv l)]
  exact ⟨_, rfl⟩

end

end Messages

end Base
