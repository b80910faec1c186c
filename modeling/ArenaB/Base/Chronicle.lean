/-
  File:      ArenaB/Base/Chronicle.lean
  Subject:   A ledger together with everything that ever happened to it.

  A `Ledger` says which entries are live; why an entry is not live any more it has forgotten. A
  `Chronicle` keeps the list of all events, oldest first, and in the ledger the position at which
  each live entry was recorded and each valid mark was taken. Its fields tie the two together:

  * `live` -- an entry is live exactly if no later event rewound to an earlier mark, and none
    cleared the ledger;
  * `before`, `after` -- the places of entries and marks in the ledger agree with their times.
-/
import ArenaB.Base.Ledger

namespace Base

universe u v

/-- What can happen to a ledger; a rewind names the time at which its mark was taken. -/
inductive Event (α : Type u) where
  | record (a : α)
  | mark
  | rewind (since : Nat)
  | clear

/-- The entry an event records. -/
def Event.entry? {α : Type u} : Event α → Option α
  | .record a => some a
  | _ => none

theorem Event.eq_record {α : Type u} {e : Event α} {a : α} (h : e.entry? = some a) :
    e = .record a := by
  cases e with
  | record b =>
      cases h
      rfl
  | mark => cases h
  | rewind since => cases h
  | clear => cases h

/-- The time of the mark an event rewinds to. -/
def Event.since? {α : Type u} : Event α → Option Nat
  | .rewind since => some since
  | _ => none

/-- After time `t` there was a rewind to a mark taken before it. -/
def Undone {α : Type u} (es : List (Event α)) (t : Nat) : Prop :=
  ∃ u since, t < u ∧ es[u]? = some (.rewind since) ∧ since < t

instance {α : Type u} (es : List (Event α)) (t : Nat) : Decidable (Undone es t) := by
  refine decidable_of_iff (∃ u < es.length, t < u ∧ ∃ since ∈ es[u]?.bind Event.since?, since < t)
    ⟨fun h => ?_, fun h => ?_⟩
  · obtain ⟨u, _, htu, since, hs, hlt⟩ := h
    obtain ⟨e, he, hs⟩ := Option.bind_eq_some_iff.mp hs
    cases e with
    | rewind since' =>
        cases hs
        exact ⟨u, since, htu, he, hlt⟩
    | record a => cases hs
    | mark => cases hs
    | clear => cases hs
  · obtain ⟨u, since, htu, hu, hlt⟩ := h
    exact ⟨u, (List.getElem?_eq_some_iff.mp hu).1, htu, since, by rw [hu]; rfl, hlt⟩

/-- The ledger was cleared after time `t`. -/
def Cleared {α : Type u} (es : List (Event α)) (t : Nat) : Prop :=
  ∃ u, t < u ∧ es[u]? = some .clear

section Append

variable {α : Type u} {es : List (Event α)} {e : Event α} {t : Nat}

theorem undone_append : Undone (es ++ [e]) t ↔
    Undone es t ∨ t < es.length ∧ ∃ since, e = .rewind since ∧ since < t := by
  constructor
  · intro h
    obtain ⟨u, since, htu, hu, hs⟩ := h
    rcases getElem?_concat_iff.mp hu with hu | ⟨rfl, he⟩
    · exact Or.inl ⟨u, since, htu, hu, hs⟩
    · exact Or.inr ⟨htu, since, he.symm, hs⟩
  · intro h
    rcases h with ⟨u, since, htu, hu, hs⟩ | ⟨ht, since, rfl, hs⟩
    · exact ⟨u, since, htu, getElem?_concat_iff.mpr (Or.inl hu), hs⟩
    · exact ⟨es.length, since, ht, getElem?_concat_iff.mpr (Or.inr ⟨rfl, rfl⟩), hs⟩

theorem cleared_append : Cleared (es ++ [e]) t ↔ Cleared es t ∨ t < es.length ∧ e = .clear := by
  constructor
  · intro h
    obtain ⟨u, htu, hu⟩ := h
    rcases getElem?_concat_iff.mp hu with hu | ⟨rfl, he⟩
    · exact Or.inl ⟨u, htu, hu⟩
    · exact Or.inr ⟨htu, he.symm⟩
  · intro h
    rcases h with ⟨u, htu, hu⟩ | ⟨ht, rfl⟩
    · exact ⟨u, htu, getElem?_concat_iff.mpr (Or.inl hu)⟩
    · exact ⟨es.length, ht, getElem?_concat_iff.mpr (Or.inr ⟨rfl, rfl⟩)⟩

/-- Only a rewind undoes anything. -/
theorem undone_append_iff (he : e.since? = none) : Undone (es ++ [e]) t ↔ Undone es t := by
  refine undone_append.trans ⟨fun h => ?_, Or.inl⟩
  rcases h with h | ⟨_, since, rfl, _⟩
  · exact h
  · cases he

theorem cleared_append_iff (he : e ≠ .clear) : Cleared (es ++ [e]) t ↔ Cleared es t := by
  refine cleared_append.trans ⟨fun h => ?_, Or.inl⟩
  rcases h with h | ⟨_, h⟩
  · exact h
  · exact absurd h he

/-- What happened after time `t` happened before the end. -/
theorem Undone.lt (h : Undone es t) : t < es.length := by
  obtain ⟨u, _, htu, hu, _⟩ := h
  exact Nat.lt_trans htu (List.getElem?_eq_some_iff.mp hu).1

theorem Cleared.lt (h : Cleared es t) : t < es.length := by
  obtain ⟨u, htu, hu⟩ := h
  exact Nat.lt_trans htu (List.getElem?_eq_some_iff.mp hu).1

end Append

/-- All events, and the ledger they left, with times. -/
structure Chronicle (α : Type u) (κ : Type v) where
  events : List (Event α)
  ledger : Ledger (α × Nat) (κ × Nat)
  live : ∀ x, x ∈ ledger.log ↔
    events[x.2]? = some (.record x.1) ∧ ¬ Undone events x.2 ∧ ¬ Cleared events x.2
  taken : ∀ m ∈ ledger.marks, m.1.2 < events.length
  before : ledger.Covered fun m x => x.2 < m.2
  after : ledger.Ahead fun m x => m.2 < x.2

namespace Chronicle

variable {α : Type u} {κ : Type v}

/-- Nothing happened yet. -/
def empty : Chronicle α κ where
  events := []
  ledger := .empty
  live x := by simp [Ledger.empty]
  taken _ h := by cases h
  before := Ledger.covered_empty
  after := Ledger.ahead_empty

/-- All entries ever recorded, oldest first. -/
def entries (c : Chronicle α κ) : List α := c.events.filterMap Event.entry?

theorem mem_entries {c : Chronicle α κ} {a : α} :
    a ∈ c.entries ↔ ∃ t : Nat, c.events[t]? = some (.record a) := by
  unfold entries
  rw [List.mem_filterMap]
  constructor
  · intro h
    obtain ⟨e, he, ha⟩ := h
    obtain ⟨t, ht⟩ := List.mem_iff_getElem?.mp he
    exact ⟨t, Event.eq_record ha ▸ ht⟩
  · intro h
    obtain ⟨t, ht⟩ := h
    exact ⟨_, List.mem_of_getElem? ht, rfl⟩

/-- The times of the live entries lie in the past. -/
theorem lt_of_live (c : Chronicle α κ) {x : α × Nat} (h : x ∈ c.ledger.log) :
    x.2 < c.events.length :=
  (List.getElem?_eq_some_iff.mp ((c.live x).mp h).1).1

/-- One more live entry. -/
def record (c : Chronicle α κ) (a : α) : Chronicle α κ where
  events := c.events ++ [.record a]
  ledger := c.ledger.record (a, c.events.length)
  live x := by
    show x ∈ c.ledger.log ++ [(a, c.events.length)] ↔ _
    rw [List.mem_append, List.mem_singleton, c.live, getElem?_concat_iff, undone_append_iff rfl,
      cleared_append_iff (by simp)]
    constructor
    · intro h
      rcases h with ⟨h1, h2, h3⟩ | rfl
      · exact ⟨Or.inl h1, h2, h3⟩
      · exact ⟨Or.inr ⟨rfl, rfl⟩, fun h => Nat.lt_irrefl _ h.lt, fun h => Nat.lt_irrefl _ h.lt⟩
    · intro h
      obtain ⟨h1, h2, h3⟩ := h
      rcases h1 with h1 | ⟨h1, h1'⟩
      · exact Or.inl ⟨h1, h2, h3⟩
      · cases h1'
        exact Or.inr (Prod.ext rfl h1)
  taken m hm := Nat.lt_of_lt_of_le (c.taken m hm) (by simp)
  before := c.before.record _
  after := c.after.record fun m hm => c.taken m hm

/-- A mark, taken now. -/
def mark (c : Chronicle α κ) (k : κ) : Chronicle α κ where
  events := c.events ++ [.mark]
  ledger := c.ledger.mark (k, c.events.length)
  live x := by
    show x ∈ c.ledger.log ↔ _
    rw [c.live, getElem?_concat_iff, undone_append_iff rfl, cleared_append_iff (by simp)]
    simp
  taken m hm := by
    rw [List.length_append, List.length_singleton]
    rcases List.mem_append.mp hm with hm | hm
    · exact Nat.lt_succ_of_lt (c.taken m hm)
    · rw [List.mem_singleton.mp hm]
      exact Nat.lt_succ_self _
  before := c.before.mark fun _ h => c.lt_of_live h
  after := c.after.mark _

/-- A rewind to the `i`th valid mark; without such a mark nothing happens. -/
def rewind (c : Chronicle α κ) (i : Nat) : Chronicle α κ :=
  match h : c.ledger.marks[i]? with
  | none => c
  | some m => {
      events := c.events ++ [.rewind m.1.2]
      ledger := c.ledger.rewind i
      live := by
        intro x
        rw [getElem?_concat_iff, undone_append, cleared_append_iff (by simp)]
        constructor
        · intro hx
          -- a kept entry was recorded before the mark
          have hlt : x.2 < m.1.2 := c.before.kept h x hx
          obtain ⟨h1, h2, h3⟩ := (c.live x).mp (List.mem_of_mem_take hx)
          refine ⟨Or.inl h1, fun hu => ?_, h3⟩
          rcases hu with hu | ⟨_, since, he, hs⟩
          · exact h2 hu
          · cases he
            omega
        · intro h'
          obtain ⟨h1, h2, h3⟩ := h'
          have h1' : c.events[x.2]? = some (.record x.1) := by
            rcases h1 with h1 | ⟨_, he⟩
            · exact h1
            · cases he
          have hx : x ∈ c.ledger.log :=
            (c.live x).mpr ⟨h1', fun hu => h2 (Or.inl hu), h3⟩
          -- an entry that is dropped was recorded after it
          by_contra hd
          exact h2 (Or.inr ⟨c.lt_of_live hx, _, rfl, c.after.dropped h hx hd⟩)
      taken := fun k hk => Nat.lt_of_lt_of_le (c.taken k (List.mem_of_mem_take hk)) (by simp)
      before := c.before.rewind i
      after := c.after.rewind i }

/-- Everything is forgotten. -/
def clear (c : Chronicle α κ) : Chronicle α κ where
  events := c.events ++ [.clear]
  ledger := .empty
  live x := by
    show x ∈ ([] : List (α × Nat)) ↔ _
    rw [getElem?_concat_iff, cleared_append]
    constructor
    · intro h
      cases h
    · intro h
      obtain ⟨h1, _, h3⟩ := h
      rcases h1 with h1 | ⟨_, he⟩
      · exact absurd (Or.inr ⟨(List.getElem?_eq_some_iff.mp h1).1, rfl⟩) h3
      · cases he
  taken _ h := by cases h
  before := Ledger.covered_empty
  after := Ledger.ahead_empty

@[simp] theorem entries_record (c : Chronicle α κ) (a : α) :
    (c.record a).entries = c.entries ++ [a] := List.filterMap_append

/-- An event that records nothing. -/
theorem filterMap_entry?_append (es : List (Event α)) {e : Event α} (he : e.entry? = none) :
    (es ++ [e]).filterMap Event.entry? = es.filterMap Event.entry? := by
  rw [List.filterMap_append, List.filterMap_cons_none he]
  exact List.append_nil _

@[simp] theorem entries_mark (c : Chronicle α κ) (k : κ) : (c.mark k).entries = c.entries :=
  filterMap_entry?_append _ rfl

@[simp] theorem entries_clear (c : Chronicle α κ) : c.clear.entries = c.entries :=
  filterMap_entry?_append _ rfl

theorem rewind_eq {c : Chronicle α κ} {i : Nat} {m : (κ × Nat) × Nat}
    (h : c.ledger.marks[i]? = some m) : (c.rewind i).events = c.events ++ [.rewind m.1.2] ∧
      (c.rewind i).ledger = c.ledger.rewind i := by
  unfold rewind
  split
  · next h' =>
    rw [h] at h'
    cases h'
  · next m' h' =>
    rw [h] at h'
    cases h'
    exact ⟨rfl, rfl⟩

@[simp] theorem entries_rewind (c : Chronicle α κ) (i : Nat) :
    (c.rewind i).entries = c.entries := by
  cases h : c.ledger.marks[i]? with
  | none =>
      unfold rewind
      split
      · rfl
      · next h' =>
        rw [h] at h'
        cases h'
  | some m =>
      rw [entries, (rewind_eq h).1]
      exact filterMap_entry?_append _ rfl

/-- A live entry is one of the entries. -/
theorem mem_entries_of_live {c : Chronicle α κ} {x : α × Nat} (h : x ∈ c.ledger.log) :
    x.1 ∈ c.entries :=
  mem_entries.mpr ⟨x.2, ((c.live x).mp h).1⟩

end Chronicle

end Base
