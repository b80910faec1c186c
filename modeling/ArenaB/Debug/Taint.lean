/-
  File:      ArenaB/Debug/Taint.lean
  Subject:   A single arena under the debug feature: tainted guards and undone references.

  A rewind taints the records whose checkpoint id is above that of its target, while the id
  counter moves back with every rewind and ids are handed out again. That the comparison is right
  rests on the live references alone: for these and the valid checkpoints, ids compare as times do
  (`Nested`, **`id_lt_iff`**). Records of undone references may compare either way; they are
  tainted already.

  * `Guarded` -- every byte of the guard in front of a reference, at any time of the run: the
    first one is 0 from the rewind on that undid the reference, all else is the pattern;
  * **`taint_exact`** -- tainted exactly if undone;
  * **`verdict_under_id`** -- what `validate_allocation` says when it is asked under the right key:
    it reads its guard record across the guard and into the user's data, so it accepts a live
    reference exactly if the first 24 bytes of the data spell the rest of a guard.
-/
import ArenaB.Debug.Keys

namespace ArenaB

open Base

namespace DebugArena

variable {d d' : DebugArena} {p p' : Process} {guard : Option Nat} {op : Op}
  {fresh : Span → Prop}

/-! ## 1. Ids and times -/

/-- The checkpoint ids of the live references and of the valid checkpoints, and the one recorded
    in the registry. -/
structure Nested (p : Process) (d : DebugArena) : Prop where
  before : d.chronicle.ledger.Covered fun m x => x.1.checkpointId ≤ m.1.checkpointId
  after : d.chronicle.ledger.Ahead fun m x => m.1.checkpointId < x.1.checkpointId
  current : ∀ x ∈ d.chronicle.ledger.log, x.1.checkpointId ≤ d.inner.currentCheckpointId
  recorded : ∀ x ∈ d.chronicle.ledger.log, x.1.registered ≠ 0 →
    ∃ c, p.state.recorded d.arenaId = some c ∧ x.1.checkpointId ≤ c

theorem Nested.take (h : d.Nested p) (hs : StackOk d.inner d.cps) {sys : Option Nat} {l : Layout}
    {g : Grant} (hg : Granted d p sys guard l g) (m : Mem) :
    (d.took g).Nested (g.process.withMem m) := by
  have hnext : g.inner.currentCheckpointId = d.inner.currentCheckpointId := hg.grows.nextId
  refine ⟨h.before.record _, h.after.record fun k hk => ?_, fun x hx => ?_, fun x hx hreg => ?_⟩
  · -- every valid checkpoint has an id below the counter
    show k.1.1.checkpointId < g.ref.checkpointId
    rw [hg.checkpointId]
    exact hs.below k.1.1 (List.mem_map_of_mem (f := fun m => m.1.1) hk)
  · show x.1.checkpointId ≤ g.inner.currentCheckpointId
    rw [hnext]
    rcases List.mem_append.mp hx with hx | hx
    · exact h.current x hx
    · rw [List.mem_singleton.mp hx]
      exact Nat.le_of_eq hg.checkpointId
  · show ∃ c, g.process.state.recorded d.arenaId = some c ∧ x.1.checkpointId ≤ c
    rw [hg.admits.recorded]
    by_cases hn : g.ref.registered = 0
    · rw [if_neg (fun hc => hc.2 hn)]
      rcases List.mem_append.mp hx with hx | hx
      · exact h.recorded x hx hreg
      · rw [List.mem_singleton.mp hx] at hreg
        exact absurd hn hreg
    · rw [if_pos ⟨rfl, hn⟩]
      refine ⟨_, rfl, ?_⟩
      rw [hg.checkpointId]
      rcases List.mem_append.mp hx with hx | hx
      · exact h.current x hx
      · rw [List.mem_singleton.mp hx]
        exact Nat.le_of_eq hg.checkpointId

theorem Nested.mark (h : d.Nested p) {cp : ArenaCheckpoint} {a a' : ArenaInner}
    (hs : d.inner.Shape) (e : d.inner.checkpoint = some (cp, a))
    (ha : a'.currentCheckpointId = a.currentCheckpointId) : (d.marked cp a').Nested p := by
  rw [ArenaInner.checkpoint_eq hs] at e
  cases e
  refine ⟨h.before.mark h.current, h.after.mark _, fun x hx => ?_, h.recorded⟩
  show x.1.checkpointId ≤ a'.currentCheckpointId
  rw [ha]
  exact Nat.le_succ_of_le (h.current x hx)

theorem Nested.rewind (h : d.Nested p) {i : Nat} {m : (ArenaCheckpoint × Nat) × Nat}
    {a' : ArenaInner} (hm : d.chronicle.ledger.marks[i]? = some m)
    (ha : a'.currentCheckpointId = m.1.1.checkpointId + 1) :
    (d.rewound i a').Nested (p.rewindToCheckpoint m.1.1.checkpointId) := by
  have hl : (d.rewound i a').chronicle.ledger = d.chronicle.ledger.rewind i :=
    (Chronicle.rewind_eq hm).2
  have hkept : ∀ x ∈ (d.chronicle.ledger.rewind i).log, x.1.checkpointId ≤ m.1.1.checkpointId :=
    h.before.kept hm
  refine ⟨hl ▸ h.before.rewind i, hl ▸ h.after.rewind i, fun x hx => ?_, fun x hx hreg => ?_⟩
  · rw [hl] at hx
    show x.1.checkpointId ≤ a'.currentCheckpointId
    rw [ha]
    exact Nat.le_succ_of_le (hkept x hx)
  · rw [hl] at hx
    obtain ⟨c, hc, _⟩ := h.recorded x (List.mem_of_mem_take hx) hreg
    refine ⟨m.1.1.checkpointId, ?_, hkept x hx⟩
    show (p.rewindToCheckpoint _).state.recorded d.arenaId = _
    rw [Process.rewind_recorded, hc]
    rfl

/-- **One call keeps the ids nested.** -/
theorem Turn.nested (ht : Turn fresh guard op d p d' p') (hop : op.isReset = false)
    (hs : StackOk d.inner d.cps) (h : d.Nested p) : d'.Nested p' := by
  cases ht with
  | idle => exact h
  | take _ _ hg _ => exact h.take hs hg _
  | write _ _ => exact ⟨h.before, h.after, h.current, h.recorded⟩
  | mark e ha =>
      refine h.mark hs.shape e ?_
      rcases ha with rfl | rfl <;> rfl
  | rewind hm _ e _ =>
      refine h.rewind hm ?_
      obtain ⟨_, rfl⟩ := ArenaInner.rewind_eq_some.mp e
      rfl
  | clear => exact ⟨h.before, h.after, h.current, h.recorded⟩
  | forget hreset _ _ _ _ =>
      rw [hop] at hreset
      cases hreset

/-- **Ids compare as times do**, between the valid checkpoints and the live references. -/
theorem Nested.id_lt_iff (h : d.Nested p) {m : (ArenaCheckpoint × Nat) × Nat}
    (hm : m ∈ d.chronicle.ledger.marks) {x : Ref × Nat} (hx : x ∈ d.chronicle.ledger.log) :
    m.1.1.checkpointId < x.1.checkpointId ↔ m.1.2 < x.2 := by
  rw [← List.take_append_drop m.2 d.chronicle.ledger.log] at hx
  rcases List.mem_append.mp hx with hx | hx
  · have h1 : x.1.checkpointId ≤ m.1.1.checkpointId := h.before m hm x hx
    have h2 : x.2 < m.1.2 := d.chronicle.before m hm x hx
    omega
  · have h1 : m.1.1.checkpointId < x.1.checkpointId := h.after m hm x hx
    have h2 : m.1.2 < x.2 := d.chronicle.after m hm x hx
    omega

/-! ## 2. Where references lie -/

/-- Nothing was cleared, and a reference without a guard lies in a chunk. -/
structure Rooted (d : DebugArena) : Prop where
  kept : ∀ t, ¬ Cleared d.chronicle.events t
  raw : ∀ r ∈ d.chronicle.entries, r.block = none → r.size ≠ 0 →
    ∃ s ∈ d.inner.spans, r.data.Inside s

theorem Turn.rooted (ht : Turn fresh guard op d p d' p') (hop : op.isReset = false)
    (h : d.Rooted) : d'.Rooted := by
  cases ht with
  | idle => exact h
  | @take sys l g bs _ _ hg _ =>
      refine ⟨fun t => (cleared_append_iff (by simp)).not.mpr (h.kept t),
        fun r hr hb hsize => ?_⟩
      rw [took, Chronicle.entries_record] at hr
      rcases List.mem_append.mp hr with hr | hr
      · obtain ⟨s, hs, hin⟩ := h.raw r hr hb hsize
        refine ⟨s, ?_, hin⟩
        show s ∈ g.inner.spans
        rcases hg.spans with e | ⟨_, _, e⟩
        · rwa [e]
        · rw [e]
          exact List.mem_append_left _ hs
      · rw [List.mem_singleton.mp hr] at hb hsize ⊢
        exact hg.raw hb hsize
  | write _ _ => exact h
  | mark e ha =>
      refine ⟨fun t => (cleared_append_iff (by simp)).not.mpr (h.kept t),
        fun r hr hb hsize => ?_⟩
      rw [marked, Chronicle.entries_mark] at hr
      rw [marked, mark_spans e ha]
      exact h.raw r hr hb hsize
  | rewind hm _ e _ =>
      refine ⟨fun t => ?_, fun r hr hb hsize => ?_⟩
      · rw [rewound, (Chronicle.rewind_eq hm).1]
        exact (cleared_append_iff (by simp)).not.mpr (h.kept t)
      · rw [rewound, Chronicle.entries_rewind] at hr
        rw [rewound, rewind_spans e]
        exact h.raw r hr hb hsize
  | clear => exact ⟨h.kept, h.raw⟩
  | forget hreset _ _ _ _ =>
      rw [hop] at hreset
      cases hreset

/-- The guard blocks of two references are apart. -/
theorem Good.guards_apart (h : d.Good p) {r r' : Ref} (hr : r ∈ d.chronicle.entries)
    (hr' : r' ∈ d.chronicle.entries) (hne : r ≠ r') {b b' : Nat} (hb : r.block = some b)
    (hb' : r'.block = some b') :
    Span.Apart ⟨b, guardedSize r.size⟩ ⟨b', guardedSize r'.size⟩ := by
  obtain ⟨i, hi⟩ := List.mem_iff_getElem?.mp hr
  obtain ⟨j, hj⟩ := List.mem_iff_getElem?.mp hr'
  have hij : i ≠ j := by
    intro e
    rw [e, hj] at hi
    cases hi
    exact hne rfl
  exact pairwise_getElem?_ne (fun x y hxy s hs t ht => (hxy t ht s hs).symm)
    (List.pairwise_filterMap.mp h.single) hij hi hj _ (Ref.span_eq_some.mpr ⟨b, hb, rfl⟩) _
    (Ref.span_eq_some.mpr ⟨b', hb', rfl⟩)

/-- An address in the guard of one reference is not where another begins. -/
theorem Good.ptr_eq (h : d.Good p) (hraw : d.Rooted) {r r' : Ref} (hr : r ∈ d.chronicle.entries)
    (hr' : r' ∈ d.chronicle.entries) (hsize : r'.size ≠ 0) {b i : Nat} (hb : r.block = some b)
    (hi : i < guardSize) (hptr : r'.ptr - guardSize = b + debugGuardSize + i) :
    i = 0 ∧ r' = r := by
  simp only [guardSize, debugGuardSize] at hi hptr
  have hin : Span.Has ⟨b, guardedSize r.size⟩ r'.ptr := by
    simp only [Span.Has, Span.fin, guardedSize, guardSize, debugGuardSize]
    omega
  cases hb' : r'.block with
  | none =>
      obtain ⟨s, hs, hd⟩ := hraw.raw r' hr' hb' hsize
      have hmem := (h.owned r hr b hb).2.2
      have hs' : s.Has r'.ptr := hd.has ⟨Nat.le_refl _, Nat.lt_add_of_pos_right
        (Nat.pos_of_ne_zero hsize)⟩
      exact absurd hin (Span.apart_iff.mp (h.apart s hs _ hmem) _ hs')
  | some b' =>
      have hp := (h.owned r' hr' b' hb').2.1
      simp only [guardSize, debugGuardSize] at hp
      have heq : r' = r := by
        by_contra hne
        have hap := h.guards_apart hr' hr hne hb' hb
        refine Span.apart_iff.mp hap r'.ptr ?_ hin
        simp only [Span.Has, Span.fin, guardedSize, guardSize, debugGuardSize]
        omega
      subst heq
      rw [hb] at hb'
      cases hb'
      exact ⟨by omega, rfl⟩

/-! ## 3. The guard bytes -/

/-- The guards in memory: the first byte of one is 0 if its reference was undone, all else is the
    pattern. -/
def Guarded (p : Process) (d : DebugArena) : Prop :=
  ∀ (t : Nat) (r : Ref) (b : Nat), d.chronicle.events[t]? = some (.record r) →
    r.block = some b → ∀ i < guardSize, p.mem (b + debugGuardSize + i) =
      if i = 0 ∧ Undone d.chronicle.events t then 0 else guardByte i

/-- Writes outside a guard leave it alone. -/
theorem Guarded.frame (h : d.Guarded p)
    (hmem : ∀ (t : Nat) (r : Ref) (b : Nat), d.chronicle.events[t]? = some (.record r) →
      r.block = some b → ∀ i < guardSize, p'.mem (b + debugGuardSize + i) =
        p.mem (b + debugGuardSize + i))
    (hev : d'.chronicle.events = d.chronicle.events) : d'.Guarded p' := by
  intro t r b ht hb i hi
  rw [hev] at ht ⊢
  rw [hmem t r b ht hb i hi]
  exact h t r b ht hb i hi

/-- An event that records nothing and rewinds nothing. -/
theorem Guarded.idle (h : d.Guarded p) {e : Event Ref} (he : e.entry? = none)
    (he' : e.since? = none) (hev : d'.chronicle.events = d.chronicle.events ++ [e]) :
    d'.Guarded p := by
  intro t r b ht hb i hi
  rw [hev] at ht ⊢
  rcases getElem?_concat_iff.mp ht with ht | ⟨_, e'⟩
  · rw [h t r b ht hb i hi]
    exact if_congr (and_congr_right fun _ => (undone_append_iff he').symm) rfl rfl
  · subst e'
    cases he

/-- The place of a new reference is apart from all guard blocks before it. -/
theorem Granted.place_apart {sys : Option Nat} {l : Layout} {g : Grant}
    (hg : Granted d p sys guard l g) (hr : Ready fresh sys guard l.size)
    (hf : ∀ s, fresh s → ∀ t ∈ p.guards, t.Apart s)
    (hapart : ∀ t ∈ g.inner.spans, ∀ s ∈ p.guards, t.Apart s) {s : Span} (hs : s ∈ p.guards) :
    s.Apart g.ref.place := by
  unfold Ref.place
  cases hsp : g.ref.span with
  | some u => exact hf u (hg.fresh hr hsp) s hs
  | none =>
      have hb : g.ref.block = none := Option.map_eq_none_iff.mp hsp
      by_cases hsize : g.ref.size = 0
      · exact Or.inr (Or.inl hsize)
      · obtain ⟨c, hc, hin⟩ := hg.raw hb hsize
        exact ((hapart c hc s hs).mono hin (Span.Inside.refl s)).symm

theorem Guarded.take (h : d.Guarded p) (hgood : d.Good p) {sys : Option Nat} {l : Layout}
    {g : Grant} {bs : List UInt8} (hg : Granted d p sys guard l g)
    (hr : Ready fresh sys guard l.size) (hbs : bs.length ≤ l.size)
    (hf : ∀ s, fresh s → ∀ t ∈ p.guards, t.Apart s)
    (hapart : ∀ t ∈ g.inner.spans, ∀ s ∈ p.guards, t.Apart s) :
    (d.took g).Guarded (g.process.withMem (g.process.mem.write g.ref.ptr bs)) := by
  have hadm := hg.admits.write bs (by rw [hg.size]; exact hbs)
  intro t r b ht hb i hi
  have hu : ∀ {t}, Undone (d.took g).chronicle.events t ↔ Undone d.chronicle.events t :=
    undone_append_iff rfl
  rcases getElem?_concat_iff.mp ht with ht | ⟨rfl, e⟩
  · have hmem := (hgood.owned r (Chronicle.mem_entries.mpr ⟨t, ht⟩) b hb).2.2
    have hagree := hadm.agree _ (hg.place_apart hr hf hapart hmem)
    rw [hagree _ (guardBlock_has hi), h t r b ht hb i hi]
    exact if_congr (and_congr_right fun _ => hu.symm) rfl rfl
  · cases e
    rw [if_neg]
    · exact (hadm.guard b hb).2 i hi
    · intro hc
      exact Nat.lt_irrefl _ (hu.mp hc.2).lt

theorem Guarded.write (h : d.Guarded p) (hgood : d.Good p) (hraw : d.Rooted) {x : Ref × Nat}
    (hx : x ∈ d.chronicle.ledger.log) {j : Nat} (hj : j < x.1.size) (c : UInt8) :
    d.Guarded (p.withMem (p.mem.write (x.1.ptr + j) [c])) := by
  refine h.frame (fun t r b ht hb i hi => ?_) rfl
  have hr := Chronicle.mem_entries.mpr ⟨t, ht⟩
  have hxe := Chronicle.mem_entries_of_live hx
  refine if_neg ?_
  -- the byte written lies in the data of `x`, which meets no guard
  intro hc
  have heq : x.1.ptr + j = b + debugGuardSize + i := by
    simp only [List.length_singleton] at hc
    omega
  simp only [guardSize, debugGuardSize] at hi heq
  have hin : Span.Has ⟨b, guardedSize r.size⟩ (x.1.ptr + j) := by
    simp only [Span.Has, Span.fin, guardedSize, guardSize, debugGuardSize]
    omega
  cases hb' : x.1.block with
  | none =>
      obtain ⟨s, hs, hd⟩ := hraw.raw x.1 hxe hb' (by omega)
      have hs' : s.Has (x.1.ptr + j) := hd.has ⟨Nat.le_add_right _ _, Nat.add_lt_add_left hj _⟩
      exact Span.apart_iff.mp (hgood.apart s hs _ (hgood.owned r hr b hb).2.2) _ hs' hin
  | some b' =>
      have hp := (hgood.owned x.1 hxe b' hb').2.1
      simp only [guardSize, debugGuardSize] at hp
      by_cases hne : x.1 = r
      · rw [hne, hb] at hb'
        cases hb'
        omega
      · refine Span.apart_iff.mp (hgood.guards_apart hxe hr hne hb' hb) _ ?_ hin
        simp only [Span.Has, Span.fin, guardedSize, guardSize, debugGuardSize]
        omega

/-- The records of a process with a single arena. -/
def Sole (p : Process) (d : DebugArena) : Prop := ∀ k, k ≠ d.arenaId → p.state.records k = []

theorem Sole.eq_arenaId (h : d.Sole p) {k : Nat} {info : AllocationInfo}
    (hi : info ∈ p.state.records k) : k = d.arenaId := by
  by_contra hk
  rw [h k hk] at hi
  cases hi

theorem Guarded.rewind (h : d.Guarded p) (hgood : d.Good p) (hraw : d.Rooted) (hn : d.Nested p)
    (hsole : d.Sole p) (hrec : p.state.recorded d.arenaId = none ↔ p.state.records d.arenaId = [])
    {i : Nat} {m : (ArenaCheckpoint × Nat) × Nat} {a' : ArenaInner}
    (hm : d.chronicle.ledger.marks[i]? = some m) :
    (d.rewound i a').Guarded (p.rewindToCheckpoint m.1.1.checkpointId) := by
  intro t r b ht hb j hj
  have hev : (d.rewound i a').chronicle.events = d.chronicle.events ++ [.rewind m.1.2] :=
    (Chronicle.rewind_eq hm).1
  rw [hev] at ht ⊢
  rcases getElem?_concat_iff.mp ht with ht | ⟨_, e⟩
  swap
  · cases e
  have hr := Chronicle.mem_entries.mpr ⟨t, ht⟩
  have hold := h t r b ht hb j hj
  -- only a record of this very reference touches its guard, and only the first byte
  have hother : ¬ (j = 0 ∧ m.1.1.checkpointId < r.checkpointId) →
      (p.rewindToCheckpoint m.1.1.checkpointId).mem (b + debugGuardSize + j) =
        p.mem (b + debugGuardSize + j) := by
    intro hne
    refine Process.rewind_mem_other fun k info hi hc hptr => ?_
    obtain ⟨r', hr', hreg, rfl⟩ := hgood.of_record (hsole.eq_arenaId hi ▸ hi)
    obtain ⟨h0, rfl⟩ := hgood.ptr_eq hraw hr hr' (Ref.size_ne_zero hreg) hb hj hptr
    exact hne ⟨h0, hc⟩
  by_cases hj0 : j = 0
  swap
  · rw [hother fun hc => hj0 hc.1, hold, if_neg fun hc => hj0 hc.1, if_neg fun hc => hj0 hc.1]
  subst hj0
  have htaint : m.1.1.checkpointId < r.checkpointId →
      (p.rewindToCheckpoint m.1.1.checkpointId).mem (b + debugGuardSize + 0) = 0 :=
    hgood.tainted hrec hr hb
  by_cases hu : Undone d.chronicle.events t
  · -- undone before: tainted, and nothing writes anything else there
    rw [if_pos ⟨rfl, undone_append.mpr (Or.inl hu)⟩]
    rw [if_pos ⟨rfl, hu⟩] at hold
    by_cases hc : m.1.1.checkpointId < r.checkpointId
    · exact htaint hc
    · rw [hother fun h => hc h.2, hold]
  · -- live until now: the ids tell whether this rewind undoes it
    have hlive : (r, t) ∈ d.chronicle.ledger.log :=
      (d.chronicle.live (r, t)).mpr ⟨ht, hu, hraw.kept t⟩
    have hids := hn.id_lt_iff (List.mem_of_getElem? hm) hlive
    by_cases hc : m.1.1.checkpointId < r.checkpointId
    · rw [htaint hc, if_pos]
      exact ⟨rfl, undone_append.mpr (Or.inr ⟨d.chronicle.lt_of_live hlive, _, rfl, hids.mp hc⟩)⟩
    · rw [hother fun h => hc h.2, hold, if_neg fun h => hu h.2, if_neg]
      intro hun
      rcases undone_append.mp hun.2 with hun | ⟨_, since, e, hlt⟩
      · exact hu hun
      · cases e
        exact hc (hids.mpr hlt)

/-- **One call keeps the guards as they should be.** -/
theorem Turn.guarded (ht : Turn fresh guard op d p d' p') (hop : op.isReset = false)
    (h : d.Guarded p) (hgood : d.Good p) (hraw : d.Rooted) (hn : d.Nested p) (hsole : d.Sole p)
    (hrec : p.state.recorded d.arenaId = none ↔ p.state.records d.arenaId = [])
    (hf : ∀ g, fresh g → (∀ t ∈ p.guards, t.Apart g) ∧ ∀ t ∈ d.inner.spans, t.Apart g) :
    d'.Guarded p' := by
  have hapart := ht.apart hgood.apart hf
  obtain ⟨new, hnew, _⟩ := ht.leaves.1.guards
  cases ht with
  | idle => exact h
  | take _ hr hg hbs =>
      refine h.take hgood hg hr hbs (fun s hs => (hf s hs).1) fun t ht s hs => ?_
      exact hapart t ht s (by rw [hnew]; exact List.mem_append_right _ hs)
  | write hx hj => exact h.write hgood hraw hx hj _
  | mark _ _ => exact h.idle rfl rfl rfl
  | rewind hm _ _ _ => exact h.rewind hgood hraw hn hsole hrec hm
  | clear => exact h
  | forget hreset _ _ _ _ =>
      rw [hop] at hreset
      cases hreset

/-! ## 4. Runs -/

/-- All that is known about the only arena. -/
structure Traced (p : Process) (d : DebugArena) : Prop where
  nested : d.Nested p
  rooted : d.Rooted
  guarded : d.Guarded p

theorem traced_new {a : ArenaInner} {arenaId addr : Nat} (p : Process) :
    Traced p ⟨a, arenaId, addr, .empty⟩ :=
  ⟨⟨Ledger.covered_empty, Ledger.ahead_empty, (fun _ h => by cases h), (fun _ h => by cases h)⟩,
    ⟨fun _ h => Nat.not_lt_zero _ h.lt, (fun _ h => by cases h)⟩, fun _ _ _ h => by cases h⟩

theorem Turn.traced (ht : Turn fresh guard op d p d' p') (hop : op.isReset = false)
    (h : d.Traced p) (hgood : d.Good p) (hsole : d.Sole p)
    (hrec : p.state.recorded d.arenaId = none ↔ p.state.records d.arenaId = [])
    (hf : ∀ g, fresh g → (∀ t ∈ p.guards, t.Apart g) ∧ ∀ t ∈ d.inner.spans, t.Apart g) :
    d'.Traced p' :=
  ⟨ht.nested hop hgood.stack h.nested, ht.rooted hop h.rooted,
    ht.guarded hop h.guarded hgood h.rooted h.nested hsole hrec hf⟩

end DebugArena

open DebugArena

theorem World.Inv.sole {w : World} (h : w.Inv) {d : DebugArena} (hone : w.arenas = [d]) :
    d.Sole w.process := by
  intro k hk
  refine h.keys k fun e he => ?_
  rw [hone] at he
  rw [List.mem_singleton.mp he]
  exact hk.symm

theorem reach_traced {w : World} (h : oneArena.Reach w) : ∀ d ∈ w.arenas, d.Traced w.process := by
  refine h.inv' (P := fun w => ∀ d ∈ w.arenas, d.Traced w.process) (fun w hw => ?_)
    fun w op w' hr hw hok e => ?_
  · exact World.forall_of_init hw
  have hi := World.reach_inv hr.of_under
  cases World.exec_happens hi hok.1 e with
  | create _ _ _ =>
      have h1 : w.process.state.nextArenaId = 1 := hok.2
      rcases reach_lone hr with ⟨hnil, _⟩ | ⟨_, _, _, h2⟩
      · intro d hd
        rw [hnil] at hd
        rw [List.mem_singleton.mp hd]
        exact traced_new _
      · omega
  | @move k addr d hd _ =>
      have ht := hw d (List.mem_of_getElem? hd)
      refine forall_set hw ?_
      have hn := ht.nested
      exact ⟨⟨hn.before, hn.after, hn.current, hn.recorded⟩, ⟨ht.rooted.kept, ht.rooted.raw⟩,
        ht.guarded⟩
  | drop _ => exact hok.2.elim
  | @call k guard op d d' p' hd _ ht =>
      have hmem := List.mem_of_getElem? hd
      obtain ⟨hk, hone, _⟩ := (reach_lone hr).called hd
      refine forall_mem_set hd (ht.traced hok.2 (hw d hmem) (hi.good d hmem) (hi.sole hone)
        (hi.recorded _) fun g hg => ⟨hg.1, hg.2 d hmem⟩) fun j e hj he => ?_
      -- there is no other arena
      exact absurd (((reach_lone hr).called he).1.trans hk.symm) hj

/-! ## 5. What is tainted, and what is accepted -/

/-- **Tainted exactly if undone.** Every record in the registry is that of a reference; a reference
    with a guard is registered, and its first guard byte is tainted exactly if the arena was
    rewound, after it, to a checkpoint taken before it. The comparison of ids that decides this is
    right for every live reference, with a guard or not. -/
theorem taint_exact {w : World} (h : oneArena.Reach w) {d : DebugArena} (hd : d ∈ w.arenas) :
    (∀ info ∈ w.process.state.records d.arenaId, ∃ (t : Nat) (r : Ref),
      d.chronicle.events[t]? = some (.record r) ∧ info = ⟨r.ptr, r.size, r.checkpointId⟩) ∧
    (∀ (t : Nat) (r : Ref), d.chronicle.events[t]? = some (.record r) → r.block.isSome →
      ⟨r.ptr, r.size, r.checkpointId⟩ ∈ w.process.state.records d.arenaId ∧
      (w.process.mem (r.ptr - guardSize) = 0 ↔ Undone d.chronicle.events t) ∧
      (¬ Undone d.chronicle.events t → w.process.mem (r.ptr - guardSize) = guardByte 0)) ∧
    ∀ m ∈ d.chronicle.ledger.marks, ∀ x ∈ d.chronicle.ledger.log,
      (m.1.1.checkpointId < x.1.checkpointId ↔ m.1.2 < x.2) := by
  have ht := reach_traced h d hd
  have hgood := (World.reach_inv h.of_under).good d hd
  refine ⟨fun info hi => ?_, fun t r hev hb => ?_, fun m hm x hx => ht.nested.id_lt_iff hm hx⟩
  · obtain ⟨r, hr, _, hinfo⟩ := hgood.of_record hi
    obtain ⟨t, hev⟩ := Chronicle.mem_entries.mp hr
    exact ⟨t, r, hev, hinfo⟩
  · obtain ⟨b, hb⟩ := Option.isSome_iff_exists.mp hb
    have hr := Chronicle.mem_entries.mpr ⟨t, hev⟩
    refine ⟨hgood.mem_records hr hb, ?_⟩
    have hbyte := ht.guarded t r b hev hb 0 (by decide)
    have hptr : r.ptr - guardSize = b + debugGuardSize + 0 := hgood.ptr_sub hr hb
    rw [hptr, hbyte]
    by_cases hu : Undone d.chronicle.events t
    · simp [hu]
    · simp only [hu, and_false, if_false, iff_false, not_false_eq_true, true_imp_iff, and_true]
      decide

/-- A checkpoint, an allocation, a rewind to the checkpoint, and an allocation with the same
    checkpoint id: the first is tainted, the second is not. -/
theorem taint_exact_reused : ∃ w, oneArena.Reach w ∧ ∃ d ∈ w.arenas, ∃ (t u : Nat) (r r' : Ref),
    d.chronicle.events[t]? = some (.record r) ∧ d.chronicle.events[u]? = some (.record r') ∧
      r.checkpointId = r'.checkpointId ∧ Undone d.chronicle.events t ∧
      w.process.mem (r.ptr - guardSize) = 0 ∧ w.process.mem (r'.ptr - guardSize) = 0xBE := by
  obtain ⟨w, hr, d, hd, r, hr1, r', hr2, hb, hb', hid, hu, hu'⟩ :=
    System.exists_reach_of_replay oneArena
    (inOneArena [.call 0 none .checkpoint, .call 0 (some 16384) (.allocateRaw none .word),
      .call 0 none (.rewindToCheckpoint 0), .call 0 (some 32768) (.allocateRaw none .word)])
    World.init_start
    (P := fun w => ∃ d ∈ w.arenas, ∃ r ∈ d.chronicle.events[1]?.bind Event.entry?,
      ∃ r' ∈ d.chronicle.events[3]?.bind Event.entry?, r.block.isSome ∧ r'.block.isSome ∧
        r.checkpointId = r'.checkpointId ∧ Undone d.chronicle.events 1 ∧
        ¬ Undone d.chronicle.events 3) (by decide)
  obtain ⟨e, he, hr1⟩ := Option.bind_eq_some_iff.mp hr1
  obtain ⟨e', he', hr2⟩ := Option.bind_eq_some_iff.mp hr2
  rw [Event.eq_record hr1] at he
  rw [Event.eq_record hr2] at he'
  obtain ⟨_, hall, _⟩ := taint_exact hr hd
  exact ⟨w, hr, d, hd, 1, 3, r, r', he, he', hid, hu, (hall 1 r he hb).2.1.mpr hu,
    (hall 3 r' he' hb').2.2 hu'⟩

/-- The record found for a guarded reference is its own. -/
theorem DebugArena.Good.find_record {p : Process} {d : DebugArena} (h : d.Good p) (hraw : d.Rooted)
    {r : Ref} (hr : r ∈ d.chronicle.entries) {b : Nat} (hb : r.block = some b) :
    (p.state.records d.arenaId).find? (fun info => info.ptr = r.ptr) =
      some ⟨r.ptr, r.size, r.checkpointId⟩ := by
  cases hf : (p.state.records d.arenaId).find? (fun info => info.ptr = r.ptr) with
  | none => exact absurd (List.find?_eq_none.mp hf _ (h.mem_records hr hb)) (by simp)
  | some info =>
      have hptr : info.ptr = r.ptr := by simpa using List.find?_some hf
      obtain ⟨r', hr', hreg, rfl⟩ := h.of_record (List.mem_of_find?_eq_some hf)
      have hptr' : r'.ptr = r.ptr := hptr
      have heq : r'.ptr - guardSize = b + debugGuardSize + 0 := by
        rw [hptr']
        exact h.ptr_sub hr hb
      obtain ⟨_, rfl⟩ := h.ptr_eq hraw hr hr' (Ref.size_ne_zero hreg) hb (by decide) heq
      rfl

/-- **What is accepted under the right key.** Asked under the id of the arena, the check rejects a
    reference that was undone -- and also a live one, unless the user's own data goes on with the
    pattern and the magic number: the record it reads begins in the guard and ends in the data. -/
theorem verdict_under_id {w : World} (h : oneArena.Reach w) {d : DebugArena} (hd : d ∈ w.arenas)
    {t : Nat} {r : Ref} (hev : d.chronicle.events[t]? = some (.record r)) (hb : r.block.isSome) :
    w.process.state.validateAllocation w.process.mem d.arenaId r.ptr = .ok () ↔
      ¬ Undone d.chronicle.events t ∧
      (∀ i < guardSize, w.process.mem (r.ptr + i) = guardByte i) ∧
      ofNeBytes (w.process.mem.read (r.ptr + guardSize) 8) = guardMagic := by
  obtain ⟨b, hb⟩ := Option.isSome_iff_exists.mp hb
  have ht := reach_traced h d hd
  have hgood := (World.reach_inv h.of_under).good d hd
  have hr := Chronicle.mem_entries.mpr ⟨t, hev⟩
  obtain ⟨hsize, hptr, _⟩ := hgood.owned r hr b hb
  have hguard : (DebugGuard.read w.process.mem (r.ptr - guardSize)).validate = .ok () ↔
      ¬ Undone d.chronicle.events t ∧
      (∀ i < guardSize, w.process.mem (r.ptr + i) = guardByte i) ∧
      ofNeBytes (w.process.mem.read (r.ptr + guardSize) 8) = guardMagic := by
    have hpre : r.ptr - guardSize = b + debugGuardSize := hgood.ptr_sub hr hb
    have hpost : b + debugGuardSize + 16 = r.ptr := hptr.symm
    have hmagic : b + debugGuardSize + 32 = r.ptr + guardSize := by
      rw [hptr]
      simp only [guardSize, Nat.add_assoc]
    rw [DebugGuard.validate_read_eq_ok, hpre, hpost, hmagic]
    refine and_congr_left fun _ => ⟨fun h1 hu => ?_, fun hu i hi => ?_⟩
    · have h0 := h1 0 (by decide)
      rw [ht.guarded t r b hev hb 0 (by decide), if_pos ⟨rfl, hu⟩] at h0
      exact absurd h0 (by decide)
    · rw [ht.guarded t r b hev hb i hi, if_neg fun hc => hu hc.2]
  unfold DebugState.validateAllocation
  rw [hgood.find_record ht.rooted hr hb]
  by_cases hany : (w.process.state.recorded d.arenaId).any
      (fun current => r.checkpointId > current) = true
  · -- an id above the recorded one is that of an undone reference
    have hu : Undone d.chronicle.events t := by
      by_contra hu
      obtain ⟨c, hc, hle⟩ := ht.nested.recorded (r, t)
        ((d.chronicle.live (r, t)).mpr ⟨hev, hu, ht.rooted.kept t⟩)
        (Ref.registered_ne_zero hsize hb)
      rw [hc] at hany
      simp only [Option.any_some, decide_eq_true_eq] at hany
      exact Nat.not_le.mpr hany hle
    simp only [hany, if_true]
    exact ⟨(fun hc => by cases hc), fun hc => absurd hu hc.1⟩
  · simp only [hany, Bool.false_eq_true, if_false]
    exact hguard

end ArenaB
