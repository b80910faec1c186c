/-
  File:      ArenaB/Debug/Isolation.lean
  Subject:   What the rewind of one arena does to the guards and the records of the others.

  A rewind goes through EVERY key of the registry: it sets the recorded checkpoint id of all arenas
  and taints the guards of all records above it, while each arena counts its checkpoints from zero
  by itself. The other arenas are left alone exactly if their recorded ids are the target already
  (**`rewind_isolated`**): then every record above the target has been tainted before.

  * `Sealed` -- that invariant, for each arena of a process in which every allocation got its guard
    block: a guard whose reference has an id above the recorded one, or above the arena's counter,
    is tainted;
  * `World.Isolated` -- the guard blocks, the recorded id and all verdicts of an arena are the same
    in two processes.
-/
import ArenaB.Debug.Taint

namespace ArenaB

open Base

/-! ## 1. Processes in which every allocation is guarded -/

/-- The system allocator has a block for the guard. -/
def GetsGuard (_ : World) : WorldOp → Prop
  | .call _ guard op => ∀ n ∈ op.size?, n ≠ 0 → (guardBlock guard n).isSome
  | _ => True

instance (w : World) : (op : WorldOp) → Decidable (GetsGuard w op)
  | .call _ guard op => inferInstanceAs
      (Decidable (∀ n ∈ op.size?, n ≠ 0 → (guardBlock guard n).isSome))
  | .create _ _ _ _ => inferInstanceAs (Decidable True)
  | .move _ _ => inferInstanceAs (Decidable True)
  | .drop _ => inferInstanceAs (Decidable True)

namespace DebugArena

variable {d d' : DebugArena} {p p' : Process} {guard : Option Nat} {op : Op}
  {fresh : Span → Prop}

/-- Every reference has a guard, and a guard with an id too high is tainted. -/
structure Sealed (p : Process) (d : DebugArena) : Prop where
  guarded : ∀ r ∈ d.chronicle.entries, r.size ≠ 0 → r.block.isSome
  later : ∀ r ∈ d.chronicle.entries, ∀ b ∈ r.block, p.mem (b + debugGuardSize) = 0 ∨
    r.checkpointId ≤ d.inner.currentCheckpointId ∧
      ∀ c ∈ p.state.recorded d.arenaId, r.checkpointId ≤ c

/-- Nothing that matters changed. -/
theorem Sealed.same (h : d.Sealed p) (hent : d'.chronicle.entries = d.chronicle.entries)
    (hid : d'.arenaId = d.arenaId)
    (hcur : d.inner.currentCheckpointId ≤ d'.inner.currentCheckpointId)
    (hbyte : ∀ r ∈ d.chronicle.entries, ∀ b ∈ r.block,
      p'.mem (b + debugGuardSize) = p.mem (b + debugGuardSize))
    (hrec : p'.state.recorded d.arenaId = p.state.recorded d.arenaId) : d'.Sealed p' := by
  refine ⟨hent ▸ h.guarded, fun r hr b hb => ?_⟩
  rw [hent] at hr
  rw [hbyte r hr b hb, hid, hrec]
  rcases h.later r hr b hb with h0 | ⟨h1, h2⟩
  · exact Or.inl h0
  · exact Or.inr ⟨h1.trans hcur, h2⟩

/-- A rewind, of this arena or of another one. -/
theorem Sealed.rewind (h : d.Sealed p) (hgood : d.Good p)
    (hrec : p.state.recorded d.arenaId = none ↔ p.state.records d.arenaId = []) {c : Nat}
    (hent : d'.chronicle.entries = d.chronicle.entries) (hid : d'.arenaId = d.arenaId)
    (hcur : ∀ n, n ≤ d.inner.currentCheckpointId → n ≤ c → n ≤ d'.inner.currentCheckpointId) :
    d'.Sealed (p.rewindToCheckpoint c) := by
  refine ⟨hent ▸ h.guarded, fun r hr b hb => ?_⟩
  rw [hent] at hr
  by_cases hc : c < r.checkpointId
  · exact Or.inl (hgood.tainted hrec hr hb hc)
  · rcases h.later r hr b hb with h0 | ⟨h1, _⟩
    · exact Or.inl (Process.rewind_mem_zero h0)
    · refine Or.inr ⟨hcur _ h1 (Nat.not_lt.mp hc), fun c' hc' => ?_⟩
      rw [hid, Process.rewind_recorded] at hc'
      obtain ⟨_, _, rfl⟩ := Option.map_eq_some_iff.mp hc'
      exact Nat.not_lt.mp hc

/-- A new reference has the current id, which is then the one recorded. -/
theorem Sealed.take (h : d.Sealed p) {sys : Option Nat} {l : Layout} {g : Grant}
    (hg : Granted d p sys guard l g) (hget : l.size ≠ 0 → (guardBlock guard l.size).isSome)
    {m : Mem} (hbyte : ∀ r ∈ d.chronicle.entries, ∀ b ∈ r.block,
      m (b + debugGuardSize) = p.mem (b + debugGuardSize)) :
    (d.took g).Sealed (g.process.withMem m) := by
  have hnext : g.inner.currentCheckpointId = d.inner.currentCheckpointId := hg.grows.nextId
  refine ⟨fun r hr hsize => ?_, fun r hr b hb => ?_⟩
  · rw [took, Chronicle.entries_record] at hr
    rcases List.mem_append.mp hr with hr | hr
    · exact h.guarded r hr hsize
    · rw [List.mem_singleton.mp hr] at hsize ⊢
      rw [hg.size] at hsize
      rw [hg.block, if_neg hsize]
      exact hget hsize
  · rw [took, Chronicle.entries_record] at hr
    show m (b + debugGuardSize) = 0 ∨ r.checkpointId ≤ g.inner.currentCheckpointId ∧
      ∀ c ∈ g.process.state.recorded d.arenaId, r.checkpointId ≤ c
    rw [hnext, hg.admits.recorded]
    rcases List.mem_append.mp hr with hr | hr
    · rw [hbyte r hr b hb]
      rcases h.later r hr b hb with h0 | ⟨h1, h2⟩
      · exact Or.inl h0
      · refine Or.inr ⟨h1, fun c hc => ?_⟩
        split at hc
        · cases hc
          rw [hg.checkpointId]
          exact h1
        · exact h2 c hc
    · rw [List.mem_singleton.mp hr] at hb ⊢
      refine Or.inr ⟨Nat.le_of_eq hg.checkpointId, fun c hc => ?_⟩
      rw [if_pos ⟨rfl, Ref.registered_ne_zero (hg.of_block hb).1 hb⟩] at hc
      cases hc
      exact Nat.le_refl _

/-- **A call that is no rewind writes to no guard**: not to those of its own arena, not to those
    of another one. -/
theorem Turn.keeps_guards (ht : Turn fresh guard op d p d' p') (hgood : d.Good p)
    (hguarded : ∀ r ∈ d.chronicle.entries, r.size ≠ 0 → r.block.isSome)
    (hget : ∀ n ∈ op.size?, n ≠ 0 → (guardBlock guard n).isSome)
    (hf : ∀ g, fresh g → ∀ t ∈ p.guards, t.Apart g) (hop : d.target op = none)
    {b n : Nat} (hs : (⟨b, guardedSize n⟩ : Span) ∈ p.guards)
    (hown : ∀ u ∈ d.guardSpans, u = ⟨b, guardedSize n⟩ ∨ u.Apart ⟨b, guardedSize n⟩)
    {i : Nat} (hi : i < guardSize) :
    p'.mem (b + debugGuardSize + i) = p.mem (b + debugGuardSize + i) := by
  have hin : Span.Has ⟨b, guardedSize n⟩ (b + debugGuardSize + i) := guardBlock_has hi
  cases ht with
  | idle => rfl
  | @take sys l g bs hn hr hg hbs =>
      have hadm := hg.admits.write bs (by rw [hg.size]; exact hbs)
      refine hadm.agree ⟨b, guardedSize n⟩ ?_ _ hin
      unfold Ref.place
      cases hsp : g.ref.span with
      | some u => exact hf u (hg.fresh hr hsp) _ hs
      | none =>
          refine Or.inr (Or.inl ?_)
          show g.ref.size = 0
          by_contra h0
          have hb' : g.ref.block = none := Option.map_eq_none_iff.mp hsp
          rw [hg.size] at h0
          have hsome := hget l.size hn h0
          rw [hg.block, if_neg h0] at hb'
          rw [hb'] at hsome
          cases hsome
  | @write x j c hx hj =>
      have hxe := Chronicle.mem_entries_of_live hx
      obtain ⟨b', hb'⟩ := Option.isSome_iff_exists.mp (hguarded x.1 hxe (by omega))
      have hp := (hgood.owned x.1 hxe b' hb').2.1
      have hu : (⟨b', guardedSize x.1.size⟩ : Span) ∈ d.guardSpans :=
        mem_guardSpans.mpr ⟨x.1, hxe, b', hb', rfl⟩
      refine if_neg fun hc => ?_
      have heq : x.1.ptr + j = b + debugGuardSize + i := by
        simp only [List.length_singleton] at hc
        omega
      rcases hown _ hu with e | hap
      · cases e
        simp only [guardSize, debugGuardSize] at hp heq hi
        omega
      · refine Span.apart_iff.mp hap _ ?_ hin
        rw [← heq]
        simp only [Span.Has, Span.fin, guardedSize, guardSize, debugGuardSize] at hp ⊢
        omega
  | mark _ _ => rfl
  | rewind _ _ _ htarget =>
      rw [hop] at htarget
      cases htarget
  | clear => rfl
  | forget _ _ _ _ _ => rfl

/-- **A call that is no rewind keeps the seals** of its own arena. -/
theorem Turn.sealed (ht : Turn fresh guard op d p d' p') (h : d.Sealed p) (hgood : d.Good p)
    (hget : ∀ n ∈ op.size?, n ≠ 0 → (guardBlock guard n).isSome)
    (hf : ∀ g, fresh g → ∀ t ∈ p.guards, t.Apart g) (hop : d.target op = none) :
    d'.Sealed p' := by
  have hbyte : ∀ r ∈ d.chronicle.entries, ∀ b ∈ r.block,
      p'.mem (b + debugGuardSize) = p.mem (b + debugGuardSize) := by
    intro r hr b hb
    refine ht.keeps_guards hgood h.guarded hget hf hop (hgood.owned r hr b hb).2.2 (fun u hu => ?_)
      (i := 0) (by decide)
    obtain ⟨r', hr', b', hb', rfl⟩ := mem_guardSpans.mp hu
    by_cases hne : r' = r
    · subst hne
      rw [hb'] at hb
      cases hb
      exact Or.inl rfl
    · exact Or.inr (hgood.guards_apart hr' hr hne hb' hb)
  cases ht with
  | idle => exact h
  | take hn _ hg _ => exact h.take hg (hget _ hn) hbyte
  | write _ _ => exact h.same rfl rfl (Nat.le_refl _) hbyte rfl
  | mark e ha =>
      refine h.same (Chronicle.entries_mark _ _) rfl ?_ hbyte rfl
      obtain ⟨_, _, e⟩ := Option.map_eq_some_iff.mp e
      cases e
      rcases ha with rfl | rfl <;> exact Nat.le_succ _
  | rewind _ _ _ htarget =>
      rw [hop] at htarget
      cases htarget
  | clear => exact h.same rfl rfl (Nat.le_refl _) hbyte rfl
  | forget _ _ _ hcur _ =>
      exact h.same (Chronicle.entries_clear _) rfl (Nat.le_of_eq hcur.symm) hbyte rfl

/-- Nor does it touch the ids recorded for the others. -/
theorem Turn.keeps_recorded (ht : Turn fresh guard op d p d' p') (hop : d.target op = none)
    {k : Nat} (hk : k ≠ d.arenaId) : p'.state.recorded k = p.state.recorded k := by
  cases ht with
  | idle => rfl
  | take _ _ hg _ => exact (hg.admits.recorded k).trans (if_neg fun h => hk h.1)
  | write _ _ => rfl
  | mark _ _ => rfl
  | rewind _ _ _ htarget =>
      rw [hop] at htarget
      cases htarget
  | clear => rfl
  | forget _ _ _ _ _ => rfl

end DebugArena

open DebugArena

/-! ## 2. Runs -/

/-- One call keeps the seals of every arena. -/
theorem sealed_call {w : World} (hi : w.Inv) (h : ∀ d ∈ w.arenas, d.Sealed w.process) {k : Nat}
    {d d' : DebugArena} {p' : Process} (hd : w.arenas[k]? = some d) {guard : Option Nat} {op : Op}
    (hget : ∀ n ∈ op.size?, n ≠ 0 → (guardBlock guard n).isSome)
    (ht : Turn w.Fresh guard op d w.process d' p') : ∀ e ∈ w.arenas.set k d', e.Sealed p' := by
  have hmem := List.mem_of_getElem? hd
  have hgood := hi.good d hmem
  have hfresh : ∀ g, w.Fresh g → ∀ t ∈ w.process.guards, t.Apart g := fun g hg => hg.1
  cases htarget : d.target op with
  | some c =>
      obtain ⟨rfl, i, a', rfl, hcur⟩ := ht.of_target htarget
      refine forall_mem_set hd ((h d hmem).rewind hgood (hi.recorded _)
        (Chronicle.entries_rewind _ _) rfl fun n _ hn => ?_) fun j e _ he => ?_
      · show n ≤ a'.currentCheckpointId
        omega
      · have he' := List.mem_of_getElem? he
        exact (h e he').rewind (hi.good e he') (hi.recorded _) rfl rfl fun n hn _ => hn
  | none =>
      refine forall_mem_set hd (ht.sealed (h d hmem) hgood hget hfresh htarget)
        fun j e hj he => ?_
      have he' := List.mem_of_getElem? he
      have hfor := pairwise_getElem?_ne (fun _ _ => Foreign.symm) hi.foreign (Ne.symm hj) hd he
      refine (h e he').same rfl rfl (Nat.le_refl _) (fun r hr b hb => ?_)
        (ht.keeps_recorded htarget hfor.1.symm)
      refine ht.keeps_guards hgood (h d hmem).guarded hget hfresh htarget
        ((hi.good e he').owned r hr b hb).2.2 (fun u hu => Or.inr (hfor.2 u hu _ ?_))
        (i := 0) (by decide)
      exact mem_guardSpans.mpr ⟨r, hr, b, hb, rfl⟩

theorem reach_sealed {w : World} (h : (worlds.under GetsGuard).Reach w) :
    ∀ d ∈ w.arenas, d.Sealed w.process := by
  refine h.inv' (P := fun w => ∀ d ∈ w.arenas, d.Sealed w.process) (fun w hw => ?_)
    fun w op w' hr hw hok e => ?_
  · exact World.forall_of_init hw
  have hi := World.reach_inv hr.of_under
  cases World.exec_happens hi hok.1 e with
  | create _ _ _ =>
      intro d hd
      rcases List.mem_append.mp hd with hd | hd
      · exact (hw d hd).same rfl rfl (Nat.le_refl _) (fun _ _ _ _ => rfl) rfl
      · rw [List.mem_singleton.mp hd]
        exact ⟨(fun _ h => by cases h), (fun _ h => by cases h)⟩
  | move hd _ =>
      exact forall_set hw ((hw _ (List.mem_of_getElem? hd)).same rfl rfl (Nat.le_refl _)
        (fun _ _ _ _ => rfl) rfl)
  | drop hd =>
      intro e he
      obtain ⟨j, hj, he⟩ := List.mem_eraseIdx_iff_getElem?.mp he
      have hfor := pairwise_getElem?_ne (fun _ _ => Foreign.symm) hi.foreign hj he hd
      exact (hw e (List.mem_of_getElem? he)).same rfl rfl (Nat.le_refl _) (fun _ _ _ _ => rfl)
        (DebugState.recorded_cleanupArena.trans (if_neg hfor.1))
  | call hd _ ht => exact sealed_call hi hw hd hok.2 ht

/-! ## 3. Isolation -/

/-- The guard blocks of an arena, the id recorded for it, and the verdict on every pointer. -/
def World.Isolated (w w' : World) (e : DebugArena) : Prop :=
  (∀ u ∈ e.guardSpans, Mem.Agree w.process.mem w'.process.mem u) ∧
  w'.process.state.recorded e.arenaId = w.process.state.recorded e.arenaId ∧
  ∀ ptr, w'.process.state.validateAllocation w'.process.mem e.arenaId ptr =
    w.process.state.validateAllocation w.process.mem e.arenaId ptr

/-- A record under any key is that of a guarded reference of some arena. -/
theorem World.Inv.of_record {w : World} (hi : w.Inv) (h : ∀ d ∈ w.arenas, d.Sealed w.process)
    {k : Nat} {info : AllocationInfo} (hinfo : info ∈ w.process.state.records k) :
    ∃ d ∈ w.arenas, d.arenaId = k ∧ ∃ r ∈ d.chronicle.entries, ∃ b, r.block = some b ∧
      info = ⟨r.ptr, r.size, r.checkpointId⟩ := by
  by_cases hk : ∀ d ∈ w.arenas, d.arenaId ≠ k
  · rw [hi.keys k hk] at hinfo
    cases hinfo
  · push Not at hk
    obtain ⟨d, hd, rfl⟩ := hk
    obtain ⟨r, hr, hreg, rfl⟩ := (hi.good d hd).of_record hinfo
    obtain ⟨b, hb⟩ := Option.isSome_iff_exists.mp ((h d hd).guarded r hr (Ref.size_ne_zero hreg))
    exact ⟨d, hd, rfl, r, hr, b, hb, rfl⟩

/-- The references of a process and their guard blocks: different ones are apart. -/
theorem World.Inv.guards_apart {w : World} (hi : w.Inv) {d e : DebugArena} (hd : d ∈ w.arenas)
    (he : e ∈ w.arenas) {r r' : Ref} (hr : r ∈ d.chronicle.entries) (hr' : r' ∈ e.chronicle.entries)
    {b b' : Nat} (hb : r.block = some b) (hb' : r'.block = some b') :
    (d = e ∧ r = r') ∨ Span.Apart ⟨b, guardedSize r.size⟩ ⟨b', guardedSize r'.size⟩ := by
  obtain ⟨i, hid⟩ := List.mem_iff_getElem?.mp hd
  obtain ⟨j, hje⟩ := List.mem_iff_getElem?.mp he
  by_cases hij : i = j
  · subst hij
    rw [hid] at hje
    cases hje
    by_cases hne : r = r'
    · exact Or.inl ⟨rfl, hne⟩
    · exact Or.inr ((hi.good d hd).guards_apart hr hr' hne hb hb')
  · have hfor := pairwise_getElem?_ne (fun _ _ => Foreign.symm) hi.foreign hij hid hje
    exact Or.inr (hfor.2 _ (mem_guardSpans.mpr ⟨r, hr, b, hb, rfl⟩) _
      (mem_guardSpans.mpr ⟨r', hr', b', hb', rfl⟩))

/-- A rewind to the id that is recorded already changes no byte of a guard block, nor of the
    bytes right behind it that a verdict reads as well. -/
theorem rewind_keeps {w : World} (hi : w.Inv) (h : ∀ d ∈ w.arenas, d.Sealed w.process)
    {e : DebugArena} (he : e ∈ w.arenas) {c : Nat}
    (hc : ∀ c' ∈ w.process.state.recorded e.arenaId, c' = c) {r : Ref}
    (hr : r ∈ e.chronicle.entries) {b : Nat} (hb : r.block = some b) {x : Nat} (hx : b ≤ x)
    (hx' : x < b + guardedSize r.size + debugGuardSize) :
    (w.process.rewindToCheckpoint c).mem x = w.process.mem x := by
  by_cases hzero : w.process.mem x = 0
  · rw [Process.rewind_mem_zero hzero, hzero]
  refine Process.rewind_mem_other fun k info hinfo hlt hptr => ?_
  obtain ⟨d, hd, rfl, r', hr', b', hb', rfl⟩ := hi.of_record h hinfo
  have hxb : x = b' + debugGuardSize := by
    have hptr' : r'.ptr - guardSize = x := hptr
    rw [← hptr']
    exact (hi.good d hd).ptr_sub hr' hb'
  rcases hi.guards_apart hd he hr' hr hb' hb with ⟨rfl, rfl⟩ | hap
  · -- its own guard: above the recorded id it would be tainted already
    rw [hb] at hb'
    cases hb'
    have hrec : w.process.state.recorded d.arenaId ≠ none := fun hnone => by
      rw [(hi.recorded _).mp hnone] at hinfo
      cases hinfo
    obtain ⟨c', hc'⟩ := Option.ne_none_iff_exists'.mp hrec
    rcases (h d hd).later r' hr b hb with h0 | ⟨_, hle⟩
    · rw [← hxb] at h0
      exact hzero h0
    · have h1 : r'.checkpointId ≤ c' := hle c' hc'
      have h2 : c < r'.checkpointId := hlt
      rw [hc c' hc'] at h1
      omega
  · -- another guard is too far away
    simp only [Span.Apart, Span.fin, guardedSize, guardSize, debugGuardSize] at hap hx' hxb
    omega

/-- **Who is left alone by a rewind**: in a process in which every allocation got its guard block,
    exactly the arenas whose recorded id is the target already, or that have recorded none. -/
theorem rewind_isolated {w w' : World} (h : (worlds.under GetsGuard).Reach w) {k : Nat}
    {d : DebugArena} (hd : w.arenas[k]? = some d) {guard : Option Nat} {op : Op} {c : Nat}
    (hop : d.target op = some c) (hx : w.exec (.call k guard op) = some w') :
    (∀ (j : Nat) (e : DebugArena), j ≠ k → w.arenas[j]? = some e → w.Isolated w' e) ↔
      ∀ (j : Nat) (e : DebugArena), j ≠ k → w.arenas[j]? = some e →
        ∀ c' ∈ w.process.state.recorded e.arenaId, c' = c := by
  obtain ⟨d₀, hd₀, hmap⟩ := Option.bind_eq_some_iff.mp hx
  rw [hd] at hd₀
  cases hd₀
  obtain ⟨⟨d', p'⟩, hexec, rfl⟩ := Option.map_eq_some_iff.mp hmap
  have hi := World.reach_inv h.of_under
  obtain ⟨rfl, _⟩ := exec_target (hi.good d (List.mem_of_getElem? hd)).stack hop hexec
  have hs := reach_sealed h
  constructor
  · intro hiso j e hj he c' hc'
    have hrec := (hiso j e hj he).2.1
    rw [Process.rewind_recorded, hc'] at hrec
    exact (Option.some.inj hrec).symm
  · intro hall j e hj he
    have he' := List.mem_of_getElem? he
    have hc := hall j e hj he
    have hrec : (w.process.rewindToCheckpoint c).state.recorded e.arenaId =
        w.process.state.recorded e.arenaId := by
      rw [Process.rewind_recorded]
      cases hr : w.process.state.recorded e.arenaId with
      | none => rfl
      | some c' =>
          rw [hc c' hr]
          rfl
    refine ⟨fun u hu x hxu => ?_, hrec, fun ptr => ?_⟩
    · obtain ⟨r, hr, b, hb, rfl⟩ := mem_guardSpans.mp hu
      exact rewind_keeps hi hs he' hc hr hb hxu.1 (Nat.lt_of_lt_of_le hxu.2 (Nat.le_add_right _ _))
    · refine DebugState.validateAllocation_congr Process.rewind_records hrec
        fun info hinfo hptr x hxw => ?_
      obtain ⟨e₀, he₀, hid, r, hr, b, hb, rfl⟩ := hi.of_record hs hinfo
      have hp := ((hi.good e₀ he₀).owned r hr b hb).2.1
      have hptr' : r.ptr = ptr := hptr
      rw [← hptr', hp] at hxw
      simp only [Span.Has, Span.fin, guardSize, debugGuardSize] at hxw
      refine rewind_keeps hi hs he₀ (by rw [hid]; exact hc) hr hb (by omega) ?_
      simp only [guardedSize, guardSize, debugGuardSize]
      omega

/-- A process with two new arenas, in which the events follow. -/
def inTwoArenas (ops : List WorldOp) : List WorldOp :=
  inOneArena (.create (some 65536) none 64 4608 :: ops)

/-- Three words that go on where a guard ends. -/
def Value.spelled : Value :=
  ⟨⟨24, 8, Layout.word.pow2, by decide⟩,
    toNeBytes guardMagic ++ toNeBytes guardMagic ++ toNeBytes guardMagic, rfl⟩

/-- The second arena has recorded the id the first one rewinds to. -/
theorem rewind_isolated_even : ∃ w w', (worlds.under GetsGuard).Reach w ∧
    w.exec (.call 0 none (.rewindToCheckpoint 0)) = some w' ∧
    ∃ e, w.arenas[1]? = some e ∧ e.chronicle.entries.length = 1 ∧ w.Isolated w' e := by
  obtain ⟨w, hr, d, hd, hop, hex, hlen, hrec⟩ :=
    System.exists_reach_of_replay (worlds.under GetsGuard)
    (inTwoArenas [.call 0 none .checkpoint, .call 1 (some 32768) (.allocateRaw none .word)])
    World.init_start
    (P := fun w => ∃ d ∈ w.arenas[0]?, d.target (.rewindToCheckpoint 0) = some 0 ∧
      (w.exec (.call 0 none (.rewindToCheckpoint 0))).isSome ∧ w.arenas.length = 2 ∧
      ∀ e ∈ w.arenas[1]?, e.chronicle.entries.length = 1 ∧
        ∀ c ∈ w.process.state.recorded e.arenaId, c = 0) (by decide)
  obtain ⟨w', hw'⟩ := Option.isSome_iff_exists.mp hex
  have hlt : 1 < w.arenas.length := by omega
  have he := List.getElem?_eq_getElem hlt
  refine ⟨w, w', hr, hw', _, he, (hrec _ he).1, (rewind_isolated hr hd hop hw').mpr ?_ 1 _
    (by decide) he⟩
  intro j e hj hje c hc
  have hj1 : j = 1 := by
    have := (List.getElem?_eq_some_iff.mp hje).1
    omega
  subst hj1
  exact (hrec e hje).2 c hc

/-- The second arena has advanced further: the rewind of the first one records another id for it,
    taints its guard, and turns the verdict on its live reference. -/
theorem rewind_leaks : ∃ w w', worlds.Reach w ∧
    w.exec (.call 0 none (.rewindToCheckpoint 0)) = some w' ∧
    ∃ e, w.arenas[1]? = some e ∧ ∃ x ∈ e.chronicle.ledger.log, x.1.block.isSome ∧
      w.process.state.recorded e.arenaId = some 1 ∧ w'.process.state.recorded e.arenaId = some 0 ∧
      w.process.mem (x.1.ptr - guardSize) = 0xBE ∧ w'.process.mem (x.1.ptr - guardSize) = 0 ∧
      (w.process.state.validateAllocation w.process.mem e.arenaId x.1.ptr).isOk = true ∧
      (w'.process.state.validateAllocation w'.process.mem e.arenaId x.1.ptr).isOk = false := by
  obtain ⟨w, hr, w', hw', e, he, hx⟩ := System.exists_reach_of_replay worlds
    (inTwoArenas [.call 0 none .checkpoint, .call 1 none .checkpoint,
      .call 1 (some 32768) (.alloc none .spelled)]) World.init_start
    (P := fun w => ∃ w' ∈ w.exec (.call 0 none (.rewindToCheckpoint 0)), ∃ e ∈ w.arenas[1]?,
      ∃ x ∈ e.chronicle.ledger.log, x.1.block.isSome ∧
        w.process.state.recorded e.arenaId = some 1 ∧
        w'.process.state.recorded e.arenaId = some 0 ∧
        w.process.mem (x.1.ptr - guardSize) = 0xBE ∧ w'.process.mem (x.1.ptr - guardSize) = 0 ∧
        (w.process.state.validateAllocation w.process.mem e.arenaId x.1.ptr).isOk = true ∧
        (w'.process.state.validateAllocation w'.process.mem e.arenaId x.1.ptr).isOk = false)
    (by decide +kernel)
  exact ⟨w, w', hr, hw', e, he, hx⟩

end ArenaB
