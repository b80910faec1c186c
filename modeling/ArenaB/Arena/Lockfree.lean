/-
  File:      ArenaB/Arena/Lockfree.lean
  Subject:   The arena with the lock-free buffer against the arena with chunks alone.

  * `twin` runs the same operations on both builds, each with its own system allocator. Both
    refine the same abstract arena, so their contracts agree step by step (`twin_contract`).
  * **`lockfree_sound`** -- in the runs whose rewinds find no older live allocation in the
    lock-free block, live allocations are apart and keep their bytes, and every byte a caller can
    read is the byte the chunk-only arena would show.
  * **`lockfree_rewind_loses`** -- without that condition it fails: a rewind resets the whole
    buffer, whatever its checkpoint covers.
-/
import ArenaB.Arena.Contract
import ArenaB.Arena.Live

namespace ArenaB

open Base

/-! ## 1. Two builds side by side -/

/-- The operation with another answer of the system allocator. -/
def Op.withSys (sys : Option Nat) : Op → Op
  | .allocateRaw _ layout => .allocateRaw sys layout
  | .alloc _ value => .alloc sys value
  | .allocSliceCopy _ slice => .allocSliceCopy sys slice
  | op => op

/-- The abstract arena does not see the system allocator. -/
theorem Contract.exec_withSys (c : Contract) (sys : Option Nat) (op : Op) :
    c.exec (op.withSys sys) = c.exec op := by
  cases op <;> rfl

/-- An operation whose request is served alike does the same. -/
theorem Sess.exec_withSys {s : Sess} {debug : Bool} {op : Op} {sys' : Option Nat}
    (h : ∀ sys l data, op.Asks sys l data →
      s.arena.allocateRaw sys' l = s.arena.allocateRaw sys l) :
    s.exec debug (op.withSys sys') = s.exec debug op := by
  cases op with
  | allocateRaw sys l => simp only [Op.withSys, exec, h _ _ _ (.allocateRaw sys l)]
  | alloc sys v => simp only [Op.withSys, exec, Arena.alloc, h _ _ _ (.alloc sys v)]
  | allocSliceCopy sys sl =>
      simp only [Op.withSys, exec, Arena.allocSliceCopy]
      split
      · rfl
      · next h0 =>
        cases hl : sl.elem.array sl.len with
        | none => rfl
        | some l => simp only [h _ _ _ (.allocSliceCopy sys h0 hl)]
  | _ => rfl

/-- The lock-free build on the left, the chunk-only build on the right, same operations. -/
def twin : System (Sess × Sess) (Op × Option Nat) where
  init p := p.1.Init ⟨false, true⟩ ∧ p.2.Init ⟨false, false⟩
  ok p l := (machine ⟨false, true⟩).ok p.1 l.1 ∧
    (machine ⟨false, false⟩).ok p.2 (l.1.withSys l.2)
  step p l := (p.1.exec false l.1).bind fun s =>
    (p.2.exec false (l.1.withSys l.2)).map fun t => (s, t)

/-- The left build rewinds only where no older live allocation is in its lock-free block. -/
def Calm (p : Sess × Sess) (l : Op × Option Nat) : Prop := RewindsMeet Undisturbed p.1 l.1

section Twin

variable {p p' : Sess × Sess} {l : Op × Option Nat}

theorem twin_step (e : twin.step p l = some p') :
    p.1.exec false l.1 = some p'.1 ∧ p.2.exec false (l.1.withSys l.2) = some p'.2 := by
  obtain ⟨s, hs, e⟩ := Option.bind_eq_some_iff.mp e
  obtain ⟨t, ht, rfl⟩ := Option.map_eq_some_iff.mp e
  exact ⟨hs, ht⟩

theorem twin_left (h : (twin.under Calm).Reach p) :
    ((machine ⟨false, true⟩).under (RewindsMeet Undisturbed)).Reach p.1 := by
  induction h with
  | init hi => exact .init hi.1
  | step l _ hok e ih => exact .step l.1 ih ⟨hok.1.1, hok.2⟩ (twin_step e).1

theorem twin_right (h : (twin.under Calm).Reach p) : (machine ⟨false, false⟩).Reach p.2 := by
  induction h with
  | init hi => exact .init hi.2
  | step l _ hok e ih => exact .step _ ih hok.1.2 (twin_step e).2

theorem Sess.Init.contract_eq {f : Features} {s : Sess} (h : s.Init f) :
    s.contract = ⟨.empty, [], 0⟩ := by
  obtain ⟨_, _, lf, _, _, _, _, _, e, _, _, hl⟩ := h
  obtain ⟨_, _, a, hn, hw⟩ := Arena.withCapacity_eq_some e
  obtain ⟨h1, h2, _⟩ := ArenaInner.new_eq_ok hn
  obtain ⟨w, L⟩ := s
  subst hl
  have hw' : w = _ := hw
  subst hw'
  exact Sess.contract_eq rfl (by rw [h1]; rfl) h2

/-- **Both builds keep the same contract.** -/
theorem twin_contract (h : (twin.under Calm).Reach p) : p.1.contract = p.2.contract := by
  refine h.inv' (P := fun p => p.1.contract = p.2.contract) (fun p hp => ?_)
    fun p l p' hr hp hok e => ?_
  · have hp' : p.1.Init ⟨false, true⟩ ∧ p.2.Init ⟨false, false⟩ := hp
    exact hp'.1.contract_eq.trans hp'.2.contract_eq.symm
  · obtain ⟨e1, e2⟩ := twin_step e
    rw [Sess.exec_refines (reach_stackOk (twin_left hr).of_under) e1,
      Sess.exec_refines (reach_stackOk (twin_right hr)) e2, Contract.exec_withSys, hp]

end Twin

/-! ## 2. The lock-free arena -/

/-- **The lock-free arena under undisturbed rewinds**: live allocations are apart and keep their
    bytes, and reading one shows what the chunk-only arena shows after the same operations. -/
theorem lockfree_sound {s : Sess}
    (h : ((machine ⟨false, true⟩).under (RewindsMeet Undisturbed)).Reach s) :
    (s.ledger.log.Pairwise fun o o' => o.span.Apart o'.span) ∧
    (∀ o ∈ s.ledger.log, Holds s.arena.mem o.addr o.data) ∧
    ∀ t, (twin.under Calm).Reach (s, t) → s.ledger.log.length = t.ledger.log.length ∧
      ∀ (i : Nat) (o o' : Obj), s.ledger.log[i]? = some o → t.ledger.log[i]? = some o' →
        o.data = o'.data ∧ ∀ (j : Nat) (b : UInt8), o.data[j]? = some (some b) →
          s.arena.mem (o.addr + j) = t.arena.mem (o'.addr + j) := by
  have hl := reach_live h
  refine ⟨hl.apart, hl.holds, fun t ht => ?_⟩
  have hr := reach_live_default (twin_right ht)
  have hlog : s.ledger.log.map Obj.data = t.ledger.log.map Obj.data :=
    congrArg (fun c : Contract => c.ledger.log) (twin_contract ht)
  refine ⟨by simpa using congrArg List.length hlog, fun i o o' ho ho' => ?_⟩
  have hd : o.data = o'.data := by
    have := congrArg (fun l => l[i]?) hlog
    simpa [List.getElem?_map, ho, ho'] using this
  refine ⟨hd, fun j b hj => ?_⟩
  rw [hl.holds o (List.mem_of_getElem? ho) j b hj,
    hr.holds o' (List.mem_of_getElem? ho') j b (hd ▸ hj)]

theorem Sess.init_small_lockfree : (Sess.small (some (some 16384))).Init ⟨false, true⟩ :=
  ⟨some 8192, none, some (some 16384), 1024, ThreadSlab.new, fun _ => 0, 64, rfl, rfl,
    ⟨List.pairwise_singleton _ _, by decide⟩, ThreadSlab.not_matches_new _ _, rfl⟩

instance (p : Sess × Sess) (l : Op × Option Nat) : Decidable (twin.ok p l) :=
  inferInstanceAs (Decidable ((machine ⟨false, true⟩).ok p.1 l.1 ∧
    (machine ⟨false, false⟩).ok p.2 (l.1.withSys l.2)))

instance (p : Sess × Sess) (l : Op × Option Nat) : Decidable (Calm p l) :=
  inferInstanceAs (Decidable (RewindsMeet Undisturbed p.1 l.1))

/-- A large allocation, in a chunk, before the checkpoint; a small one, in the buffer, after it.
    The other build has both in chunks, the large one elsewhere. -/
theorem lockfree_sound_large : ∃ s t, (twin.under Calm).Reach (s, t) ∧
    ((machine ⟨false, true⟩).under (RewindsMeet Undisturbed)).Reach s ∧
    (s.ledger.log.map Obj.addr = [32768] ∧ t.ledger.log.map Obj.addr = [65536] ∧
      s.arena.mem 32768 = 42) ∧
    (∀ o ∈ s.ledger.log, Holds s.arena.mem o.addr o.data) ∧
    s.ledger.log.length = t.ledger.log.length := by
  obtain ⟨⟨s, t⟩, hr, hs⟩ := System.exists_reach_of_replay (twin.under Calm)
    [(.allocateRaw (some 32768) ⟨2000, 8, ⟨3, rfl⟩, by decide⟩, some 65536), (.write 0 0 42, none),
      (.checkpoint, none), (.alloc none ⟨.byte, [7], rfl⟩, none),
      (.rewindToCheckpoint 0, none)]
    (P := fun p => p.1.ledger.log.map Obj.addr = [32768] ∧ p.2.ledger.log.map Obj.addr = [65536] ∧
      p.1.arena.mem 32768 = 42)
    (s := (.small (some (some 16384)), .small none))
    ⟨Sess.init_small_lockfree, Sess.init_small false⟩ (by decide +kernel)
  obtain ⟨_, hholds, hreads⟩ := lockfree_sound (twin_left hr)
  exact ⟨s, t, hr, twin_left hr, hs, hholds, (hreads t hr).1⟩

/-- **A rewind loses an older allocation**: one byte is allocated (in the lock-free buffer), a
    checkpoint is taken and rewound to at once; the next allocation then gets the same address. -/
theorem lockfree_rewind_loses : ∃ s, (machine ⟨false, true⟩).Reach s ∧
    ¬ (s.ledger.log.Pairwise fun o o' => o.span.Apart o'.span) ∧
    ∃ o ∈ s.ledger.log, ¬ Holds s.arena.mem o.addr o.data := by
  obtain ⟨s, hr, hap, o, ho, hd, hm⟩ := System.exists_reach_of_replay (machine ⟨false, true⟩)
    [.alloc none ⟨.byte, [42], rfl⟩, .checkpoint, .rewindToCheckpoint 0,
      .alloc none ⟨.byte, [7], rfl⟩]
    (P := fun s => ¬ (s.ledger.log.Pairwise fun o o' => o.span.Apart o'.span) ∧
      ∃ o ∈ s.ledger.log, o.data[0]? = some (some 42) ∧ s.arena.mem (o.addr + 0) = 7)
    Sess.init_small_lockfree (by decide)
  refine ⟨s, hr, hap, o, ho, fun h => ?_⟩
  have h42 := h 0 42 hd
  rw [hm] at h42
  exact absurd h42 (by decide)

end ArenaB
