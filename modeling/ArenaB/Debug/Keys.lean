/-
  File:      ArenaB/Debug/Keys.lean
  Subject:   Under which key the debug feature looks an arena up.

  Allocations are registered under the id of the arena's `DebugAllocator`; `check_valid` and
  `debug_stats` look under the ADDRESS of the arena. Ids count from 1, so the two keys meet by
  accident only, and for the first arena of a process never.

  * `getStats_arenaId` -- what the registry counts under an arena's id: every registration its
    references ever made, two for a guarded allocation from the current chunk, none retired;
  * **`debug_stats_exact`** -- when `total_allocations` is the number of live allocations;
  * `oneArena` -- the processes with a single arena that is never dropped or reset;
  * **`check_valid_exact`** -- when the verdicts of `check_valid` are right there.
-/
import ArenaB.Debug.World

namespace ArenaB

open Base

/-! ## 1. What is counted -/

namespace DebugArena

/-- The live allocations of non-zero size. -/
def liveCount (d : DebugArena) : Nat := d.chronicle.ledger.log.countP fun x => x.1.size ≠ 0

/-- The registrations of all references the arena ever gave. -/
def registrations (d : DebugArena) : Nat := (d.chronicle.entries.map Ref.registered).sum

theorem Good.getStats_arenaId {p : Process} {d : DebugArena} (h : d.Good p) :
    (p.state.getStats d.arenaId).1 = d.registrations := by
  show (p.state.records d.arenaId).length = _
  rw [h.registry, List.length_flatMap]
  simp only [Ref.infos, List.length_replicate]
  rfl

end DebugArena

/-- **When the total is right.** If the address of the arena is no arena's id, nothing is found
    and the total is right only for an arena without live allocations. If it happens to be the id
    of an arena `e`, what is counted is the registrations of `e`. -/
theorem debug_stats_exact {w : World} (h : worlds.Reach w) : ∀ d ∈ w.arenas,
    ((∀ e ∈ w.arenas, e.arenaId ≠ d.addr) →
      ((w.debugStats d).totalAllocations = d.liveCount ↔ d.liveCount = 0)) ∧
    ∀ e ∈ w.arenas, e.arenaId = d.addr →
      ((w.debugStats d).totalAllocations = d.liveCount ↔ e.registrations = d.liveCount) := by
  intro d _
  have hw := World.reach_inv h
  refine ⟨fun hk => ?_, fun e he hk => ?_⟩
  · have htotal : (w.debugStats d).totalAllocations = 0 :=
      congrArg List.length (hw.keys d.addr hk)
    rw [htotal]
    exact eq_comm
  · have htotal : (w.debugStats d).totalAllocations = e.registrations := by
      rw [← (hw.good e he).getStats_arenaId, hk]
      rfl
    rw [htotal]

/-- The process with one new arena of 64 bytes, in which the events follow. -/
def inOneArena (ops : List WorldOp) : List WorldOp := .create (some 8192) none 64 4096 :: ops

/-- An arena whose allocation was rewound: nothing is live, and nothing is found. -/
theorem debug_stats_exact_rewound : ∃ w, worlds.Reach w ∧ ∃ d ∈ w.arenas,
    d.registrations = 2 ∧ (w.debugStats d).totalAllocations = d.liveCount := by
  obtain ⟨w, hr, d, hd, hreg, hlive, hne⟩ := System.exists_reach_of_replay worlds
    (inOneArena [.call 0 none .checkpoint, .call 0 (some 16384) (.allocateRaw none .word),
      .call 0 none (.rewindToCheckpoint 0)]) World.init_start
    (P := fun w => ∃ d ∈ w.arenas, d.registrations = 2 ∧ d.liveCount = 0 ∧
      ∀ e ∈ w.arenas, e.arenaId ≠ d.addr) (by decide)
  exact ⟨w, hr, d, hd, hreg, ((debug_stats_exact hr d hd).1 hne).mpr hlive⟩

/-- One live allocation, which its arena does not count. -/
theorem debug_stats_misses : ∃ w, worlds.Reach w ∧ ∃ d ∈ w.arenas,
    d.liveCount = 1 ∧ (w.debugStats d).totalAllocations = 0 :=
  System.exists_reach_of_replay worlds
    (inOneArena [.call 0 (some 16384) (.allocateRaw none .word)]) World.init_start
    (P := fun w => ∃ d ∈ w.arenas, d.liveCount = 1 ∧ (w.debugStats d).totalAllocations = 0)
    (by decide)

/-! ## 2. A single arena -/

/-- One arena is created, it is never dropped and never reset. -/
def OneArena (w : World) : WorldOp → Prop
  | .create _ _ _ _ => w.process.state.nextArenaId = 1
  | .drop _ => False
  | .call _ _ op => op.isReset = false
  | .move _ _ => True

instance (w : World) : (op : WorldOp) → Decidable (OneArena w op)
  | .create _ _ _ _ => inferInstanceAs (Decidable (w.process.state.nextArenaId = 1))
  | .drop _ => inferInstanceAs (Decidable False)
  | .call _ _ op => inferInstanceAs (Decidable (op.isReset = false))
  | .move _ _ => inferInstanceAs (Decidable True)

/-- The processes with a single arena. -/
def oneArena : System World WorldOp := worlds.under OneArena

instance (w : World) (op : WorldOp) : Decidable (oneArena.ok w op) :=
  inferInstanceAs (Decidable (worlds.ok w op ∧ OneArena w op))

/-- At most the arena with id 1. -/
def World.Lone (w : World) : Prop :=
  (w.arenas = [] ∧ w.process.state.nextArenaId = 1) ∨
    ∃ d, w.arenas = [d] ∧ d.arenaId = 1 ∧ w.process.state.nextArenaId = 2

/-- The arena that is called is the only one. -/
theorem World.Lone.called {w : World} (h : w.Lone) {k : Nat} {d : DebugArena}
    (hd : w.arenas[k]? = some d) :
    k = 0 ∧ w.arenas = [d] ∧ d.arenaId = 1 ∧ w.process.state.nextArenaId = 2 := by
  rcases h with ⟨hnil, _⟩ | ⟨d₀, hone, hid, hnext⟩
  · rw [hnil] at hd
    cases hd
  · rw [hone, List.getElem?_singleton] at hd
    split at hd
    · next hk =>
      cases hd
      exact ⟨hk, hone, hid, hnext⟩
    · cases hd

theorem World.Lone.step {w w' : World} {op : WorldOp} (h : w.Lone) (hone : OneArena w op)
    (hx : World.Happens w op w') : w'.Lone := by
  cases hx with
  | @create sys sys' capacity addr a _ _ _ =>
      have h1 : w.process.state.nextArenaId = 1 := hone
      rcases h with ⟨hnil, _⟩ | ⟨d, _, _, h2⟩
      · refine Or.inr ⟨⟨a.inner, w.process.newArenaId.1, addr, .empty⟩, ?_, h1, ?_⟩
        · show w.arenas ++ _ = _
          rw [hnil, List.nil_append]
        · show w.process.state.nextArenaId + 1 = 2
          rw [h1]
      · omega
  | @move k addr d hd _ =>
      obtain ⟨rfl, hone, hid, hnext⟩ := h.called hd
      exact Or.inr ⟨{ d with addr := addr }, by simp [hone], hid, hnext⟩
  | drop _ => exact hone.elim
  | @call k guard op d d' p' hd _ ht =>
      obtain ⟨hl, hid', _⟩ := ht.leaves
      obtain ⟨rfl, hone, hid, hnext⟩ := h.called hd
      exact Or.inr ⟨d', by simp [hone], hid'.trans hid, hl.nextArenaId.trans hnext⟩

theorem reach_lone {w : World} (h : oneArena.Reach w) : w.Lone := by
  refine h.inv' (P := World.Lone) (fun w hw => ?_) fun w op w' hr hw hok e => ?_
  · obtain ⟨hnil, hstate⟩ := World.of_init hw
    exact Or.inl ⟨hnil, by rw [hstate]; rfl⟩
  · obtain ⟨hworld, hone⟩ : worlds.ok w op ∧ OneArena w op := hok
    exact hw.step hone (World.exec_happens (World.reach_inv hr.of_under) hworld e)

/-- The address of the only arena is not its id. -/
theorem reach_lone_keys {w : World} (h : oneArena.Reach w) {d : DebugArena} (hd : d ∈ w.arenas) :
    w.process.state.records d.addr = [] := by
  have hw := World.reach_inv h.of_under
  refine hw.keys d.addr fun e he => ?_
  have haddr := hw.aligned d hd
  obtain ⟨k, hk⟩ := List.mem_iff_getElem?.mp he
  rw [((reach_lone h).called hk).2.2.1]
  omega

/-! ## 3. The verdicts -/

/-- No guard byte on either side of a guarded reference has been overwritten. -/
def Process.Intact (p : Process) (r : Ref) : Prop :=
  r.block.isSome → ∀ i < guardSize, p.mem (r.ptr - guardSize + i) = guardByte i ∧
    p.mem (r.ptr + r.size + i) = guardByte i

instance (p : Process) (r : Ref) : Decidable (p.Intact r) := by
  unfold Process.Intact
  infer_instance

/-- `check_valid` accepts every reference of non-zero size that was not undone and whose guard is
    intact, and rejects every one that was undone. -/
def World.Detects (w : World) (d : DebugArena) : Prop :=
  ∀ (t : Nat) (r : Ref), d.chronicle.events[t]? = some (.record r) → r.size ≠ 0 →
    (¬ Undone d.chronicle.events t → w.process.Intact r → w.checkValid d r.ptr = .ok ()) ∧
    (Undone d.chronicle.events t → ∃ msg, w.checkValid d r.ptr = .error msg)

/-- **When the verdicts are right**: as long as every reference was undone, or has lost its
    guard. -/
theorem check_valid_exact {w : World} (h : oneArena.Reach w) {d : DebugArena}
    (hd : d ∈ w.arenas) : w.Detects d ↔
      ∀ (t : Nat) (r : Ref), d.chronicle.events[t]? = some (.record r) → r.size ≠ 0 →
        w.process.Intact r → Undone d.chronicle.events t := by
  have hverdict : ∀ ptr, w.checkValid d ptr = .error "Allocation not found" := fun ptr =>
    DebugState.validateAllocation_of_nil (reach_lone_keys h hd)
  constructor
  · intro hdet t r ht hsize hint
    by_contra hu
    have hok := (hdet t r ht hsize).1 hu hint
    rw [hverdict] at hok
    cases hok
  · intro hall t r ht hsize
    exact ⟨fun hu hint => absurd (hall t r ht hsize hint) hu, fun _ => ⟨_, hverdict r.ptr⟩⟩

/-- An arena whose only allocation was rewound. -/
theorem check_valid_exact_rewound : ∃ w, oneArena.Reach w ∧ ∃ d ∈ w.arenas,
    d.chronicle.entries.length = 1 ∧ w.Detects d := by
  obtain ⟨w, hr, d, hd, hlen, hes⟩ := System.exists_reach_of_replay oneArena
    (inOneArena [.call 0 none .checkpoint, .call 0 (some 16384) (.allocateRaw none .word),
      .call 0 none (.rewindToCheckpoint 0)]) World.init_start
    (P := fun w => ∃ d ∈ w.arenas, d.chronicle.entries.length = 1 ∧
      ∀ t < d.chronicle.events.length, d.chronicle.events[t]?.bind Event.entry? = none ∨
        Undone d.chronicle.events t) (by decide)
  refine ⟨w, hr, d, hd, hlen, (check_valid_exact hr hd).mpr fun t r ht _ _ => ?_⟩
  rcases hes t (List.getElem?_eq_some_iff.mp ht).1 with hnone | hu
  · rw [ht] at hnone
    cases hnone
  · exact hu

/-- A live reference with an intact guard, which its arena does not find. -/
theorem check_valid_misses : ∃ w, oneArena.Reach w ∧ ∃ d ∈ w.arenas, ∃ (t : Nat) (r : Ref),
    d.chronicle.events[t]? = some (.record r) ∧ r.size ≠ 0 ∧ ¬ Undone d.chronicle.events t ∧
      w.process.Intact r ∧ w.checkValid d r.ptr = .error "Allocation not found" := by
  obtain ⟨w, hr, d, hd, x, hx, hsize, hint⟩ := System.exists_reach_of_replay oneArena
    (inOneArena [.call 0 (some 16384) (.allocateRaw none .word)]) World.init_start
    (P := fun w => ∃ d ∈ w.arenas, ∃ x ∈ d.chronicle.ledger.log,
      x.1.size ≠ 0 ∧ w.process.Intact x.1) (by decide)
  obtain ⟨hev, hu, _⟩ := (d.chronicle.live x).mp hx
  exact ⟨w, hr, d, hd, x.2, x.1, hev, hsize, hu, hint,
    DebugState.validateAllocation_of_nil (reach_lone_keys hr hd)⟩

end ArenaB
