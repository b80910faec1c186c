/-
  File:      ArenaB/Debug/Guards.lean
  Subject:   The guarded copy of the debug feature (src/debug.rs): what `validate_allocation` reads
             of it, and how it is aligned.

  `allocate_with_guard` lays out a block of `size + 88` bytes: a `DebugGuard` of 56 bytes, 16 bytes
  of pre-guard, the data, 16 bytes of post-guard. The pointer it returns is 72 bytes into the block.

  `validate_allocation` reads a `DebugGuard` back at the pointer less 16: its pre-guard is the one
  in front of the data, but its post-guard, magic number and the rest are the first 40 bytes from
  the pointer on, which belong to the user.

  * `Ref.PreIntact`, `Ref.PostIntact`, `Ref.Spelled` -- the two guards, and the user's first 24
    bytes spelling what the check expects there;
  * **`guard_verdict_exact`** -- the verdict is `PreIntact` and `Spelled`; it speaks about the two
    guards and stays inside the block exactly if there are 24 bytes of data and these spell the
    pattern just when the post-guard is intact. `guard_verdict_fails` has both ways to miss it;
  * **`guarded_align_iff`** -- 72 is a multiple of 8 and not of 16, so the pointer into a block
    aligned to 16 has exactly the alignments up to 8. `guarded_misaligned` asks for 16.
-/
import ArenaB.Debug.Isolation

namespace ArenaB

open Base

/-! ## 1. What the check reads -/

/-- The bytes of the `DebugGuard` that `validate_allocation` reads for a pointer. -/
def validateSpan (ptr : Nat) : Span := ⟨ptr - guardSize, debugGuardSize⟩

namespace Ref

variable (r : Ref) (m : Mem)

/-- The 16 bytes in front of the data hold the pattern. -/
def PreIntact : Prop := ∀ i < guardSize, m (r.ptr - guardSize + i) = guardByte i

/-- The 16 bytes behind the data hold the pattern. -/
def PostIntact : Prop := ∀ i < guardSize, m (r.ptr + r.size + i) = guardByte i

/-- The first 24 bytes from the pointer on hold the pattern. -/
def Spelled : Prop := ∀ i < 24, m (r.ptr + i) = guardByte i

instance : Decidable (r.PreIntact m) := by
  unfold PreIntact
  infer_instance

instance : Decidable (r.PostIntact m) := by
  unfold PostIntact
  infer_instance

instance : Decidable (r.Spelled m) := by
  unfold Spelled
  infer_instance

end Ref

namespace DebugState

variable {s : DebugState} {m : Mem} {arenaId ptr : Nat}

/-- No record of the pointer is above the checkpoint id recorded last. -/
def Current (s : DebugState) (arenaId ptr : Nat) : Prop :=
  ∀ info ∈ s.records arenaId, info.ptr = ptr →
    ∀ current ∈ s.recorded arenaId, info.checkpointId ≤ current

instance (s : DebugState) (arenaId ptr : Nat) : Decidable (s.Current arenaId ptr) := by
  unfold Current
  infer_instance

/-- Registered and not rewound, a pointer is judged by the guard alone. -/
theorem Current.validateAllocation (h : s.Current arenaId ptr)
    (hrec : ∃ info ∈ s.records arenaId, info.ptr = ptr) :
    s.validateAllocation m arenaId ptr = (DebugGuard.read m (ptr - guardSize)).validate := by
  unfold DebugState.validateAllocation
  split
  · rename_i hf
    obtain ⟨info, hi, hptr⟩ := hrec
    exact absurd (List.find?_eq_none.mp hf info hi) (by simp [hptr])
  · rename_i info hf
    have hptr : info.ptr = ptr := by simpa using List.find?_some hf
    have hle := h info (List.mem_of_find?_eq_some hf) hptr
    refine if_neg fun hany => ?_
    cases hc : s.recorded arenaId with
    | none =>
        rw [hc] at hany
        cases hany
    | some c =>
        rw [hc, Option.any_some, decide_eq_true_eq] at hany
        exact Nat.not_le.mpr hany (hle c hc)

end DebugState

/-! ## 2. The verdict -/

section Verdict

variable {p : Process} {d : DebugArena} {r : Ref} {b : Nat}

/-- The read stays inside the block exactly if there are 24 bytes of data. -/
theorem DebugArena.Good.validateSpan_inside (h : d.Good p) (hr : r ∈ d.chronicle.entries)
    (hb : r.block = some b) :
    (validateSpan r.ptr).Inside ⟨b, guardedSize r.size⟩ ↔ 24 ≤ r.size := by
  have hptr := (h.owned r hr b hb).2.1
  simp only [debugGuardSize, guardSize] at hptr
  simp only [validateSpan, Span.Inside, Span.fin, guardedSize, debugGuardSize, guardSize]
  omega

/-- The guard that is read has the pre-guard and the user's bytes for its parts. -/
theorem DebugArena.Good.validate_read (h : d.Good p) (hr : r ∈ d.chronicle.entries)
    (hb : r.block = some b) (m : Mem) :
    (DebugGuard.read m (r.ptr - guardSize)).validate = .ok () ↔ r.PreIntact m ∧ r.Spelled m := by
  have hptr := (h.owned r hr b hb).2.1
  have hpost : r.ptr - guardSize + 16 = r.ptr := by
    simp only [hptr, guardSize]
    omega
  have hmagic : r.ptr - guardSize + 32 = r.ptr + guardSize := by
    simp only [hptr, guardSize]
    omega
  rw [DebugGuard.validate_read_eq_ok, hpost, hmagic, DebugGuard.spelled_iff]
  exact Iff.rfl

end Verdict

/-- **The verdict on a guarded pointer**, in every process, for a pointer that is registered and
    not rewound, and whatever the memory holds by then: it is Ok if and only if the pre-guard is
    intact and the first 24 bytes from the pointer on spell the pattern. So it tells whether both
    guards are intact, reading only the block, if and only if there are 24 bytes of data and, where
    the pre-guard is intact, these spell the pattern just when the post-guard does. -/
theorem guard_verdict_exact {w : World} (h : worlds.Reach w) {d : DebugArena} (hd : d ∈ w.arenas)
    {r : Ref} (hr : r ∈ d.chronicle.entries) {b : Nat} (hb : r.block = some b)
    (hcur : w.process.state.Current d.arenaId r.ptr) (m : Mem) :
    (w.process.state.validateAllocation m d.arenaId r.ptr = .ok () ↔
      r.PreIntact m ∧ r.Spelled m) ∧
    (((w.process.state.validateAllocation m d.arenaId r.ptr = .ok () ↔
        r.PreIntact m ∧ r.PostIntact m) ∧
        (validateSpan r.ptr).Inside ⟨b, guardedSize r.size⟩) ↔
      24 ≤ r.size ∧ (r.PreIntact m → (r.Spelled m ↔ r.PostIntact m))) := by
  have hgood := (World.reach_inv h).good d hd
  have hverdict : w.process.state.validateAllocation m d.arenaId r.ptr = .ok () ↔
      r.PreIntact m ∧ r.Spelled m := by
    rw [hcur.validateAllocation ⟨_, hgood.mem_records hr hb, rfl⟩]
    exact hgood.validate_read hr hb m
  refine ⟨hverdict, ?_⟩
  rw [hverdict, hgood.validateSpan_inside hr hb, and_congr_right_iff]
  exact And.comm

/-- Twenty-four bytes of data that spell the pattern, both guards intact. -/
theorem guard_verdict_exact_spelled : ∃ w, worlds.Reach w ∧ ∃ d ∈ w.arenas,
    ∃ r ∈ d.chronicle.entries, ∃ b, r.block = some b ∧
      w.process.state.Current d.arenaId r.ptr ∧ r.PreIntact w.process.mem ∧
      r.PostIntact w.process.mem ∧
      w.process.state.validateAllocation w.process.mem d.arenaId r.ptr = .ok () := by
  obtain ⟨w, hr, d, hd, r, hre, hb, hcur, hpre, hpost, hspell⟩ :=
    System.exists_reach_of_replay worlds
    (inOneArena [.call 0 (some 16384) (.alloc none .spelled)]) World.init_start
    (P := fun w => ∃ d ∈ w.arenas, ∃ r ∈ d.chronicle.entries, r.block.isSome ∧
      w.process.state.Current d.arenaId r.ptr ∧ r.PreIntact w.process.mem ∧
      r.PostIntact w.process.mem ∧ r.Spelled w.process.mem)
    (by decide +kernel)
  obtain ⟨b, hb⟩ := Option.isSome_iff_exists.mp hb
  exact ⟨w, hr, d, hd, r, hre, b, hb, hcur, hpre, hpost,
    (guard_verdict_exact hr hd hre hb hcur w.process.mem).1.mpr ⟨hpre, hspell⟩⟩

/-- Eight bytes, both guards intact: rejected, and the read leaves the block. And twenty-four bytes
    that spell the pattern, with the first byte of the post-guard overwritten: accepted. -/
theorem guard_verdict_fails :
    (∃ w, worlds.Reach w ∧ ∃ d ∈ w.arenas, ∃ r ∈ d.chronicle.entries, ∃ b,
      r.block = some b ∧ w.process.state.Current d.arenaId r.ptr ∧
      (r.PreIntact w.process.mem ∧ r.PostIntact w.process.mem) ∧
      w.process.state.validateAllocation w.process.mem d.arenaId r.ptr =
        .error "Post-guard corrupted" ∧
      ¬ (validateSpan r.ptr).Inside ⟨b, guardedSize r.size⟩) ∧
    (∃ w, worlds.Reach w ∧ ∃ d ∈ w.arenas, ∃ r ∈ d.chronicle.entries, ∃ b,
      r.block = some b ∧ w.process.state.Current d.arenaId r.ptr ∧
      ∃ m : Mem, m = w.process.mem.write (r.ptr + r.size) [0] ∧ ¬ r.PostIntact m ∧
        w.process.state.validateAllocation m d.arenaId r.ptr = .ok ()) := by
  constructor
  · obtain ⟨w, hr, d, hd, r, hre, hb, hcur, hguards, hverdict, hsize⟩ :=
      System.exists_reach_of_replay worlds
      (inOneArena [.call 0 (some 16384) (.allocateRaw none .word)]) World.init_start
      (P := fun w => ∃ d ∈ w.arenas, ∃ r ∈ d.chronicle.entries, r.block.isSome ∧
        w.process.state.Current d.arenaId r.ptr ∧
        (r.PreIntact w.process.mem ∧ r.PostIntact w.process.mem) ∧
        w.process.state.validateAllocation w.process.mem d.arenaId r.ptr =
          .error "Post-guard corrupted" ∧ r.size < 24) (by decide +kernel)
    obtain ⟨b, hb⟩ := Option.isSome_iff_exists.mp hb
    have hgood := (World.reach_inv hr).good d hd
    refine ⟨w, hr, d, hd, r, hre, b, hb, hcur, hguards, hverdict, fun hin => ?_⟩
    exact Nat.not_le.mpr hsize ((hgood.validateSpan_inside hre hb).mp hin)
  · obtain ⟨w, hr, d, hd, r, hre, hb, hcur, hpost, hverdict⟩ :=
      System.exists_reach_of_replay worlds
      (inOneArena [.call 0 (some 16384) (.alloc none .spelled)]) World.init_start
      (P := fun w => ∃ d ∈ w.arenas, ∃ r ∈ d.chronicle.entries, r.block.isSome ∧
        w.process.state.Current d.arenaId r.ptr ∧
        ¬ r.PostIntact (w.process.mem.write (r.ptr + r.size) [0]) ∧
        w.process.state.validateAllocation (w.process.mem.write (r.ptr + r.size) [0]) d.arenaId
          r.ptr = .ok ()) (by decide +kernel)
    obtain ⟨b, hb⟩ := Option.isSome_iff_exists.mp hb
    exact ⟨w, hr, d, hd, r, hre, b, hb, hcur, _, rfl, hpost, hverdict⟩

/-! ## 3. The alignment -/

/-- A power of two divides an odd multiple of 8 exactly if it is at most 8. -/
theorem Layout.align_dvd_iff (l : Layout) {x : Nat} (h : x % 16 = 8) :
    l.align ∣ x ↔ l.align ≤ 8 := by
  obtain ⟨k, hk⟩ := l.pow2
  rw [hk]
  constructor
  · intro hd
    by_contra hgt
    have hk4 : 4 ≤ k := by
      by_contra hlt
      have hle : 2 ^ k ≤ 2 ^ 3 := Nat.pow_le_pow_right (by decide) (by omega)
      omega
    have h16 : 2 ^ 4 ∣ x := (Nat.pow_dvd_pow 2 hk4).trans hd
    omega
  · intro hle
    have hk3 : k ≤ 3 := (Nat.pow_le_pow_iff_right (by decide)).mp (show 2 ^ k ≤ 2 ^ 3 from hle)
    have h8 : 2 ^ 3 ∣ x := by omega
    exact (Nat.pow_dvd_pow 2 hk3).trans h8

/-- **`allocate_with_guard`**, on whichever path it is called: a pointer into a guard block has the
    alignments up to 8, and without a block the pointer is the one given. -/
theorem Process.allocateWithGuard_align (p : Process) (arenaId : Nat) {guard : Option Nat}
    (hguard : ∀ b ∈ guard, 16 ∣ b) (ptr size cp : Nat) (l : Layout) :
    ((guardBlock guard size).isSome →
      (l.align ∣ (p.allocateWithGuard arenaId guard ptr size cp).1 ↔ l.align ≤ 8)) ∧
    (guardBlock guard size = none → (p.allocateWithGuard arenaId guard ptr size cp).1 = ptr) := by
  refine ⟨fun hs => ?_, fun hn => by rw [Process.allocateWithGuard_none hn]⟩
  obtain ⟨b, hb⟩ := Option.isSome_iff_exists.mp hs
  have h16 : 16 ∣ b := hguard b (guardBlock_eq_some hb)
  rw [Process.allocateWithGuard_ptr hb]
  refine l.align_dvd_iff ?_
  simp only [debugGuardSize, guardSize]
  omega

/-- **The alignment of a guarded pointer**, for every arena and process and every layout of
    non-zero size, with guard blocks that start at a multiple of 16: a pointer into a guard block is
    a multiple of the layout's alignment if and only if that is at most 8. Without a guard block the
    caller gets the arena's own pointer. -/
theorem guarded_align_iff {d : DebugArena} {p : Process} {sys guard : Option Nat} {l : Layout}
    {g : Grant} (hguard : ∀ b ∈ guard, 16 ∣ b) (hsize : l.size ≠ 0)
    (e : d.allocateRaw p sys guard l = some g) :
    (g.ref.block.isSome → (l.align ∣ g.ref.ptr ↔ l.align ≤ 8)) ∧
    (g.ref.block = none → ∃ inner, d.inner.allocateOrGrow sys l = some (g.ref.ptr, inner)) := by
  rcases DebugArena.allocateRaw_cases e with ⟨h0, _⟩ | ⟨_, ptr, inner, grown, ha, rfl⟩
  · exact absurd h0 hsize
  · obtain ⟨hsome, hnone⟩ := p.allocateWithGuard_align d.arenaId hguard ptr l.size
      inner.currentCheckpointId l
    refine ⟨hsome, fun hn => ⟨inner, ?_⟩⟩
    have hptr : (d.protect p guard ptr l.size inner grown).ref.ptr = ptr := hnone hn
    rw [hptr]
    exact ha

/-- Eight bytes aligned to 8. -/
theorem guarded_align_word : ∃ w, worlds.Reach w ∧ ∃ d ∈ w.arenas,
    ∃ g, d.allocateRaw w.process none (some 16384) .word = some g ∧ g.ref.block.isSome ∧
      Layout.word.align ∣ g.ref.ptr := by
  obtain ⟨w, hr, d, hd, hsome, hblock⟩ := System.exists_reach_of_replay worlds (inOneArena [])
    World.init_start
    (P := fun w => ∃ d ∈ w.arenas,
      (d.allocateRaw w.process none (some 16384) .word).isSome ∧
      ∀ g ∈ d.allocateRaw w.process none (some 16384) .word, g.ref.block.isSome) (by decide)
  obtain ⟨g, hg⟩ := Option.isSome_iff_exists.mp hsome
  have hguard : ∀ b ∈ some 16384, 16 ∣ b := by
    intro b hb
    cases hb
    decide
  exact ⟨w, hr, d, hd, g, hg, hblock g hg,
    ((guarded_align_iff hguard (by decide) hg).1 (hblock g hg)).mpr (by decide)⟩

/-- Sixteen bytes aligned to 16. -/
def Layout.vector : Layout := ⟨16, 16, ⟨4, rfl⟩, by decide⟩

/-- In a guard block at a multiple of 16 the pointer is at an odd multiple of 8. -/
theorem guarded_misaligned : ∃ b : Nat, 16 ∣ b ∧ ∃ w, worlds.Reach w ∧ ∃ d ∈ w.arenas,
    ∃ g ∈ d.allocateRaw w.process none (some b) .vector, ¬ Layout.vector.align ∣ g.ref.ptr :=
  ⟨16384, by decide, System.exists_reach_of_replay worlds (inOneArena []) World.init_start
    (P := fun w => ∃ d ∈ w.arenas, ∃ g ∈ d.allocateRaw w.process none (some 16384) .vector,
      ¬ Layout.vector.align ∣ g.ref.ptr) (by decide)⟩

end ArenaB
