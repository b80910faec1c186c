/-
  File:      ArenaB/Arena/Counters.lean
  Subject:   `ArenaStats` over whole runs: `allocation_count`, `chunk_count` and `bytes_allocated`
             in a build without the lock-free buffer.

  * `Counted` -- the two counts are those of the ledger and of the chunk list, and every valid
    checkpoint remembers how many allocations were live when it was taken; **`counts_exact`**;
  * `opened cap` -- the runs of an arena whose first chunk was asked for with `cap` bytes; beside
    the state, whether no reset has happened yet;
  * **`bytes_allocated_exact`** -- `bytes_allocated` is the sum of the capacities exactly if `cap`
    is a multiple of 64 (`Chunk::new` rounds up, `ArenaInner::new` books `cap`) and no reset has
    happened (both resets put the counter to 0 and keep chunks). `bytes_allocated_lost`: it fails
    in each of the three ways.
-/
import Mathlib.Algebra.Order.BigOperators.Group.List
import ArenaB.Arena.Accounting

namespace ArenaB

open Base

/-! ## 1. Allocations and chunks -/

/-- The counters agree with the ledger and with the chunks. -/
structure Counted (s : Sess) : Prop where
  allocations : s.arena.inner.stats.allocationCount = s.ledger.log.length
  chunks : s.arena.inner.stats.chunkCount = s.arena.inner.chunks.length
  marks : ∀ m ∈ s.ledger.marks, m.1.allocationCount = m.2

namespace ArenaInner

variable {a a' : ArenaInner}

theorem allocate_counts (hs : a.Shape) {l : Layout} {p : Nat} (e : a.allocate l = some (p, a')) :
    a'.stats.allocationCount = a.stats.allocationCount + 1 ∧
      a'.stats.chunkCount = a.stats.chunkCount ∧ a'.chunks.length = a.chunks.length := by
  obtain ⟨c, _, _, _, rfl⟩ := (allocate_eq_some hs).mp e
  exact ⟨rfl, rfl, List.length_set⟩

/-- One call of the chunk path counts once, whether or not it grows the arena. -/
theorem allocateOrGrow_counts (hs : a.Shape) (hc : a.stats.chunkCount = a.chunks.length)
    {sys : Option Nat} {l : Layout} {p : Nat} (e : a.allocateOrGrow sys l = some (p, a')) :
    a'.stats.allocationCount = a.stats.allocationCount + 1 ∧
      a'.stats.chunkCount = a'.chunks.length := by
  rcases allocateOrGrow_cases e with e | ⟨_, n, a₁, e₁, e₂⟩
  · obtain ⟨h1, h2, h3⟩ := allocate_counts hs e
    exact ⟨h1, by rw [h2, h3, hc]⟩
  · obtain ⟨h1, h2, h3⟩ := allocate_counts (hs.addChunk e₁).1 e₂
    obtain ⟨c, _, _, _, _, rfl⟩ := addChunk_ok e₁
    refine ⟨h1, ?_⟩
    rw [h2, h3]
    simp

theorem rewind_counts {debug : Bool} {cp : ArenaCheckpoint}
    (e : a.rewindToCheckpoint debug cp = some a') :
    a'.stats.allocationCount = cp.allocationCount ∧
      a'.stats.chunkCount = a.stats.chunkCount ∧ a'.chunks.length = a.chunks.length := by
  obtain ⟨_, rfl⟩ := rewind_eq_some.mp e
  exact ⟨rfl, rfl, List.length_mapIdx⟩

end ArenaInner

/-- One call of `allocate_raw` counts once, also for a request of size 0. -/
theorem Arena.allocateRaw_counts {w w' : Arena} (hs : w.inner.Shape)
    (hb : w.inner.lockfreeBuffer = none) (hc : w.inner.stats.chunkCount = w.inner.chunks.length)
    {sys : Option Nat} {l : Layout} {p : Nat} (e : w.allocateRaw sys l = some (p, w')) :
    w'.inner.stats.allocationCount = w.inner.stats.allocationCount + 1 ∧
      w'.inner.stats.chunkCount = w'.inner.chunks.length := by
  rcases Arena.allocateRaw_chunk hb e with ⟨_, _, rfl⟩ | ⟨_, a', ha, rfl⟩
  · exact ⟨rfl, hc⟩
  · exact ArenaInner.allocateOrGrow_counts hs hc ha

namespace Counted

variable {s : Sess}

/-- A checkpoint remembers the count. -/
theorem mark (h : Counted s) {w : Arena} {cp : ArenaCheckpoint}
    (hw : w.inner.stats = s.arena.inner.stats) (hw' : w.inner.chunks = s.arena.inner.chunks)
    (hcp : cp.allocationCount = s.arena.inner.stats.allocationCount) :
    Counted ⟨w, s.ledger.mark cp⟩ := by
  refine ⟨?_, ?_, fun m hm => ?_⟩
  · rw [hw]
    exact h.allocations
  · rw [hw, hw']
    exact h.chunks
  · rcases List.mem_append.mp hm with hm | hm
    · exact h.marks m hm
    · rw [List.mem_singleton.mp hm]
      exact hcp.trans h.allocations

/-- After a rewind to a valid checkpoint, whatever it does to the stack. -/
theorem rewind (h : Counted s) {i : Nat} {m : ArenaCheckpoint × Nat}
    (hm : s.ledger.marks[i]? = some m) {a' : ArenaInner} {w : Arena}
    (h1 : a'.stats.allocationCount = m.1.allocationCount)
    (h2 : a'.stats.chunkCount = s.arena.inner.stats.chunkCount)
    (h3 : a'.chunks.length = s.arena.inner.chunks.length)
    (hw : w.inner.stats = a'.stats) (hw' : w.inner.chunks = a'.chunks) :
    Counted ⟨w, s.ledger.rewind i⟩ := by
  have hmem := List.mem_of_getElem? hm
  refine ⟨?_, ?_, fun m' hm' => h.marks m' (List.mem_of_mem_take hm')⟩
  · show w.inner.stats.allocationCount = (s.ledger.log.take (s.ledger.keep i)).length
    rw [hw, h1, h.marks m hmem, Ledger.keep_eq hm, List.length_take,
      Nat.min_eq_left (s.ledger.bounded m hmem)]
  · show w.inner.stats.chunkCount = w.inner.chunks.length
    rw [hw, hw', h2, h3, h.chunks]

end Counted

/-- **One step keeps the counts.** -/
theorem Acts.counted {debug : Bool} {s s' : Sess} {op : Op} (hacts : Acts debug s op s')
    (hk : StackOk s.arena.inner s.cps) (hb : s.arena.inner.lockfreeBuffer = none)
    (h : Counted s) : Counted s' := by
  cases hacts with
  | skip _ => exact h
  | take _ ha _ _ =>
      obtain ⟨h1, h2⟩ := Arena.allocateRaw_counts hk.shape hb h.chunks ha
      refine ⟨?_, h2, h.marks⟩
      show _ = (s.ledger.log ++ [_]).length
      rw [List.length_append, ← h.allocations]
      exact h1
  | write _ _ =>
      refine ⟨?_, h.chunks, h.marks⟩
      show _ = (s.ledger.log.modify _ _).length
      rw [List.length_modify]
      exact h.allocations
  | mark _ e =>
      rw [ArenaInner.checkpoint_eq hk.shape] at e
      cases e
      exact h.mark rfl rfl rfl
  | push e =>
      rw [ArenaInner.checkpoint_eq hk.shape] at e
      cases e
      exact h.mark rfl rfl rfl
  | rewind _ hm e =>
      obtain ⟨h1, h2, h3⟩ := ArenaInner.rewind_counts e
      exact h.rewind hm h1 h2 h3 Arena.resetBuffer_stats (Arena.same_resetBuffer _).chunks
  | pop hcp e =>
      obtain ⟨m, hm, rfl⟩ := Sess.popIndex_spec hk hcp
      obtain ⟨h1, h2, h3⟩ := ArenaInner.rewind_counts e
      exact h.rewind hm h1 h2 h3 Arena.resetBuffer_stats (Arena.same_resetBuffer _).chunks
  | clear => exact ⟨h.allocations, h.chunks, h.marks⟩
  | reset =>
      refine ⟨?_, ?_, fun _ h => nomatch h⟩
      · show s.arena.reset.inner.stats.allocationCount = 0
        unfold Arena.reset
        rw [Arena.resetBuffer_stats]
        rfl
      · show s.arena.reset.inner.stats.chunkCount = s.arena.reset.inner.chunks.length
        unfold Arena.reset
        rw [Arena.resetBuffer_stats, (Arena.same_resetBuffer _).chunks]
        show _ = (s.arena.inner.chunks.map Chunk.reset).length
        rw [List.length_map]
        exact h.chunks
  | shrink => exact ⟨rfl, rfl, fun _ h => nomatch h⟩

/-- **Counts of allocations and chunks**: in every reachable state of a build without the lock-free
    buffer `allocation_count` is the number of `allocate_raw` calls since the last reset that no
    rewind has undone, and `chunk_count` the number of chunks held. -/
theorem counts_exact (debug : Bool) {s : Sess} (h : (machine ⟨debug, false⟩).Reach s) :
    s.arena.inner.stats.allocationCount = s.ledger.log.length ∧
      s.arena.inner.stats.chunkCount = s.arena.inner.chunks.length := by
  have hc : Counted s := by
    refine h.inv' (P := Counted) (fun s hi => ?_) fun s op s' hr hs _ e => ?_
    · obtain ⟨_, _, _, _, _, _, _, _, e, _, _, hl⟩ := hi
      obtain ⟨_, _, a, hn, hw⟩ := Arena.withCapacity_eq_some e
      obtain ⟨hst, c, hch, _⟩ := ArenaInner.new_stats hn
      refine ⟨?_, ?_, ?_⟩
      · rw [hl, hw, hst]
        rfl
      · rw [hw, hst, hch]
        rfl
      · rw [hl]
        exact fun _ h => nomatch h
    · exact (s.exec_acts e).counted (reach_stackOk hr) (reach_noBuffer hr) hs
  exact ⟨hc.allocations, hc.chunks⟩

/-- Three allocations, one of size 0 and one that grows the arena; the last two are undone. -/
theorem counts_exact_rewound : ∃ s, (machine ⟨false, false⟩).Reach s ∧
    (s.ledger.log.length = 1 ∧ s.arena.inner.chunks.length = 2) ∧
    s.arena.inner.stats.allocationCount = s.ledger.log.length ∧
    s.arena.inner.stats.chunkCount = s.arena.inner.chunks.length := by
  obtain ⟨s, hr, hs⟩ := System.exists_reach_of_replay (machine ⟨false, false⟩)
    [.allocateRaw none .word, .pushCheckpoint,
      .allocateRaw none ⟨0, 1, ⟨0, rfl⟩, by decide⟩,
      .allocateRaw (some 65536) ⟨100, 4, ⟨2, rfl⟩, by decide⟩, .popAndRewind]
    (P := fun s => s.ledger.log.length = 1 ∧ s.arena.inner.chunks.length = 2)
    (Sess.init_small false) (by decide +kernel)
  exact ⟨s, hr, hs, counts_exact false hr⟩

/-! ## 2. Capacities -/

/-- The memory the chunks hold. -/
def ArenaInner.capacities (a : ArenaInner) : Nat := (a.chunks.map Chunk.capacity).sum

/-- The capacities `next_chunk_capacity` gives are multiples of 64. -/
theorem roundCapacity_nextChunkCapacity (n : Nat) :
    Chunk.roundCapacity (nextChunkCapacity n) = nextChunkCapacity n := by
  have hdvd : ∀ fuel c, 64 ∣ c → 64 ∣ growCapacity fuel c n := by
    intro fuel
    induction fuel with
    | zero => exact fun c hc => hc
    | succ fuel ih =>
        intro c hc
        unfold growCapacity
        split
        · exact ih (c * 2) (Dvd.dvd.mul_right hc 2)
        · exact hc
  have h0 := hdvd 12 minChunkSize (by decide)
  have hexit := growCapacity_exit n
  have hle : nextChunkCapacity n ≤ maxChunkSize := Nat.min_le_right _ _
  -- either the loop's capacity, or the maximum
  have hcap : 64 ∣ nextChunkCapacity n := by
    unfold nextChunkCapacity maxChunkSize at *
    generalize growCapacity 12 minChunkSize n = g at h0 hexit
    omega
  have hlt : nextChunkCapacity n + 63 < wordMod := by
    unfold maxChunkSize at hle
    unfold wordMod
    omega
  have hround := Chunk.roundCapacity_add_mod hlt
  omega

/-- Chunks may have been added, each booked with its capacity. -/
def Booked (a a' : ArenaInner) : Prop :=
  ∃ added : List Nat, a'.chunks.map Chunk.capacity = a.chunks.map Chunk.capacity ++ added ∧
    a'.stats.bytesAllocated = a.stats.bytesAllocated + added.sum

namespace Booked

variable {a a' a'' : ArenaInner}

theorem same (h1 : a'.chunks.map Chunk.capacity = a.chunks.map Chunk.capacity)
    (h2 : a'.stats.bytesAllocated = a.stats.bytesAllocated) : Booked a a' :=
  ⟨[], by rw [h1, List.append_nil], h2⟩

theorem trans (h : Booked a a') (h' : Booked a' a'') : Booked a a'' := by
  obtain ⟨l, h1, h2⟩ := h
  obtain ⟨l', h1', h2'⟩ := h'
  refine ⟨l ++ l', by rw [h1', h1, List.append_assoc], ?_⟩
  rw [h2', h2, List.sum_append, Nat.add_assoc]

theorem allocate (hs : a.Shape) {l : Layout} {p : Nat} (e : a.allocate l = some (p, a')) :
    Booked a a' := by
  obtain ⟨c, hc, _, _, rfl⟩ := (ArenaInner.allocate_eq_some hs).mp e
  exact same (map_set_self hc rfl) rfl

theorem addChunk {sys : Option Nat} {n size : Nat}
    (e : a.addChunk sys (nextChunkCapacity size) = .ok (n, a')) : Booked a a' := by
  obtain ⟨c, _, hcap, _, _, rfl⟩ := ArenaInner.addChunk_ok e
  rw [roundCapacity_nextChunkCapacity] at hcap
  refine ⟨[c.capacity], List.map_append, ?_⟩
  simp [hcap]

theorem allocateRaw {w w' : Arena} (hs : w.inner.Shape) (hb : w.inner.lockfreeBuffer = none)
    {sys : Option Nat} {l : Layout} {p : Nat} (e : w.allocateRaw sys l = some (p, w')) :
    Booked w.inner w'.inner := by
  rcases Arena.allocateRaw_chunk hb e with ⟨_, _, rfl⟩ | ⟨_, a', ha, rfl⟩
  · exact same rfl rfl
  · rcases ArenaInner.allocateOrGrow_cases ha with e | ⟨_, n, a₁, e₁, e₂⟩
    · exact allocate hs e
    · exact (addChunk e₁).trans (allocate (hs.addChunk e₁).1 e₂)

theorem checkpoint (hs : a.Shape) {r : ArenaCheckpoint × ArenaInner}
    (e : a.checkpoint = some r) : Booked a r.2 := by
  rw [ArenaInner.checkpoint_eq hs] at e
  cases e
  exact same rfl rfl

theorem rewind {w : Arena} {debug : Bool} {cp : ArenaCheckpoint}
    (e : a.rewindToCheckpoint debug cp = some a') :
    Booked a (w.withInner a').resetBuffer.inner := by
  obtain ⟨_, rfl⟩ := ArenaInner.rewind_eq_some.mp e
  refine same ?_ ?_
  · rw [(Arena.same_resetBuffer _).chunks]
    have hspan := congrArg (List.map Span.len) (ArenaInner.map_span_rewindChunks a.chunks cp)
    rw [List.map_map, List.map_map] at hspan
    exact hspan
  · rw [Arena.resetBuffer_stats]
    rfl

end Booked

/-- The first chunk keeps its capacity, and nothing is booked any more. -/
structure Forgot (a a' : ArenaInner) : Prop where
  first : ∀ {n : Nat} {rest : List Nat}, a.chunks.map Chunk.capacity = n :: rest →
    ∃ rest', a'.chunks.map Chunk.capacity = n :: rest'
  bytes : a'.stats.bytesAllocated = 0

theorem Forgot.reset (w : Arena) : Forgot w.inner w.reset.inner := by
  unfold Arena.reset
  refine ⟨fun {n rest} h => ⟨rest, ?_⟩, ?_⟩
  · rw [(Arena.same_resetBuffer _).chunks]
    show (w.inner.chunks.map Chunk.reset).map Chunk.capacity = _
    rw [List.map_map]
    exact h
  · rw [Arena.resetBuffer_stats]
    rfl

theorem Forgot.resetAndShrinkToFit (w : Arena) : Forgot w.inner w.resetAndShrinkToFit.inner := by
  refine ⟨fun {n rest} h => ⟨[], ?_⟩, rfl⟩
  show ((w.inner.chunks.take 1).map (Chunk.setUsed · 0)).map Chunk.capacity = _
  have htake := congrArg (List.take 1) h
  rw [← List.map_take] at htake
  rw [List.map_map]
  exact htake

/-- Whether no reset has happened, after one more operation. -/
def noReset (_ : Sess) (op : Op) (intact : Bool) : Bool :=
  match op with
  | .reset => false
  | .resetAndShrinkToFit => false
  | _ => intact

/-- **Every operation but the resets books what it adds**; a reset keeps the capacity of the first
    chunk and forgets what was booked. -/
theorem exec_booked {debug : Bool} {s s' : Sess} {op : Op} (hs : s.arena.inner.Shape)
    (hb : s.arena.inner.lockfreeBuffer = none) (e : s.exec debug op = some s') :
    (∀ intact, noReset s op intact = intact) ∧ Booked s.arena.inner s'.arena.inner ∨
      (∀ intact, noReset s op intact = false) ∧ Forgot s.arena.inner s'.arena.inner := by
  cases s.exec_acts e with
  | take hask hw _ _ =>
      have h : Booked s.arena.inner _ := .allocateRaw hs hb hw
      exact Or.inl ⟨fun _ => by cases hask <;> rfl, h⟩
  | skip _ => exact Or.inl ⟨fun _ => rfl, .same rfl rfl⟩
  | write _ _ => exact Or.inl ⟨fun _ => rfl, .same rfl rfl⟩
  | mark hop ha => exact Or.inl ⟨fun _ => by cases hop <;> rfl, .checkpoint hs ha⟩
  | push ha =>
      have h : Booked s.arena.inner _ := .checkpoint hs ha
      exact Or.inl ⟨fun _ => rfl, h⟩
  | rewind hop _ ha => exact Or.inl ⟨fun _ => by cases hop <;> rfl, .rewind ha⟩
  | pop _ ha =>
      have h : Booked { s.arena.inner with checkpoints := s.arena.inner.checkpoints.dropLast }
          (s.arena.withInner _).resetBuffer.inner := .rewind ha
      exact Or.inl ⟨fun _ => rfl, h⟩
  | clear => exact Or.inl ⟨fun _ => rfl, .same rfl rfl⟩
  | reset => exact Or.inr ⟨fun _ => rfl, .reset _⟩
  | shrink => exact Or.inr ⟨fun _ => rfl, .resetAndShrinkToFit _⟩

/-- The runs of an arena whose first chunk was asked for with `cap` bytes, and whether no reset has
    happened. -/
def opened (cap : Nat) : System (Sess × Bool) Op where
  init x := x.1.Init ⟨false, false⟩ ∧ x.2 = true ∧
    ∃ sys lockfree, ArenaInner.new sys lockfree cap = .ok x.1.arena.inner
  ok x op := (machine ⟨false, false⟩).ok x.1 op
  step x op := (x.1.exec false op).map fun s => (s, noReset x.1 op x.2)

instance (cap : Nat) (x : Sess × Bool) (op : Op) : Decidable ((opened cap).ok x op) :=
  inferInstanceAs (Decidable ((machine ⟨false, false⟩).ok x.1 op))

theorem opened_reach {cap : Nat} {x : Sess × Bool} (h : (opened cap).Reach x) :
    (machine ⟨false, false⟩).Reach x.1 := by
  induction h with
  | init hi => exact .init hi.1
  | step op _ hok he ih =>
      obtain ⟨s', hs, rfl⟩ := Option.map_eq_some_iff.mp he
      exact .step op ih hok hs

/-- The counter is off by what the first chunk was rounded up, until a reset loses it. -/
structure Backed (cap : Nat) (x : Sess × Bool) : Prop where
  first : ∃ rest, x.1.arena.inner.chunks.map Chunk.capacity = Chunk.roundCapacity cap :: rest
  intact : x.2 = true → x.1.arena.inner.stats.bytesAllocated + Chunk.roundCapacity cap =
    x.1.arena.inner.capacities + cap
  lost : x.2 = false → x.1.arena.inner.stats.bytesAllocated < x.1.arena.inner.capacities

namespace Backed

variable {cap : Nat} {s s' : Sess} {intact : Bool}

theorem booked (h : Backed cap (s, intact)) (hb : Booked s.arena.inner s'.arena.inner) :
    Backed cap (s', intact) := by
  obtain ⟨added, h1, h2⟩ := hb
  obtain ⟨rest, hrest⟩ := h.first
  have hcap : s'.arena.inner.capacities = s.arena.inner.capacities + added.sum := by
    rw [ArenaInner.capacities, h1, List.sum_append]
    rfl
  refine ⟨⟨rest ++ added, by rw [h1, hrest, List.cons_append]⟩, fun hi => ?_, fun hi => ?_⟩
  · have := h.intact hi
    simp only at this ⊢
    omega
  · have := h.lost hi
    simp only at this ⊢
    omega

/-- After a reset the counter is 0, and there is a chunk. -/
theorem forgot (h : Backed cap (s, intact)) (hpos : 0 < Chunk.roundCapacity cap)
    (hf : Forgot s.arena.inner s'.arena.inner) : Backed cap (s', false) := by
  obtain ⟨rest, hrest⟩ := h.first
  obtain ⟨rest', hrest'⟩ := hf.first hrest
  refine ⟨⟨rest', hrest'⟩, (fun h => by cases h), fun _ => ?_⟩
  show s'.arena.inner.stats.bytesAllocated < (s'.arena.inner.chunks.map Chunk.capacity).sum
  rw [hf.bytes, hrest', List.sum_cons]
  omega

theorem step (h : Backed cap (s, intact)) (hpos : 0 < Chunk.roundCapacity cap)
    (hs : s.arena.inner.Shape) (hb : s.arena.inner.lockfreeBuffer = none) {op : Op}
    (e : s.exec false op = some s') : Backed cap (s', noReset s op intact) := by
  rcases exec_booked hs hb e with ⟨hop, hbooked⟩ | ⟨hop, hforgot⟩
  · rw [hop]
    exact h.booked hbooked
  · rw [hop]
    exact h.forgot hpos hforgot

end Backed

/-- There is no chunk of capacity 0 to start from. -/
theorem opened_ne_zero {cap : Nat} {x : Sess × Bool} (h : (opened cap).Reach x) : cap ≠ 0 := by
  refine h.inv (P := fun _ => cap ≠ 0) (fun x hi => ?_) fun _ _ _ hs _ _ => hs
  obtain ⟨_, _, sys, lockfree, hn⟩ := hi
  rintro rfl
  cases hn

theorem reach_backed {cap : Nat} (hcap : cap + 63 < wordMod) {x : Sess × Bool}
    (h : (opened cap).Reach x) : Backed cap x := by
  refine h.inv' (P := Backed cap) (fun x hi => ?_) fun x op x' hr hx hok e => ?_
  · obtain ⟨_, hi, sys, lockfree, hn⟩ := hi
    obtain ⟨hst, c, hc, hround⟩ := ArenaInner.new_stats hn
    refine ⟨⟨[], by rw [hc, ← hround]; rfl⟩, fun _ => ?_, fun h => ?_⟩
    · rw [hst, ArenaInner.capacities, hc, ← hround]
      exact Nat.add_comm _ _
    · rw [hi] at h
      cases h
  · have hr' := opened_reach hr
    have hpos : 0 < Chunk.roundCapacity cap := by
      have h0 := opened_ne_zero hr
      have hround := Chunk.roundCapacity_add_mod hcap
      omega
    obtain ⟨s', hs', rfl⟩ := Option.map_eq_some_iff.mp e
    exact hx.step hpos (reach_stackOk hr').shape (reach_noBuffer hr') hs'

/-- What is booked as used fits into the chunks. -/
theorem reach_bytesUsed_le {s : Sess} (h : (machine ⟨false, false⟩).Reach s) :
    s.arena.inner.stats.bytesUsed ≤ s.arena.inner.capacities := by
  obtain ⟨pad, hpad⟩ := h.exists_ghost 0 paddingAfter
  have hbooks : s.arena.inner.stats.bytesUsed + pad = Chunk.gauge.total s.arena.inner.chunks :=
    reach_books hpad
  have hle : Chunk.gauge.total s.arena.inner.chunks ≤ s.arena.inner.capacities :=
    List.sum_le_sum fun c hc => ((reach_stackOk h).shape.chunks c hc).used
  omega

/-- **`bytes_allocated`**: in every state reached from a first chunk of `cap` bytes it is the sum of
    the capacities and bounds `bytes_used` exactly if `cap` is a multiple of 64 and neither reset
    has been called. (Above the bound on `cap` the rounding itself overflows.) -/
theorem bytes_allocated_exact {cap : Nat} (hcap : cap + 63 < wordMod) {s : Sess} {intact : Bool}
    (h : (opened cap).Reach (s, intact)) :
    (s.arena.inner.stats.bytesAllocated = s.arena.inner.capacities ∧
      s.arena.inner.stats.bytesUsed ≤ s.arena.inner.stats.bytesAllocated) ↔
    64 ∣ cap ∧ intact = true := by
  have hb := reach_backed hcap h
  have hused := reach_bytesUsed_le (opened_reach h)
  have hround := Chunk.roundCapacity_add_mod hcap
  simp only at hused
  constructor
  · rintro ⟨heq, _⟩
    cases intact with
    | true =>
        have := hb.intact rfl
        simp only at this
        exact ⟨by omega, rfl⟩
    | false =>
        have := hb.lost rfl
        simp only at this
        omega
  · rintro ⟨hdvd, rfl⟩
    have := hb.intact rfl
    simp only at this
    omega

theorem Sess.small_opened : (opened 64).init (Sess.small none, true) :=
  ⟨Sess.init_small false, rfl, some 8192, none, rfl⟩

/-- A chunk of 64 bytes, one more by growth, and a rewind. -/
theorem bytes_allocated_exact_grown : ∃ s, (opened 64).Reach (s, true) ∧
    s.arena.inner.capacities = 64 + 4096 ∧
    s.arena.inner.stats.bytesAllocated = s.arena.inner.capacities := by
  obtain ⟨⟨s, intact⟩, hr, rfl, hs⟩ := System.exists_reach_of_replay (opened 64)
    [.checkpoint, .allocateRaw (some 65536) ⟨100, 4, ⟨2, rfl⟩, by decide⟩, .rewindToCheckpoint 0]
    (P := fun x => x.2 = true ∧ x.1.arena.inner.capacities = 64 + 4096) Sess.small_opened
    (by decide +kernel)
  exact ⟨s, hr, hs, ((bytes_allocated_exact (by decide) hr).mpr ⟨by decide, rfl⟩).1⟩

/-- A new arena of 65 bytes, of which 100 are then used; a reset; a reset that shrinks. -/
theorem bytes_allocated_lost :
    (∃ s, (machine ⟨false, false⟩).Reach s ∧ s.arena.inner.stats = ⟨100, 65, 1, 1⟩ ∧
      s.arena.inner.capacities = 128) ∧
    (∃ s, (machine ⟨false, false⟩).Reach s ∧ s.arena.inner.stats = ⟨8, 0, 1, 1⟩ ∧
      s.arena.inner.capacities = 64) ∧
    ∃ s, (machine ⟨false, false⟩).Reach s ∧ s.arena.inner.stats = ⟨0, 0, 0, 1⟩ ∧
      s.arena.inner.capacities = 64 := by
  refine ⟨?_, ?_, ?_⟩
  · exact System.exists_reach_of_replay (machine ⟨false, false⟩)
      [.allocateRaw none ⟨100, 1, ⟨0, rfl⟩, by decide⟩]
      (s := ⟨⟨⟨[⟨8192, 128, 0⟩], 0, [], 0, ⟨0, 65, 0, 1⟩, none⟩, LockFreeStats.new, 1024,
        ThreadSlab.new, fun _ => 0⟩, .empty⟩)
      ⟨some 8192, none, none, 1024, ThreadSlab.new, fun _ => 0, 65, rfl, rfl,
        ⟨List.pairwise_singleton _ _, (fun _ h => nomatch h)⟩, ThreadSlab.not_matches_new _ _, rfl⟩
      (by decide +kernel)
  · exact System.exists_reach_of_replay (machine ⟨false, false⟩)
      [.reset, .allocateRaw none .word] (Sess.init_small false)
      (by decide +kernel)
  · exact System.exists_reach_of_replay (machine ⟨false, false⟩) [.resetAndShrinkToFit]
      (Sess.init_small false) (by decide +kernel)

end ArenaB
