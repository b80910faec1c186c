/-
  File:      ArenaB/Arena/Footprint.lean
  Subject:   How much memory an arena takes from the system for what is asked of it.

  An arena that is not rewound or reset leaves a chunk only for a request that does not fit into
  what is left of it. So the end of a chunk that stays unused is smaller than the request that
  opens the next one, and all chunks but the last are paid for twice over by the requests: once by
  the bytes placed in them, once by the first request behind them.

  * `Layout.demand` -- the bytes of a request with the worst padding; `growing` -- runs without
    rewinds and resets, with requests up to `limit` bytes;
  * `nextChunkCapacity_le`, `le_nextChunkCapacity` -- a new chunk has at least 4096 bytes, and no
    more than the larger of 4096 and twice the request;
  * `Packed bound n a cs c` -- the chunks `cs` that were left and the filled part of the last one,
    `c`, come to at most `n`; a request of demand `d` takes `n` to `n + 2 * d` (`Filling.step`);
  * **`footprint_le`** -- the bound over whole runs, on the bytes and on the number of chunks: twice
    the demand, and the last chunk.
-/
import ArenaB.Base.Potential
import ArenaB.Arena.Serve

namespace ArenaB

open Base

/-! ## 1. Requests -/

/-- The bytes a request can move the offset by: its size and the padding in front of it. -/
def Layout.demand (l : Layout) : Nat := if l.size = 0 then 0 else l.size + (l.align - 1)

/-- The demand of the request an operation makes. -/
def Op.demand (op : Op) : Nat := (op.layout.map Layout.demand).getD 0

/-- The rewinds and the resets. -/
def Op.givesBack : Op → Bool
  | .rewindToCheckpoint _ => true
  | .scopeReset _ => true
  | .scopeDrop _ => true
  | .popAndRewind => true
  | .reset => true
  | .resetAndShrinkToFit => true
  | _ => false

/-- Nothing is given back, and no request is larger than `limit`. -/
def growing (limit : Nat) (_ : Sess) (op : Op) : Prop :=
  op.givesBack = false ∧ ∀ l ∈ op.layout, l.size ≤ limit

instance (limit : Nat) (s : Sess) (op : Op) : Decidable (growing limit s op) :=
  inferInstanceAs (Decidable (op.givesBack = false ∧ ∀ l ∈ op.layout, l.size ≤ limit))

/-! ## 2. The capacity of a new chunk -/

theorem growCapacity_le (fuel c n : Nat) : growCapacity fuel c n ≤ max c (2 * n) := by
  induction fuel generalizing c with
  | zero => exact Nat.le_max_left _ _
  | succ fuel ih =>
      unfold growCapacity
      split
      · have := ih (c * 2)
        omega
      · exact Nat.le_max_left _ _

theorem le_growCapacity (fuel c n : Nat) : c ≤ growCapacity fuel c n := by
  induction fuel generalizing c with
  | zero => exact Nat.le_refl _
  | succ fuel ih =>
      unfold growCapacity
      split
      · have := ih (c * 2)
        omega
      · exact Nat.le_refl _

theorem nextChunkCapacity_le (n : Nat) : nextChunkCapacity n ≤ max minChunkSize (2 * n) := by
  have := growCapacity_le 12 minChunkSize n
  unfold nextChunkCapacity
  omega

theorem le_nextChunkCapacity (n : Nat) : minChunkSize ≤ nextChunkCapacity n := by
  have := le_growCapacity 12 minChunkSize n
  have : minChunkSize ≤ maxChunkSize := by decide
  unfold nextChunkCapacity
  omega

/-! ## 3. What has been left behind -/

/-- The last chunk is the current one. The chunks before it and its filled part come to at most
    `n` bytes; no chunk is larger than `bound`, none but the first smaller than 4096. -/
structure Packed (bound n : Nat) (a : ArenaInner) (cs : List Chunk) (c : Chunk) : Prop where
  chunks : a.chunks = cs ++ [c]
  current : a.currentChunk = cs.length
  spent : (cs.map Chunk.capacity).sum + c.used ≤ n
  le : ∀ d ∈ a.chunks, d.capacity ≤ bound
  ge : ∀ d ∈ a.chunks.tail, minChunkSize ≤ d.capacity

section Packed

variable {bound n : Nat} {a a' : ArenaInner} {cs : List Chunk} {c : Chunk}

theorem Packed.mono {n' : Nat} (h : Packed bound n a cs c) (hn : n ≤ n') :
    Packed bound n' a cs c :=
  { h with spent := h.spent.trans hn }

/-- Chunks and current index are all that matters. -/
theorem Packed.congr (h : Packed bound n a cs c) (hc : a'.chunks = a.chunks)
    (hi : a'.currentChunk = a.currentChunk) : Packed bound n a' cs c :=
  ⟨hc.trans h.chunks, hi.trans h.current, h.spent, hc ▸ h.le, hc ▸ h.ge⟩

theorem Packed.get (h : Packed bound n a cs c) : a.chunks[a.currentChunk]? = some c := by
  rw [h.chunks, h.current, List.getElem?_concat_length]

/-- A request the current chunk serves. -/
theorem Packed.allocate (h : Packed bound n a cs c) (hs : a.Shape) {l : Layout} {p : Nat}
    (e : a.allocate l = some (p, a')) :
    Packed bound (n + (l.size + (l.align - 1))) a' cs
      (c.setUsed (alignUp c.used l.align + l.size)) := by
  obtain ⟨d, hd, _, _, rfl⟩ := (ArenaInner.allocate_eq_some hs).mp e
  rw [h.get] at hd
  cases hd
  have hset : a.chunks.set a.currentChunk (c.setUsed (alignUp c.used l.align + l.size)) =
      cs ++ [c.setUsed (alignUp c.used l.align + l.size)] := by
    rw [h.chunks, h.current]
    simp
  refine ⟨hset, h.current, ?_, fun d hd => ?_, fun d hd => ?_⟩
  · have hspent := h.spent
    have hstart := ((hs.chunks c (List.mem_of_getElem? h.get)).start l).2
    show (cs.map Chunk.capacity).sum + (alignUp c.used l.align + l.size) ≤ _
    omega
  · refine forall_set (P := fun d => d.capacity ≤ bound) h.le ?_ d hd
    exact h.le c (List.mem_of_getElem? h.get)
  · have hd' : d ∈ (cs ++ [c.setUsed (alignUp c.used l.align + l.size)]).tail := hset ▸ hd
    have hge := h.ge
    rw [h.chunks] at hge
    -- only the offset of the last chunk is new
    cases cs with
    | nil => cases hd'
    | cons x xs =>
        rcases List.mem_append.mp hd' with hd' | hd'
        · exact hge d (List.mem_append_left _ hd')
        · rw [List.mem_singleton.mp hd']
          exact hge c (List.mem_append_right _ (List.mem_singleton.mpr rfl))

/-- **A request that opens a new chunk**: it is larger than what is left of the last one. -/
theorem Packed.grow (h : Packed bound n a cs c) (hs : a.Shape) {sys : Option Nat} {l : Layout}
    {i p : Nat} {a₁ : ArenaInner} (hb : nextChunkCapacity l.size ≤ bound)
    (hnone : a.allocate l = none) (e₁ : a.addChunk sys (nextChunkCapacity l.size) = .ok (i, a₁))
    (e₂ : a₁.allocate l = some (p, a')) :
    ∃ cs' c', Packed bound (n + 2 * (l.size + (l.align - 1))) a' cs' c' := by
  have hs₁ := (hs.addChunk e₁).1
  obtain ⟨x, _, hcap, hused, _, rfl⟩ := ArenaInner.addChunk_ok e₁
  rw [roundCapacity_nextChunkCapacity] at hcap
  have hfull := (ArenaInner.allocate_eq_none hs h.get).mp hnone
  have hstart := ((hs.chunks c (List.mem_of_getElem? h.get)).start l).2
  have hspent := h.spent
  have hopen : Packed bound (n + (l.size + (l.align - 1)))
      { a with
        chunks := a.chunks ++ [x]
        currentChunk := a.chunks.length
        stats := { a.stats with
          chunkCount := a.chunks.length + 1
          bytesAllocated := a.stats.bytesAllocated + nextChunkCapacity l.size } } a.chunks x := by
    refine ⟨rfl, rfl, ?_, fun d hd => ?_, fun d hd => ?_⟩
    · rw [h.chunks, List.map_append, List.sum_append, hused]
      simp only [List.map_cons, List.map_nil, List.sum_cons, List.sum_nil]
      omega
    · rcases List.mem_append.mp hd with hd | hd
      · exact h.le d hd
      · rw [List.mem_singleton.mp hd, hcap]
        exact hb
    · have hne : a.chunks ≠ [] := by
        rw [h.chunks]
        exact List.concat_ne_nil c cs
      have hd' : d ∈ (a.chunks ++ [x]).tail := hd
      rw [List.tail_append_of_ne_nil hne] at hd'
      rcases List.mem_append.mp hd' with hd | hd
      · exact h.ge d hd
      · rw [List.mem_singleton.mp hd, hcap]
        exact le_nextChunkCapacity _
  refine ⟨_, _, (hopen.allocate hs₁ e₂).mono ?_⟩
  omega

/-- **`allocate_raw`** takes the bound on by twice the demand. -/
theorem Packed.allocateRaw {w w' : Arena} (h : Packed bound n w.inner cs c) (hs : w.inner.Shape)
    {sys : Option Nat} {l : Layout} {p : Nat} (hb : nextChunkCapacity l.size ≤ bound)
    (e : w.allocateRaw sys l = some (p, w')) :
    ∃ cs' c', Packed bound (n + 2 * l.demand) w'.inner cs' c' := by
  rcases Arena.allocateRaw_cases e with ⟨_, _, rfl⟩ | ⟨_, hl⟩ | ⟨h0, w₁, a', hl, ha, rfl⟩
  · have h' : Packed bound n w.countZeroSize.inner cs c := h.congr rfl rfl
    exact ⟨cs, c, h'.mono (Nat.le_add_right _ _)⟩
  · have hsame := (Arena.tryLockfree_same hl).1
    exact ⟨cs, c, (h.congr hsame.chunks hsame.currentChunk).mono (Nat.le_add_right _ _)⟩
  · have hsame := (Arena.tryLockfree_same hl).1
    have hs₁ := hsame.shape hs
    have h₁ : Packed bound n w₁.inner cs c := h.congr hsame.chunks hsame.currentChunk
    rw [Layout.demand, if_neg h0]
    rcases ArenaInner.allocateOrGrow_cases ha with ha | ⟨hnone, i, a₁, e₁, e₂⟩
    · refine ⟨_, _, (h₁.allocate hs₁ ha).mono ?_⟩
      omega
    · exact h₁.grow hs₁ hb hnone e₁ e₂

end Packed

/-! ## 4. Runs -/

/-- The largest chunk there can be: the first, or one for a request of at most `limit` bytes. -/
def largestChunk (first limit : Nat) : Nat := max first (max minChunkSize (2 * limit))

/-- The invariant of a run: the shape, and the bound on what was left. -/
def Filling (bound n : Nat) (s : Sess) : Prop :=
  s.arena.inner.Shape ∧ ∃ cs c, Packed bound n s.arena.inner cs c

/-- **One operation** takes the bound on by twice its demand. -/
theorem Filling.step {f : Features} {limit first n : Nat} {s s' : Sess} {op : Op}
    (h : Filling (largestChunk first limit) n s) (hg : growing limit s op)
    (e : s.exec f.debug op = some s') :
    Filling (largestChunk first limit) (n + 2 * op.demand) s' := by
  obtain ⟨hs, cs, c, hp⟩ := h
  have hsame {w : Arena} {L : Ledger Obj ArenaCheckpoint} (hs' : w.inner.Shape)
      (hc : w.inner.chunks = s.arena.inner.chunks)
      (hi : w.inner.currentChunk = s.arena.inner.currentChunk) :
      Filling (largestChunk first limit) (n + 2 * op.demand) ⟨w, L⟩ :=
    ⟨hs', cs, c, (hp.congr hc hi).mono (Nat.le_add_right _ _)⟩
  have hmarked {cp : ArenaCheckpoint} {a' : ArenaInner} {stack : List ArenaCheckpoint}
      {L : Ledger Obj ArenaCheckpoint} (ha : s.arena.inner.checkpoint = some (cp, a')) :
      Filling (largestChunk first limit) (n + 2 * op.demand)
        ⟨s.arena.withInner { a' with checkpoints := stack }, L⟩ := by
    rw [ArenaInner.checkpoint_eq hs] at ha
    cases ha
    exact hsame ⟨hs.top, hs.chunks⟩ rfl rfl
  cases s.exec_acts e with
  | @take op sys l data p w' m hask hw _ _ =>
      have hl : op.layout = some l := hask.layout
      have hnext : nextChunkCapacity l.size ≤ largestChunk first limit := by
        have := nextChunkCapacity_le l.size
        have := hg.2 l hl
        unfold largestChunk
        omega
      have hp' := hp.allocateRaw hs hnext hw
      rw [Op.demand, hl]
      exact ⟨(Arena.allocateRaw_grows hs hw).1, hp'⟩
  | skip _ => exact hsame hs rfl rfl
  | write _ _ => exact hsame hs rfl rfl
  | mark _ ha => exact hmarked ha
  | push ha => exact hmarked ha
  | clear => exact hsame ⟨hs.top, hs.chunks⟩ rfl rfl
  | rewind hop _ _ => cases hop <;> cases hg.1
  | pop _ _ => cases hg.1
  | reset => cases hg.1
  | shrink => cases hg.1

/-- The number of chunks behind a bound on what was left. -/
theorem Packed.count {bound n : Nat} {a : ArenaInner} {cs : List Chunk} {c : Chunk}
    (h : Packed bound n a cs c) : minChunkSize * (a.chunks.length - 2) ≤ n := by
  have hge := h.ge
  have hspent := h.spent
  rw [h.chunks] at hge ⊢
  cases cs with
  | nil => simp
  | cons x xs =>
      have hxs : ∀ k ∈ xs.map Chunk.capacity, minChunkSize ≤ k := by
        intro k hk
        obtain ⟨d, hd, rfl⟩ := List.mem_map.mp hk
        exact hge d (List.mem_append_left _ hd)
      have hsum := List.card_nsmul_le_sum _ minChunkSize hxs
      rw [List.length_map, smul_eq_mul, Nat.mul_comm] at hsum
      have hlen : (x :: xs ++ [c]).length - 2 = xs.length := by simp
      rw [hlen]
      simp only [List.map_cons, List.sum_cons] at hspent
      omega

/-- **The memory of an arena is at most twice what was asked of it, and its last chunk.** From any
    state in which an arena has one empty chunk (a new arena, or one that was reset and shrunk),
    over any run of allocations and checkpoints without rewinds and resets, whatever the features:
    the capacities of its chunks come to no more than twice the demand of the run and the capacity
    of the last chunk, which is no larger than the first one, 4096 bytes or twice the largest
    request. And every chunk but two is worth 4096 bytes of that, so the system allocator is asked
    at most once for each 2048 bytes of demand, and once more. -/
theorem footprint_le (f : Features) (limit : Nat) {s s' : Sess} {ls : List Op} {c : Chunk}
    (hr : (machine f).Reach s) (hc : s.arena.inner.chunks = [c]) (hu : c.used = 0)
    (h : ((machine f).under (growing limit)).Runs s ls s') :
    let demand := ((machine f).under (growing limit)).total (fun _ op => op.demand) s ls
    (∃ d, s'.arena.inner.chunks.getLast? = some d ∧
      s'.arena.inner.capacities ≤ 2 * demand + d.capacity ∧
      d.capacity ≤ largestChunk c.capacity limit) ∧
    minChunkSize * (s'.arena.inner.chunks.length - 2) ≤ 2 * demand := by
  intro demand
  have hs := (reach_stackOk hr).shape
  have hcur : s.arena.inner.currentChunk = 0 := by
    have := hs.current_lt
    rw [hc, List.length_singleton] at this
    omega
  have hstart : Filling (largestChunk c.capacity limit) 0 s := by
    refine ⟨hs, [], c, hc, hcur, ?_, fun d hd => ?_, fun d hd => ?_⟩
    · rw [hu]
      exact Nat.le_refl _
    · rw [hc] at hd
      rw [List.mem_singleton.mp hd]
      exact Nat.le_max_left _ _
    · rw [hc] at hd
      cases hd
  have hend : Filling (largestChunk c.capacity limit) (0 + 2 * demand) s' := by
    rw [← System.total_mul 2 h]
    refine h.tally (P := Filling (largestChunk c.capacity limit)) (fun n s op s' hf hok e => ?_)
      hstart
    exact hf.step hok.2 e
  rw [Nat.zero_add] at hend
  obtain ⟨_, cs, d, hp⟩ := hend
  refine ⟨⟨d, ?_, ?_, hp.le d (List.mem_of_getElem? hp.get)⟩, hp.count⟩
  · rw [hp.chunks]
    exact List.getLast?_concat
  · have hspent := hp.spent
    rw [ArenaInner.capacities, hp.chunks, List.map_append, List.sum_append]
    simp only [List.map_cons, List.map_nil, List.sum_cons, List.sum_nil]
    omega

/-- An arena of 64 bytes, and three requests that each open a chunk: 100, 4090 and 9000 bytes. The
    last of them has 16384. -/
theorem footprint_le_three : ∃ s', ((machine ⟨false, false⟩).under (growing 9000)).Runs
      (Sess.small none)
      [.allocateRaw (some 16384) ⟨100, 8, ⟨3, rfl⟩, by decide⟩, .checkpoint,
        .allocateRaw (some 32768) ⟨4090, 8, ⟨3, rfl⟩, by decide⟩,
        .allocateRaw (some 65536) ⟨9000, 8, ⟨3, rfl⟩, by decide⟩] s' ∧
    s'.arena.inner.capacities = 24640 ∧
    ∃ d, s'.arena.inner.chunks.getLast? = some d ∧
      s'.arena.inner.capacities ≤ 2 * (107 + 4097 + 9007) + d.capacity ∧
      d.capacity ≤ largestChunk 64 9000 := by
  obtain ⟨s', hrun, hs'⟩ := System.exists_run_of_replay
    ((machine ⟨false, false⟩).under (growing 9000)) (Sess.small none)
    [.allocateRaw (some 16384) ⟨100, 8, ⟨3, rfl⟩, by decide⟩, .checkpoint,
      .allocateRaw (some 32768) ⟨4090, 8, ⟨3, rfl⟩, by decide⟩,
      .allocateRaw (some 65536) ⟨9000, 8, ⟨3, rfl⟩, by decide⟩]
    (P := fun s' => s'.arena.inner.capacities = 24640) (by decide)
  exact ⟨s', hrun, hs', (footprint_le ⟨false, false⟩ 9000 (c := ⟨8192, 64, 0⟩)
    (.init (Sess.init_small false)) rfl rfl hrun).1⟩

end ArenaB
