/-
  File:      ArenaB/LockFree/Stats.lean
  Subject:   What `LockFreeStats` (src/lockfree.rs) reports of a buffer and of a pool.

  * `Tally` -- the calls on a buffer since its creation or last reset: what they returned and the
    way each went. `Tallied` is the invariant: every counter is an exact number of calls, modulo
    the word;
  * **`stats_exact_iff`** -- so the report is what it should be exactly if every call was served by
    its slab or found no block;
  * `Traffic` -- how many values `try_alloc` has taken off a pool and how many `dealloc` has put on
    it, in any interleaving of any threads;
  * **`pool_stats_iff`** -- the `allocations` of a pool are the difference of the two, modulo the
    word: right exactly while no more has been put on than taken off. But what is taken off was put
    on.
-/
import Mathlib.Data.Rat.Defs
import ArenaB.LockFree.Calls
import ArenaB.LockFree.Lifo

namespace ArenaB

open Base

universe u

/-! ## 1. What a call on a buffer counts -/

namespace LockFreeStats

/-- `LockFreeStats::cache_hit_rate`, before the quotient is rounded to an `f64`. -/
def cacheHitRate (s : LockFreeStats) : Rat :=
  let total := wadd s.cacheHits s.cacheMisses
  if total = 0 then 0 else s.cacheHits / total

end LockFreeStats

namespace Way

/-- The call counts an allocation it does not return, or its own twice. -/
def extraAllocation : Way → Bool
  | .oversize => true
  | .wasted => true
  | .refill => true
  | _ => false

/-- The call counts its miss twice. -/
def extraMiss : Way → Bool
  | .exhausted => true
  | _ => false

section Record

variable (w : Way) {s : LockFreeStats} {m : Nat}

theorem record_allocations (h : s.allocations = m % wordMod) : (w.record s).allocations =
    (m + w.served.toNat + w.extraAllocation.toNat) % wordMod := by
  unfold wordMod at h ⊢
  cases w <;>
    simp [record, served, extraAllocation, LockFreeStats.recordAllocation,
      LockFreeStats.recordCacheHit, LockFreeStats.recordCacheMiss, wadd, wordMod, h]

theorem record_cacheHits (h : s.cacheHits = m % wordMod) :
    (w.record s).cacheHits = (m + w.served.toNat) % wordMod := by
  unfold wordMod at h ⊢
  cases w <;>
    simp [record, served, LockFreeStats.recordAllocation, LockFreeStats.recordCacheHit,
      LockFreeStats.recordCacheMiss, wadd, wordMod, h]

theorem record_cacheMisses (h : s.cacheMisses = m % wordMod) : (w.record s).cacheMisses =
    (m + (!w.served).toNat + w.extraMiss.toNat) % wordMod := by
  unfold wordMod at h ⊢
  cases w <;>
    simp [record, served, extraMiss, LockFreeStats.recordAllocation, LockFreeStats.recordCacheHit,
      LockFreeStats.recordCacheMiss, wadd, wordMod, h]

end Record

end Way

/-- What the calls since creation or the last reset returned, and the ways they went. -/
structure Tally where
  results : List (Option Nat)
  ways : List Way

namespace Tally

/-- The number of calls. -/
def calls (t : Tally) : Nat := t.results.length

/-- The number of calls that returned a pointer. -/
def served (t : Tally) : Nat := t.results.countP Option.isSome

def extraAllocations (t : Tally) : Nat := t.ways.countP Way.extraAllocation

def extraMisses (t : Tally) : Nat := t.ways.countP Way.extraMiss

/-- The tally after one more call. -/
def next (b : LockFreeBuffer) (c : BufferCall) (t : Tally) : Tally :=
  match c with
  | .tryAlloc owner slab size align =>
      ⟨t.results ++ [(b.tryAlloc owner slab size align).1],
        t.ways ++ [b.way owner slab size align]⟩
  | .reset _ _ => ⟨[], []⟩

end Tally

/-- The runs of a new buffer, with the tally. -/
def talliedCalls : System (LockFreeBuffer × Tally) BufferCall :=
  bufferCalls.withGhost ⟨[], []⟩ Tally.next

instance (x : LockFreeBuffer × Tally) (c : BufferCall) : Decidable (talliedCalls.ok x c) :=
  isTrue trivial

/-- **What the counters hold**, next to the calls that were made. -/
structure Tallied (b : LockFreeBuffer) (t : Tally) : Prop where
  length : t.ways.length = t.calls
  served : t.ways.countP Way.served = t.served
  allocations : b.stats.allocations = (t.served + t.extraAllocations) % wordMod
  cacheHits : b.stats.cacheHits = t.served % wordMod
  cacheMisses : b.stats.cacheMisses = (t.calls - t.served + t.extraMisses) % wordMod

theorem Tally.served_le (t : Tally) : t.served ≤ t.calls := List.countP_le_length

/-- **One call**, whichever way it goes. -/
theorem Tallied.tryAlloc {b : LockFreeBuffer} {t : Tally} (h : Tallied b t) (owner : Nat)
    (slab : ThreadSlab) (size align : Nat) :
    Tallied (b.tryAlloc owner slab size align).2.1
      (t.next b (.tryAlloc owner slab size align)) := by
  have hg := b.tryAlloc_goes owner slab size align
  have hret := hg.returns
  have hstats := hg.stats
  have hle := t.served_le
  generalize hw : b.way owner slab size align = w at hg hret hstats
  have hserved : (t.next b (.tryAlloc owner slab size align)).served =
      t.served + w.served.toNat := by
    rw [Tally.next, Tally.served, countP_concat, hret]
    rfl
  have hcalls : (t.next b (.tryAlloc owner slab size align)).calls = t.calls + 1 :=
    List.length_append
  have hextra : (t.next b (.tryAlloc owner slab size align)).extraAllocations =
      t.extraAllocations + w.extraAllocation.toNat := by
    rw [Tally.next, Tally.extraAllocations, countP_concat, hw]
    rfl
  have hmiss : (t.next b (.tryAlloc owner slab size align)).extraMisses =
      t.extraMisses + w.extraMiss.toNat := by
    rw [Tally.next, Tally.extraMisses, countP_concat, hw]
    rfl
  refine ⟨?_, ?_, ?_, ?_, ?_⟩
  · rw [hcalls, ← h.length]
    exact List.length_append
  · rw [hserved, ← h.served, ← hw]
    exact countP_concat _ _ _
  · rw [hstats, w.record_allocations h.allocations, hserved, hextra]
    congr 1
    omega
  · rw [hstats, w.record_cacheHits h.cacheHits, hserved]
  · rw [hstats, w.record_cacheMisses h.cacheMisses, hserved, hcalls, hmiss]
    congr 1
    cases w.served <;>
      simp only [Bool.toNat_true, Bool.toNat_false, Bool.not_true, Bool.not_false] <;> omega

theorem reach_tallied {x : LockFreeBuffer × Tally} (h : talliedCalls.Reach x) :
    Tallied x.1 x.2 := by
  refine h.inv (P := fun x => Tallied x.1 x.2) (fun x hx => ?_) fun x c x' hx _ e => ?_
  · obtain ⟨⟨sys, hb⟩, ht⟩ := hx
    rw [hb, ht]
    exact ⟨rfl, rfl, rfl, rfl, rfl⟩
  · cases e
    cases c with
    | tryAlloc owner slab size align => exact hx.tryAlloc owner slab size align
    | reset slab mem => exact ⟨rfl, rfl, rfl, rfl, rfl⟩

/-- The call was served by the slab, or found no block. -/
def Way.Plain (w : Way) : Prop := w = .slab ∨ w = .unbacked

instance (w : Way) : Decidable w.Plain := inferInstanceAs (Decidable (_ ∨ _))

theorem Way.plain_iff (w : Way) :
    w.Plain ↔ ¬ w.extraAllocation = true ∧ ¬ w.extraMiss = true := by
  cases w <;> decide

/-- A counter that wraps shows `m` and nothing extra only if there is nothing extra. -/
theorem counter_eq_iff {m extra n : Nat} (hm : m ≤ n) (he : extra ≤ n) (hn : n < wordMod) :
    (m + extra) % wordMod = m ↔ extra = 0 := by
  unfold wordMod at hn ⊢
  omega

/-- Nothing extra has been counted exactly if every call was plain. -/
theorem Tally.plain_iff (t : Tally) :
    (∀ w ∈ t.ways, w.Plain) ↔ t.extraAllocations = 0 ∧ t.extraMisses = 0 := by
  simp only [extraAllocations, extraMisses, List.countP_eq_zero, Way.plain_iff]
  exact ⟨fun h => ⟨fun w hw => (h w hw).1, fun w hw => (h w hw).2⟩,
    fun h w hw => ⟨h.1 w hw, h.2 w hw⟩⟩

/-- **The statistics of a buffer** after `n` calls since creation or the last reset, `k` of them
    served: the hits are right, a region reserved and a call too large count one allocation too
    many, a refill out of room one miss too many. As long as 64 bits can count the calls, the report
    is `k`, `k` and `n - k` exactly if every call was served by its slab or found no block; then the
    hit rate is `k / n`. -/
theorem stats_exact_iff {x : LockFreeBuffer × Tally} (h : talliedCalls.Reach x) :
    x.1.stats.allocations = (x.2.served + x.2.extraAllocations) % wordMod ∧
    x.1.stats.cacheHits = x.2.served % wordMod ∧
    x.1.stats.cacheMisses = (x.2.calls - x.2.served + x.2.extraMisses) % wordMod ∧
    (x.2.calls < wordMod →
      ((x.1.stats.allocations = x.2.served ∧ x.1.stats.cacheHits = x.2.served ∧
        x.1.stats.cacheMisses = x.2.calls - x.2.served) ↔ ∀ w ∈ x.2.ways, w.Plain) ∧
      ((∀ w ∈ x.2.ways, w.Plain) → x.1.stats.cacheHits + x.1.stats.cacheMisses = x.2.calls ∧
        x.1.stats.cacheHitRate = (x.2.served : Rat) / x.2.calls)) := by
  have ht := reach_tallied h
  refine ⟨ht.allocations, ht.cacheHits, ht.cacheMisses, fun hn => ?_⟩
  have hle := x.2.served_le
  have hextra : x.2.extraAllocations ≤ x.2.calls := ht.length ▸ List.countP_le_length
  have hmiss : x.2.extraMisses ≤ x.2.calls := ht.length ▸ List.countP_le_length
  have hhits : x.1.stats.cacheHits = x.2.served := by
    rw [ht.cacheHits]
    exact Nat.mod_eq_of_lt (by omega)
  have hiff : (x.1.stats.allocations = x.2.served ∧ x.1.stats.cacheHits = x.2.served ∧
      x.1.stats.cacheMisses = x.2.calls - x.2.served) ↔ ∀ w ∈ x.2.ways, w.Plain := by
    rw [x.2.plain_iff, ht.allocations, ht.cacheMisses, counter_eq_iff hle hextra hn,
      counter_eq_iff (Nat.sub_le _ _) hmiss hn]
    exact ⟨fun h => ⟨h.1, h.2.2⟩, fun h => ⟨h.1, hhits, h.2⟩⟩
  refine ⟨hiff, fun hplain => ?_⟩
  obtain ⟨_, _, hmisses⟩ := hiff.mpr hplain
  have hsum : x.1.stats.cacheHits + x.1.stats.cacheMisses = x.2.calls := by
    rw [hhits, hmisses]
    omega
  refine ⟨hsum, ?_⟩
  rw [LockFreeStats.cacheHitRate, wadd_eq (hsum ▸ hn), hsum, hhits]
  by_cases h0 : x.2.calls = 0
  · rw [if_pos h0, h0]
    simp
  · rw [if_neg h0]

/-- Two calls served by a slab that an earlier buffer has left at the same address. -/
theorem stats_exact_leftover : ∃ x, talliedCalls.Reach x ∧ (x.2.calls = 2 ∧ x.2.served = 2) ∧
    (x.1.stats.allocations = 2 ∧ x.1.stats.cacheHits = 2 ∧ x.1.stats.cacheMisses = 0) ∧
    x.1.stats.cacheHitRate = 2 / 2 := by
  obtain ⟨x, hr, ⟨hcalls, hserved⟩, hplain⟩ := System.exists_reach_of_replay talliedCalls
    [.tryAlloc 64 ⟨64, 8192, 0, 256, 8, 0⟩ 8 8, .tryAlloc 64 ⟨64, 8192, 0, 256, 16, 0⟩ 128 16]
    (s := (.new (some 8192), ⟨[], []⟩))
    (P := fun x => (x.2.calls = 2 ∧ x.2.served = 2) ∧ ∀ w ∈ x.2.ways, w.Plain)
    ⟨⟨_, rfl⟩, rfl⟩ (by decide)
  obtain ⟨_, _, _, hexact⟩ := stats_exact_iff hr
  obtain ⟨hiff, hrest⟩ := hexact (by rw [hcalls]; decide)
  have hreport := hiff.mpr hplain
  obtain ⟨_, hrate⟩ := hrest hplain
  rw [hcalls, hserved] at hreport hrate
  exact ⟨x, hr, ⟨hcalls, hserved⟩, hreport, hrate⟩

/-- **Calls counted twice**: the first call on a new buffer counts two allocations, a call of 2000
    bytes counts one and returns nothing, and the call that finds no room counts two misses. -/
theorem stats_overcount :
    (∃ x, talliedCalls.Reach x ∧ x.2.calls = 1 ∧ x.2.served = 1 ∧ x.1.stats.get = (2, 1, 0, 0)) ∧
    (∃ x, talliedCalls.Reach x ∧ x.2.calls = 1 ∧ x.2.served = 0 ∧ x.1.stats.get = (1, 0, 1, 0)) ∧
    ∃ x, talliedCalls.Reach x ∧ x.2.calls = 5 ∧ x.2.served = 4 ∧ x.1.stats.get = (8, 4, 2, 0) := by
  refine ⟨?_, ?_, ?_⟩
  · exact System.exists_reach_of_replay talliedCalls [.tryAlloc 64 .new 8 8]
      (s := (.new (some 8192), ⟨[], []⟩))
      (P := fun x => x.2.calls = 1 ∧ x.2.served = 1 ∧ x.1.stats.get = (2, 1, 0, 0))
      ⟨⟨_, rfl⟩, rfl⟩ (by decide)
  · exact System.exists_reach_of_replay talliedCalls [.tryAlloc 64 .new 2000 8]
      (s := (.new (some 8192), ⟨[], []⟩))
      (P := fun x => x.2.calls = 1 ∧ x.2.served = 0 ∧ x.1.stats.get = (1, 0, 1, 0))
      ⟨⟨_, rfl⟩, rfl⟩ (by decide)
  · -- another thread each time, so every call reserves a region of its own
    exact System.exists_reach_of_replay talliedCalls (List.replicate 5 (.tryAlloc 64 .new 1024 8))
      (s := (.new (some 8192), ⟨[], []⟩))
      (P := fun x => x.2.calls = 5 ∧ x.2.served = 4 ∧ x.1.stats.get = (8, 4, 2, 0))
      ⟨⟨_, rfl⟩, rfl⟩ (by decide)

/-! ## 2. What a pool counts -/

/-- How many values `try_alloc` has taken off the stack, and how many `dealloc` has put on it. -/
structure Traffic where
  taken : Nat
  put : Nat
  deriving DecidableEq, Repr

namespace Traffic

variable {T : Type u}

/-- The traffic after the next step of a thread at the given place: the two exchanges count. -/
def pass (s : LockFreePool T) (spurious : Bool) (c : Traffic) : Pc T → Traffic
  | .popCas head _ =>
      if s.head = head ∧ spurious = false then { c with taken := c.taken + 1 } else c
  | .pushCas _ head =>
      if s.head = head ∧ spurious = false then { c with put := c.put + 1 } else c
  | _ => c

/-- The traffic after one more step. -/
def next (s : LockFreePool T) (st : PoolStep T) (c : Traffic) : Traffic :=
  match st with
  | .run t spurious => (s.threads[t]?.map (c.pass s spurious)).getD c
  | _ => c

end Traffic

/-- The runs of any threads on a new pool, with the traffic. -/
def countedPools (T : Type u) : System (LockFreePool T × Traffic) (PoolStep T) :=
  (lockFreePools T).withGhost ⟨0, 0⟩ Traffic.next

instance (T : Type u) (x : LockFreePool T × Traffic) (st : PoolStep T) :
    Decidable ((countedPools T).ok x st) :=
  inferInstanceAs (Decidable ((lockFreePools T).ok x.1 st))

/-- **What the counter holds**: the difference of the two, modulo the word. -/
structure Counts (stats : LockFreeStats) (c : Traffic) : Prop where
  lt : stats.allocations < wordMod
  eq : (stats.allocations + c.put) % wordMod = c.taken % wordMod

section Pool

variable {T : Type u} {s s' : LockFreePool T} {c : Traffic}

theorem Counts.take {st : LockFreeStats} (h : Counts st c) :
    Counts st.recordAllocation.recordCacheHit { c with taken := c.taken + 1 } := by
  obtain ⟨_, h2⟩ := h
  simp only [LockFreeStats.recordAllocation, LockFreeStats.recordCacheHit, wadd]
  refine ⟨Nat.mod_lt _ (by decide), ?_⟩
  unfold wordMod at *
  simp only
  omega

theorem Counts.put {st : LockFreeStats} (h : Counts st c) :
    Counts st.recordDeallocation { c with put := c.put + 1 } := by
  obtain ⟨h1, h2⟩ := h
  simp only [LockFreeStats.recordDeallocation, wsub]
  refine ⟨Nat.mod_lt _ (by decide), ?_⟩
  unfold wordMod at *
  simp only
  omega

/-- The next step of a thread, in any pool. -/
theorem Counts.run (h : Counts s.stats c) (t : Nat) (spurious : Bool) (pc : Pc T) :
    Counts (s.run t spurious pc).stats (c.pass s spurious pc) := by
  cases pc with
  | popCas head next =>
      simp only [LockFreePool.run, Traffic.pass]
      split
      · exact h.take
      · exact ⟨h.lt, h.eq⟩
  | pushCas node head =>
      simp only [LockFreePool.run, Traffic.pass]
      split
      · exact h.put
      · exact ⟨h.lt, h.eq⟩
  | idle => exact h
  | popCheck | popLoad =>
      -- a pool found empty records a miss
      simp only [LockFreePool.run, Traffic.pass]
      split <;> exact ⟨h.lt, h.eq⟩
  | pushLoad node => exact h
  | popNext _ | popRead _ | popFree _ _ _ | pushStore _ _ =>
      simp only [LockFreePool.run, Traffic.pass]
      split <;> exact h

theorem Counts.step (h : Counts s.stats c) {st : PoolStep T} (e : s.exec st = some s') :
    Counts s'.stats (c.next s st) := by
  cases st with
  | tryAlloc t =>
      simp only [LockFreePool.exec] at e
      split at e <;> cases e
      exact h
  | dealloc t data addr =>
      simp only [LockFreePool.exec] at e
      split at e <;> cases e
      exact h
  | run t spurious =>
      obtain ⟨pc, ht, rfl⟩ := Option.map_eq_some_iff.mp e
      simp only [Traffic.next, ht, Option.map_some, Option.getD_some]
      exact h.run t spurious pc

theorem reach_counts {x : LockFreePool T × Traffic} (h : (countedPools T).Reach x) :
    Counts x.1.stats x.2 := by
  refine h.inv (P := fun x => Counts x.1.stats x.2) (fun x hi => ?_) fun x st x' hx _ e => ?_
  · obtain ⟨s, c⟩ := x
    obtain ⟨⟨n, rfl⟩, rfl⟩ := hi
    exact ⟨(by decide : 0 < wordMod), rfl⟩
  · obtain ⟨s', hs', rfl⟩ := Option.map_eq_some_iff.mp e
    exact hx.step hs'

/-- In a safe pool the exchanges are what takes effect. -/
theorem pass_effect (hs : s.Safe) {t : Nat} {pc : Pc T} (ht : s.threads[t]? = some pc)
    (spurious : Bool) (c : Traffic) : c.pass s spurious pc =
      ⟨c.taken + (popped (s.effect spurious pc).toList).length,
        c.put + (pushed (s.effect spurious pc).toList).length⟩ := by
  have hg := hs.good pc (List.mem_of_getElem? ht)
  cases pc with
  | popCas head next =>
      simp only [Traffic.pass, LockFreePool.effect]
      split
      · rename_i hc
        obtain ⟨rfl, _⟩ := hc
        obtain ⟨⟨n, hn⟩, _⟩ := hs.head_node hg.1
        simp only [LockFreePool.value, hn, Option.map_some]
        rfl
      · rfl
  | pushCas node head =>
      obtain ⟨n, hn, _⟩ := hg
      simp only [Traffic.pass, LockFreePool.effect]
      split
      · simp only [LockFreePool.value, hn, Option.map_some]
        rfl
      · rfl
  | popCheck | popLoad =>
      simp only [Traffic.pass, LockFreePool.effect]
      split <;> rfl
  | _ => rfl

/-- The traffic is that of a history. -/
def Traffic.Of (c : Traffic) (hist : History T) : Prop :=
  c.taken = (popped (hist.log.map Prod.snd)).length ∧
    c.put = (pushed (hist.log.map Prod.snd)).length

theorem Traffic.Of.next {hist : History T} (h : c.Of hist) (hs : s.Safe) {st : PoolStep T}
    (e : s.exec st = some s') : (c.next s st).Of (History.next s st hist) := by
  cases st with
  | tryAlloc t => exact h
  | dealloc t data addr => exact h
  | run t spurious =>
      obtain ⟨pc, ht, rfl⟩ := Option.map_eq_some_iff.mp e
      have hlog : (History.next s (.run t spurious) hist).log.map Prod.snd =
          hist.log.map Prod.snd ++ (s.effect spurious pc).toList := by
        simp only [History.next, ht, Option.bind_some, List.map_append]
        cases s.effect spurious pc <;> rfl
      unfold Traffic.Of
      rw [hlog, popped_append, pushed_append, List.length_append, List.length_append, ← h.1, ← h.2]
      simp only [Traffic.next, ht, Option.map_some, Option.getD_some, pass_effect hs ht, and_self]

/-- **With one thread at a time inside `try_alloc`** no more is taken than was put. -/
theorem taken_le_put {x : LockFreePool T × Traffic}
    (h : ((countedPools T).under fun x st => Solo x.1 st).Reach x) : x.2.taken ≤ x.2.put := by
  have hr : ∃ hist, x.1.Refines hist ∧ x.2.Of hist := by
    refine h.inv (P := fun x => ∃ hist, x.1.Refines hist ∧ x.2.Of hist) (fun x hi => ?_)
      fun x st x' hx hok e => ?_
    · obtain ⟨s, c⟩ := x
      obtain ⟨⟨n, rfl⟩, rfl⟩ := hi
      exact ⟨_, LockFreePool.refines_start n, rfl, rfl⟩
    · obtain ⟨hist, hrefines, hof⟩ := hx
      obtain ⟨s', hs', rfl⟩ := Option.map_eq_some_iff.mp e
      exact ⟨_, hrefines.step hok.1 hok.2 hs', hof.next hrefines.safe hs'⟩
  obtain ⟨hist, hrefines, htaken, hput⟩ := hr
  obtain ⟨l, hl⟩ := hrefines.stacked
  rw [htaken, hput, hl.lifo.perm.length_eq, List.length_append]
  exact Nat.le_add_right _ _

end Pool

/-- **The statistics of a pool**, in every interleaving of any threads: the counter is the number of
    values taken less the number put, modulo the word. As long as 64 bits can count either, it has
    not gone below zero and is at most the number of calls served, exactly while no more has been
    put than taken; and with one thread at a time inside `try_alloc` never less has been put than
    taken, so a single value on the stack is enough to break it. -/
theorem pool_stats_iff {T : Type u} {x : LockFreePool T × Traffic} (h : (countedPools T).Reach x) :
    (x.1.stats.get.1 : Int) = ((x.2.taken : Int) - x.2.put) % 2 ^ 64 ∧
    (x.2.taken < 2 ^ 64 → x.2.put < 2 ^ 64 →
      (((x.1.stats.get.1 : Int) = x.2.taken - x.2.put ∧ x.1.stats.get.1 ≤ x.2.taken) ↔
        x.2.put ≤ x.2.taken)) ∧
    (((countedPools T).under fun x st => Solo x.1 st).Reach x → x.2.taken ≤ x.2.put) := by
  obtain ⟨hlt, heq⟩ := reach_counts h
  have hget : x.1.stats.get.1 = x.1.stats.allocations := rfl
  unfold wordMod at hlt heq
  rw [hget]
  refine ⟨by omega, fun h1 h2 => ⟨fun h => ?_, fun h => ?_⟩, taken_le_put⟩
  · omega
  · omega

/-- One value put on a pool and taken off it again. -/
theorem pool_stats_returned : ∃ x, (countedPools Nat).Reach x ∧
    (x.2 = ⟨1, 1⟩ ∧ x.1.returned = [(0, 10)]) ∧ x.1.stats.get.1 ≤ x.2.taken := by
  obtain ⟨x, hr, htraffic, hret⟩ := System.exists_reach_of_replay (countedPools Nat)
    [.dealloc 0 10 8, .run 0 false, .run 0 false, .run 0 false,
      .tryAlloc 0, .run 0 false, .run 0 false, .run 0 false, .run 0 false, .run 0 false,
      .run 0 false] (P := fun x => x.2 = ⟨1, 1⟩ ∧ x.1.returned = [(0, 10)])
    (s := (.start Nat 1, ⟨0, 0⟩)) ⟨⟨1, rfl⟩, rfl⟩ (by decide)
  obtain ⟨_, hiff, _⟩ := pool_stats_iff hr
  have hle : x.2.put ≤ x.2.taken := by rw [htraffic]
  exact ⟨x, hr, ⟨htraffic, hret⟩,
    ((hiff (by rw [htraffic]; decide) (by rw [htraffic]; decide)).mpr hle).2⟩

/-- **A pool filled before anything is taken out**: after one `dealloc` on a new pool the counter of
    allocations stands at `2 ^ 64 - 1`. -/
theorem pool_stats_underflow : ∃ x, (countedPools Nat).Reach x ∧
    x.1.threads = [.idle] ∧ x.2 = ⟨0, 1⟩ ∧ x.1.stats.get = (2 ^ 64 - 1, 0, 0, 0) :=
  System.exists_reach_of_replay (countedPools Nat)
    [.dealloc 0 10 8, .run 0 false, .run 0 false, .run 0 false]
    (s := (.start Nat 1, ⟨0, 0⟩)) ⟨⟨1, rfl⟩, rfl⟩ (by decide)

end ArenaB
