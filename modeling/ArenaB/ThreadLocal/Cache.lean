/-
  File:      ArenaB/ThreadLocal/Cache.lean
  Subject:   `ThreadCache` (src/thread_local.rs): blocks a thread gave back, kept for its next
             allocations.

  The cache is an array of 16 entries of which `used` are in use, and a total of their sizes that
  is kept on its own. It serves one arena at a time; a call for another one empties it first.

  * `alloc`, `dealloc`, `clear`, `clearPartial`, `cleanup` -- the functions of the source, the
    arithmetic wrapping as in a release build;
  * `held` -- the entries in use, and what each function does to them (`alloc_cases`,
    `dealloc_cases`), whatever the total is;
  * `Exact` -- the condition on a call, about the cache the call finds: an entry is taken at its own
    size; if a deposit finds the cache `Crowded`, the entries in its first half have half the bytes
    (`halfBytes`); no addition wraps;
  * **`cache_total`** -- in runs whose calls all meet it the total is the sum; a call keeps it
    exactly if it meets the condition. `cache_drifts`: the next subtraction underflows.
-/
import ArenaB.Base.Prefix
import ArenaB.Base.System
import ArenaB.Base.Word

namespace ArenaB

open Base

def threadCacheSize : Nat := 512

/-! ## 1. The cache -/

/-- `CacheEntry`. -/
structure CacheEntry where
  ptr : Nat
  size : Nat
  arenaId : Nat
  deriving DecidableEq, Repr

/-- The entry a new cache is filled with. -/
def CacheEntry.null : CacheEntry := ⟨0, 0, 0⟩

/-- `ThreadCache`; `entries` is an array of 16. -/
structure ThreadCache where
  entries : List CacheEntry
  used : Nat
  totalBytes : Nat
  arenaId : Nat
  deriving DecidableEq, Repr

namespace ThreadCache

/-- `ThreadCache::new`. -/
def new : ThreadCache := ⟨List.replicate 16 .null, 0, 0, 0⟩

/-- The entries in use. -/
def held (c : ThreadCache) : List CacheEntry := c.entries.take c.used

/-- `ThreadCache::clear`; the loop of the source reads the sizes and does nothing with them. -/
def clear (c : ThreadCache) : ThreadCache := { c with used := 0, totalBytes := 0 }

/-- `ThreadCache::clear_partial`. -/
def clearPartial (c : ThreadCache) : ThreadCache :=
  let clearCount := c.used / 2
  { c with
    entries := shiftDown clearCount .null (c.used - clearCount) c.entries
    used := c.used - clearCount
    totalBytes := c.totalBytes / 2 }

/-- The head of `alloc` and `dealloc`: a cache of another arena is emptied. -/
def enter (c : ThreadCache) (arenaId : Nat) : ThreadCache :=
  if c.arenaId ≠ arenaId then { c.clear with arenaId } else c

/-- The loop of `alloc`: the first entry in use that suits. -/
def find (c : ThreadCache) (size arenaId : Nat) : Option Nat :=
  c.held.findIdx? fun e => decide (e.size ≥ size) && decide (e.arenaId = arenaId)

/-- The rest of `alloc`: entry `i` is handed out. -/
def remove (c : ThreadCache) (i size : Nat) : ThreadCache :=
  { c with
    entries := swapRemove c.entries c.used i .null
    used := c.used - 1
    totalBytes := wsub c.totalBytes size }

/-- `ThreadCache::alloc`. -/
def alloc (c : ThreadCache) (size arenaId : Nat) : Option Nat × ThreadCache :=
  let c := c.enter arenaId
  match c.find size arenaId with
  | none => (none, c)
  | some i => (some (c.entries.getD i .null).ptr, c.remove i size)

/-- `dealloc` up to the insertion. -/
def makeRoom (c : ThreadCache) (size arenaId : Nat) : ThreadCache :=
  let c := c.enter arenaId
  if c.used ≥ c.entries.length ∨ wadd c.totalBytes size > threadCacheSize then c.clearPartial
  else c

/-- The insertion. -/
def insert (c : ThreadCache) (ptr size arenaId : Nat) : ThreadCache :=
  if c.used < c.entries.length ∧ wadd c.totalBytes size ≤ threadCacheSize then
    { c with
      entries := c.entries.set c.used ⟨ptr, size, arenaId⟩
      used := c.used + 1
      totalBytes := wadd c.totalBytes size }
  else c

/-- `ThreadCache::dealloc`. -/
def dealloc (c : ThreadCache) (ptr size arenaId : Nat) : ThreadCache :=
  (c.makeRoom size arenaId).insert ptr size arenaId

/-- `cleanup_thread_cache`. -/
def cleanup (c : ThreadCache) (arenaId : Nat) : ThreadCache :=
  if c.arenaId = arenaId then c.clear else c

end ThreadCache

/-- One call. -/
inductive CacheOp where
  | alloc (size arenaId : Nat)
  | dealloc (ptr size arenaId : Nat)
  | clear
  | cleanup (arenaId : Nat)
  deriving DecidableEq, Repr

/-- Performs a call. -/
def ThreadCache.exec (c : ThreadCache) : CacheOp → ThreadCache
  | .alloc size arenaId => (c.alloc size arenaId).2
  | .dealloc ptr size arenaId => c.dealloc ptr size arenaId
  | .clear => c.clear
  | .cleanup arenaId => c.cleanup arenaId

/-- The sizes are words. -/
def CacheOp.Word : CacheOp → Prop
  | .alloc size _ => size < wordMod
  | .dealloc _ size _ => size < wordMod
  | _ => True

instance (l : CacheOp) : Decidable l.Word := by
  unfold CacheOp.Word
  split <;> infer_instance

/-- Runs of the cache of one thread. -/
def threadCaches : System ThreadCache CacheOp where
  init c := c = .new
  ok _ l := l.Word
  step c l := some (c.exec l)

instance (c : ThreadCache) (l : CacheOp) : Decidable (threadCaches.ok c l) :=
  inferInstanceAs (Decidable l.Word)

/-! ## 2. What a call does to the entries in use -/

namespace ThreadCache

variable {c : ThreadCache}

/-- The array is as long as it was made, and the part in use lies in it. -/
structure Fits (c : ThreadCache) : Prop where
  length : c.entries.length = 16
  used : c.used ≤ 16

theorem Fits.length_held (h : c.Fits) : c.held.length = c.used := by
  rw [held, List.length_take, h.length]
  exact Nat.min_eq_left h.used

theorem fits_new : new.Fits := ⟨by decide, by decide⟩

theorem Fits.clear (h : c.Fits) : c.clear.Fits := ⟨h.length, Nat.zero_le _⟩

theorem held_clear (c : ThreadCache) : c.clear.held = [] := List.take_zero

theorem Fits.clearPartial (h : c.Fits) : c.clearPartial.Fits := by
  refine ⟨?_, ?_⟩
  · show (shiftDown _ _ _ _).length = 16
    rw [length_shiftDown, h.length]
  · exact (Nat.sub_le _ _).trans h.used

/-- **The shifting loop drops the first half.** -/
theorem Fits.held_clearPartial (h : c.Fits) : c.clearPartial.held = c.held.drop (c.used / 2) := by
  have h1 := h.length
  have h2 := h.used
  show (shiftDown _ _ _ _).take (c.used - c.used / 2) = _
  rw [take_shiftDown _ (by omega), Nat.sub_add_cancel (Nat.div_le_self _ _)]
  rfl

/-- A cache is entered as it is, or empty. -/
theorem enter_cases (c : ThreadCache) (a : Nat) : (c.arenaId = a ∧ c.enter a = c) ∨
    (c.arenaId ≠ a ∧ c.enter a = { c.clear with arenaId := a }) := by
  unfold enter
  by_cases h : c.arenaId = a
  · exact Or.inl ⟨h, if_neg (not_not_intro h)⟩
  · exact Or.inr ⟨h, if_pos h⟩

theorem Fits.enter (h : c.Fits) (a : Nat) : (c.enter a).Fits := by
  rcases c.enter_cases a with ⟨_, e⟩ | ⟨_, e⟩
  · rw [e]
    exact h
  · rw [e]
    exact ⟨h.length, Nat.zero_le _⟩

/-- The entry that was found suits and is in use. -/
theorem find_eq_some {size a i : Nat} (h : c.find size a = some i) :
    ∃ e, c.held[i]? = some e ∧ size ≤ e.size ∧ e.arenaId = a := by
  obtain ⟨hi, hp, _⟩ := List.findIdx?_eq_some_iff_getElem.mp h
  refine ⟨c.held[i], List.getElem?_eq_getElem hi, ?_⟩
  simpa using hp

theorem Fits.remove (h : c.Fits) (i size : Nat) : (c.remove i size).Fits :=
  ⟨(length_swapRemove _ _ _ _).trans h.length, (Nat.sub_le _ _).trans h.used⟩

/-- **Handing out an entry** removes it from those in use. -/
theorem Fits.held_remove (h : c.Fits) {i : Nat} {e : CacheEntry} (he : c.held[i]? = some e)
    (size : Nat) : c.held.Perm (e :: (c.remove i size).held) :=
  take_swapRemove (h.used.trans (Nat.le_of_eq h.length.symm)) he

theorem getD_of_held {i : Nat} {e : CacheEntry} (he : c.held[i]? = some e) :
    c.entries.getD i .null = e := by
  rw [held, List.getElem?_take] at he
  split at he
  · rw [List.getD_eq_getElem?_getD, he]
    rfl
  · cases he

/-- **The two outcomes of `alloc`.** -/
theorem alloc_cases (c : ThreadCache) (size a : Nat) :
    ((c.enter a).find size a = none ∧ c.alloc size a = (none, c.enter a)) ∨
      ∃ i e, (c.enter a).find size a = some i ∧ (c.enter a).held[i]? = some e ∧ size ≤ e.size ∧
        e.arenaId = a ∧ c.alloc size a = (some e.ptr, (c.enter a).remove i size) := by
  cases hf : (c.enter a).find size a with
  | none => exact Or.inl ⟨rfl, by simp only [alloc, hf]⟩
  | some i =>
      obtain ⟨e, he, hsize, ha⟩ := find_eq_some hf
      refine Or.inr ⟨i, e, rfl, he, hsize, ha, ?_⟩
      simp only [alloc, hf, getD_of_held he]

theorem Fits.alloc (h : c.Fits) (size a : Nat) : (c.alloc size a).2.Fits := by
  rcases c.alloc_cases size a with ⟨_, e⟩ | ⟨i, _, _, _, _, _, e⟩
  · rw [e]
    exact h.enter a
  · rw [e]
    exact (h.enter a).remove i size

/-- Making room drops entries only. -/
theorem makeRoom_cases (c : ThreadCache) (size a : Nat) :
    c.makeRoom size a = c.enter a ∨ c.makeRoom size a = (c.enter a).clearPartial := by
  simp only [makeRoom]
  split
  · exact Or.inr rfl
  · exact Or.inl rfl

theorem Fits.makeRoom (h : c.Fits) (size a : Nat) : (c.makeRoom size a).Fits := by
  rcases c.makeRoom_cases size a with e | e
  · rw [e]
    exact h.enter a
  · rw [e]
    exact (h.enter a).clearPartial

/-- **The two outcomes of the insertion.** -/
theorem Fits.insert_cases (h : c.Fits) (p size a : Nat) :
    (c.insert p size a = c ∧ ¬ (c.used < 16 ∧ wadd c.totalBytes size ≤ threadCacheSize)) ∨
      (c.used < 16 ∧ wadd c.totalBytes size ≤ threadCacheSize) ∧ (c.insert p size a).Fits ∧
        (c.insert p size a).held = c.held ++ [⟨p, size, a⟩] ∧
        (c.insert p size a).totalBytes = wadd c.totalBytes size := by
  unfold insert
  rw [h.length]
  by_cases hc : c.used < 16 ∧ wadd c.totalBytes size ≤ threadCacheSize
  · rw [if_pos hc]
    refine Or.inr ⟨hc, ⟨List.length_set.trans h.length, hc.1⟩, ?_, rfl⟩
    exact take_set_last (by rw [h.length]; exact hc.1) _
  · rw [if_neg hc]
    exact Or.inl ⟨rfl, hc⟩

theorem Fits.dealloc (h : c.Fits) (p size a : Nat) : (c.dealloc p size a).Fits := by
  have hm := h.makeRoom size a
  rcases hm.insert_cases p size a with ⟨e, _⟩ | ⟨_, hf, _⟩
  · rw [ThreadCache.dealloc, e]
    exact hm
  · exact hf

theorem Fits.exec (h : c.Fits) (l : CacheOp) : (c.exec l).Fits := by
  cases l with
  | alloc size a => exact h.alloc size a
  | dealloc p size a => exact h.dealloc p size a
  | clear => exact h.clear
  | cleanup a =>
      show (c.cleanup a).Fits
      unfold ThreadCache.cleanup
      split
      · exact h.clear
      · exact h

/-! ## 3. The total -/

/-- The sizes of the entries in use, added up. -/
def heldBytes (c : ThreadCache) : Nat := (c.held.map CacheEntry.size).sum

/-- The total is right and within its bound. -/
structure Balanced (c : ThreadCache) : Prop extends c.Fits where
  total : c.totalBytes = c.heldBytes
  bound : c.totalBytes ≤ threadCacheSize

theorem balanced_new : new.Balanced := ⟨fits_new, by decide, by decide⟩

theorem heldBytes_clear (c : ThreadCache) : c.clear.heldBytes = 0 := by
  rw [heldBytes, held_clear]
  rfl

theorem Balanced.clear (h : c.Balanced) : c.clear.Balanced :=
  ⟨h.toFits.clear, c.heldBytes_clear.symm, Nat.zero_le _⟩

theorem Balanced.enter (h : c.Balanced) (a : Nat) : (c.enter a).Balanced := by
  rcases c.enter_cases a with ⟨_, e⟩ | ⟨_, e⟩
  · rw [e]
    exact h
  · rw [e]
    exact ⟨⟨h.length, Nat.zero_le _⟩, c.heldBytes_clear.symm, Nat.zero_le _⟩

/-- The size of an entry handed out leaves the sum. -/
theorem Fits.heldBytes_remove (h : c.Fits) {i : Nat} {e : CacheEntry} (he : c.held[i]? = some e)
    (size : Nat) : c.heldBytes = e.size + (c.remove i size).heldBytes := by
  have := ((h.held_remove he size).map CacheEntry.size).sum_nat
  rwa [List.map_cons, List.sum_cons] at this

/-- No subtraction of `alloc` underflows where the total is right. -/
theorem Balanced.no_underflow (h : c.Balanced) {size a i : Nat} (hf : c.find size a = some i) :
    0 < c.used ∧ size ≤ c.totalBytes := by
  obtain ⟨e, he, hsize, _⟩ := find_eq_some hf
  have hi := (List.getElem?_eq_some_iff.mp he).1
  rw [h.length_held] at hi
  have hsum := h.heldBytes_remove he size
  rw [h.total]
  omega

/-- Taking an entry keeps the total right exactly if it is taken at its own size. -/
theorem Balanced.remove_iff (h : c.Balanced) {size a i : Nat} {e : CacheEntry}
    (hf : c.find size a = some i) (he : c.held[i]? = some e) (hsize : size ≤ e.size) :
    (c.remove i size).Balanced ↔ size = e.size := by
  have hle := (h.no_underflow hf).2
  have hsum := h.heldBytes_remove he size
  have hbound := h.bound
  have htot := h.total
  have hw : c.totalBytes < wordMod := Nat.lt_of_le_of_lt hbound (by decide)
  have hnew : (c.remove i size).totalBytes = c.totalBytes - size := wsub_eq hle hw
  constructor
  · intro hr
    have := hr.total
    omega
  · intro hs
    exact ⟨h.toFits.remove i size, by omega, by omega⟩

/-- The sizes of the first half of the entries in use, added up. -/
def halfBytes (c : ThreadCache) : Nat := ((c.held.take (c.used / 2)).map CacheEntry.size).sum

/-- No entry is free, or a block of the given size does not fit. -/
def Crowded (c : ThreadCache) (size : Nat) : Prop :=
  16 ≤ c.used ∨ threadCacheSize < wadd c.totalBytes size

instance (c : ThreadCache) (size : Nat) : Decidable (c.Crowded size) :=
  inferInstanceAs (Decidable (_ ∨ _))

/-- A partial clearing takes the first half out of the sum. -/
theorem Fits.halfBytes_add (h : c.Fits) : c.halfBytes + c.clearPartial.heldBytes = c.heldBytes := by
  rw [halfBytes, heldBytes, heldBytes, h.held_clearPartial, ← List.sum_append, ← List.map_append,
    List.take_append_drop]

/-- It keeps the total right exactly if the first half has half the bytes, rounded up. -/
theorem Balanced.clearPartial_iff (h : c.Balanced) :
    c.clearPartial.totalBytes = c.clearPartial.heldBytes ↔
      c.halfBytes = c.totalBytes - c.totalBytes / 2 := by
  have hsum := h.halfBytes_add
  have htotal := h.total
  show c.totalBytes / 2 = _ ↔ _
  omega

/-- `makeRoom` clears a crowded cache partially. -/
theorem Fits.makeRoom_eq (h : c.Fits) (size a : Nat) : c.makeRoom size a =
    if (c.enter a).Crowded size then (c.enter a).clearPartial else c.enter a := by
  simp only [ThreadCache.makeRoom, (h.enter a).length]
  rfl

/-- What `makeRoom` leaves, whether or not the total is right: space in the array, and a total
    that leaves no doubt whether the addition wraps. -/
theorem Balanced.makeRoom (h : c.Balanced) (size a : Nat) :
    (c.makeRoom size a).used < 16 ∧ (c.makeRoom size a).totalBytes ≤ threadCacheSize := by
  have hb := h.enter a
  have hused := hb.used
  have hbound := hb.bound
  simp only [ThreadCache.makeRoom]
  split
  · refine ⟨?_, (Nat.div_le_self _ _).trans hbound⟩
    show (c.enter a).used - (c.enter a).used / 2 < 16
    omega
  · rename_i hno
    rw [hb.length] at hno
    exact ⟨by omega, hbound⟩

theorem heldBytes_append {c c' : ThreadCache} {e : CacheEntry} (h : c'.held = c.held ++ [e]) :
    c'.heldBytes = c.heldBytes + e.size := by
  rw [heldBytes, h, List.map_append, List.sum_append]
  rfl

/-- An insertion keeps or makes the total right exactly if it was right and no addition wraps. -/
theorem Fits.insert_iff (h : c.Fits) (hused : c.used < 16) (hbound : c.totalBytes ≤ threadCacheSize)
    {p size a : Nat} (hsize : size < wordMod) :
    (c.insert p size a).Balanced ↔
      c.totalBytes = c.heldBytes ∧ c.totalBytes + size < wordMod := by
  have hcap : threadCacheSize < wordMod := by decide
  have hwrap : wordMod ≤ c.totalBytes + size →
      wadd c.totalBytes size = c.totalBytes + size - wordMod := by
    intro hge
    rw [wadd, Nat.mod_eq_sub_mod hge, Nat.mod_eq_of_lt (by omega)]
  rcases h.insert_cases p size a with ⟨e, hno⟩ | ⟨hyes, hf, hheld, htot⟩
  · rw [e]
    have hlt : c.totalBytes + size < wordMod := by
      by_contra hge
      have := hwrap (Nat.not_lt.mp hge)
      omega
    exact ⟨fun hb => ⟨hb.total, hlt⟩, fun hb => ⟨h, hb.1, hbound⟩⟩
  · have hsum : (c.insert p size a).heldBytes = c.heldBytes + size := heldBytes_append hheld
    constructor
    · intro hb
      have hnew := hb.total
      rw [htot, hsum] at hnew
      by_cases hlt : c.totalBytes + size < wordMod
      · rw [wadd_eq hlt] at hnew
        exact ⟨by omega, hlt⟩
      · have := hwrap (Nat.not_lt.mp hlt)
        omega
    · intro hb
      refine ⟨hf, ?_, ?_⟩
      · rw [htot, hsum, wadd_eq hb.2, hb.1]
      · rw [htot]
        exact hyes.2

end ThreadCache

/-- The condition on a call: an entry is handed out at its own size; a crowded cache has half of its
    bytes in the first half of its entries, so that halving the total is right; and the size does
    not overflow the total. -/
def Exact (c : ThreadCache) : CacheOp → Prop
  | .alloc size a =>
      match (c.enter a).find size a with
      | none => True
      | some i => size = ((c.enter a).entries.getD i .null).size
  | .dealloc _ size a =>
      let c := c.enter a
      if c.Crowded size then
        c.halfBytes = c.totalBytes - c.totalBytes / 2 ∧ c.totalBytes / 2 + size < wordMod
      else c.totalBytes + size < wordMod
  | _ => True

instance (c : ThreadCache) (l : CacheOp) : Decidable (Exact c l) := by
  unfold Exact
  split
  · split <;> infer_instance
  · infer_instance
  · infer_instance

namespace ThreadCache

variable {c : ThreadCache}

/-- **The condition is exact.** -/
theorem Balanced.exec_iff (h : c.Balanced) {l : CacheOp} (hl : l.Word) :
    (c.exec l).Balanced ↔ Exact c l := by
  cases l with
  | alloc size a =>
      have hb := h.enter a
      show (c.alloc size a).2.Balanced ↔ _
      rcases c.alloc_cases size a with ⟨hf, e⟩ | ⟨i, x, hf, hx, hsize, _, e⟩
      · simp only [e, Exact, hf]
        exact ⟨fun _ => trivial, fun _ => hb⟩
      · simp only [e, Exact, hf, getD_of_held hx]
        exact hb.remove_iff hf hx hsize
  | dealloc p size a =>
      have hb := h.enter a
      obtain ⟨hused, hbound⟩ := h.makeRoom size a
      refine ((h.toFits.makeRoom size a).insert_iff hused hbound hl).trans ?_
      rw [h.makeRoom_eq]
      simp only [Exact]
      split
      · exact and_congr_left' hb.clearPartial_iff
      · exact and_iff_right hb.total
  | clear => exact ⟨fun _ => trivial, fun _ => h.clear⟩
  | cleanup a =>
      refine ⟨fun _ => trivial, fun _ => ?_⟩
      show (c.cleanup a).Balanced
      unfold ThreadCache.cleanup
      split
      · exact h.clear
      · exact h

end ThreadCache

theorem reach_balanced {c : ThreadCache} (h : (threadCaches.under Exact).Reach c) :
    c.Balanced := by
  refine h.inv (P := ThreadCache.Balanced) (fun c hi => ?_) fun c l c' hc hok e => ?_
  · rw [hi]
    exact ThreadCache.balanced_new
  · cases e
    exact (hc.exec_iff hok.1).mpr hok.2

/-- **The total of a thread's cache**: in every run whose calls all meet the condition at most 16
    entries are in use, the total is the sum of their sizes and at most 512, and no subtraction
    underflows; a call keeps this exactly if it meets the condition, too. -/
theorem cache_total {c : ThreadCache} (h : (threadCaches.under Exact).Reach c) :
    (c.used ≤ 16 ∧ c.totalBytes = (c.held.map CacheEntry.size).sum ∧
      c.totalBytes ≤ threadCacheSize) ∧
    (∀ size a i, (c.enter a).find size a = some i →
      0 < (c.enter a).used ∧ size ≤ (c.enter a).totalBytes) ∧
    ∀ l : CacheOp, l.Word → ((c.exec l).Balanced ↔ Exact c l) := by
  have hb := reach_balanced h
  exact ⟨⟨hb.used, hb.total, hb.bound⟩, fun size a i hf => (hb.enter a).no_underflow hf,
    fun l hl => hb.exec_iff hl⟩

/-- Two entries of equal size, one of them dropped by a partial clearing. -/
theorem cache_total_halved : ∃ c, (threadCaches.under Exact).Reach c ∧
    (c.held = [⟨8192, 256, 1⟩, ⟨12288, 128, 1⟩] ∧ c.totalBytes = 384) ∧
    c.totalBytes = (c.held.map CacheEntry.size).sum := by
  obtain ⟨c, hr, hc⟩ := System.exists_reach_of_replay (threadCaches.under Exact)
    [.dealloc 4096 16 7, .alloc 16 7, .dealloc 4096 256 1, .dealloc 8192 256 1,
      .dealloc 12288 128 1]
    (P := fun c => c.held = [⟨8192, 256, 1⟩, ⟨12288, 128, 1⟩] ∧ c.totalBytes = 384)
    (s := .new) rfl (by decide)
  exact ⟨c, hr, hc, (cache_total hr).1.2.1⟩

/-- A block of 16 bytes taken for 8: the total says 8, the cache is empty. Two blocks of 512 bytes,
    the second refused: the total is halved, and the next withdrawal subtracts 512 from 256. -/
theorem cache_drifts :
    (∃ c, threadCaches.Reach c ∧ c.held = [] ∧ c.totalBytes = 8) ∧
    ∃ c, threadCaches.Reach c ∧ c.held = [⟨4096, 512, 1⟩] ∧ c.totalBytes = 256 ∧
      (c.enter 1).find 512 1 = some 0 := by
  refine ⟨?_, ?_⟩
  · exact System.exists_reach_of_replay threadCaches [.dealloc 4096 16 1, .alloc 8 1]
      (P := fun c => c.held = [] ∧ c.totalBytes = 8) (s := .new) rfl (by decide)
  · exact System.exists_reach_of_replay threadCaches [.dealloc 4096 512 1, .dealloc 8192 512 1]
      (P := fun c => c.held = [⟨4096, 512, 1⟩] ∧ c.totalBytes = 256 ∧
        (c.enter 1).find 512 1 = some 0) (s := .new) rfl (by decide)

end ArenaB
