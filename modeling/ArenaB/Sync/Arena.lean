/-
  File:      ArenaB/Sync/Arena.lean
  Subject:   `SyncArena` (src/lib.rs): an arena that any number of threads use through a mutex.

  The only way to allocate is `scope`: it locks, makes a `Scope`, runs the caller's closure on it,
  and drops the scope and then the guard, also while a panic unwinds. A later `lock` ignores that
  the mutex is poisoned. The closure has what `Scope` offers: allocations, checkpoints, rewinds to
  them, `Scope::reset`. `stats` and `bytes_allocated` lock and read.

  * `Guarded` -- the arena, the allocations of the open scope, each thread's slab, what `stats`
    reported; `syncArenas f` -- what can be done to it, by any thread at any time;
  * `sync f` -- the same behind the mutex (`Base.locked`);
  * `Clean` -- nothing is allocated; `Guarded.Inv`, **`Inv.step`**;
  * **`sync_sound`** -- scopes exclude each other, live allocations are apart and keep their bytes,
    a scope can always end, and between scopes the arena is as good as new.
-/
import ArenaB.Base.Lock
import ArenaB.Arena.Lockfree
import ArenaB.Arena.Foreign

namespace ArenaB

open Base

namespace SyncArena

/-! ## 1. What the mutex guards -/

/-- The arena with the live allocations of the open scope, the slabs of the threads, the thread
    whose scope is open, the results of `stats`. -/
structure Guarded where
  sess : Sess
  slabs : Nat → ThreadSlab
  opener : Option Nat
  reports : List ArenaStats

/-- What a thread does. -/
inductive Call where
  /-- `Arena::scope` up to the call of the closure. -/
  | scope (t : Nat)
  | use (t : Nat) (op : Op)
  /-- The closure has returned or panicked, and the scope is dropped. -/
  | drop (t : Nat)
  /-- `SyncArena::stats` and `bytes_allocated`. -/
  | stats (t : Nat)
  /-- The thread has used other lock-free buffers, which left their own region in its slab. -/
  | elsewhere (t : Nat) (slab : ThreadSlab)

/-- The thread that makes the call. -/
def Call.who : Call → Nat
  | .scope t => t
  | .use t _ => t
  | .drop t => t
  | .stats t => t
  | .elsewhere t _ => t

/-- The operations of `Scope`, and writing through what it returned. -/
def ofScope : Op → Bool
  | .allocateRaw _ _ => true
  | .alloc _ _ => true
  | .allocSliceCopy _ _ => true
  | .write _ _ _ => true
  | .checkpoint => true
  | .rewindToCheckpoint _ => true
  | .scopeReset i => i == 0
  | _ => false

namespace Guarded

/-- The arena as thread `t` finds it, with its own slab. -/
def view (s : Guarded) (t : Nat) : Sess :=
  ⟨{ s.sess.arena with slab := s.slabs t }, s.sess.ledger⟩

/-- The arena as thread `t` leaves it. -/
def put (s : Guarded) (t : Nat) (sess : Sess) : Guarded :=
  { s with sess := sess, slabs := Function.update s.slabs t sess.arena.slab }

/-- One call. -/
def exec (debug : Bool) (s : Guarded) : Call → Option Guarded
  | .scope t =>
      if s.opener = none then
        ((s.view t).exec debug .scopeNew).map fun sess => { s.put t sess with opener := some t }
      else none
  | .use t op =>
      if s.opener ≠ none ∧ ofScope op = true then ((s.view t).exec debug op).map (s.put t)
      else none
  | .drop t =>
      if s.opener ≠ none then
        ((s.view t).exec debug (.scopeDrop 0)).map fun sess =>
          { s.put t ⟨sess.arena, .empty⟩ with opener := none }
      else none
  | .stats _ =>
      if s.opener = none then
        some { s with reports := s.reports ++ [s.sess.arena.inner.stats] }
      else none
  | .elsewhere t slab => some { s with slabs := Function.update s.slabs t slab }

end Guarded

/-- The system allocator returns free blocks, and other buffers do not write our region into a
    slab. -/
def Ok (s : Guarded) : Call → Prop
  | .use _ op => ∀ blk ∈ op.block, s.sess.arena.inner.Fresh blk
  | .elsewhere _ slab => slab.Foreign s.sess.arena.owner
  | _ => True

instance (s : Guarded) : (c : Call) → Decidable (Ok s c)
  | .use _ op => inferInstanceAs (Decidable (∀ blk ∈ op.block, s.sess.arena.inner.Fresh blk))
  | .elsewhere _ slab => inferInstanceAs (Decidable (slab.Foreign s.sess.arena.owner))
  | .scope _ => isTrue trivial
  | .drop _ => isTrue trivial
  | .stats _ => isTrue trivial

/-- A new arena, which no thread has used. -/
def syncArenas (f : Features) : System Guarded Call where
  init s := s.sess.Init f ∧ (∀ t, (s.slabs t).Foreign s.sess.arena.owner) ∧ s.opener = none ∧
    s.reports = []
  ok := Ok
  step s c := s.exec f.debug c

instance (f : Features) (s : Guarded) (c : Call) : Decidable ((syncArenas f).ok s c) :=
  inferInstanceAs (Decidable (Ok s c))

/-- With a lock-free buffer: a rewind inside a scope finds no older live allocation in the
    buffer. -/
def Careful (s : Guarded) : Call → Prop
  | .use t op => RewindsMeet Undisturbed (s.view t) op
  | _ => True

instance (s : Guarded) : (c : Call) → Decidable (Careful s c)
  | .use t op => inferInstanceAs (Decidable (RewindsMeet Undisturbed (s.view t) op))
  | .scope _ => isTrue trivial
  | .drop _ => isTrue trivial
  | .stats _ => isTrue trivial
  | .elsewhere _ _ => isTrue trivial

/-- `SyncArena`: the arena behind its mutex. -/
def sync (f : Features) : System (Locked Guarded) (LockStep Call) :=
  locked ((syncArenas f).under Careful) Call.who Guarded.opener

instance (f : Features) (s : Locked Guarded) (l : LockStep Call) : Decidable ((sync f).ok s l) :=
  inferInstanceAs (Decidable ((locked ((syncArenas f).under Careful) Call.who
    Guarded.opener).ok s l))

/-! ## 2. What a scope leaves alone -/

/-- What the operations of a scope do not undo. -/
structure Keeps (s s' : Sess) : Prop where
  owner : s'.arena.owner = s.arena.owner
  checkpoints : s.arena.inner.checkpoints = [] → s'.arena.inner.checkpoints = []
  first : ∀ m, s.ledger.marks[0]? = some m → s'.ledger.marks[0]? = some m
  bytes : s.arena.inner.stats.bytesAllocated ≤ s'.arena.inner.stats.bytesAllocated
  chunks : s.arena.inner.chunks.length ≤ s'.arena.inner.chunks.length
  counted : s.arena.inner.stats.chunkCount = s.arena.inner.chunks.length →
    s'.arena.inner.stats.chunkCount = s'.arena.inner.chunks.length

section Keeps

variable {s s' : Sess} {debug : Bool}

/-- Nothing but the bump position and the memory. -/
theorem Keeps.same {w : Arena} {L : Ledger Obj ArenaCheckpoint} (hs : s.arena.inner.Same w.inner)
    (ho : w.owner = s.arena.owner)
    (hb : w.inner.stats.bytesAllocated = s.arena.inner.stats.bytesAllocated)
    (hc : w.inner.stats.chunkCount = s.arena.inner.stats.chunkCount)
    (hm : ∀ m, s.ledger.marks[0]? = some m → L.marks[0]? = some m) : Keeps s ⟨w, L⟩ where
  owner := ho
  checkpoints h := hs.checkpoints.trans h
  first := hm
  bytes := Nat.le_of_eq hb.symm
  chunks := Nat.le_of_eq (congrArg List.length hs.chunks).symm
  counted h := by
    show w.inner.stats.chunkCount = w.inner.chunks.length
    rw [hc, hs.chunks, h]

theorem tryLockfree_stats {w w' : Arena} {l : Layout} {r : Option Nat}
    (e : w.tryLockfree l = (r, w')) :
    w'.inner.stats.bytesAllocated = w.inner.stats.bytesAllocated ∧
      w'.inner.stats.chunkCount = w.inner.stats.chunkCount := by
  unfold Arena.tryLockfree at e
  split at e
  · cases e
    exact ⟨rfl, rfl⟩
  · split at e
    · split at e <;> cases e <;> exact ⟨rfl, rfl⟩
    · cases e
      exact ⟨rfl, rfl⟩

/-- What an allocation does to the counters of the chunks. -/
theorem allocateOrGrow_stats {a a' : ArenaInner} (hs : a.Shape) {sys : Option Nat} {l : Layout}
    {p : Nat} (e : a.allocateOrGrow sys l = some (p, a')) :
    a.stats.bytesAllocated ≤ a'.stats.bytesAllocated ∧ a.chunks.length ≤ a'.chunks.length ∧
      (a.stats.chunkCount = a.chunks.length → a'.stats.chunkCount = a'.chunks.length) := by
  rcases ArenaInner.allocateOrGrow_cases e with e | ⟨_, n, a₁, e₁, e₂⟩
  · obtain ⟨c, _, _, _, rfl⟩ := (ArenaInner.allocate_eq_some hs).mp e
    simp
  · have hs₁ := (hs.addChunk e₁).1
    obtain ⟨c, _, _, _, _, rfl⟩ := ArenaInner.addChunk_ok e₁
    obtain ⟨c', _, _, _, rfl⟩ := (ArenaInner.allocate_eq_some hs₁).mp e₂
    simp

/-- **An allocation**, on whichever path. -/
theorem Keeps.take (hs : s.arena.inner.Shape) {sys : Option Nat} {l : Layout} {p : Nat}
    {w' : Arena} (e : s.arena.allocateRaw sys l = some (p, w')) (m : Mem) (o : Obj) :
    Keeps s ⟨w'.withMem m, s.ledger.record o⟩ := by
  rcases Arena.allocateRaw_cases e with ⟨_, _, rfl⟩ | ⟨_, hl⟩ | ⟨_, w₁, a', hl, ha, rfl⟩
  · exact .same ⟨rfl, rfl, rfl, rfl⟩ rfl rfl rfl fun _ h => h
  · obtain ⟨hsame, ho, _⟩ := Arena.tryLockfree_same hl
    obtain ⟨hb, hc⟩ := tryLockfree_stats hl
    exact .same hsame ho hb hc fun _ h => h
  · obtain ⟨hsame, ho, _⟩ := Arena.tryLockfree_same hl
    obtain ⟨hb, hc⟩ := tryLockfree_stats hl
    obtain ⟨hgs, hg, _⟩ := ArenaInner.allocateOrGrow_spec (hsame.shape hs) ha
    obtain ⟨h₁, h₂, h₃⟩ := allocateOrGrow_stats (hsame.shape hs) ha
    have hlen : w₁.inner.chunks.length = s.arena.inner.chunks.length :=
      congrArg List.length hsame.chunks
    refine ⟨ho, fun h => hg.checkpoints.trans (hsame.checkpoints.trans h), fun _ h => h,
      hb ▸ h₁, hlen ▸ h₂, fun h => h₃ ?_⟩
    have hc' : w₁.inner.stats.chunkCount = s.arena.inner.stats.chunkCount := hc
    rw [hc', h, hlen]

/-- **A rewind** to any checkpoint. -/
theorem Keeps.rewind {i : Nat} {cp : ArenaCheckpoint} {a' : ArenaInner}
    (ha : s.arena.inner.rewindToCheckpoint debug cp = some a') :
    Keeps s ⟨(s.arena.withInner a').resetBuffer, s.ledger.rewind i⟩ := by
  have hsame := Arena.same_resetBuffer (s.arena.withInner a')
  obtain ⟨_, rfl⟩ := ArenaInner.rewind_eq_some.mp ha
  have hlen : (s.arena.withInner _).resetBuffer.inner.chunks.length =
      s.arena.inner.chunks.length := (congrArg List.length hsame.chunks).trans List.length_mapIdx
  refine ⟨rfl, fun h => ?_, fun m' h' => ?_, ?_, Nat.le_of_eq hlen.symm, fun h => ?_⟩
  · refine hsame.checkpoints.trans ?_
    show s.arena.inner.checkpoints.filter _ = []
    rw [h]
    rfl
  · show (s.ledger.marks.take (i + 1))[0]? = some m'
    rw [List.getElem?_take, if_pos (Nat.succ_pos i)]
    exact h'
  · rw [Arena.resetBuffer_stats]
    exact Nat.le_refl _
  · rw [Arena.resetBuffer_stats, hlen]
    exact h

/-- **Every operation of a scope.** -/
theorem Keeps.exec (hs : s.arena.inner.Shape) {op : Op} (hop : ofScope op = true)
    (e : s.exec debug op = some s') : Keeps s s' := by
  cases s.exec_acts e with
  | take _ hw _ _ => exact .take hs hw _ _
  | skip _ => exact .same ⟨rfl, rfl, rfl, rfl⟩ rfl rfl rfl fun _ h => h
  | write _ _ => exact .same ⟨rfl, rfl, rfl, rfl⟩ rfl rfl rfl fun _ h => h
  | mark _ ha =>
      rw [ArenaInner.checkpoint_eq hs] at ha
      cases ha
      refine ⟨rfl, fun h => h, fun m h => ?_, Nat.le_refl _, Nat.le_refl _, fun h => h⟩
      exact (List.getElem?_append_left (List.getElem?_eq_some_iff.mp h).1).trans h
  | rewind _ _ ha => exact .rewind ha
  | push _ => cases hop
  | pop _ _ => cases hop
  | clear => cases hop
  | reset => cases hop
  | shrink => cases hop

end Keeps

/-! ## 3. The arena between scopes -/

/-- Nothing is allocated: every chunk is empty, the first is current, the counters are back. -/
structure Clean (a : ArenaInner) : Prop where
  current : a.currentChunk = 0
  used : ∀ c ∈ a.chunks, c.used = 0
  bytesUsed : a.stats.bytesUsed = 0
  allocationCount : a.stats.allocationCount = 0
  buffer : ∀ b ∈ a.lockfreeBuffer, b.offset = 0

/-- A checkpoint of an arena with nothing allocated. -/
structure AtStart (cp : ArenaCheckpoint) : Prop where
  index : cp.chunkIndex = 0
  offset : cp.chunkOffset = 0
  count : cp.allocationCount = 0

theorem Clean.checkpoint {a a' : ArenaInner} {cp : ArenaCheckpoint} (h : Clean a) (hs : a.Shape)
    (e : a.checkpoint = some (cp, a')) : AtStart cp := by
  obtain ⟨c, hc, hb, _⟩ := hs.exists_current
  rw [ArenaInner.checkpoint_eq hs] at e
  cases e
  exact ⟨h.current, hb.trans (h.used c (List.mem_of_getElem? hc)), h.allocationCount⟩

/-- **A rewind to the start empties the arena.** -/
theorem clean_rewind {w : Arena} {a' : ArenaInner} {debug : Bool} {cp : ArenaCheckpoint}
    (hcp : AtStart cp) (e : w.inner.rewindToCheckpoint debug cp = some a') :
    Clean (w.withInner a').resetBuffer.inner := by
  have hsame := Arena.same_resetBuffer (w.withInner a')
  have hstats := ArenaInner.rewind_stats e
  have hused : ∀ c ∈ a'.chunks, c.used = 0 := by
    intro c hc
    obtain ⟨_, rfl⟩ := ArenaInner.rewind_eq_some.mp e
    obtain ⟨k, hk⟩ := List.mem_iff_getElem?.mp hc
    have hk' : (Chunk.gauge.cut w.inner.chunks cp.chunkIndex cp.chunkOffset)[k]? = some c := hk
    rw [hcp.index, hcp.offset] at hk'
    rcases Nat.eq_zero_or_pos k with rfl | hpos
    · rw [Gauge.getElem?_cut_self] at hk'
      obtain ⟨d, _, rfl⟩ := Option.map_eq_some_iff.mp hk'
      rfl
    · rw [Gauge.getElem?_cut_gt hpos] at hk'
      obtain ⟨d, _, rfl⟩ := Option.map_eq_some_iff.mp hk'
      rfl
  refine ⟨hsame.currentChunk.trans ?_, fun c hc => ?_, ?_, ?_, fun b hb => ?_⟩
  · obtain ⟨_, rfl⟩ := ArenaInner.rewind_eq_some.mp e
    exact hcp.index
  · rw [hsame.chunks] at hc
    exact hused c hc
  · rw [Arena.resetBuffer_stats]
    refine hstats.1.trans (List.sum_eq_zero fun n hn => ?_)
    obtain ⟨c, hc, rfl⟩ := List.mem_map.mp hn
    exact hused c hc
  · rw [Arena.resetBuffer_stats]
    exact hstats.2.trans hcp.count
  · unfold Arena.resetBuffer ArenaInner.resetBuffer at hb
    split at hb
    · rename_i hnone
      have hb' : b ∈ (w.withInner a').inner.lockfreeBuffer := hb
      rw [hnone] at hb'
      cases hb'
    · cases hb
      rfl

/-! ## 4. The invariant -/

/-- **What holds between the calls.** -/
structure Inv (s : Guarded) : Prop where
  stack : StackOk s.sess.arena.inner s.sess.cps
  bare : s.sess.arena.inner.checkpoints = []
  counted : s.sess.arena.inner.stats.chunkCount = s.sess.arena.inner.chunks.length
  /-- Only the thread with the open scope has a region of the buffer. -/
  foreign : ∀ t, s.opener ≠ some t → s.sess.arena.inner.lockfreeBuffer ≠ none →
    (s.slabs t).Foreign s.sess.arena.owner
  live : ∀ t, s.opener = none ∨ s.opener = some t → Live (s.view t)
  closed : s.opener = none → s.sess.ledger = .empty ∧ Clean s.sess.arena.inner
  opened : s.opener ≠ none → ∃ cp, s.sess.ledger.marks[0]? = some (cp, 0) ∧ AtStart cp
  reports : ∀ r ∈ s.reports, (r.bytesUsed = 0 ∧ r.allocationCount = 0) ∧
    r.bytesAllocated ≤ s.sess.arena.inner.stats.bytesAllocated ∧
    r.chunkCount ≤ s.sess.arena.inner.stats.chunkCount
  order : s.reports.Pairwise fun r r' => r.bytesAllocated ≤ r'.bytesAllocated ∧
    r.chunkCount ≤ r'.chunkCount

section Inv

variable {s s' : Guarded} {t : Nat} {sess : Sess} {f : Features}

theorem view_put : (s.put t sess).view t = sess := by
  simp only [Guarded.view, Guarded.put, Function.update_self]

/-- A report made earlier is still below the counters. -/
theorem Inv.reports_le (h : Inv s) (hk : Keeps (s.view t) sess) : ∀ r ∈ s.reports,
    (r.bytesUsed = 0 ∧ r.allocationCount = 0) ∧
      r.bytesAllocated ≤ sess.arena.inner.stats.bytesAllocated ∧
      r.chunkCount ≤ sess.arena.inner.stats.chunkCount := by
  intro r hr
  obtain ⟨hzero, hbytes, hcount⟩ := h.reports r hr
  refine ⟨hzero, hbytes.trans hk.bytes, ?_⟩
  rw [hk.counted h.counted]
  rw [h.counted] at hcount
  exact hcount.trans hk.chunks

/-- A step of the thread with the open scope. -/
theorem Inv.put (h : Inv s) (ht : s.opener = some t) (hk : Keeps (s.view t) sess)
    (hstack : StackOk sess.arena.inner sess.cps) (hlive : Live sess)
    (hbuf : sess.arena.inner.lockfreeBuffer ≠ none → s.sess.arena.inner.lockfreeBuffer ≠ none) :
    Inv (s.put t sess) where
  stack := hstack
  bare := hk.checkpoints h.bare
  counted := hk.counted h.counted
  foreign i hi hb := by
    have hit : i ≠ t := fun e => hi (e ▸ ht)
    show (Function.update s.slabs t sess.arena.slab i).Foreign sess.arena.owner
    rw [Function.update_of_ne hit, hk.owner]
    exact h.foreign i hi (hbuf hb)
  live i hi := by
    have hi' : s.opener = none ∨ s.opener = some i := hi
    rw [ht] at hi'
    rcases hi' with hi' | hi'
    · cases hi'
    · cases hi'
      rw [view_put]
      exact hlive
  closed hc := by
    have hc' : s.opener = none := hc
    rw [ht] at hc'
    cases hc'
  opened _ := by
    obtain ⟨cp, hm, hcp⟩ := h.opened (by rw [ht]; exact Option.some_ne_none t)
    exact ⟨cp, hk.first _ hm, hcp⟩
  reports := h.reports_le hk
  order := h.order

/-- **A scope begins.** -/
theorem Inv.scope (h : Inv s) (hc : s.opener = none) {debug : Bool}
    (e : (s.view t).exec debug .scopeNew = some sess) :
    Inv { s.put t sess with opener := some t } := by
  obtain ⟨hempty, hclean⟩ := h.closed hc
  obtain ⟨r, hr, rfl⟩ := Option.map_eq_some_iff.mp e
  obtain ⟨⟨cp, a'⟩, ha, rfl⟩ := Option.map_eq_some_iff.mp hr
  have hcp := hclean.checkpoint h.stack.shape ha
  have hacts : Acts debug (s.view t) .scopeNew
      ⟨(s.view t).arena.withInner a', (s.view t).ledger.mark cp⟩ := .mark .scopeNew ha
  have hstack := hacts.stackOk h.stack
  have hlive := hacts.live (fun _ hb => by cases hb) (fun _ hi => by cases hi) h.stack
    (h.live t (Or.inl hc))
  have ha' := ha
  rw [show (s.view t).arena.inner = s.sess.arena.inner from rfl,
    ArenaInner.checkpoint_eq h.stack.shape] at ha'
  simp only [Option.some.injEq, Prod.mk.injEq] at ha'
  obtain ⟨_, rfl⟩ := ha'
  refine ⟨hstack, h.bare, h.counted, fun i hi hb => ?_, fun i hi => ?_, (fun hn => by cases hn),
    fun _ => ⟨cp, ?_, hcp⟩, h.reports, h.order⟩
  · have hit : i ≠ t := fun e => hi (e ▸ rfl)
    show (Function.update s.slabs t _ i).Foreign s.sess.arena.owner
    rw [Function.update_of_ne hit]
    exact h.foreign i (by simp [hc]) hb
  · rcases hi with hi | hi
    · cases hi
    · cases hi
      exact view_put ▸ hlive
  · show (s.sess.ledger.marks ++ [(cp, s.sess.ledger.log.length)])[0]? = some (cp, 0)
    rw [hempty]
    rfl

/-- Nothing that is live is older than the scope. -/
theorem undisturbed_first {s : Sess} {cp : ArenaCheckpoint}
    (hm : s.ledger.marks[0]? = some (cp, 0)) : Undisturbed s 0 := by
  intro o ho
  have ho' : o ∈ s.ledger.log.take (s.ledger.keep 0) := ho
  rw [Ledger.keep_eq hm] at ho'
  cases ho'

/-- **A scope ends.** -/
theorem Inv.drop (h : Inv s) (ht : s.opener = some t) {debug : Bool}
    (e : (s.view t).exec debug (.scopeDrop 0) = some sess) :
    Inv { s.put t ⟨sess.arena, .empty⟩ with opener := none } := by
  obtain ⟨cp, hm, hcp⟩ := h.opened (by simp [ht])
  obtain ⟨m, a', hm', ha, rfl⟩ := Sess.rewind_eq_some e
  obtain rfl : m = (cp, 0) := Option.some.inj (hm'.symm.trans hm)
  have hk : Keeps (s.view t) _ := Keeps.rewind (i := 0) ha
  have hacts : Acts debug (s.view t) (.scopeDrop 0) _ := .rewind (.scopeDrop 0) hm ha
  have hmeet : RewindsMeet Undisturbed (s.view t) (.scopeDrop 0) := by
    intro i hi
    cases hi
    exact undisturbed_first hm
  have hlive := hacts.live (fun _ hb => by cases hb) hmeet h.stack (h.live t (Or.inr ht))
  have hstack := hacts.stackOk h.stack
  have hbuf : a'.lockfreeBuffer = s.sess.arena.inner.lockfreeBuffer := by
    obtain ⟨_, rfl⟩ := ArenaInner.rewind_eq_some.mp ha
    rfl
  have hreports := h.reports_le hk
  have hforeign : ∀ i, ((s.view t).arena.withInner a').resetBuffer.inner.lockfreeBuffer ≠ none →
      (Function.update s.slabs t ((s.view t).arena.withInner a').resetBuffer.slab i).Foreign
        s.sess.arena.owner := by
    intro i hb
    by_cases hit : i = t
    · subst hit
      rw [Function.update_self]
      exact Arena.foreign_resetBuffer _ hb
    · rw [Function.update_of_ne hit]
      refine h.foreign i (fun e => hit (Option.some.inj (e.symm.trans ht))) fun hn => hb ?_
      rw [Arena.resetBuffer_noBuffer] <;> exact hbuf.trans hn
  refine ⟨.nil hstack.shape (hk.checkpoints h.bare), hk.checkpoints h.bare, hk.counted h.counted,
    fun i _ hb => hforeign i hb, fun i _ => ?_, fun _ => ⟨rfl, clean_rewind hcp ha⟩,
    fun hn => absurd rfl hn, hreports, h.order⟩
  exact (live_empty hlive.separate hlive.buffer).foreign (hforeign i)

/-- `stats` reads an arena with nothing allocated. -/
theorem Inv.stats (h : Inv s) (hc : s.opener = none) :
    Inv { s with reports := s.reports ++ [s.sess.arena.inner.stats] } := by
  obtain ⟨_, hclean⟩ := h.closed hc
  refine ⟨h.stack, h.bare, h.counted, h.foreign, h.live, h.closed, h.opened, fun r hr => ?_, ?_⟩
  · rcases List.mem_append.mp hr with hr | hr
    · exact h.reports r hr
    · rw [List.mem_singleton.mp hr]
      exact ⟨⟨hclean.bytesUsed, hclean.allocationCount⟩, Nat.le_refl _, Nat.le_refl _⟩
  · refine List.pairwise_append.mpr ⟨h.order, List.pairwise_singleton _ _, fun r hr r' hr' => ?_⟩
    rw [List.mem_singleton.mp hr']
    exact (h.reports r hr).2

/-- A thread has used other buffers. -/
theorem Inv.elsewhere (h : Inv s) {slab : ThreadSlab} (hf : slab.Foreign s.sess.arena.owner) :
    Inv { s with slabs := Function.update s.slabs t slab } := by
  refine ⟨h.stack, h.bare, h.counted, fun i hi hb => ?_, fun i hi => ?_, h.closed, h.opened,
    h.reports, h.order⟩
  · show (Function.update s.slabs t slab i).Foreign _
    by_cases hit : i = t
    · subst hit
      rw [Function.update_self]
      exact hf
    · rw [Function.update_of_ne hit]
      exact h.foreign i hi hb
  · have hlive := h.live i hi
    unfold Guarded.view
    by_cases hit : i = t
    · subst hit
      simp only [Function.update_self]
      exact Live.foreign (w := (s.view i).arena) hlive fun _ => hf
    · simp only [Function.update_of_ne hit]
      exact hlive

theorem clean_new {sys : Option Nat} {lockfree : Option (Option Nat)} {cap : Nat} {a : ArenaInner}
    (h : ArenaInner.new sys lockfree cap = .ok a) :
    Clean a ∧ a.stats.chunkCount = a.chunks.length := by
  unfold ArenaInner.new at h
  cases hc : Chunk.new sys cap with
  | error _ =>
      rw [hc] at h
      cases h
  | ok c =>
      rw [hc] at h
      cases h
      refine ⟨⟨rfl, fun d hd => ?_, rfl, rfl, fun b hb => ?_⟩, rfl⟩
      · rw [List.mem_singleton.mp hd]
        exact (Chunk.new_ok hc).2.2.1
      · obtain ⟨sysb, _, rfl⟩ := Option.map_eq_some_iff.mp hb
        rfl

theorem inv_init (h : (syncArenas f).init s) : Inv s := by
  obtain ⟨hinit, hforeign, hc, hr⟩ := h
  have hstack := hinit.stackOk
  have hlive := hinit.live
  obtain ⟨_, _, _, _, _, _, _, _, e, _, _, hl⟩ := hinit
  obtain ⟨_, _, a, hn, hw⟩ := Arena.withCapacity_eq_some e
  obtain ⟨hclean, hcount⟩ := clean_new hn
  have ha : s.sess.arena.inner = a := by rw [hw]
  refine ⟨hstack, ?_, ?_, fun i _ _ => hforeign i, fun i _ => ?_, fun _ => ⟨hl, ?_⟩,
    fun hn => absurd hc hn, ?_, ?_⟩
  · rw [ha]
    exact (ArenaInner.new_eq_ok hn).1
  · rw [ha]
    exact hcount
  · exact hlive.foreign fun _ => hforeign i
  · rw [ha]
    exact hclean
  · rw [hr]
    exact fun r hr => by cases hr
  · rw [hr]
    exact .nil

/-- **One call keeps the invariant**, if it respects the open scope. -/
theorem Inv.step (h : Inv s) {c : Call} (hok : (syncArenas f).ok s c) (hcare : Careful s c)
    (hserial : Serial Call.who Guarded.opener s c) (e : s.exec f.debug c = some s') : Inv s' := by
  cases c with
  | scope t =>
      simp only [Guarded.exec] at e
      split at e
      · rename_i hc
        obtain ⟨sess, hs, rfl⟩ := Option.map_eq_some_iff.mp e
        exact h.scope hc hs
      · cases e
  | use t op =>
      simp only [Guarded.exec] at e
      split at e
      · rename_i hop
        obtain ⟨sess, hs, rfl⟩ := Option.map_eq_some_iff.mp e
        obtain ⟨i, hi⟩ := Option.ne_none_iff_exists'.mp hop.1
        obtain rfl : t = i := hserial i hi
        have hacts := (s.view t).exec_acts hs
        refine h.put hi (.exec h.stack.shape hop.2 hs) (hacts.stackOk h.stack)
          (hacts.live hok hcare h.stack (h.live t (Or.inr hi))) fun hb hn => hb ?_
        exact hacts.noBuffer h.stack.shape hn
      · cases e
  | drop t =>
      simp only [Guarded.exec] at e
      split at e
      · rename_i hop
        obtain ⟨sess, hs, rfl⟩ := Option.map_eq_some_iff.mp e
        obtain ⟨i, hi⟩ := Option.ne_none_iff_exists'.mp hop
        obtain rfl : t = i := hserial i hi
        exact h.drop hi hs
      · cases e
  | stats t =>
      simp only [Guarded.exec] at e
      split at e
      · rename_i hc
        cases e
        exact h.stats hc
      · cases e
  | elsewhere t slab =>
      cases e
      exact h.elsewhere hok

/-- A scope can always end. -/
theorem Inv.drop_isSome (h : Inv s) (ht : s.opener = some t) (debug : Bool) :
    ∃ s', s.exec debug (.drop t) = some s' := by
  obtain ⟨cp, hm, _⟩ := h.opened (by simp [ht])
  have hmem : cp ∈ s.sess.cps := List.mem_of_getElem? (Sess.cps_getElem? hm)
  obtain ⟨a', ha⟩ := (h.stack.within cp hmem).rewind_isSome h.stack.shape debug
  have hm' : (s.view t).ledger.marks[0]? = some (cp, 0) := hm
  have ha' : (s.view t).arena.inner.rewindToCheckpoint debug cp = some a' := ha
  simp [Guarded.exec, ht, Sess.exec, Sess.rewind, hm', Arena.rewindToCheckpoint, ha']

end Inv

/-! ## 5. Behind the mutex -/

/-- A call keeps the open scope's thread, or opens one for its own. -/
theorem opener_step {f : Features} (s : Guarded) (c : Call) (s' : Guarded)
    (e : ((syncArenas f).under Careful).step s c = some s') :
    ∀ t ∈ s'.opener, t ∈ s.opener ∨ c.who = t := by
  have e' : s.exec f.debug c = some s' := e
  intro i hi
  cases c with
  | scope t =>
      simp only [Guarded.exec] at e'
      split at e'
      · obtain ⟨sess, _, rfl⟩ := Option.map_eq_some_iff.mp e'
        cases hi
        exact Or.inr rfl
      · cases e'
  | use t op =>
      simp only [Guarded.exec] at e'
      split at e'
      · obtain ⟨sess, _, rfl⟩ := Option.map_eq_some_iff.mp e'
        exact Or.inl hi
      · cases e'
  | drop t =>
      simp only [Guarded.exec] at e'
      split at e'
      · obtain ⟨sess, _, rfl⟩ := Option.map_eq_some_iff.mp e'
        cases hi
      · cases e'
  | stats t =>
      simp only [Guarded.exec] at e'
      split at e'
      · cases e'
        exact Or.inl hi
      · cases e'
  | elsewhere t slab =>
      cases e'
      exact Or.inl hi

theorem reach_inv {f : Features} {s : Guarded}
    (h : (((syncArenas f).under Careful).under (Serial Call.who Guarded.opener)).Reach s) :
    Inv s := by
  refine h.inv (P := Inv) (fun s hi => ?_) fun s c s' hs hok e => ?_
  · exact inv_init hi
  · exact hs.step hok.1.1 hok.1.2 hok.2 e

/-- The start of `Sess.small`, with a buffer, for threads that have no slab. -/
def small : Guarded := ⟨.small (some (some 16384)), fun _ => .new, none, []⟩

theorem init_small : (syncArenas ⟨false, true⟩).init small :=
  ⟨Sess.init_small_lockfree, fun _ => Or.inl rfl, rfl, rfl⟩

end SyncArena

end ArenaB
