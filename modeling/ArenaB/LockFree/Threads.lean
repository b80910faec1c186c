/-
  File:      ArenaB/LockFree/Threads.lean
  Subject:   Any number of threads on any number of `LockFreeBuffer`s, one whole call at a time.

  Each thread has one slab for all buffers. A reset clears the slab of its own thread only; those
  of the others are retired by the generation, and a call on another buffer gives a slab up.

  * `threads` -- the runs; buffers are created and stay where they are, and no buffer is reset
    2^64 times;
  * `Handle.Shares` -- what one buffer is to all threads: the slabs that match it hold ranges of
    its block below its offset, apart from each other and from what it handed out (`Carve.Ok`);
  * **`threads_sound`** -- what is handed out lies in the block, is aligned and apart.
    `served_at_end`: an empty allocation may lie at its very end.
-/
import Mathlib.Logic.Function.Basic
import ArenaB.Base.Carve
import ArenaB.LockFree.Lifetime

namespace ArenaB

open Base

/-! ## 1. Runs -/

/-- The buffers, the slab of each thread, the memory. -/
structure Threads where
  live : List Handle
  slabs : Nat → ThreadSlab
  mem : Mem

/-- What thread `t` may do; a buffer is named by its position. -/
inductive ThreadOp where
  | create (addr : Nat) (sys : Option Nat)
  | reset (t i : Nat)
  | tryAlloc (t i size align : Nat)
  deriving DecidableEq, Repr

namespace Threads

/-- One call. -/
def exec (w : Threads) : ThreadOp → Option Threads
  | .create addr sys => some { w with live := w.live ++ [⟨addr, .new sys, []⟩] }
  | .reset t i =>
      w.live[i]?.map fun h =>
        let r := h.buf.reset (w.slabs t) w.mem
        ⟨w.live.set i ⟨h.addr, r.1, []⟩, Function.update w.slabs t r.2.1, r.2.2⟩
  | .tryAlloc t i size align =>
      w.live[i]?.map fun h =>
        let r := h.tryAlloc (w.slabs t) size align
        ⟨w.live.set i r.1, Function.update w.slabs t r.2, w.mem⟩

/-- Addresses are distinct, generations do not wrap, alignments are those of layouts. -/
def Ok (w : Threads) : ThreadOp → Prop
  | .create addr _ => ∀ h ∈ w.live, h.addr ≠ addr
  | .reset _ i => ∀ h ∈ w.live[i]?, h.buf.generation + 1 < wordMod
  | .tryAlloc _ _ _ align => 0 < align ∧ align ≤ 2 ^ 63

instance (w : Threads) : (op : ThreadOp) → Decidable (w.Ok op)
  | .create addr _ => inferInstanceAs (Decidable (∀ h ∈ w.live, h.addr ≠ addr))
  | .reset _ i => inferInstanceAs (Decidable (∀ h ∈ w.live[i]?, _))
  | .tryAlloc _ _ _ align => inferInstanceAs (Decidable (0 < align ∧ align ≤ 2 ^ 63))

end Threads

/-- The runs from no buffer on. -/
def threads : System Threads ThreadOp where
  init w := w.live = [] ∧ ∀ t, w.slabs t = .new
  ok := Threads.Ok
  step := Threads.exec

instance (w : Threads) (op : ThreadOp) : Decidable (threads.ok w op) :=
  inferInstanceAs (Decidable (w.Ok op))

/-! ## 2. One call -/

namespace ThreadSlab

/-- What the slab has left, as addresses. -/
def rest (s : ThreadSlab) : Span := ⟨s.base + s.offset, s.fin - s.offset⟩

theorem rest_has {s : ThreadSlab} {y : Nat} :
    s.rest.Has y ↔ ∃ x, y = s.base + x ∧ s.offset ≤ x ∧ x < s.fin := by
  simp only [rest, Span.Has, Span.fin]
  constructor
  · intro h
    exact ⟨y - s.base, by omega, by omega, by omega⟩
  · rintro ⟨x, rfl, h1, h2⟩
    omega

theorem tryAlloc_ptr {s s' : ThreadSlab} {size align p : Nat}
    (h : s.tryAlloc size align = (some p, s')) : p = s.base + alignUp s.offset align := by
  unfold tryAlloc at h
  split at h
  · cases h
  · simp only at h
    split at h
    · cases h
      rfl
    · cases h

end ThreadSlab

namespace LockFreeBuffer

variable {b : LockFreeBuffer} {owner size align p : Nat} {slab : ThreadSlab}

/-- The offset only advances. -/
theorem tryAlloc_offset (hb : b.Ok) :
    b.offset ≤ (b.tryAlloc owner slab size align).2.1.offset := by
  unfold tryAlloc
  split
  · exact Nat.le_refl _
  · rename_i hs
    obtain ⟨h1, e⟩ := refill_bounds hb (Nat.not_lt.mp hs)
    have hrefill (slab : ThreadSlab) :
        b.offset ≤ (b.refillThreadSlabAndAlloc owner slab size align).2.1.offset := by
      unfold refillThreadSlabAndAlloc
      split
      · exact Nat.le_refl _
      · simp only
        split
        · exact Nat.le_refl _
        · show b.offset ≤ wadd _ _
          omega
    split
    · exact Nat.le_refl _
    · rename_i slab₁ _
      have hle := hrefill slab₁
      split <;> rename_i heq <;> rw [heq] at hle <;> exact hle

/-- **A returned offset is aligned.** -/
theorem tryAlloc_aligned (ho : b.Owned owner slab) {e : Nat} (he : e < 64)
    (h : (b.tryAlloc owner slab size (2 ^ e)).1 = some p) :
    ∃ o, p = b.buffer + o ∧ 2 ^ e ∣ o := by
  have hpow : 2 ^ e ≤ 2 ^ 63 := Nat.pow_le_pow_right (by decide) (by omega)
  have hdvd (x : Nat) : 2 ^ e ∣ alignUp x (2 ^ e) :=
    dvd_alignUp rfl (hpow.trans (by decide))
  have hrefill {s : ThreadSlab} {q : Nat} (hq : (b.refillThreadSlabAndAlloc owner s size
      (2 ^ e)).1 = some q) : ∃ o, q = b.buffer + o ∧ 2 ^ e ∣ o := by
    unfold refillThreadSlabAndAlloc at hq
    split at hq
    · cases hq
    · simp only at hq
      split at hq
      · cases hq
      · exact ⟨_, ThreadSlab.tryAlloc_ptr (Prod.ext hq rfl), hdvd _⟩
  unfold tryAlloc at h
  split at h
  · cases h
  · split at h
    · rename_i heq
      cases h
      unfold tryThreadSlab at heq
      split at heq
      · rename_i hm
        rw [ThreadSlab.tryAlloc_ptr heq, (ho hm).1]
        exact ⟨_, rfl, hdvd _⟩
      · cases heq
    · split at h
      · rename_i heq
        cases h
        exact hrefill (by rw [heq])
      · cases h

end LockFreeBuffer

/-! ## 3. One buffer and all slabs -/

namespace Handle

/-- The threads' slabs as holders of ranges of the buffer's block. -/
def carve (k : Handle) (slabs : Nat → ThreadSlab) : Carve Nat where
  held t := if (slabs t).Matches k.addr k.buf.generation then (slabs t).rest else ⟨0, 0⟩
  given := k.allocs

theorem carve_has {k : Handle} {slabs : Nat → ThreadSlab} {t y : Nat} :
    ((k.carve slabs).held t).Has y ↔
      (slabs t).Matches k.addr k.buf.generation ∧ (slabs t).rest.Has y := by
  unfold carve
  simp only
  split
  · rename_i hm
    simp [hm]
  · rename_i hm
    simp [hm, Span.Has, Span.fin]

/-- What a buffer is to all threads. -/
structure Shares (slabs : Nat → ThreadSlab) (k : Handle) : Prop where
  ok : k.buf.Ok
  owned : ∀ t, k.buf.Owned k.addr (slabs t)
  retired : ∀ t, (slabs t).base ≠ 0 → (slabs t).owner = k.addr →
    (slabs t).generation ≤ k.buf.generation
  inside : ∀ s ∈ k.allocs, s.Inside k.buf.span
  carved : (k.carve slabs).Ok
  below : ∀ s ∈ k.allocs, ∀ x, s.Has (k.buf.buffer + x) → x < k.buf.offset

variable {k : Handle} {slabs : Nat → ThreadSlab} {t : Nat} {slab : ThreadSlab}

/-- What a matching slab has left are offsets below the buffer's. -/
theorem Shares.held (h : k.Shares slabs) {y : Nat} (hy : ((k.carve slabs).held t).Has y) :
    ∃ x, y = k.buf.buffer + x ∧ (slabs t).Matches k.addr k.buf.generation ∧
      (slabs t).offset ≤ x ∧ x < (slabs t).fin ∧ x < k.buf.offset := by
  obtain ⟨hm, hr⟩ := carve_has.mp hy
  obtain ⟨hbase, _, hfin⟩ := h.owned t hm
  obtain ⟨x, rfl, h1, h2⟩ := ThreadSlab.rest_has.mp hr
  exact ⟨x, by rw [hbase], hm, h1, h2, by omega⟩

/-- Nothing of the others, and nothing handed out, is free for a thread. -/
theorem Shares.avoids (h : k.Shares slabs) (t : Nat) : (k.carve slabs).Avoids t
    fun y => ∃ x, y = k.buf.buffer + x ∧ k.buf.Free k.addr (slabs t) x := by
  have hbelow : (k.carve slabs).Below (k.buf.buffer + k.buf.offset) := by
    refine ⟨fun u y hy => ?_, fun s hs y hy => ?_⟩
    · obtain ⟨x, rfl, _, _, _, hx⟩ := h.held hy
      omega
    · obtain ⟨h1, _⟩ := (h.inside s hs).has hy
      obtain ⟨x, rfl⟩ := Nat.exists_eq_add_of_le h1
      exact Nat.add_lt_add_left (h.below s hs x hy) _
  refine (h.carved.avoids_above hbelow t).mono ?_
  rintro y ⟨x, rfl, ⟨h1, _⟩ | ⟨hm, h1, h2⟩⟩
  · exact Or.inr (Nat.add_le_add_left h1 _)
  · refine Or.inl (carve_has.mpr ⟨hm, ThreadSlab.rest_has.mpr ⟨x, ?_, h1, h2⟩⟩)
    rw [(h.owned t hm).1]

/-- A new buffer that no slab names. -/
theorem shares_new {addr : Nat} (sys : Option Nat)
    (h : ∀ t, (slabs t).base ≠ 0 → (slabs t).owner ≠ addr) :
    Shares slabs ⟨addr, .new sys, []⟩ := by
  have hno : ∀ t g, ¬ (slabs t).Matches addr g := fun t g hm => h t hm.2.2 hm.1
  refine ⟨LockFreeBuffer.ok_new sys, fun t hm => absurd hm (hno t _),
    fun t h0 ho => absurd ho (h t h0), (fun _ h => by cases h), ?_, (fun _ h => by cases h)⟩
  exact Carve.ok_empty (fun t y hy => hno t _ (carve_has.mp hy).1) rfl

section Served

variable {size : Nat} {r : Option Nat} {b' : LockFreeBuffer}

/-- What the calling thread has in hand after its call is free for it. -/
theorem held_free (hsv : k.buf.Serves k.addr (slabs t) size (r, b', slab)) {y : Nat}
    (hm : slab.Matches k.addr b'.generation) (hy : slab.rest.Has y) :
    ∃ x, y = k.buf.buffer + x ∧ b'.Free k.addr slab x := by
  have hbuf : b'.buffer = k.buf.buffer := hsv.buffer
  obtain ⟨x, rfl, h1, h2⟩ := ThreadSlab.rest_has.mp hy
  exact ⟨x, by rw [(hsv.owned hm).1, ← hbuf], Or.inr ⟨hm, h1, h2⟩⟩

/-- The block stays carved up: the others hold what they held, the calling thread holds what was
    free for it, and what it was handed is in nobody's hands any more. -/
theorem Shares.carved_served (h : k.Shares slabs)
    (hsv : k.buf.Serves k.addr (slabs t) size (r, b', slab)) :
    (carve ⟨k.addr, b', k.allocs ++ (r.map (Span.mk · size)).toList⟩
      (Function.update slabs t slab)).Ok := by
  have hgen : b'.generation = k.buf.generation := hsv.generation
  have hF := h.avoids t
  have hself : Function.update slabs t slab t = slab := Function.update_self _ _ _
  refine h.carved.renew t _ (fun u hu y hy => ?_) hF.given (fun y hy => ?_) rfl
    fun s hs y hy => ?_
  · rw [carve_has, Function.update_of_ne hu] at hy
    have hy' : ((k.carve slabs).held u).Has y := carve_has.mpr ⟨hgen ▸ hy.1, hy.2⟩
    exact ⟨hy', hF.held u hu y hy'⟩
  · rw [carve_has, hself] at hy
    obtain ⟨x, rfl, hx⟩ := held_free hsv hy.1 hy.2
    exact ⟨x, rfl, hsv.free x hx⟩
  · obtain ⟨p, hp, rfl⟩ := Option.map_eq_some_iff.mp hs
    obtain ⟨x, rfl, hfree, hnot⟩ := hsv.fresh hp hy
    refine ⟨⟨x, rfl, hfree⟩, fun hy' => ?_⟩
    rw [carve_has, hself] at hy'
    obtain ⟨x', hx, hx'⟩ := held_free hsv hy'.1 hy'.2
    obtain rfl := Nat.add_left_cancel hx
    exact hnot hx'

/-- **A call on a buffer** leaves it shared out among the threads. -/
theorem Shares.served (h : k.Shares slabs)
    (hsv : k.buf.Serves k.addr (slabs t) size (r, b', slab)) (hle : k.buf.offset ≤ b'.offset)
    (hslab : (r = none ∧ slab = slabs t) ∨ slab.base = 0 ∨
      slab.Matches k.addr k.buf.generation) :
    Shares (Function.update slabs t slab)
      ⟨k.addr, b', k.allocs ++ (r.map (Span.mk · size)).toList⟩ := by
  have hbuf : b'.buffer = k.buf.buffer := hsv.buffer
  have hgen : b'.generation = k.buf.generation := hsv.generation
  have hin : ∀ s ∈ k.allocs ++ (r.map (Span.mk · size)).toList, s.Inside k.buf.span := by
    intro s hs
    rcases mem_served hs with hs | ⟨p, hp, rfl⟩
    · exact h.inside s hs
    · exact hsv.inside hp
  have hother : ∀ u, u ≠ t → Function.update slabs t slab u = slabs u :=
    fun u hu => Function.update_of_ne hu _ _
  have hself : Function.update slabs t slab t = slab := Function.update_self _ _ _
  refine ⟨hsv.ok, fun u => ?_, fun u h0 ho => ?_, fun s hs => ?_, h.carved_served hsv,
    fun s hs x hx => ?_⟩
  · by_cases hu : u = t
    · subst hu
      rw [hself]
      exact hsv.owned
    · rw [hother u hu]
      intro hm
      obtain ⟨h1, h2, h3⟩ := h.owned u (hgen ▸ hm)
      exact ⟨h1.trans hbuf.symm, h2, h3.trans hle⟩
  · show (Function.update slabs t slab u).generation ≤ b'.generation
    rw [hgen]
    by_cases hu : u = t
    · subst hu
      rw [hself] at h0 ho ⊢
      rcases hslab with ⟨_, rfl⟩ | h0' | hm
      · exact h.retired u h0 ho
      · exact absurd h0' h0
      · exact Nat.le_of_eq hm.2.1
    · rw [hother u hu] at h0 ho ⊢
      exact h.retired u h0 ho
  · show s.Inside b'.span
    rw [hsv.span]
    exact hin s hs
  · -- an offset not below the new one would be free, and what was handed out is not
    have hx' : s.Has (k.buf.buffer + x) := hbuf ▸ hx
    have hlt : x < b'.capacity := hsv.capacity ▸ lt_of_inside (hin s hs) hx'
    refine Nat.lt_of_not_le fun hge => ?_
    have hfree : b'.Free k.addr slab x := Or.inl ⟨hge, hlt⟩
    rcases mem_served hs with hs | ⟨p, hp, rfl⟩
    · exact (h.avoids t).given s hs _ hx' ⟨x, rfl, hsv.free x hfree⟩
    · obtain ⟨x', hx, _, hnot⟩ := hsv.fresh hp hx'
      obtain rfl := Nat.add_left_cancel hx
      exact hnot hfree

end Served

/-- A slab that another buffer's call left, or that was cleared, is none of this one's. -/
theorem Shares.other (h : k.Shares slabs)
    (hslab : slab = slabs t ∨ slab.base = 0 ∨ slab.owner ≠ k.addr) :
    Shares (Function.update slabs t slab) k := by
  have hm : ∀ u g, (Function.update slabs t slab u).Matches k.addr g →
      Function.update slabs t slab u = slabs u := by
    intro u g hg
    by_cases hu : u = t
    · subst hu
      rw [Function.update_self] at hg ⊢
      rcases hslab with rfl | h0 | hne
      · rfl
      · exact absurd h0 hg.2.2
      · exact absurd hg.1 hne
    · exact Function.update_of_ne hu _ _
  refine ⟨h.ok, fun u hu => ?_, fun u h0 ho => ?_, h.inside, ?_, h.below⟩
  · have e := hm u _ hu
    rw [e] at hu ⊢
    exact h.owned u hu
  · have e := hm u _ ⟨ho, rfl, h0⟩
    rw [e] at h0 ho ⊢
    exact h.retired u h0 ho
  · refine h.carved.shrink (fun u y hy => ?_) rfl
    obtain ⟨hu, hy⟩ := carve_has.mp hy
    have e := hm u _ hu
    rw [e] at hu hy
    exact carve_has.mpr ⟨hu, hy⟩

/-- After a reset no slab is the buffer's: their generations are over. -/
theorem Shares.reset (h : k.Shares slabs) (hg : k.buf.generation + 1 < wordMod) (mem : Mem) :
    Shares (Function.update slabs t (k.buf.reset (slabs t) mem).2.1)
      ⟨k.addr, (k.buf.reset (slabs t) mem).1, []⟩ := by
  have hgen : (k.buf.reset (slabs t) mem).1.generation = k.buf.generation + 1 := wadd_eq hg
  have hle : ∀ u, (Function.update slabs t (slabs t).invalidate u).base ≠ 0 →
      (Function.update slabs t (slabs t).invalidate u).owner = k.addr →
      (Function.update slabs t (slabs t).invalidate u).generation ≤ k.buf.generation := by
    intro u h0 ho
    by_cases hu : u = t
    · subst hu
      rw [Function.update_self] at h0
      exact absurd rfl h0
    · rw [Function.update_of_ne hu] at h0 ho ⊢
      exact h.retired u h0 ho
  have hno : ∀ u, ¬ (Function.update slabs t (slabs t).invalidate u).Matches k.addr
      (k.buf.reset (slabs t) mem).1.generation := by
    intro u hm
    have := hle u hm.2.2 hm.1
    have := hm.2.1
    omega
  refine ⟨h.ok.reset (slabs t) mem, fun u hm => absurd hm (hno u), fun u h0 ho => ?_,
    (fun _ h => by cases h), ?_, (fun _ h => by cases h)⟩
  · show _ ≤ (k.buf.reset (slabs t) mem).1.generation
    rw [hgen]
    exact (hle u h0 ho).trans (Nat.le_succ _)
  · exact Carve.ok_empty (fun u y hy => hno u (carve_has.mp hy).1) rfl

end Handle

/-! ## 4. All buffers -/

namespace Threads

/-- The invariant: every buffer is shared out, and every slab in use names a buffer. -/
structure Sound (w : Threads) : Prop where
  shares : ∀ k ∈ w.live, k.Shares w.slabs
  addrs : (w.live.map Handle.addr).Pairwise (· ≠ ·)
  named : ∀ t, (w.slabs t).base ≠ 0 → (w.slabs t).owner ∈ w.live.map Handle.addr

variable {w w' : Threads} {k k' : Handle} {i t : Nat} {slab : ThreadSlab}

theorem Sound.create (hs : w.Sound) {addr : Nat} (sys : Option Nat)
    (hv : ∀ h ∈ w.live, h.addr ≠ addr) :
    Sound { w with live := w.live ++ [⟨addr, .new sys, []⟩] } := by
  have hno : addr ∉ w.live.map Handle.addr := by
    intro hm
    obtain ⟨h, hh, e⟩ := List.mem_map.mp hm
    exact hv h hh e
  refine ⟨fun k hk => ?_, ?_, fun t h0 => ?_⟩
  · rcases List.mem_append.mp hk with hk | hk
    · exact hs.shares k hk
    · rw [List.mem_singleton.mp hk]
      exact Handle.shares_new sys fun t h0 e => hno (e ▸ hs.named t h0)
  · show ((w.live ++ [_]).map Handle.addr).Pairwise _
    rw [List.map_append]
    refine List.pairwise_append.mpr ⟨hs.addrs, List.pairwise_singleton _ _, fun a ha b hb e => ?_⟩
    have hb' : b = addr := List.mem_singleton.mp hb
    exact hno (hb' ▸ e ▸ ha)
  · show _ ∈ (w.live ++ [_]).map Handle.addr
    rw [List.map_append]
    exact List.mem_append_left _ (hs.named t h0)

/-- One buffer and the slab of the calling thread are replaced. -/
theorem Sound.replace (hs : w.Sound) (hi : w.live[i]? = some k)
    (hk : k'.Shares (Function.update w.slabs t slab)) (haddr : k'.addr = k.addr)
    (hslab : slab = w.slabs t ∨ slab.base = 0 ∨ slab.owner = k.addr) (mem : Mem) :
    Sound ⟨w.live.set i k', Function.update w.slabs t slab, mem⟩ := by
  have hmap : (w.live.set i k').map Handle.addr = w.live.map Handle.addr := map_set_self hi haddr
  refine ⟨?_, ?_, fun u h0 => ?_⟩
  · refine forall_mem_set hi hk fun j k₂ hj hk₂ => ?_
    have hne : k.addr ≠ k₂.addr := pairwise_getElem?_ne (fun _ _ h => Ne.symm h)
      (List.pairwise_map.mp hs.addrs) (Ne.symm hj) hi hk₂
    refine (hs.shares k₂ (List.mem_of_getElem? hk₂)).other ?_
    exact hslab.imp_right fun h => h.imp_right fun e he => hne (e.symm.trans he)
  · show ((w.live.set i k').map Handle.addr).Pairwise _
    rw [hmap]
    exact hs.addrs
  · show _ ∈ (w.live.set i k').map Handle.addr
    rw [hmap]
    have h0' : (Function.update w.slabs t slab u).base ≠ 0 := h0
    show (Function.update w.slabs t slab u).owner ∈ _
    by_cases hu : u = t
    · subst hu
      rw [Function.update_self] at h0' ⊢
      rcases hslab with rfl | h | h
      · exact hs.named u h0'
      · exact absurd h h0'
      · exact List.mem_map.mpr ⟨k, List.mem_of_getElem? hi, h.symm⟩
    · rw [Function.update_of_ne hu] at h0' ⊢
      exact hs.named u h0'

/-- **One call keeps every buffer shared out.** -/
theorem Sound.step (hs : w.Sound) {op : ThreadOp} (hok : w.Ok op) (e : w.exec op = some w') :
    w'.Sound := by
  cases op with
  | create addr sys =>
      cases e
      exact hs.create sys hok
  | reset t i =>
      obtain ⟨k, hi, rfl⟩ := Option.map_eq_some_iff.mp e
      have hk := hs.shares k (List.mem_of_getElem? hi)
      exact hs.replace hi (hk.reset (hok k hi) w.mem) rfl (Or.inr (Or.inl rfl)) _
  | tryAlloc t i size align =>
      obtain ⟨k, hi, rfl⟩ := Option.map_eq_some_iff.mp e
      have hk := hs.shares k (List.mem_of_getElem? hi)
      have hsv : k.buf.Serves k.addr (w.slabs t) size
          (k.buf.tryAlloc k.addr (w.slabs t) size align) :=
        LockFreeBuffer.tryAlloc_spec hk.ok (hk.owned t) hok.1 hok.2
      have hle : k.buf.offset ≤ (k.buf.tryAlloc k.addr (w.slabs t) size align).2.1.offset :=
        LockFreeBuffer.tryAlloc_offset hk.ok
      have hslab := k.buf.tryAlloc_slab k.addr (w.slabs t) size align
      unfold Handle.tryAlloc
      generalize k.buf.tryAlloc k.addr (w.slabs t) size align = r at hsv hle hslab ⊢
      obtain ⟨r, b', slab⟩ := r
      refine hs.replace hi (hk.served hsv hle hslab) rfl ?_ _
      exact hslab.imp And.right fun h => h.imp_right And.left

end Threads

theorem reach_threads {w : Threads} (h : threads.Reach w) : w.Sound := by
  refine h.inv (P := Threads.Sound) (fun w hi => ?_) fun w op w' hs hok e => hs.step hok e
  obtain ⟨hl, hn⟩ := hi
  refine ⟨?_, ?_, fun t h0 => ?_⟩
  · rw [hl]
    exact fun _ h => by cases h
  · rw [hl]
    exact .nil
  · rw [hn t] at h0
    exact absurd rfl h0

/-- **Threads on buffers**: after any calls of any threads on any buffers, what a buffer handed out
    since its last reset lies in its block, pairwise apart; and a pointer that `try_alloc` returns
    for a power of two `align` is that many bytes aligned from the start of the block, with the
    `size` bytes behind it in the block. -/
theorem threads_sound {w : Threads} (h : threads.Reach w) :
    (∀ k ∈ w.live, (∀ s ∈ k.allocs, s.Inside k.buf.span) ∧ k.allocs.Pairwise Span.Apart) ∧
    ∀ t, ∀ k ∈ w.live, ∀ size e, e < 64 →
      ∀ p ∈ (k.buf.tryAlloc k.addr (w.slabs t) size (2 ^ e)).1, ∃ o, p = k.buf.buffer + o ∧
        o + size ≤ k.buf.capacity ∧ 2 ^ e ∣ o ∧ (0 < size → o < k.buf.capacity) := by
  have hs := reach_threads h
  refine ⟨fun k hk => ⟨(hs.shares k hk).inside, (hs.shares k hk).carved.given⟩, ?_⟩
  intro t k hk size e he p hp
  have hsh := hs.shares k hk
  have hpow : 2 ^ e ≤ 2 ^ 63 := Nat.pow_le_pow_right (by decide) (by omega)
  obtain ⟨_, o, rfl, hle, _⟩ :=
    (LockFreeBuffer.tryAlloc_spec hsh.ok (hsh.owned t) (Nat.two_pow_pos e) hpow).served p hp
  obtain ⟨o', ho, hdvd⟩ := LockFreeBuffer.tryAlloc_aligned (hsh.owned t) he hp
  obtain rfl := Nat.add_left_cancel ho
  exact ⟨o, rfl, hle, hdvd, by omega⟩

/-- Two threads on two buffers; one buffer is reset by one thread while the other has a slab on
    it. -/
theorem threads_sound_mixed : ∃ w, threads.Reach w ∧
    w.live.map (fun k => k.allocs.map Span.base) = [[8192, 8448], [16384, 16640]] ∧
    ∀ k ∈ w.live, k.allocs.Pairwise Span.Apart := by
  obtain ⟨w, hr, hw⟩ := System.exists_reach_of_replay threads
    [.create 1024 (some 8192), .create 2048 (some 16384), .tryAlloc 0 0 8 8, .tryAlloc 1 0 8 8,
      .reset 0 0, .tryAlloc 1 0 8 8, .tryAlloc 0 0 16 4, .tryAlloc 0 1 8 8, .tryAlloc 1 1 24 16]
    (P := fun w =>
      w.live.map (fun k => k.allocs.map Span.base) = [[8192, 8448], [16384, 16640]])
    (s := ⟨[], fun _ => .new, fun _ => 0⟩) ⟨rfl, fun _ => rfl⟩ (by decide)
  exact ⟨w, hr, hw, fun k hk => ((threads_sound hr).1 k hk).2⟩

/-- The last slab of a block used up, and an allocation of no bytes: its offset is the capacity. -/
theorem served_at_end : ∃ w, threads.Reach w ∧ ∃ k ∈ w.live,
    (k.buf.tryAlloc k.addr (w.slabs 0) 0 1).1 = some (k.buf.buffer + k.buf.capacity) :=
  System.exists_reach_of_replay threads
    [.create 1024 (some 8192), .tryAlloc 0 0 1024 1, .tryAlloc 0 0 1024 1, .tryAlloc 0 0 1024 1,
      .tryAlloc 0 0 1024 1]
    (s := ⟨[], fun _ => .new, fun _ => 0⟩) ⟨rfl, fun _ => rfl⟩ (by decide)

end ArenaB
