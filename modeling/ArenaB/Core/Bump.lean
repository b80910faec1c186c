/-
  File:      ArenaB/Core/Bump.lean
  Subject:   `Chunk::allocate` (src/core.rs) called by many threads on one chunk.

  The bump is a loop: load `used`, compute the aligned range, exchange `used` for its end. Any
  number of calls run at the same time; a step is one atomic access of one call, with what the
  call then computes on its own. The weak exchange may fail although `used` has the value it
  expects.

  * `BumpCall.run` -- the next step of a call. A call remembers the values of `used` it loaded;
    no step reads them;
  * `run_ret` -- an exchange that succeeds is `Chunk.allocate` on the chunk of that moment, so the
    sequential model is what the concurrent one commits;
  * `BumpCall.Sound` -- what is known of a call wherever it is; it survives the steps of the others
    because `used` only grows (`Sound.mono`);
  * **`bump_sound`** -- ranges granted are aligned, within the capacity and apart, and a call gives
    up only on a layout that did not fit.
-/
import ArenaB.Base.Ledger
import ArenaB.Base.System
import ArenaB.Core.Chunk

namespace ArenaB

open Base

/-! ## 1. Steps -/

/-- Where a call of `allocate` is; the arguments are its local variables. -/
inductive BumpPc where
  /-- The head of the loop: the load of `used`. -/
  | load
  | exchange (currentUsed start fin : Nat)
  | ret (p : Option Nat)
  deriving DecidableEq, Repr

/-- One call. -/
structure BumpCall where
  layout : Layout
  pc : BumpPc
  /-- The values of `used` the call has loaded. -/
  reads : List Nat

/-- The chunk and the calls made on it, those that returned included. -/
structure SharedChunk where
  chunk : Chunk
  calls : List BumpCall

/-- The scheduler's choice: a new call, or the next step of a call, whose exchange may be one that
    fails spuriously. -/
inductive BumpStep where
  | call (layout : Layout)
  | run (i : Nat) (spurious : Bool)

/-- What a call does with the value of `used` it loaded. -/
def Chunk.reserve (c : Chunk) (layout : Layout) : BumpPc :=
  let start := alignUp c.used layout.align
  match checkedAdd start layout.size with
  | none => .ret none
  | some fin => if fin > c.capacity then .ret none else .exchange c.used start fin

/-- The next step of a call. -/
def BumpCall.run (c : Chunk) (k : BumpCall) (spurious : Bool) : Chunk × BumpCall :=
  match k.pc with
  | .load => (c, { k with pc := c.reserve k.layout, reads := k.reads ++ [c.used] })
  | .exchange currentUsed start fin =>
      if c.used = currentUsed ∧ spurious = false then
        (c.setUsed fin, { k with pc := .ret (some (c.ptr + start)) })
      else (c, { k with pc := .load })
  | .ret _ => (c, k)

/-- One step of the system. -/
def SharedChunk.exec (s : SharedChunk) : BumpStep → Option SharedChunk
  | .call layout => some { s with calls := s.calls ++ [⟨layout, .load, []⟩] }
  | .run i spurious =>
      s.calls[i]?.map fun k =>
        let r := k.run s.chunk spurious
        ⟨r.1, s.calls.set i r.2⟩

/-- Calls on one chunk, in any order of their steps. -/
def bumps : System SharedChunk BumpStep where
  init s := s.chunk.Ok ∧ s.calls = []
  ok _ _ := True
  step := SharedChunk.exec

instance (s : SharedChunk) (l : BumpStep) : Decidable (bumps.ok s l) := .isTrue trivial

/-- The range a call was granted. -/
def BumpCall.grant? (k : BumpCall) : Option Span :=
  match k.pc with
  | .ret (some p) => some ⟨p, k.layout.size⟩
  | _ => none

/-- The ranges granted so far. -/
def SharedChunk.granted (s : SharedChunk) : List Span := s.calls.filterMap BumpCall.grant?

/-! ## 2. One call -/

section Call

variable {c c' : Chunk} {k : BumpCall}

/-- Everything a call was told holds of the chunk. -/
def BumpCall.Sound (c : Chunk) (k : BumpCall) : Prop :=
  match k.pc with
  | .load => True
  | .exchange currentUsed start fin =>
      start = alignUp currentUsed k.layout.align ∧ fin = start + k.layout.size ∧ fin ≤ c.capacity
  | .ret none =>
      ∃ v ∈ k.reads, ∀ o, v ≤ o → k.layout.align ∣ o → c.capacity < o + k.layout.size
  | .ret (some p) =>
      ∃ start, p = c.ptr + start ∧ k.layout.align ∣ start ∧ start + k.layout.size ≤ c.used

/-- The chunk after some steps: the same block, filled at least as far. -/
structure Chunk.Ahead (c c' : Chunk) : Prop where
  ptr : c'.ptr = c.ptr
  capacity : c'.capacity = c.capacity
  used : c.used ≤ c'.used

theorem Chunk.Ahead.refl (c : Chunk) : c.Ahead c := ⟨rfl, rfl, Nat.le_refl _⟩

theorem BumpCall.Sound.mono (h : k.Sound c) (hc : c.Ahead c') : k.Sound c' := by
  unfold Sound at h ⊢
  rw [hc.ptr, hc.capacity]
  split at h
  · trivial
  · exact h
  · exact h
  · obtain ⟨start, hp, hd, hle⟩ := h
    exact ⟨start, hp, hd, hle.trans hc.used⟩

/-- A request that does not fit at the aligned start fits nowhere behind the offset. -/
theorem Chunk.Ok.no_room (h : c.Ok) {l : Layout}
    (hf : c.capacity < alignUp c.used l.align + l.size) {o : Nat} (ho : c.used ≤ o)
    (hd : l.align ∣ o) : c.capacity < o + l.size := by
  obtain ⟨k, hk⟩ := l.pow2
  have := alignUp_le hk (h.start_le l) ho hd
  omega

/-- After the load, the call has a range within the capacity, or there is no room. -/
theorem Chunk.Ok.reserve_cases (h : c.Ok) (l : Layout) :
    (c.reserve l = .ret none ∧ ∀ o, c.used ≤ o → l.align ∣ o → c.capacity < o + l.size) ∨
      c.reserve l = .exchange c.used (alignUp c.used l.align) (alignUp c.used l.align + l.size) ∧
        alignUp c.used l.align + l.size ≤ c.capacity := by
  simp only [Chunk.reserve, h.checkedAdd_start l]
  split
  · rename_i hf
    exact Or.inl ⟨rfl, fun o => h.no_room hf⟩
  · rename_i hf
    exact Or.inr ⟨rfl, Nat.not_lt.mp hf⟩

/-- **An exchange that succeeds commits `Chunk.allocate`** on the chunk it finds. -/
theorem BumpCall.run_ret (hc : c.Ok) (hk : k.Sound c) {start fin : Nat}
    (he : k.pc = .exchange c.used start fin) :
    k.run c false = (c.setUsed fin, { k with pc := .ret (some (c.ptr + start)) }) ∧
      c.allocate k.layout = some (c.ptr + start, c.setUsed fin) := by
  simp only [Sound, he] at hk
  obtain ⟨rfl, rfl, hle⟩ := hk
  refine ⟨?_, (Chunk.allocate_eq_some hc).mpr ⟨hle, rfl, rfl⟩⟩
  simp only [run, he, and_self, if_true]

/-- What a step of a call does to the chunk and to the call itself: its grant stays, or it is new
    and lies behind the offset. -/
structure BumpCall.Runs (c : Chunk) (k : BumpCall) (r : Chunk × BumpCall) : Prop where
  ok : r.1.Ok
  ahead : c.Ahead r.1
  sound : r.2.Sound r.1
  grant : r.2.grant? = k.grant? ∨ ∀ g ∈ r.2.grant?, c.ptr + c.used ≤ g.base

theorem BumpCall.run_spec (hc : c.Ok) (hk : k.Sound c) (spurious : Bool) :
    k.Runs c (k.run c spurious) := by
  obtain ⟨layout, pc, reads⟩ := k
  cases pc with
  | load =>
      rcases hc.reserve_cases layout with ⟨e, hroom⟩ | ⟨e, hle⟩
      · refine ⟨hc, .refl c, ?_, Or.inl ?_⟩
        · simp only [run, e, Sound]
          exact ⟨c.used, List.mem_append_right _ List.mem_cons_self, hroom⟩
        · simp only [run, e, grant?]
      · refine ⟨hc, .refl c, ?_, Or.inl ?_⟩
        · simp only [run, e, Sound]
          exact ⟨trivial, trivial, hle⟩
        · simp only [run, e, grant?]
  | exchange currentUsed start fin =>
      by_cases hx : c.used = currentUsed ∧ spurious = false
      · obtain ⟨rfl, rfl⟩ := hx
        have hdvd := layout.dvd_alignUp c.used
        have hle := (hc.start layout).1
        rw [(run_ret hc hk rfl).1]
        simp only [Sound] at hk
        obtain ⟨rfl, rfl, hfin⟩ := hk
        refine ⟨hc.setUsed hfin, ⟨rfl, rfl, ?_⟩, ⟨_, rfl, hdvd, Nat.le_refl _⟩, Or.inr ?_⟩
        · show c.used ≤ alignUp c.used layout.align + layout.size
          omega
        · intro g hg
          cases hg
          exact Nat.add_le_add_left hle _
      · simp only [run, if_neg hx]
        exact ⟨hc, .refl c, trivial, Or.inl rfl⟩
  | ret p => exact ⟨hc, .refl c, hk, Or.inl rfl⟩

/-- What was granted ends before the offset. -/
theorem BumpCall.Sound.grant_le (h : k.Sound c) {g : Span} (hg : g ∈ k.grant?) :
    g.fin ≤ c.ptr + c.used := by
  unfold grant? at hg
  unfold Sound at h
  split at hg
  · rename_i p e
    cases hg
    simp only [e] at h
    obtain ⟨start, rfl, _, hle⟩ := h
    simp only [Span.fin]
    omega
  · cases hg

end Call

/-! ## 3. All calls -/

/-- The ranges of two calls are apart. -/
def BumpCall.Apart (k k' : BumpCall) : Prop := ∀ g ∈ k.grant?, ∀ g' ∈ k'.grant?, g.Apart g'

theorem BumpCall.Apart.symm {k k' : BumpCall} (h : k.Apart k') : k'.Apart k :=
  fun g hg g' hg' => (h g' hg' g hg).symm

/-- What holds between the steps. -/
structure SharedChunk.Sound (s : SharedChunk) : Prop where
  ok : s.chunk.Ok
  calls : ∀ k ∈ s.calls, k.Sound s.chunk
  apart : s.calls.Pairwise BumpCall.Apart

/-- **The step**: it keeps the invariant, and the chunk only moves ahead. -/
theorem SharedChunk.Sound.step {s s' : SharedChunk} (h : s.Sound) {l : BumpStep}
    (e : s.exec l = some s') : s'.Sound ∧ s.chunk.Ahead s'.chunk := by
  cases l with
  | call layout =>
      cases e
      refine ⟨⟨h.ok, ?_, ?_⟩, .refl _⟩
      · intro k hk
        rcases List.mem_append.mp hk with hk | hk
        · exact h.calls k hk
        · rw [List.mem_singleton.mp hk]
          trivial
      · refine List.pairwise_append.mpr ⟨h.apart, List.pairwise_singleton _ _, ?_⟩
        intro k _ k' hk' g _ g' hg'
        rw [List.mem_singleton.mp hk'] at hg'
        cases hg'
  | run i spurious =>
      obtain ⟨k, hk, rfl⟩ := Option.map_eq_some_iff.mp e
      have hr := BumpCall.run_spec h.ok (h.calls k (List.mem_of_getElem? hk)) spurious
      refine ⟨⟨hr.ok, ?_, ?_⟩, hr.ahead⟩
      · exact forall_set (fun k' hk' => (h.calls k' hk').mono hr.ahead) hr.sound
      · refine pairwise_set (fun _ _ => BumpCall.Apart.symm) h.apart hk fun k' hk' ha => ?_
        intro g hg g' hg'
        rcases hr.grant with hsame | hnew
        · exact ha g (hsame ▸ hg) g' hg'
        · -- a new range starts where all earlier ones have ended
          have h1 := hnew g hg
          have h2 := (h.calls k' hk').grant_le hg'
          exact Or.inr (Or.inr (Or.inr (h2.trans h1)))

theorem reach_bumps {s : SharedChunk} (h : bumps.Reach s) : s.Sound := by
  refine h.inv (P := SharedChunk.Sound) (fun s hi => ?_) fun s l s' hs _ e => (hs.step e).1
  refine ⟨hi.1, ?_, ?_⟩
  · rw [hi.2]
    exact fun k hk => by cases hk
  · rw [hi.2]
    exact .nil

theorem SharedChunk.Sound.granted {s : SharedChunk} (h : s.Sound) :
    s.granted.Pairwise Span.Apart :=
  List.pairwise_filterMap.mpr (h.apart.imp fun ha => ha)

/-- **Concurrent bumps**: whatever the interleaving, `used` stays within the capacity and no step
    lowers it, what was granted is aligned, within the capacity and pairwise apart, and a call
    returned nothing only if behind a value it loaded no aligned range was left. -/
theorem bump_sound {s : SharedChunk} (h : bumps.Reach s) :
    s.chunk.used ≤ s.chunk.capacity ∧
    (∀ l s', bumps.step s l = some s' → s.chunk.used ≤ s'.chunk.used) ∧
    (∀ k ∈ s.calls, ∀ p, k.pc = .ret (some p) → ∃ start, p = s.chunk.ptr + start ∧
      k.layout.align ∣ start ∧ start + k.layout.size ≤ s.chunk.capacity) ∧
    s.granted.Pairwise Span.Apart ∧
    ∀ k ∈ s.calls, k.pc = .ret none → ∃ v ∈ k.reads, ∀ o, v ≤ o → k.layout.align ∣ o →
      s.chunk.capacity < o + k.layout.size := by
  have hs := reach_bumps h
  refine ⟨hs.ok.used, fun l s' e => (hs.step e).2.used, fun k hk p hp => ?_, hs.granted,
    fun k hk hp => ?_⟩
  · have hk' := hs.calls k hk
    simp only [BumpCall.Sound, hp] at hk'
    obtain ⟨start, e, hd, hle⟩ := hk'
    exact ⟨start, e, hd, hle.trans hs.ok.used⟩
  · have hk' := hs.calls k hk
    simp only [BumpCall.Sound, hp] at hk'
    exact hk'

/-- Two calls load the same offset, one exchange fails and retries, one fails spuriously; a third
    call finds no room. -/
theorem bump_sound_contended : ∃ s, bumps.Reach s ∧
    (s.granted = [⟨4112, 16⟩, ⟨4096, 8⟩] ∧ s.calls.map (·.pc) =
      [.ret (some 4112), .ret (some 4096), .ret none]) ∧ s.granted.Pairwise Span.Apart := by
  obtain ⟨s, hr, hs⟩ := System.exists_reach_of_replay bumps
    [.call ⟨16, 16, ⟨4, rfl⟩, by decide⟩, .call .word, .run 0 false,
      .run 1 false, .run 1 true, .run 1 false, .run 1 false, .run 0 false, .run 0 false,
      .run 0 false, .call ⟨64, 1, ⟨0, rfl⟩, by decide⟩, .run 2 false]
    (P := fun s => s.granted = [⟨4112, 16⟩, ⟨4096, 8⟩] ∧ s.calls.map (·.pc) =
      [.ret (some 4112), .ret (some 4096), .ret none])
    (s := ⟨⟨4096, 64, 0⟩, []⟩) ⟨⟨by decide, by decide⟩, rfl⟩ (by decide)
  exact ⟨s, hr, hs, (bump_sound hr).2.2.2.1⟩

end ArenaB
