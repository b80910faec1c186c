/-
  File:      ArenaB/Arena/Stack.lean
  Subject:   The checkpoint stack and the checkpoints that are still valid.

  `StackOk a cps` relates an arena to the list `cps` of its valid checkpoints, oldest first: their
  ids rise strictly and stay below the counter, their positions rise and have been passed, and the
  stack holds some of them in order. That rewinds trim the stack by ids alone is sound because ids
  and ages of the VALID checkpoints agree, also when the debug feature hands ids out again: it
  moves the counter just past the target, and every valid checkpoint is at or before the target.

  * one lemma per effect (`StackOk.grows`, `.mark`, `.push`, `.sub`, `.rewind`);
  * **`reach_stackOk`** -- it holds in every reachable state, for every combination of features;
  * **`stack_sound`** -- what callers see of it.
-/
import ArenaB.Arena.Session

namespace ArenaB

open Base

/-- Ids and positions of the valid checkpoints `cps`, and the stack among them. -/
structure StackOk (a : ArenaInner) (cps : List ArenaCheckpoint) : Prop where
  shape : a.Shape
  ids : cps.Pairwise fun c d => c.checkpointId < d.checkpointId
  below : ∀ cp ∈ cps, cp.checkpointId < a.currentCheckpointId
  order : cps.Pairwise fun c d => c.pos ≤ d.pos
  within : ∀ cp ∈ cps, a.Within cp
  stack : a.checkpoints.Sublist cps

namespace StackOk

variable {a a' : ArenaInner} {cps : List ArenaCheckpoint} {cp : ArenaCheckpoint} {debug : Bool}

theorem nil (h : a.Shape) (hs : a.checkpoints = []) : StackOk a [] :=
  ⟨h, .nil, (fun _ h => nomatch h), .nil, (fun _ h => nomatch h), hs ▸ .slnil⟩

theorem grows (h : StackOk a cps) (hs : a'.Shape) (hg : a.Grows a') : StackOk a' cps :=
  ⟨hs, h.ids, fun c hc => by rw [hg.nextId]; exact h.below c hc, h.order,
    fun c hc => (h.within c hc).grows h.shape hg, by rw [hg.checkpoints]; exact h.stack⟩

theorem same (h : StackOk a cps) (e : a.Same a') : StackOk a' cps :=
  h.grows (e.shape h.shape) (e.grows h.shape)

/-- Entries may leave the stack. -/
theorem sub (h : StackOk a cps) {l : List ArenaCheckpoint} (hl : l.Sublist a.checkpoints) :
    StackOk { a with checkpoints := l } cps :=
  ⟨⟨h.shape.top, h.shape.chunks⟩, h.ids, h.below, h.order,
    fun c hc => ⟨(h.within c hc).index, (h.within c hc).offset⟩, hl.trans h.stack⟩

/-- A checkpoint is the youngest valid one. -/
theorem mark (h : StackOk a cps) (e : a.checkpoint = some (cp, a')) : StackOk a' (cps ++ [cp]) := by
  have hw := ArenaInner.within_checkpoint h.shape e
  have e' := e
  rw [ArenaInner.checkpoint_eq h.shape] at e'
  simp only [Option.some.injEq, Prod.mk.injEq] at e'
  obtain ⟨hcp, rfl⟩ := e'
  have hmem : ∀ {P : ArenaCheckpoint → Prop}, (∀ c ∈ cps, P c) → P cp → ∀ c ∈ cps ++ [cp], P c := by
    intro P h1 h2 c hc
    rcases List.mem_append.mp hc with hc | hc
    · exact h1 c hc
    · rw [List.mem_singleton.mp hc]
      exact h2
  refine ⟨⟨h.shape.top, h.shape.chunks⟩, ?_, hmem (fun c hc => ?_) ?_, ?_,
    hmem (fun c hc => ?_) ⟨hw.index, hw.offset⟩, h.stack.trans (List.sublist_append_left _ _)⟩
  · refine List.pairwise_append.mpr ⟨h.ids, List.pairwise_singleton _ _, fun c hc d hd => ?_⟩
    rw [List.mem_singleton.mp hd, ← hcp]
    exact h.below c hc
  · exact Nat.lt_succ_of_lt (h.below c hc)
  · rw [← hcp]
    exact Nat.lt_succ_self _
  · refine List.pairwise_append.mpr ⟨h.order, List.pairwise_singleton _ _, fun c hc d hd => ?_⟩
    rw [List.mem_singleton.mp hd, ← hcp]
    exact (h.within c hc).pos_le h.shape
  · exact ⟨(h.within c hc).index, (h.within c hc).offset⟩

theorem push (h : StackOk a cps) (e : a.checkpoint = some (cp, a')) :
    StackOk { a' with checkpoints := a'.checkpoints ++ [cp] } (cps ++ [cp]) := by
  have h' := h.mark e
  rw [ArenaInner.checkpoint_eq h.shape] at e
  cases e
  exact ⟨⟨h'.shape.top, h'.shape.chunks⟩, h'.ids, h'.below, h'.order,
    fun c hc => ⟨(h'.within c hc).index, (h'.within c hc).offset⟩, h.stack.append (.refl _)⟩

/-- The ids of the valid checkpoints tell their ages. -/
theorem id_le (h : StackOk a cps) {i : Nat} (hi : cps[i]? = some cp) {c : ArenaCheckpoint}
    (hc : c ∈ cps.take (i + 1)) : c.checkpointId ≤ cp.checkpointId := by
  obtain ⟨j, hj, ec⟩ := mem_take_getElem? hc
  exact pairwise_getElem? (R := fun c d => c.checkpointId ≤ d.checkpointId)
    (fun _ => Nat.le_refl _) (h.ids.imp Nat.le_of_lt) (Nat.le_of_lt_succ hj) ec hi

/-- What `retain` keeps of the stack was taken before the target. -/
theorem filter_sublist (h : StackOk a cps) {i : Nat} (hi : cps[i]? = some cp) :
    (a.checkpoints.filter fun c => c.checkpointId < cp.checkpointId).Sublist
      (cps.take (i + 1)) := by
  have hdrop : (cps.drop (i + 1)).filter (fun c => c.checkpointId < cp.checkpointId) = [] := by
    refine List.filter_eq_nil_iff.mpr fun c hc => ?_
    obtain ⟨k, hk⟩ := List.mem_iff_getElem?.mp hc
    rw [List.getElem?_drop] at hk
    have := pairwise_getElem? (R := fun c d => c.checkpointId ≤ d.checkpointId)
      (fun _ => Nat.le_refl _) (h.ids.imp Nat.le_of_lt) (by omega : i ≤ i + 1 + k) hi hk
    simp only [decide_eq_true_eq]
    omega
  have hcps : cps.filter (fun c => c.checkpointId < cp.checkpointId) =
      (cps.take (i + 1)).filter fun c => c.checkpointId < cp.checkpointId := by
    conv_lhs => rw [← List.take_append_drop (i + 1) cps]
    rw [List.filter_append, hdrop, List.append_nil]
  exact (hcps ▸ h.stack.filter _).trans List.filter_sublist

/-- A rewind keeps the checkpoints up to its target. -/
theorem rewind (h : StackOk a cps) {i : Nat} (hi : cps[i]? = some cp)
    (e : a.rewindToCheckpoint debug cp = some a') : StackOk a' (cps.take (i + 1)) := by
  have hmem : ∀ c ∈ cps.take (i + 1), c ∈ cps := fun c hc => List.mem_of_mem_take hc
  refine ⟨h.shape.rewind e, h.ids.sublist (List.take_sublist _ _), fun c hc => ?_,
    h.order.sublist (List.take_sublist _ _), fun c hc => ?_, ?_⟩
  · obtain ⟨_, rfl⟩ := ArenaInner.rewind_eq_some.mp e
    have h1 := h.id_le hi hc
    have h2 := h.below c (hmem c hc)
    show c.checkpointId < if debug then _ else _
    split <;> omega
  · obtain ⟨j, hj, ec⟩ := mem_take_getElem? hc
    refine (h.within c (hmem c hc)).rewind h.shape e ?_
    exact pairwise_getElem? (R := fun c d => c.pos ≤ d.pos) (fun _ => le_refl _) h.order
      (Nat.le_of_lt_succ hj) ec hi
  · have hs := h.filter_sublist hi
    obtain ⟨_, rfl⟩ := ArenaInner.rewind_eq_some.mp e
    exact hs

end StackOk

/-! ## Sessions -/

namespace Sess

/-- The valid checkpoints, oldest first. -/
def cps (s : Sess) : List ArenaCheckpoint := s.ledger.marks.map Prod.fst

theorem cps_getElem? {s : Sess} {i : Nat} {m : ArenaCheckpoint × Nat}
    (h : s.ledger.marks[i]? = some m) : s.cps[i]? = some m.1 := by
  rw [cps, List.getElem?_map, h]
  rfl

theorem cps_rewind (s : Sess) (w : Arena) (i : Nat) :
    (⟨w, s.ledger.rewind i⟩ : Sess).cps = s.cps.take (i + 1) := List.map_take

theorem cps_mark (s : Sess) (w : Arena) (cp : ArenaCheckpoint) :
    (⟨w, s.ledger.mark cp⟩ : Sess).cps = s.cps ++ [cp] := List.map_append

/-- The top of the stack is found among the valid checkpoints. -/
theorem popIndex_spec {s : Sess} (h : StackOk s.arena.inner s.cps) {cp : ArenaCheckpoint}
    (hcp : s.arena.inner.checkpoints.getLast? = some cp) :
    ∃ m, s.ledger.marks[s.popIndex]? = some m ∧ m.1 = cp := by
  have hmem : cp ∈ s.cps := h.stack.subset (List.mem_of_getLast? hcp)
  obtain ⟨m, hm, e⟩ := List.mem_map.mp hmem
  have hlt : s.ledger.marks.findIdx (fun m => m.1 = cp) < s.ledger.marks.length :=
    List.findIdx_lt_length_of_exists ⟨m, hm, by simpa using e⟩
  have hidx : s.popIndex = s.ledger.marks.findIdx fun m => m.1 = cp := by
    rw [popIndex, hcp]
  rw [hidx]
  refine ⟨_, List.getElem?_eq_getElem hlt, ?_⟩
  simpa using List.findIdx_getElem (w := hlt)

end Sess

theorem Sess.Init.stackOk {f : Features} {s : Sess} (h : s.Init f) :
    StackOk s.arena.inner s.cps := by
  obtain ⟨sys, sys', lf, owner, slab, mem, cap, _, e, _, _, hl⟩ := h
  obtain ⟨_, _, a, hn, hw⟩ := Arena.withCapacity_eq_some e
  have hc : s.cps = [] := by rw [cps, hl]; rfl
  rw [hc, hw]
  exact .nil (ArenaInner.new_shape hn) (ArenaInner.new_eq_ok hn).1

/-- **One step keeps the stack in order**, whatever the guard of the run. -/
theorem Acts.stackOk {debug : Bool} {s s' : Sess} {op : Op} (hacts : Acts debug s op s')
    (h : StackOk s.arena.inner s.cps) : StackOk s'.arena.inner s'.cps := by
  cases hacts with
  | skip _ => exact h
  | take _ ha _ _ =>
      obtain ⟨h1, h2⟩ := Arena.allocateRaw_grows h.shape ha
      exact h.grows h1 h2
  | write _ _ => exact h
  | mark _ e =>
      rw [Sess.cps_mark]
      exact h.mark e
  | push e =>
      rw [Sess.cps_mark]
      exact h.push e
  | rewind _ hm e =>
      rw [Sess.cps_rewind]
      exact (h.rewind (Sess.cps_getElem? hm) e).same
        (Arena.same_resetBuffer (s.arena.withInner _))
  | pop hcp e =>
      obtain ⟨m, hm, rfl⟩ := Sess.popIndex_spec h hcp
      rw [Sess.cps_rewind]
      exact ((h.sub (List.dropLast_sublist _)).rewind (Sess.cps_getElem? hm) e).same
        (Arena.same_resetBuffer (s.arena.withInner _))
  | clear => exact h.sub (List.nil_sublist _)
  | reset =>
      exact .nil (Arena.reset_shape h.shape) (Arena.same_resetBuffer _).checkpoints
  | shrink => exact .nil (Arena.resetAndShrinkToFit_shape h.shape) rfl

/-- **Every reachable state**, for every combination of features. -/
theorem reach_stackOk {f : Features} {s : Sess} (h : (machine f).Reach s) :
    StackOk s.arena.inner s.cps := by
  refine h.inv (P := fun s => StackOk s.arena.inner s.cps)
    (fun s (hs : s.Init f) => hs.stackOk) fun s op s' hs _ e => ?_
  exact (s.exec_acts e).stackOk hs

/-! ## Builds without a lock-free buffer -/

/-- Without the feature there is no buffer, ever. -/
theorem Acts.noBuffer {debug : Bool} {s s' : Sess} {op : Op} (hacts : Acts debug s op s')
    (hs : s.arena.inner.Shape) (h : s.arena.inner.lockfreeBuffer = none) :
    s'.arena.inner.lockfreeBuffer = none := by
  cases hacts with
  | skip _ => exact h
  | take _ ha _ _ =>
      have hn := Arena.allocateRaw_noBuffer hs h ha
      exact hn
  | write _ _ => exact h
  | mark _ e =>
      rw [ArenaInner.checkpoint_eq hs] at e
      cases e
      exact h
  | push e =>
      rw [ArenaInner.checkpoint_eq hs] at e
      cases e
      exact h
  | rewind _ _ e =>
      obtain ⟨_, rfl⟩ := ArenaInner.rewind_eq_some.mp e
      rw [Arena.resetBuffer_noBuffer] <;> exact h
  | pop _ e =>
      obtain ⟨_, rfl⟩ := ArenaInner.rewind_eq_some.mp e
      rw [Arena.resetBuffer_noBuffer] <;> exact h
  | clear => exact h
  | reset => exact Arena.reset_noBuffer h
  | shrink => exact h

theorem reach_noBuffer {debug : Bool} {s : Sess} (h : (machine ⟨debug, false⟩).Reach s) :
    s.arena.inner.lockfreeBuffer = none := by
  refine h.inv' (P := fun s => s.arena.inner.lockfreeBuffer = none)
    (fun s (hs : s.Init ⟨debug, false⟩) => ?_) fun s op s' hr hs _ e => ?_
  · obtain ⟨_, _, lf, _, _, _, _, hlf, e, _⟩ := hs
    obtain ⟨_, _, a, hn, hw⟩ := Arena.withCapacity_eq_some e
    rw [hw]
    show a.lockfreeBuffer = none
    rw [(ArenaInner.new_eq_ok hn).2.2, Option.map_eq_none_iff]
    exact Option.isSome_eq_false_iff.mp hlf |> Option.isNone_iff_eq_none.mp
  · exact (s.exec_acts e).noBuffer (reach_stackOk hr).shape hs

/-! ## What callers see -/

/-- **The checkpoint stack is in order**: its ids rise strictly, its positions rise and lie at or
    below the bump position; so a pop on a non-empty stack trips no assert and raises no offset. -/
theorem stack_sound (f : Features) {s : Sess} (h : (machine f).Reach s) :
    (s.arena.inner.checkpoints.Pairwise fun c d => c.checkpointId < d.checkpointId) ∧
    (s.arena.inner.checkpoints.Pairwise fun c d => c.pos ≤ d.pos) ∧
    (∀ cp ∈ s.arena.inner.checkpoints, cp.pos ≤ toLex s.arena.inner.pos) ∧
    (s.arena.inner.checkpoints ≠ [] → ∃ cp w', s.arena.popAndRewind f.debug = some (cp, w') ∧
      ∀ (k : Nat) (c : Chunk), s.arena.inner.chunks[k]? = some c →
        ∃ c', w'.inner.chunks[k]? = some c' ∧ c'.used ≤ c.used) := by
  have hk := reach_stackOk h
  refine ⟨hk.ids.sublist hk.stack, hk.order.sublist hk.stack,
    fun cp hcp => (hk.within cp (hk.stack.subset hcp)).pos_le hk.shape, fun hne => ?_⟩
  obtain ⟨cp, hcp⟩ : ∃ cp, s.arena.inner.checkpoints.getLast? = some cp :=
    ⟨_, List.getLast?_eq_some_getLast hne⟩
  have hk' := hk.sub (List.dropLast_sublist _)
  have hw := hk'.within cp (hk.stack.subset (List.mem_of_getLast? hcp))
  obtain ⟨a', ha⟩ := hw.rewind_isSome hk'.shape f.debug
  refine ⟨cp, _, Arena.popAndRewind_eq_some.mpr ⟨hcp, a', ha, rfl⟩, fun k c hc => ?_⟩
  obtain ⟨n, hn, hc'⟩ := hw.rewind_chunks ha hc
  rw [(Arena.same_resetBuffer _).chunks]
  exact ⟨_, hc', hn⟩

/-- Two pushes around an allocation, with the debug feature. -/
theorem stack_sound_two_pushes : ∃ s, (machine ⟨true, false⟩).Reach s ∧
    s.arena.inner.checkpoints.length = 2 ∧ (∃ r, s.arena.popAndRewind true = some r) ∧
    s.arena.inner.checkpoints.Pairwise fun c d => c.checkpointId < d.checkpointId := by
  obtain ⟨s, hr, hlen⟩ := System.exists_reach_of_replay (machine ⟨true, false⟩)
    [.pushCheckpoint, .allocateRaw none .word, .pushCheckpoint]
    (P := fun s => s.arena.inner.checkpoints.length = 2) (Sess.init_small true) (by decide)
  obtain ⟨h1, _, _, h4⟩ := stack_sound ⟨true, false⟩ hr
  have hne : s.arena.inner.checkpoints ≠ [] := by
    intro h
    rw [h] at hlen
    cases hlen
  obtain ⟨cp, w', hpop, _⟩ := h4 hne
  exact ⟨s, hr, hlen, ⟨_, hpop⟩, h1⟩

end ArenaB
