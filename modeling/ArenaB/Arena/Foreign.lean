/-
  File:      ArenaB/Arena/Foreign.lean
  Subject:   What the operations of one arena do to the rest of the program.

  A thread has one slab for all the lock-free buffers it uses, and all arenas share the memory.

  * `ThreadSlab.Foreign owner` -- the slab is no region of the buffer at this address;
  * `Live.foreign`, `Live.agree` -- an arena does not notice a foreign slab, nor a change of the
    memory outside its blocks;
  * **`Acts.isLocal`** -- an operation keeps the address and the lock-free block of its arena,
    leaves the slab alone or foreign to every other arena, and writes inside its own blocks only.
-/
import ArenaB.Arena.Live

namespace ArenaB

open Base

/-- The slab is no region of the buffer at this address. -/
def ThreadSlab.Foreign (s : ThreadSlab) (owner : Nat) : Prop := s.base = 0 ∨ s.owner ≠ owner

instance (s : ThreadSlab) (owner : Nat) : Decidable (s.Foreign owner) :=
  inferInstanceAs (Decidable (_ ∨ _))

theorem ThreadSlab.Foreign.not_matches {s : ThreadSlab} {owner g : Nat} (h : s.Foreign owner) :
    ¬ s.Matches owner g := by
  intro hm
  rcases h with h | h
  · exact hm.2.2 h
  · exact h hm.1

/-! ## 1. What an arena does not notice -/

section Unnoticed

variable {w : Arena} {L : Ledger Obj ArenaCheckpoint}

/-- A slab that is not the buffer's own changes nothing for what is live. -/
theorem Live.foreign {slab : ThreadSlab} (h : Live ⟨w, L⟩)
    (hf : w.inner.lockfreeBuffer ≠ none → slab.Foreign w.owner) :
    Live ⟨{ w with slab := slab }, L⟩ := by
  refine ⟨h.separate, fun b hb => ⟨(h.buffer b hb).1, fun hm => ?_⟩, fun o ho hd => ?_, h.apart,
    h.holds, h.covered⟩
  · have hne : w.inner.lockfreeBuffer ≠ none := Option.ne_none_iff_exists'.mpr ⟨b, hb⟩
    exact absurd hm (hf hne).not_matches
  · refine (h.placed o ho hd).imp_right fun hp => ?_
    obtain ⟨b, hb, hne, hin, hfree⟩ := hp
    refine ⟨b, hb, hne, hin, fun x hx hx' => ?_⟩
    have hsome : w.inner.lockfreeBuffer ≠ none := Option.ne_none_iff_exists'.mpr ⟨b, hb⟩
    rcases hx' with hx' | hx'
    · exact hfree x hx (Or.inl hx')
    · exact absurd hx'.1 (hf hsome).not_matches

/-- An arena that moves to an address the slab does not match loses its slab only. -/
theorem Live.moved {owner : Nat} (h : Live ⟨w, L⟩)
    (hf : ∀ b ∈ w.inner.lockfreeBuffer, ¬ w.slab.Matches owner b.generation) :
    Live ⟨{ w with owner := owner }, L⟩ := by
  refine ⟨h.separate, fun b hb => ⟨(h.buffer b hb).1, fun hm => ?_⟩, fun o ho hd => ?_, h.apart,
    h.holds, h.covered⟩
  · exact absurd hm (hf b hb)
  · refine (h.placed o ho hd).imp_right fun hp => ?_
    obtain ⟨b, hb, hne, hin, hfree⟩ := hp
    refine ⟨b, hb, hne, hin, fun x hx hx' => ?_⟩
    rcases hx' with hx' | hx'
    · exact hfree x hx (Or.inl hx')
    · exact absurd hx'.1 (hf b hb)

/-- The blocks of an arena: those of the chunks, and that of the lock-free buffer. -/
def ArenaInner.regions (a : ArenaInner) : List Span := a.spans ++ a.block.toList

/-- What is live lies in one of the arena's blocks. -/
theorem Live.inside {s : Sess} (h : Live s) (hs : s.arena.inner.Shape) {o : Obj}
    (ho : o ∈ s.ledger.log) (hd : o.data ≠ []) :
    ∃ t ∈ s.arena.inner.regions, o.span.Inside t := by
  rcases h.placed o ho hd with hp | hp
  · obtain ⟨t, ht, hin⟩ := hp.inside hs
    exact ⟨t, List.mem_append_left _ ht, hin⟩
  · obtain ⟨t, ht, hin⟩ := hp.onBuffer
    exact ⟨t, List.mem_append_right _ (Option.mem_toList.mpr ht), hin⟩

/-- A change of the memory outside the arena's blocks changes nothing for what is live. -/
theorem Live.agree {m : Mem} (h : Live ⟨w, L⟩) (hs : w.inner.Shape)
    (hm : ∀ t ∈ w.inner.regions, Mem.Agree w.mem m t) : Live ⟨w.withMem m, L⟩ := by
  refine ⟨h.separate, h.buffer, fun o ho hd => ?_, h.apart, fun o ho => ?_, h.covered⟩
  · exact (h.placed o ho hd).imp_right fun hp => hp.congr rfl rfl rfl
  · refine (h.holds o ho).frame fun x hx => ?_
    have hd : o.data ≠ [] := by
      intro hnil
      rw [hnil] at hx
      exact absurd (Nat.lt_of_le_of_lt hx.1 hx.2) (Nat.lt_irrefl _)
    obtain ⟨t, ht, hin⟩ := h.inside hs ho hd
    exact hm t ht x (hin.has hx)

end Unnoticed

/-! ## 2. What an operation leaves behind -/

/-- The reset of the buffer leaves the thread without a slab. -/
theorem Arena.foreign_resetBuffer {w : Arena} (owner : Nat)
    (h : w.resetBuffer.inner.lockfreeBuffer ≠ none) : w.resetBuffer.slab.Foreign owner := by
  unfold Arena.resetBuffer ArenaInner.resetBuffer at h ⊢
  split
  · rename_i hnone
    simp only [hnone] at h
    exact absurd rfl h
  · exact Or.inl rfl

/-- The slab is as before, or foreign to every buffer but the one at `owner`. -/
def SlabLeft (owner : Nat) (slab slab' : ThreadSlab) : Prop :=
  slab' = slab ∨ ∀ o, o ≠ owner → slab'.Foreign o

section Left

variable {w w' : Arena}

theorem LockFreeBuffer.tryThreadSlab_left (b : LockFreeBuffer) (owner : Nat) (slab : ThreadSlab)
    (size align : Nat) : SlabLeft owner slab (b.tryThreadSlab owner slab size align).2 := by
  unfold LockFreeBuffer.tryThreadSlab
  split
  · rename_i hm
    refine Or.inr fun o ho => Or.inr ?_
    -- the slab is the buffer's own, and serving from it keeps its owner
    have howner : (slab.tryAlloc size align).2.owner = slab.owner := by
      unfold ThreadSlab.tryAlloc
      split
      · rfl
      · simp only
        split <;> rfl
    rw [howner, hm.1]
    exact ho.symm
  · exact Or.inr fun _ _ => Or.inl rfl

theorem LockFreeBuffer.refill_left (b : LockFreeBuffer) (owner : Nat) (slab : ThreadSlab)
    (size align : Nat) :
    SlabLeft owner slab (b.refillThreadSlabAndAlloc owner slab size align).2.2 := by
  unfold LockFreeBuffer.refillThreadSlabAndAlloc
  split
  · exact Or.inl rfl
  · simp only
    split
    · exact Or.inl rfl
    · refine Or.inr fun o ho => Or.inr ?_
      unfold ThreadSlab.tryAlloc
      split
      · exact ho.symm
      · simp only
        split <;> exact ho.symm

theorem SlabLeft.trans {owner : Nat} {slab slab' slab'' : ThreadSlab}
    (h : SlabLeft owner slab slab') (h' : SlabLeft owner slab' slab'') :
    SlabLeft owner slab slab'' := by
  rcases h' with rfl | h'
  · exact h
  · exact Or.inr h'

/-- **`try_alloc`** takes the thread's slab for its own buffer, or leaves it as it is. -/
theorem LockFreeBuffer.tryAlloc_left (b : LockFreeBuffer) (owner : Nat) (slab : ThreadSlab)
    (size align : Nat) : SlabLeft owner slab (b.tryAlloc owner slab size align).2.2 := by
  unfold LockFreeBuffer.tryAlloc
  split
  · exact Or.inl rfl
  · have h₁ := b.tryThreadSlab_left owner slab size align
    split
    · rename_i e
      rw [e] at h₁
      exact h₁
    · rename_i slab₁ e
      rw [e] at h₁
      have h₂ := b.refill_left owner slab₁ size align
      split
      · rename_i e'
        rw [e'] at h₂
        exact h₁.trans h₂
      · rename_i e'
        rw [e'] at h₂
        exact h₁.trans h₂

theorem Arena.tryLockfree_left {l : Layout} {r : Option Nat} (e : w.tryLockfree l = (r, w')) :
    SlabLeft w.owner w.slab w'.slab := by
  unfold Arena.tryLockfree at e
  split at e
  · cases e
    exact Or.inl rfl
  · rename_i b _
    split at e
    · have h := b.tryAlloc_left w.owner w.slab l.size l.align
      split at e
      · rename_i e'
        rw [e'] at h
        cases e
        exact h
      · rename_i e'
        rw [e'] at h
        cases e
        exact h
    · cases e
      exact Or.inl rfl

theorem Arena.allocateRaw_left {sys : Option Nat} {l : Layout} {p : Nat}
    (e : w.allocateRaw sys l = some (p, w')) :
    w'.owner = w.owner ∧ SlabLeft w.owner w.slab w'.slab := by
  rcases Arena.allocateRaw_cases e with ⟨_, _, rfl⟩ | ⟨_, hl⟩ | ⟨_, w₁, a', hl, ha, rfl⟩
  · exact ⟨rfl, Or.inl rfl⟩
  · exact ⟨(Arena.tryLockfree_same hl).2.1, Arena.tryLockfree_left hl⟩
  · have hleft := Arena.tryLockfree_left hl
    exact ⟨(Arena.tryLockfree_same hl).2.1, hleft⟩

theorem Arena.resetBuffer_left (w : Arena) : SlabLeft w.owner w.slab w.resetBuffer.slab := by
  unfold Arena.resetBuffer ArenaInner.resetBuffer
  split
  · exact Or.inl rfl
  · exact Or.inr fun _ _ => Or.inl rfl

end Left

/-- What an operation may do outside its arena. -/
structure Local (s s' : Sess) : Prop where
  owner : s'.arena.owner = s.arena.owner
  block : s'.arena.inner.block = s.arena.inner.block
  slab : SlabLeft s.arena.owner s.arena.slab s'.arena.slab
  mem : ∀ t : Span, (∀ u ∈ s'.arena.inner.regions, t.Apart u) →
    Mem.Agree s.arena.mem s'.arena.mem t

section Local

variable {s : Sess} {w : Arena} {L : Ledger Obj ArenaCheckpoint}

/-- An operation that touches neither the slab nor the memory. -/
theorem Local.quiet {a' : ArenaInner} (hb : a'.block = s.arena.inner.block) :
    Local s ⟨s.arena.withInner a', L⟩ :=
  ⟨rfl, hb, Or.inl rfl, fun t _ => Mem.agree_refl _ t⟩

/-- A rewind or a reset, which ends with the reset of the buffer. -/
theorem Local.resetBuffer (h : s.arena.BufOk) {a' : ArenaInner}
    (hb : a'.lockfreeBuffer = s.arena.inner.lockfreeBuffer) :
    Local s ⟨(s.arena.withInner a').resetBuffer, L⟩ := by
  have hok : (s.arena.withInner a').BufOk := by
    intro b hb'
    exact h b (hb ▸ hb')
  have hblock : (s.arena.withInner a').resetBuffer.inner.block = a'.block :=
    (bufOk_resetBuffer hok).2
  have hblock' : a'.block = s.arena.inner.block := by rw [ArenaInner.block, hb]; rfl
  refine ⟨rfl, hblock.trans hblock', (s.arena.withInner a').resetBuffer_left, fun t ht => ?_⟩
  refine agree_resetBuffer _ t fun u hu => ht u (List.mem_append_right _ ?_)
  rw [hblock]
  exact Option.mem_toList.mpr hu

/-- **An operation stays within its arena.** -/
theorem Acts.isLocal {debug : Bool} {s' : Sess} {op : Op} (hacts : Acts debug s op s')
    (hfresh : ∀ blk ∈ op.block, s.arena.inner.Fresh blk) (hs : s.arena.inner.Shape)
    (h : Live s) : Local s s' := by
  cases hacts with
  | skip _ => exact ⟨rfl, rfl, Or.inl rfl, fun t _ => Mem.agree_refl _ t⟩
  | @take _ sys l data p w' m hask e _ hagree =>
      have ha := Arena.allocateRaw_allocated hs h.separate h.buffer (hask.fresh hfresh) e
      obtain ⟨ho, hsl⟩ := Arena.allocateRaw_left e
      refine ⟨ho, ha.block, hsl, fun t ht => ?_⟩
      have hap : t.Apart ⟨p, l.size⟩ := by
        by_cases h0 : l.size = 0
        · exact Or.inr (Or.inl h0)
        · have hshape := (Arena.allocateRaw_grows hs e).1
          rcases ha.placed h0 with hp | hp
          · obtain ⟨u, hu, hin⟩ := hp.inside hshape
            exact (ht u (List.mem_append_left _ hu)).mono (Span.Inside.refl t) hin
          · obtain ⟨u, hu, hin⟩ := hp.onBuffer
            exact (ht u (List.mem_append_right _ (Option.mem_toList.mpr hu))).mono
              (Span.Inside.refl t) hin
      show Mem.Agree s.arena.mem m t
      rw [← ha.mem]
      exact hagree t hap
  | @write i j o b ho hj =>
      refine ⟨rfl, rfl, Or.inl rfl, fun t ht => ?_⟩
      have hd : o.data ≠ [] := by
        intro hnil
        rw [hnil] at hj
        cases hj
      obtain ⟨u, hu, hin⟩ := h.inside hs (List.mem_of_getElem? ho) hd
      refine Mem.agree_write ((ht u hu).mono (Span.Inside.refl t) ?_)
      have h₁ : u.base ≤ o.addr := hin.1
      have h₂ : o.addr + o.data.length ≤ u.fin := hin.2
      refine ⟨h₁.trans (Nat.le_add_right _ _), ?_⟩
      show o.addr + j + 1 ≤ u.fin
      omega
  | mark _ e =>
      rw [ArenaInner.checkpoint_eq hs] at e
      cases e
      exact .quiet rfl
  | push e =>
      rw [ArenaInner.checkpoint_eq hs] at e
      cases e
      exact .quiet rfl
  | rewind _ _ e =>
      obtain ⟨_, rfl⟩ := ArenaInner.rewind_eq_some.mp e
      exact .resetBuffer h.buffer rfl
  | pop _ e =>
      obtain ⟨_, rfl⟩ := ArenaInner.rewind_eq_some.mp e
      exact .resetBuffer h.buffer rfl
  | clear => exact .quiet rfl
  | reset => exact .resetBuffer h.buffer rfl
  | shrink => exact .quiet rfl

end Local

end ArenaB
