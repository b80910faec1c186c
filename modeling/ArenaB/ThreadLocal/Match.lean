/-
  File:      ArenaB/ThreadLocal/Match.lean
  Subject:   What a thread's cache hands out was handed in: withdrawals matched with deposits.

  The calls of a run and their results are logged. Entries move inside the array, by swaps and by
  the shifting loop, and copies stay behind the used part; none of this shows in the entries in
  use, which only ever lose entries and gain the one deposited.

  * `CacheEvent.Drops a` -- after this event nothing deposited for arena `a` before is in the
    cache any more: a clear, a cleanup of that arena, an allocation or deposit for another one;
  * `CacheTurn` -- what a call does to the entries in use, and `exec_turn`: every call does it;
  * `Tickets` -- each entry in use has the time of its deposit, no two the same, none of which has
    been withdrawn;
  * **`withdrawals_matched`** -- each withdrawal has a deposit of its own, of the same pointer and
    arena and of sufficient size, with no dropping event in between.
-/
import ArenaB.Base.Chronicle
import ArenaB.ThreadLocal.Cache

namespace ArenaB

open Base

/-! ## 1. The log -/

/-- A call and its result. -/
inductive CacheEvent where
  | alloc (size arenaId : Nat) (result : Option Nat)
  | dealloc (ptr size arenaId : Nat)
  | clear
  | cleanup (arenaId : Nat)
  deriving DecidableEq, Repr

/-- The event of a call. -/
def CacheOp.event (c : ThreadCache) : CacheOp → CacheEvent
  | .alloc size a => .alloc size a (c.alloc size a).1
  | .dealloc p size a => .dealloc p size a
  | .clear => .clear
  | .cleanup a => .cleanup a

/-- Runs of the cache of one thread with their log. -/
def loggedCaches : System (ThreadCache × List CacheEvent) CacheOp :=
  threadCaches.withGhost [] fun c l log => log ++ [l.event c]

instance (x : ThreadCache × List CacheEvent) (l : CacheOp) : Decidable (loggedCaches.ok x l) :=
  inferInstanceAs (Decidable l.Word)

/-- Nothing deposited for arena `a` outlasts this event. -/
def CacheEvent.Drops (a : Nat) : CacheEvent → Prop
  | .alloc _ b _ => b ≠ a
  | .dealloc _ _ b => b ≠ a
  | .clear => True
  | .cleanup b => b = a

/-- Time `t` is a withdrawal. -/
def Hit (log : List CacheEvent) (t : Nat) : Prop :=
  ∃ size a p, log[t]? = some (.alloc size a (some p))

/-! ## 2. What a call does -/

/-- What becomes of the entries that were kept. -/
inductive CacheTurn (kept : List CacheEntry) (c' : ThreadCache) : CacheEvent → Prop where
  | idle {ev : CacheEvent} (hev : ∀ size a p, ev ≠ .alloc size a (some p))
      (held : c'.held = kept) : CacheTurn kept c' ev
  | hit {size a : Nat} {e : CacheEntry} (size_le : size ≤ e.size) (arena : e.arenaId = a)
      (held : kept.Perm (e :: c'.held)) : CacheTurn kept c' (.alloc size a (some e.ptr))
  | deposit {p size a : Nat} (held : c'.held = kept ++ [⟨p, size, a⟩]) (arena : c'.arenaId = a) :
      CacheTurn kept c' (.dealloc p size a)

/-- A call keeps some of the entries in use, none after a dropping event, and then turns. -/
structure Turns (c c' : ThreadCache) (ev : CacheEvent) (kept : List CacheEntry) : Prop where
  sub : kept.Subperm c.held
  drops : ev.Drops c.arenaId → kept = []
  arena : ¬ ev.Drops c.arenaId → c'.arenaId = c.arenaId
  turn : CacheTurn kept c' ev

namespace ThreadCache

variable {c : ThreadCache}

theorem arenaId_enter (c : ThreadCache) (a : Nat) : (c.enter a).arenaId = a := by
  rcases c.enter_cases a with ⟨h, e⟩ | ⟨_, e⟩
  · rw [e]
    exact h
  · rw [e]

/-- Entering for the same arena keeps everything, for another one nothing. -/
theorem enter_held (c : ThreadCache) (a : Nat) :
    (c.enter a).held.Subperm c.held ∧ (a ≠ c.arenaId → (c.enter a).held = []) := by
  rcases c.enter_cases a with ⟨h, e⟩ | ⟨h, e⟩
  · rw [e]
    exact ⟨List.Subperm.refl _, fun hne => absurd h.symm hne⟩
  · rw [e]
    exact ⟨List.nil_subperm, fun _ => c.held_clear⟩

theorem makeRoom_held (h : c.Fits) (size a : Nat) :
    (c.makeRoom size a).held.Subperm (c.enter a).held ∧ (c.makeRoom size a).arenaId = a := by
  rcases c.makeRoom_cases size a with e | e
  · rw [e]
    exact ⟨List.Subperm.refl _, c.arenaId_enter a⟩
  · rw [e, (h.enter a).held_clearPartial]
    exact ⟨(List.drop_sublist _ _).subperm, c.arenaId_enter a⟩

theorem turns_alloc (h : c.Fits) (size a : Nat) :
    Turns c (c.alloc size a).2 (.alloc size a (c.alloc size a).1) (c.enter a).held := by
  obtain ⟨hsub, hdrop⟩ := c.enter_held a
  rcases c.alloc_cases size a with ⟨_, e⟩ | ⟨i, x, _, hx, hsize, ha, e⟩
  · rw [e]
    refine ⟨hsub, hdrop, fun hn => (c.arenaId_enter a).trans (not_not.mp hn), .idle ?_ rfl⟩
    intro _ _ _ he
    cases he
  · rw [e]
    exact ⟨hsub, hdrop, fun hn => (c.arenaId_enter a).trans (not_not.mp hn),
      .hit hsize ha ((h.enter a).held_remove hx size)⟩

theorem arenaId_insert (c : ThreadCache) (p size a : Nat) :
    (c.insert p size a).arenaId = c.arenaId := by
  unfold insert
  split <;> rfl

theorem turns_dealloc (h : c.Fits) (p size a : Nat) :
    Turns c (c.dealloc p size a) (.dealloc p size a) (c.makeRoom size a).held := by
  obtain ⟨hsub, hdrop⟩ := c.enter_held a
  obtain ⟨hroom, ha⟩ := makeRoom_held h size a
  have harena : (c.dealloc p size a).arenaId = a := (arenaId_insert _ p size a).trans ha
  refine ⟨hroom.trans hsub, fun hd => ?_, fun hn => harena.trans (not_not.mp hn), ?_⟩
  · rw [hdrop hd] at hroom
    exact List.subperm_nil.mp hroom
  · rcases (h.makeRoom size a).insert_cases p size a with ⟨e, _⟩ | ⟨_, _, hheld, _⟩
    · refine .idle (fun _ _ _ he => by cases he) ?_
      rw [ThreadCache.dealloc, e]
    · exact .deposit hheld harena

theorem turns_clear (c : ThreadCache) {ev : CacheEvent} (hd : ev.Drops c.arenaId)
    (hev : ∀ size a p, ev ≠ .alloc size a (some p)) : Turns c c.clear ev [] :=
  ⟨List.nil_subperm, fun _ => rfl, fun hn => absurd hd hn, .idle hev c.held_clear⟩

/-- **Every call turns.** -/
theorem exec_turn (h : c.Fits) (l : CacheOp) : ∃ kept, Turns c (c.exec l) (l.event c) kept := by
  cases l with
  | alloc size a => exact ⟨_, turns_alloc h size a⟩
  | dealloc p size a => exact ⟨_, turns_dealloc h p size a⟩
  | clear => exact ⟨[], c.turns_clear trivial fun _ _ _ he => by cases he⟩
  | cleanup a =>
      have hev : ∀ size b p, CacheEvent.cleanup a ≠ .alloc size b (some p) :=
        fun _ _ _ he => by cases he
      by_cases ha : c.arenaId = a
      · refine ⟨[], ?_⟩
        show Turns c (c.cleanup a) _ []
        rw [ThreadCache.cleanup, if_pos ha]
        exact c.turns_clear ha.symm hev
      · refine ⟨c.held, ?_⟩
        show Turns c (c.cleanup a) _ _
        rw [ThreadCache.cleanup, if_neg ha]
        exact ⟨List.Subperm.refl _, fun hd => absurd hd.symm ha, fun _ => rfl, .idle hev rfl⟩

end ThreadCache

/-! ## 3. Tickets -/

/-- `m` gives every withdrawal of the log a deposit of its own: earlier, for the same pointer and
    arena, of sufficient size, with no dropping event in between. -/
structure Matching (log : List CacheEvent) (m : Nat → Nat) : Prop where
  deposit : ∀ t size a p, log[t]? = some (.alloc size a (some p)) → m t < t ∧
    (∃ s, log[m t]? = some (.dealloc p s a) ∧ size ≤ s) ∧
    ∀ u ev, m t < u → u < t → log[u]? = some ev → ¬ ev.Drops a
  single : ∀ t t', Hit log t → Hit log t' → m t = m t' → t = t'

/-- Entries with the times of their deposits, none of which is withdrawn or dropped. -/
structure Tickets (log : List CacheEvent) (m : Nat → Nat) (ts : List (Nat × CacheEntry)) :
    Prop where
  nodup : (ts.map Prod.fst).Nodup
  issued : ∀ x ∈ ts, log[x.1]? = some (.dealloc x.2.ptr x.2.size x.2.arenaId)
  lasting : ∀ x ∈ ts, ∀ u ev, x.1 < u → log[u]? = some ev → ¬ ev.Drops x.2.arenaId
  unspent : ∀ x ∈ ts, ∀ t, Hit log t → m t ≠ x.1

section Tickets

variable {log : List CacheEvent} {m : Nat → Nat} {ts ts' : List (Nat × CacheEntry)}
  {ev : CacheEvent} {t : Nat}

theorem matching_nil (m : Nat → Nat) : Matching [] m :=
  ⟨(fun _ _ _ _ h => by cases h), fun _ _ h => by obtain ⟨_, _, _, h⟩ := h; cases h⟩

theorem tickets_nil (log : List CacheEvent) (m : Nat → Nat) : Tickets log m [] :=
  ⟨.nil, (fun _ h => by cases h), (fun _ h => by cases h), (fun _ h => by cases h)⟩

theorem Hit.lt (h : Hit log t) : t < log.length := by
  obtain ⟨_, _, _, h⟩ := h
  exact (List.getElem?_eq_some_iff.mp h).1

theorem Tickets.lt (h : Tickets log m ts) {x : Nat × CacheEntry} (hx : x ∈ ts) :
    x.1 < log.length :=
  (List.getElem?_eq_some_iff.mp (h.issued x hx)).1

/-- An event that is no withdrawal adds none. -/
theorem hit_append (hev : ∀ size a p, ev ≠ .alloc size a (some p)) (h : Hit (log ++ [ev]) t) :
    Hit log t := by
  obtain ⟨size, a, p, h⟩ := h
  rcases getElem?_concat_iff.mp h with h | ⟨_, h⟩
  · exact ⟨size, a, p, h⟩
  · exact absurd h.symm (hev size a p)

/-- Fewer entries have fewer tickets. -/
theorem Tickets.subperm (h : Tickets log m ts) (hs : ts'.Subperm ts) : Tickets log m ts' := by
  have hsub := hs.subset
  refine ⟨?_, fun x hx => h.issued x (hsub hx), fun x hx => h.lasting x (hsub hx),
    fun x hx => h.unspent x (hsub hx)⟩
  obtain ⟨l, hl, hlt⟩ := hs
  exact (hl.map Prod.fst).nodup_iff.mp (h.nodup.sublist (hlt.map Prod.fst))

/-- The log grows by an event that drops none of them. -/
theorem Tickets.append (h : Tickets log m ts) (hev : ∀ size a p, ev ≠ .alloc size a (some p))
    (hd : ∀ x ∈ ts, ¬ ev.Drops x.2.arenaId) : Tickets (log ++ [ev]) m ts := by
  refine ⟨h.nodup, fun x hx => getElem?_concat_iff.mpr (Or.inl (h.issued x hx)), ?_,
    fun x hx t ht => h.unspent x hx t (hit_append hev ht)⟩
  intro x hx u e hu he
  rcases getElem?_concat_iff.mp he with he | ⟨_, rfl⟩
  · exact h.lasting x hx u e hu he
  · exact hd x hx

/-- A withdrawal stays matched as the log grows. -/
theorem Matching.grow (h : Matching log m) {size a p : Nat}
    (ht : log[t]? = some (.alloc size a (some p))) (ev : CacheEvent) : m t < t ∧
      (∃ s, (log ++ [ev])[m t]? = some (.dealloc p s a) ∧ size ≤ s) ∧
      ∀ u e, m t < u → u < t → (log ++ [ev])[u]? = some e → ¬ e.Drops a := by
  obtain ⟨hlt, ⟨s, hs, hle⟩, hdrop⟩ := h.deposit t size a p ht
  refine ⟨hlt, ⟨s, getElem?_concat_iff.mpr (Or.inl hs), hle⟩, fun u e hu hut he => ?_⟩
  have htlen := (List.getElem?_eq_some_iff.mp ht).1
  rcases getElem?_concat_iff.mp he with he | ⟨rfl, _⟩
  · exact hdrop u e hu hut he
  · omega

theorem Matching.append (h : Matching log m) (hev : ∀ size a p, ev ≠ .alloc size a (some p)) :
    Matching (log ++ [ev]) m := by
  refine ⟨fun t size a p ht => ?_, fun t t' ht ht' => h.single t t' (hit_append hev ht)
    (hit_append hev ht')⟩
  rcases getElem?_concat_iff.mp ht with ht | ⟨_, ht⟩
  · exact h.grow ht ev
  · exact absurd ht.symm (hev size a p)

/-- **A deposit** is a ticket with the time of its event. -/
theorem Tickets.deposit (hm : Matching log m) (h : Tickets log m ts) {e : CacheEntry}
    (hd : ∀ x ∈ ts, x.2.arenaId = e.arenaId) :
    Tickets (log ++ [.dealloc e.ptr e.size e.arenaId]) m (ts ++ [(log.length, e)]) := by
  have hev : ∀ size a p, CacheEvent.dealloc e.ptr e.size e.arenaId ≠ .alloc size a (some p) :=
    fun _ _ _ he => by cases he
  have h' : Tickets (log ++ [.dealloc e.ptr e.size e.arenaId]) m ts :=
    h.append hev fun x hx hne => hne (hd x hx).symm
  refine ⟨?_, fun x hx => ?_, fun x hx u ev' hu he => ?_, fun x hx t ht => ?_⟩
  · rw [List.map_append]
    refine List.nodup_append.mpr ⟨h.nodup, List.pairwise_singleton _ _, fun t ht t' ht' => ?_⟩
    obtain ⟨x, hx, rfl⟩ := List.mem_map.mp ht
    rw [List.mem_singleton.mp ht']
    exact Nat.ne_of_lt (h.lt hx)
  · rcases List.mem_append.mp hx with hx | hx
    · exact h'.issued x hx
    · rw [List.mem_singleton.mp hx]
      exact getElem?_concat_iff.mpr (Or.inr ⟨rfl, rfl⟩)
  · rcases List.mem_append.mp hx with hx | hx
    · exact h'.lasting x hx u ev' hu he
    · rw [List.mem_singleton.mp hx] at hu
      have := (List.getElem?_eq_some_iff.mp he).1
      rw [List.length_append, List.length_singleton] at this
      have hu' : log.length < u := hu
      omega
  · rcases List.mem_append.mp hx with hx | hx
    · exact h'.unspent x hx t ht
    · -- what is matched was deposited before its withdrawal, hence before now
      rw [List.mem_singleton.mp hx]
      have hold := hit_append hev ht
      have hlt := hold.lt
      obtain ⟨size, a, p, hold⟩ := hold
      have := (hm.deposit t size a p hold).1
      show m t ≠ log.length
      omega

/-- The matching with the next event matched to time `d`. -/
def redeemed (log : List CacheEvent) (m : Nat → Nat) (d : Nat) : Nat → Nat :=
  fun t => if t = log.length then d else m t

theorem redeemed_of_hit (d : Nat) (h : Hit log t) : redeemed log m d t = m t :=
  if_neg (Nat.ne_of_lt h.lt)

/-- **A withdrawal** spends a ticket. -/
theorem Tickets.redeem (hm : Matching log m) {x : Nat × CacheEntry} (h : Tickets log m (x :: ts))
    {size : Nat} (hsize : size ≤ x.2.size) (hd : ∀ y ∈ ts, y.2.arenaId = x.2.arenaId) :
    Matching (log ++ [.alloc size x.2.arenaId (some x.2.ptr)]) (redeemed log m x.1) ∧
      Tickets (log ++ [.alloc size x.2.arenaId (some x.2.ptr)]) (redeemed log m x.1) ts := by
  have hx : x ∈ x :: ts := List.mem_cons_self
  have hnow : redeemed log m x.1 log.length = x.1 := if_pos rfl
  -- a withdrawal is one of before, or this one
  have hhit {t : Nat} (ht : Hit (log ++ [.alloc size x.2.arenaId (some x.2.ptr)]) t) :
      (Hit log t ∧ redeemed log m x.1 t = m t) ∨ t = log.length ∧
        redeemed log m x.1 t = x.1 := by
    obtain ⟨size', a, p, ht⟩ := ht
    rcases getElem?_concat_iff.mp ht with ht | ⟨rfl, _⟩
    · exact Or.inl ⟨⟨size', a, p, ht⟩, redeemed_of_hit _ ⟨size', a, p, ht⟩⟩
    · exact Or.inr ⟨rfl, hnow⟩
  refine ⟨⟨fun t size' a p ht => ?_, fun t t' ht ht' he => ?_⟩, ?_, fun y hy => ?_,
    fun y hy u ev' hu he => ?_, fun y hy t ht => ?_⟩
  · rcases getElem?_concat_iff.mp ht with ht | ⟨rfl, hev⟩
    · rw [redeemed_of_hit _ ⟨size', a, p, ht⟩]
      exact hm.grow ht _
    · cases hev
      rw [hnow]
      refine ⟨h.lt hx, ⟨x.2.size, getElem?_concat_iff.mpr (Or.inl (h.issued x hx)), hsize⟩, ?_⟩
      intro u e hu hut he
      rcases getElem?_concat_iff.mp he with he | ⟨rfl, _⟩
      · exact h.lasting x hx u e hu he
      · omega
  · rcases hhit ht with ⟨h1, e1⟩ | ⟨rfl, e1⟩
    · rcases hhit ht' with ⟨h2, e2⟩ | ⟨rfl, e2⟩
      · exact hm.single t t' h1 h2 (e1 ▸ e2 ▸ he)
      · exact absurd (e1.symm.trans (he.trans e2)) (h.unspent x hx t h1)
    · rcases hhit ht' with ⟨h2, e2⟩ | ⟨rfl, _⟩
      · exact absurd (e2.symm.trans (he.symm.trans e1)) (h.unspent x hx t' h2)
      · rfl
  · exact (List.nodup_cons.mp h.nodup).2
  · exact getElem?_concat_iff.mpr (Or.inl (h.issued y (List.mem_cons_of_mem x hy)))
  · rcases getElem?_concat_iff.mp he with he | ⟨_, rfl⟩
    · exact h.lasting y (List.mem_cons_of_mem x hy) u ev' hu he
    · exact fun hne => hne (hd y hy).symm
  · rcases hhit ht with ⟨h1, e1⟩ | ⟨_, e1⟩
    · rw [e1]
      exact h.unspent y (List.mem_cons_of_mem x hy) t h1
    · rw [e1]
      intro hxy
      exact (List.nodup_cons.mp h.nodup).1 (hxy ▸ List.mem_map_of_mem hy)

end Tickets

/-! ## 4. Runs -/

/-- What holds of a cache and the log of its run. -/
structure Accounted (c : ThreadCache) (log : List CacheEvent) : Prop where
  fits : c.Fits
  arena : ∀ e ∈ c.held, e.arenaId = c.arenaId
  tickets : ∃ m ts, Matching log m ∧ Tickets log m ts ∧ (ts.map Prod.snd).Perm c.held

/-- Tickets for a part of the entries. -/
theorem exists_tickets {ts : List (Nat × CacheEntry)} {es kept : List CacheEntry}
    (hp : (ts.map Prod.snd).Perm es) (hk : kept.Subperm es) :
    ∃ ts' : List (Nat × CacheEntry), ts'.Subperm ts ∧ (ts'.map Prod.snd).Perm kept := by
  obtain ⟨l, hl, hsub⟩ := hk.trans hp.symm.subperm
  obtain ⟨ts', hts, rfl⟩ := List.sublist_map_iff.mp hsub
  exact ⟨ts', hts.subperm, hl⟩

/-- **The step.** -/
theorem Accounted.step {c : ThreadCache} {log : List CacheEvent} (h : Accounted c log)
    (l : CacheOp) : Accounted (c.exec l) (log ++ [l.event c]) := by
  obtain ⟨kept, hsub, hdrops, harena, hturn⟩ := ThreadCache.exec_turn h.fits l
  generalize l.event c = ev at hdrops harena hturn ⊢
  obtain ⟨m, ts, hm, ht, hp⟩ := h.tickets
  obtain ⟨ts₁, hts, hkept⟩ := exists_tickets hp hsub
  have ht₁ := ht.subperm hts
  -- entries survive only an event that leaves their arena in place
  have hstay : ∀ e ∈ kept, e.arenaId = c.arenaId ∧ ¬ ev.Drops c.arenaId := by
    intro e he
    refine ⟨h.arena e (hsub.subset he), fun hd => ?_⟩
    rw [hdrops hd] at he
    cases he
  have hsame : ∀ e ∈ kept, e.arenaId = (c.exec l).arenaId := fun e he =>
    (hstay e he).1.trans (harena (hstay e he).2).symm
  have hlasting : ∀ x ∈ ts₁, ¬ ev.Drops x.2.arenaId := by
    intro x hx
    obtain ⟨h1, h2⟩ := hstay x.2 (hkept.subset (List.mem_map_of_mem hx))
    rw [h1]
    exact h2
  refine ⟨h.fits.exec l, ?_, ?_⟩
  · cases hturn with
    | idle _ hheld =>
        rw [hheld]
        exact hsame
    | hit _ _ hheld => exact fun e he => hsame e (hheld.symm.subset (List.mem_cons_of_mem _ he))
    | deposit hheld ha =>
        rw [hheld]
        intro e he
        rcases List.mem_append.mp he with he | he
        · exact hsame e he
        · rw [List.mem_singleton.mp he]
          exact ha.symm
  · cases hturn with
    | idle hno hheld =>
        exact ⟨m, ts₁, hm.append hno, ht₁.append hno hlasting, hheld ▸ hkept⟩
    | @hit size a e hsize ha hheld =>
        have he : e ∈ ts₁.map Prod.snd := (hkept.trans hheld).symm.subset List.mem_cons_self
        obtain ⟨x, hx, rfl⟩ := List.mem_map.mp he
        have hperm := List.perm_cons_erase hx
        have hred := (ht₁.subperm hperm.symm.subperm).redeem hm hsize fun y hy => by
          have := hlasting y (hperm.symm.subset (List.mem_cons_of_mem x hy))
          exact (not_not.mp this).symm.trans ha.symm
        rw [ha] at hred
        refine ⟨_, _, hred.1, hred.2, ?_⟩
        exact (((hperm.map Prod.snd).symm.trans hkept).trans hheld).cons_inv
    | @deposit p size a hheld ha =>
        have hdep := ht₁.deposit (e := ⟨p, size, a⟩) hm fun x hx =>
          (not_not.mp (hlasting x hx)).symm
        refine ⟨m, _, hm.append (fun _ _ _ he => by cases he), hdep, ?_⟩
        rw [List.map_append, hheld]
        exact hkept.append_right _

theorem reach_accounted {x : ThreadCache × List CacheEvent} (h : loggedCaches.Reach x) :
    Accounted x.1 x.2 := by
  refine h.inv (P := fun x => Accounted x.1 x.2) (fun x hi => ?_) fun x l x' hx _ e => ?_
  · obtain ⟨h1, h2⟩ := hi
    rw [h1, h2]
    refine ⟨ThreadCache.fits_new, (fun e he => by cases he), id, [], matching_nil id,
      tickets_nil [] id, .nil⟩
  · cases e
    exact hx.step l

/-- **Withdrawals are matched with deposits**: in every run each withdrawal has a deposit of its
    own, made before it, of the pointer it returned, for its arena and of at least its size; between
    the two there was no clear, no cleanup of that arena and no call for another one. -/
theorem withdrawals_matched {x : ThreadCache × List CacheEvent} (h : loggedCaches.Reach x) :
    ∃ m : Nat → Nat,
      (∀ t size a p, x.2[t]? = some (.alloc size a (some p)) → m t < t ∧
        (∃ s, x.2[m t]? = some (.dealloc p s a) ∧ size ≤ s) ∧
        ∀ u ev, m t < u → u < t → x.2[u]? = some ev → ¬ ev.Drops a) ∧
      ∀ t t', Hit x.2 t → Hit x.2 t' → m t = m t' → t = t' := by
  obtain ⟨m, _, hm, _⟩ := (reach_accounted h).tickets
  exact ⟨m, hm.deposit, hm.single⟩

/-- Two deposits, the first withdrawn by the last entry taking its place, then the other; the
    leftover copy behind the used part is not found again. -/
theorem withdrawals_matched_swapped : ∃ x, loggedCaches.Reach x ∧
    x.2 = [.dealloc 4096 64 1, .dealloc 8192 32 1, .alloc 16 1 (some 4096),
      .alloc 16 1 (some 8192), .alloc 16 1 none] ∧
    ∃ m : Nat → Nat, ∀ t t', Hit x.2 t → Hit x.2 t' → m t = m t' → t = t' := by
  obtain ⟨x, hr, hx⟩ := System.exists_reach_of_replay loggedCaches
    [.dealloc 4096 64 1, .dealloc 8192 32 1, .alloc 16 1, .alloc 16 1, .alloc 16 1]
    (P := fun x => x.2 = [.dealloc 4096 64 1, .dealloc 8192 32 1, .alloc 16 1 (some 4096),
      .alloc 16 1 (some 8192), .alloc 16 1 none])
    (s := (.new, [])) ⟨rfl, rfl⟩ (by decide)
  obtain ⟨m, _, hm⟩ := withdrawals_matched hr
  exact ⟨x, hr, hx, m, hm⟩

end ArenaB
