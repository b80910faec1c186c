/-
  File:      ArenaB/LockFree/Consistent.lean
  Subject:   `LockFreePool<T>` on weak memory: it is a stack, in an order every thread agrees with.

  A load of `head` may return an old value, so a call may take effect in the past: `try_alloc` can
  find nothing although a push is over. What remains is an order of all calls that is one of a
  stack and in which the calls of each thread are as it made them. That order is the modification
  order of `head`; a call that found nothing goes where the message is that it read.

  * `Acts` -- what a step can do to the history, once for all invariants (`exec_acts`);
  * `Ordered` -- the order; **`Ordered.place`** puts one more call into it;
  * `Answered` -- what `try_alloc` returned are the results in that order;
  * `Placed` -- every value passed in is in one place;
  * **`weak_pool_consistent`** -- all of it, for every choice of orders that is `Enough`, in every
    reachable state; and no thread is ever stuck.
-/
import ArenaB.Base.Heap
import ArenaB.LockFree.Weak

namespace ArenaB

open Base

universe u

/-! ## 1. What a step can do -/

namespace WeakPool

variable {T : Type u} {s s' : WeakPool T} {t : Nat} {th : WeakThread T}

/-- The node a thread is about to link in. -/
def built (s : WeakPool T) (th : WeakThread T) : Option (PoolCell T) := th.pc.builds.bind s.cell?

/-- The node a thread has popped and not yet returned. -/
def taken (s : WeakPool T) (th : WeakThread T) : Option (PoolCell T) := th.pc.leaves.bind s.cell?

/-- Thread `t` moves; the nodes of the others keep their values. -/
structure Moves (s s' : WeakPool T) (t : Nat) (th w : WeakThread T) : Prop where
  here : s.threads[t]? = some th
  threads : s'.threads = s.threads.set t w
  view : th.view ≤ w.view
  cells : ∀ (i : Nat) (thi : WeakThread T) (p : Nat), i ≠ t → s.threads[i]? = some thi →
    thi.pc.owns = some p → s'.cell? p = s.cell? p

/-- **What a step can do.** -/
inductive Acts (s s' : WeakPool T) : Prop where
  /-- Nothing takes effect. -/
  | quiet {t : Nat} {th w : WeakThread T} (moves : Moves s s' t th w)
      (log : s'.log = s.log) (events : s'.events = s.events) (answers : s'.answers = s.answers)
      (given : s'.given = s.given) (built : s'.built w = s.built th)
      (taken : s'.taken w = s.taken th)
  | miss {t k : Nat} {th : WeakThread T} {v : View PoolLoc} (moves : Moves s s' t th ⟨.idle, v⟩)
      (seen : th.view .head ≤ k) (sees : k ≤ v .head) (bound : k ≤ s.log.length)
      (empty : stackOf (s.log.take k) = [])
      (log : s'.log = s.log) (events : s'.events = s.events ++ [⟨t, k, .miss⟩])
      (answers : s'.answers = s.answers ++ [(t, none)]) (given : s'.given = s.given)
      (built : s.built th = none) (taken : s.taken th = none)
  | push {t : Nat} {th : WeakThread T} {v : View PoolLoc} {c : PoolCell T}
      (moves : Moves s s' t th ⟨.idle, v⟩) (sees : s.log.length + 1 ≤ v .head)
      (log : s'.log = s.log ++ [.push c])
      (events : s'.events = s.events ++ [⟨t, s.log.length + 1, .push c⟩])
      (answers : s'.answers = s.answers) (given : s'.given = s.given)
      (built : s.built th = some c) (taken : s.taken th = none)
  | pop {t : Nat} {th w : WeakThread T} {c : PoolCell T} {rest : List (PoolCell T)}
      (moves : Moves s s' t th w) (sees : s.log.length + 1 ≤ w.view .head)
      (top : stackOf s.log = c :: rest) (log : s'.log = s.log ++ [.pop c])
      (events : s'.events = s.events ++ [⟨t, s.log.length + 1, .pop c⟩])
      (answers : s'.answers = s.answers) (given : s'.given = s.given)
      (built : s.built th = none) (built' : s'.built w = none)
      (taken : s.taken th = none) (taken' : s'.taken w = some c)
  | free {t : Nat} {th : WeakThread T} {v : View PoolLoc} {c : PoolCell T}
      (moves : Moves s s' t th ⟨.idle, v⟩) (log : s'.log = s.log) (events : s'.events = s.events)
      (answers : s'.answers = s.answers ++ [(t, some (c.ticket, c.data))])
      (given : s'.given = s.given) (built : s.built th = none) (taken : s.taken th = some c)
  | make {t : Nat} {th w : WeakThread T} {c : PoolCell T} (moves : Moves s s' t th w)
      (log : s'.log = s.log) (events : s'.events = s.events) (answers : s'.answers = s.answers)
      (ticket : c.ticket = s.given.length) (given : s'.given = s.given ++ [c.data])
      (built : s.built th = none) (built' : s'.built w = some c)
      (taken : s.taken th = none) (taken' : s'.taken w = none)

theorem cell?_congr {p : Nat} (h : s'.mem (.data p) = s.mem (.data p)) :
    s'.cell? p = s.cell? p := by
  unfold cell?
  rw [latest_congr h]

/-- What the thread that may pop reads from `head`. -/
theorem Sound.pop_load (h : s.Sound) (ht : s.threads[t]? = some th) (htp : t = s.popper)
    {o : MemOrder} (ho : o.acquires = true) {k : Nat} {r : PoolVal T × View PoolLoc}
    (e : s.mem.load o th.view .head k = some r) :
    th.view ≤ r.2 ∧ (r.1 = .ptr 0 ∧ th.view .head ≤ k ∧ k ≤ r.2 .head ∧ k ≤ s.log.length ∧
        stackOf (s.log.take k) = [] ∨
      ∃ c ∈ stackOf s.log, c.addr ≠ 0 ∧ r.1 = .ptr c.addr ∧ Knows s.mem r.2 c.addr) := by
  obtain ⟨y, hy, hr, hle, hv, hacq, hk⟩ := Messages.load_eq_some e
  obtain ⟨hkl, hval⟩ := h.read_head hy
  obtain ⟨hsuf, hknow⟩ := h.fresh th (htp ▸ ht) k y hle hy
  refine ⟨hv, ?_⟩
  cases hst : stackOf (s.log.take k) with
  | nil =>
      rw [hst] at hval
      exact Or.inl ⟨hr.trans hval, hle, hk, hkl, rfl⟩
  | cons c rest =>
      rw [hst] at hval hsuf hknow
      have hc := hsuf.subset List.mem_cons_self
      exact Or.inr ⟨c, hc, (h.live c hc).1, hr.trans hval,
        (hknow c List.mem_cons_self).mono (hacq ho)⟩

/-- What any thread reads from `head`. -/
theorem Sound.load_head (h : s.Sound) {v : View PoolLoc} {o : MemOrder} {k : Nat}
    {r : PoolVal T × View PoolLoc} (e : s.mem.load o v .head k = some r) :
    v ≤ r.2 ∧ ∃ a, r.1 = .ptr a := by
  obtain ⟨y, hy, hr, _, hv, _, _⟩ := Messages.load_eq_some e
  exact ⟨hv, _, hr.trans (h.read_head hy).2⟩

/-- A thread moves and nothing else happens. -/
theorem acts_goto (ht : s.threads[t]? = some th) {pc : Pc T} {v : View PoolLoc}
    (hv : th.view ≤ v) (hb : pc.builds = th.pc.builds) (hl : pc.leaves = th.pc.leaves) :
    Acts s (s.goto t pc v) :=
  .quiet (w := ⟨pc, v⟩) ⟨ht, rfl, hv, fun _ _ _ _ _ _ => rfl⟩ rfl rfl rfl rfl
    (congrArg (·.bind s.cell?) hb) (congrArg (·.bind s.cell?) hl)

theorem acts_touch (ht : s.threads[t]? = some th) {a : Nat} {pc : Pc T} {v : View PoolLoc}
    (hv : th.view ≤ v) (hb : pc.builds = th.pc.builds) (hl : pc.leaves = th.pc.leaves) :
    Acts s (s.touch t a pc v) := by
  have hcell : (s.touch t a pc v).cell? = s.cell? :=
    funext fun p => cell?_congr (touch_mem (fun e => by cases e))
  refine .quiet ⟨ht, rfl, hv.trans (s.mem.le_store .relaxed v (.reads a t) .undef),
    fun _ _ p _ _ _ => ?_⟩ rfl rfl rfl rfl ?_ ?_
  · rw [hcell]
  · rw [built, built, hcell]
    exact congrArg (·.bind s.cell?) hb
  · rw [taken, taken, hcell]
    exact congrArg (·.bind s.cell?) hl

variable {o : PoolOrders} {choice : Nat} {spurious : Bool}

/-- A load of `head` by the thread that may pop: it finds nothing, or it goes on. -/
theorem acts_pop_load (h : s.Sound) {pc : Pc T} {v : View PoolLoc}
    (ht : s.threads[t]? = some ⟨pc, v⟩) (hb : pc.builds = none) (hl : pc.leaves = none) {k : Nat}
    {v' : View PoolLoc} (hv : v ≤ v') (hseen : v .head ≤ k) (hsees : k ≤ v' .head)
    (hbound : k ≤ s.log.length) (hempty : stackOf (s.log.take k) = []) :
    (s.miss t k v').Sound ∧ Acts s (s.miss t k v') := by
  refine ⟨h.miss ht hv k, .miss ⟨ht, rfl, hv, fun _ _ _ _ _ _ => rfl⟩ hseen hsees hbound hempty rfl
    rfl rfl rfl ?_ ?_⟩
  · rw [built, hb]
    rfl
  · rw [taken, hl]
    rfl

/-- A successful compare-exchange leaves the nodes alone. -/
theorem cell?_swing (z : Message PoolLoc (PoolVal T)) (op : StackOp (PoolCell T)) (pc : Pc T)
    (v : View PoolLoc) (p : Nat) :
    (((s.withMem (s.mem.post .head z)).acts t op).goto t pc v).cell? p = s.cell? p :=
  cell?_congr (sameNode_post_head s.mem z p).2

/-- **The next step of a thread** keeps the invariant. -/
theorem run_acts (ho : o.Enough) (h : s.Sound) (ht : s.threads[t]? = some th)
    (e : s.run o t choice spurious th.view th.pc = some s') : s'.Sound ∧ Acts s s' := by
  obtain ⟨pc, v⟩ := th
  have hrel := h.relies t _ ht
  have hpop : pc.pops = true → t = s.popper := h.alone t _ ht
  cases pc with
  | idle => cases e
  | popCheck =>
      obtain ⟨r, hr, rfl⟩ := Option.map_eq_some_iff.mp e
      obtain ⟨hv, ⟨hval, hseen, hsees, hbound, hempty⟩ | ⟨c, _, h0, hval, _⟩⟩ :=
        h.pop_load ht (hpop rfl) ho.2 hr
      · rw [hval]
        exact acts_pop_load h ht rfl rfl hv hseen hsees hbound hempty
      · rw [hval]
        split
        · rename_i heq
          exact absurd (PoolVal.ptr.inj heq) h0
        · exact ⟨h.goto ht hv hpop (fun p hp => by cases hp) trivial, acts_goto ht hv rfl rfl⟩
  | popLoad =>
      obtain ⟨r, hr, rfl⟩ := Option.map_eq_some_iff.mp e
      obtain ⟨hv, ⟨hval, hseen, hsees, hbound, hempty⟩ | ⟨c, hc, h0, hval, hk⟩⟩ :=
        h.pop_load ht (hpop rfl) ho.2 hr
      · rw [hval]
        exact acts_pop_load h ht rfl rfl hv hseen hsees hbound hempty
      · rw [hval]
        split
        · rename_i heq
          exact absurd (PoolVal.ptr.inj heq) h0
        · rename_i heq
          obtain rfl := PoolVal.ptr.inj heq
          exact ⟨h.goto ht hv hpop (fun p hp => by cases hp) ⟨⟨c, hc, rfl⟩, hk⟩,
            acts_goto ht hv rfl rfl⟩
        · rename_i hno
          exact absurd rfl (hno _)
  | popNext head =>
      obtain ⟨⟨c, hc, rfl⟩, hk⟩ := hrel
      simp only [WeakPool.run, (h.live c hc).2, if_true] at e
      obtain ⟨r, hr, rfl⟩ := Option.map_eq_some_iff.mp e
      obtain ⟨n, hn⟩ := h.linked.next hc
      have hlatest := hk.1.load_latest hr
      have hval : r.1 = .ptr n := Option.some.inj (hlatest.symm.trans hn)
      obtain ⟨_, _, _, _, hv, _, _⟩ := Messages.load_eq_some hr
      rw [hval]
      exact ⟨h.touch ht (hpop rfl) (h.live c hc).2 hv (fun p hp => by cases hp)
        ⟨⟨c, hc, rfl⟩, hk.mono hv, hn⟩, acts_touch ht hv rfl rfl⟩
  | popCas head next =>
      simp only [WeakPool.run] at e
      split at e
      · rename_i hcas
        obtain ⟨x, hx, hxa⟩ := hrel.1
        obtain ⟨c, rest, hst, hca, hc, _⟩ := h.uncons hcas.1 (hxa ▸ (h.live x hx).1)
        rw [hc] at e
        obtain ⟨r, hr, rfl⟩ := Option.map_eq_some_iff.mp e
        obtain ⟨y, z, hy, hm, hz, hv, hyz, _, hlen⟩ := Messages.exchange_eq_some hr
        rw [h.count] at hlen
        rw [hm]
        refine ⟨(h.pop ht hcas.1 hc hy hz hv hyz hlen).2, .pop (w := ⟨.popRead head, r.2⟩)
          ⟨ht, rfl, hv, fun _ _ p _ _ _ => cell?_swing z _ _ _ p⟩ hlen hst rfl rfl rfl rfl rfl rfl
          rfl ?_⟩
        exact (cell?_swing z _ _ _ head).trans hc
      · obtain ⟨r, hr, rfl⟩ := Option.map_eq_some_iff.mp e
        obtain ⟨hv, _⟩ := h.load_head hr
        exact ⟨h.goto ht hv hpop (fun p hp => by cases hp) trivial, acts_goto ht hv rfl rfl⟩
  | popRead head =>
      obtain ⟨hk, n, d, hd⟩ := hrel
      have hl := h.owned t _ head ht rfl
      simp only [WeakPool.run, if_pos (And.intro hl.live hk.2), cell?_eq_some hd] at e
      cases e
      exact ⟨h.touch ht (hpop rfl) hl.live (le_refl _) (fun p hp => hp) ⟨hk, hd⟩,
        acts_touch ht (le_refl _) rfl rfl⟩
  | popFree head ticket d =>
      obtain ⟨hk, hd⟩ := hrel
      have hl := h.owned t _ head ht rfl
      have hclear : s.Clear v head :=
        ⟨hk.1, hk.2, fun i _ => h.marks _ ((hpop rfl) ▸ ht) head i⟩
      simp only [WeakPool.run, if_pos (And.intro hl.live hclear)] at e
      cases e
      exact ⟨h.free ht, .free (c := ⟨head, ticket, d⟩) ⟨ht, rfl, le_refl _, fun _ _ _ _ _ _ => rfl⟩
        rfl rfl rfl rfl rfl (cell?_eq_some hd)⟩
  | pushLoad node =>
      obtain ⟨r, hr, rfl⟩ := Option.map_eq_some_iff.mp e
      obtain ⟨hv, a, hval⟩ := h.load_head hr
      rw [hval]
      exact ⟨h.goto ht hv (fun e => by cases e) (fun p hp => hp) ⟨hrel.1.mono hv, hrel.2⟩,
        acts_goto ht hv rfl rfl⟩
  | pushStore node head =>
      have hl := h.owned t _ node ht rfl
      simp only [WeakPool.run, hl.live, if_true] at e
      cases e
      have hmem : ∀ p, (s.link o.pushStore t node head v).mem (.data p) = s.mem (.data p) :=
        fun p => link_mem (fun e => by cases e)
      exact ⟨h.link ht o.pushStore, .quiet ⟨ht, rfl,
        s.mem.le_store o.pushStore v (.next node) (.ptr head),
        fun _ _ p _ _ _ => cell?_congr (hmem p)⟩ rfl rfl rfl rfl (cell?_congr (hmem node)) rfl⟩
  | pushCas node head =>
      obtain ⟨_, ⟨n, d, hd⟩, _⟩ := hrel
      simp only [WeakPool.run] at e
      split at e
      · rename_i hcas
        have hc := cell?_eq_some hd
        rw [hc] at e
        obtain ⟨r, hr, rfl⟩ := Option.map_eq_some_iff.mp e
        obtain ⟨y, z, hy, hm, hz, hv, hyz, hvz, hlen⟩ := Messages.exchange_eq_some hr
        rw [h.count] at hlen
        rw [hm]
        exact ⟨h.push ht hcas.1 hc hy hz hv hyz (hvz ho.1), .push
          ⟨ht, rfl, hv, fun _ _ p _ _ _ => cell?_swing z _ _ _ p⟩ hlen rfl rfl rfl rfl hc rfl⟩
      · obtain ⟨r, hr, rfl⟩ := Option.map_eq_some_iff.mp e
        obtain ⟨hv, _⟩ := h.load_head hr
        exact ⟨h.goto ht hv (fun e => by cases e) (fun p hp => hp)
          ⟨(h.relies t _ ht).1.mono hv, n, d, hd⟩, acts_goto ht hv rfl rfl⟩

/-- **Every step** keeps the invariant. -/
theorem exec_acts (ho : o.Enough) (h : s.Sound) {st : WeakStep T} (hok : s.Ok st)
    (e : s.exec o st = some s') : s'.Sound ∧ Acts s s' := by
  cases st with
  | tryAlloc t =>
      simp only [WeakPool.exec] at e
      split at e
      · rename_i v ht
        split at e
        · rename_i htp
          cases e
          exact ⟨h.goto ht (le_refl v) (fun _ => htp) (fun p hp => by cases hp) trivial,
            acts_goto ht (le_refl v) rfl rfl⟩
        · cases e
      · cases e
  | dealloc t d a =>
      simp only [WeakPool.exec] at e
      split at e
      · rename_i v ht
        obtain ⟨hk, hr⟩ := h.freed a hok.2
        have hclear : s.Clear (v ⊔ s.freed a) a :=
          ⟨hk.1.mono le_sup_right, hk.2.mono le_sup_right, fun i _ => (hr i).mono le_sup_right⟩
        rw [if_pos hclear] at e
        cases e
        obtain ⟨hs, hc⟩ := h.make ht hok.1 hok.2 d (s.freed a)
        refine ⟨hs, .make (w := ⟨.pushLoad a, _⟩) (c := ⟨a, s.given.length, d⟩)
          ⟨ht, rfl, ?_, fun i thi p _ hi hp => ?_⟩ rfl rfl rfl rfl rfl rfl hc rfl rfl⟩
        · exact le_sup_left.trans (s.le_madeView a d (v ⊔ s.freed a))
        · refine cell?_congr (make_same fun e => ?_).2
          have hl := (h.owned i thi p hi hp).live
          rw [e, hok.2] at hl
          cases hl
      · cases e
  | run t choice spurious =>
      obtain ⟨th, ht, e⟩ := Option.bind_eq_some_iff.mp e
      exact run_acts ho h ht e
  | handOver t =>
      simp only [WeakPool.exec] at e
      split at e
      · rename_i th th' ht ht'
        split at e
        · cases e
        · rename_i hout
          cases e
          exact ⟨h.handOver ht ht' (Bool.eq_false_of_not_eq_true hout),
            .quiet (w := ⟨th'.pc, th'.view ⊔ th.view⟩)
              ⟨ht', rfl, le_sup_left, fun _ _ _ _ _ _ => rfl⟩ rfl rfl rfl rfl rfl rfl⟩
      · cases e

end WeakPool

/-! ## 2. Histories of a stack -/

section Lifo

variable {α : Type u} {ops ops' : List (StackOp α)} {l : List α}

theorem Lifo.stackOf_eq (h : Lifo ops l) : stackOf ops = l := by
  induction h with
  | nil => rfl
  | push a _ ih => rw [stackOf_concat, ih]; rfl
  | pop _ ih => rw [stackOf_concat, ih]; rfl
  | miss _ ih => rw [stackOf_concat, ih]; rfl

/-- The last operation and those before it. -/
theorem Lifo.of_concat {op : StackOp α} (h : Lifo (ops ++ [op]) l) :
    ∃ l₀, Lifo ops l₀ ∧ ∀ ops', Lifo ops' l₀ → Lifo (ops' ++ [op]) l := by
  generalize he : ops ++ [op] = x at h
  cases h with
  | nil => exact absurd he (List.append_ne_nil_of_right_ne_nil _ (List.cons_ne_nil _ _))
  | push a h =>
      obtain ⟨rfl, hop⟩ := List.append_inj' he rfl
      cases hop
      exact ⟨_, h, fun _ h' => .push a h'⟩
  | pop h =>
      obtain ⟨rfl, hop⟩ := List.append_inj' he rfl
      cases hop
      exact ⟨_, h, fun _ h' => .pop h'⟩
  | miss h =>
      obtain ⟨rfl, hop⟩ := List.append_inj' he rfl
      cases hop
      exact ⟨_, h, fun _ h' => .miss h'⟩

/-- A pop that finds nothing fits wherever the stack is empty. -/
theorem Lifo.insert_miss (h : Lifo (ops ++ ops') l) (he : Lifo ops []) :
    Lifo (ops ++ .miss :: ops') l := by
  induction ops' using List.reverseRecOn generalizing l with
  | nil =>
      rw [List.append_nil] at h
      rw [← h.stackOf_eq, he.stackOf_eq]
      exact .miss he
  | append_singleton ops' op ih =>
      rw [← List.append_assoc] at h
      obtain ⟨l₀, h₀, hlast⟩ := h.of_concat
      have := hlast _ (ih h₀)
      rwa [List.append_assoc, List.cons_append] at this

end Lifo

/-- A list in order is what comes up to a place and what comes behind it. -/
theorem filter_append_filter {α : Type u} {f : α → Nat} {l : List α}
    (h : l.Pairwise fun x y => f x ≤ f y) (k : Nat) :
    l.filter (fun x => f x ≤ k) ++ l.filter (fun x => k < f x) = l := by
  induction l with
  | nil => rfl
  | cons x l ih =>
      obtain ⟨hx, hl⟩ := List.pairwise_cons.mp h
      by_cases hk : f x ≤ k
      · rw [List.filter_cons_of_pos (by simpa using hk),
          List.filter_cons_of_neg (by simpa using hk), List.cons_append, ih hl]
      · have hnil : l.filter (fun y => f y ≤ k) = [] :=
          List.filter_eq_nil_iff.mpr fun y hy => by
            have := hx y hy
            simp only [decide_eq_true_eq]
            omega
        have hall : l.filter (fun y => k < f y) = l :=
          List.filter_eq_self.mpr fun y hy => by
            have := hx y hy
            simp only [decide_eq_true_eq]
            omega
        rw [List.filter_cons_of_neg (by simpa using hk),
          List.filter_cons_of_pos (by simpa using hk), hnil, hall]
        rfl

/-! ## 3. The order -/

namespace WeakPool

variable {T : Type u} {s s' : WeakPool T} {order : List (PoolEvent T)} {t : Nat}

/-- **An order of the calls that took effect**: each thread's are as it made them, and up to every
    write of `head` they are those of a stack. -/
structure Ordered (s : WeakPool T) (order : List (PoolEvent T)) : Prop where
  perm : order.Perm s.events
  threads : ∀ t, order.filter (fun x => x.thread = t) = s.events.filter (fun x => x.thread = t)
  sorted : order.Pairwise fun x y => x.pos ≤ y.pos
  bound : ∀ x ∈ s.events, x.pos ≤ s.log.length
  lifo : ∀ k ≤ s.log.length,
    Lifo ((order.filter fun x => x.pos ≤ k).map PoolEvent.op) (stackOf (s.log.take k))
  seen : ∀ x ∈ s.events, ∀ th, s.threads[x.thread]? = some th → x.pos ≤ th.view .head

/-- Everything in the order is bound. -/
theorem Ordered.filter_length (h : s.Ordered order) :
    (order.filter fun x => x.pos ≤ s.log.length) = order :=
  List.filter_eq_self.mpr fun x hx => by
    simpa using h.bound x (h.perm.subset hx)

/-- A thread that moved has seen no less. -/
theorem Ordered.seen_moves (h : s.Ordered order) {th w : WeakThread T} (hm : Moves s s' t th w) :
    ∀ x ∈ s.events, ∀ th, s'.threads[x.thread]? = some th → x.pos ≤ th.view .head := by
  intro x hx
  rw [hm.threads]
  intro thx hget
  refine forall_getElem?_set (P := fun i thi => x.thread = i → x.pos ≤ thi.view .head)
    (fun hi => ?_) (fun i thi _ hi hxi => ?_) _ thx hget rfl
  · exact (h.seen x hx th (hi ▸ hm.here)).trans (hm.view .head)
  · exact h.seen x hx thi (hxi ▸ hi)

/-- Nothing took effect. -/
theorem Ordered.quiet (h : s.Ordered order) {th w : WeakThread T} (hm : Moves s s' t th w)
    (hlog : s'.log = s.log) (hev : s'.events = s.events) : s'.Ordered order := by
  refine ⟨hev ▸ h.perm, hev ▸ h.threads, h.sorted, ?_, ?_, ?_⟩
  · rw [hev, hlog]
    exact h.bound
  · rw [hlog]
    exact h.lifo
  · rw [hev]
    exact h.seen_moves hm

/-- **One more call takes its place**: behind what comes no later in the modification order, so
    behind all earlier calls of its thread. -/
theorem Ordered.place (h : s.Ordered order) {th w : WeakThread T} (hm : Moves s s' t th w)
    {x : PoolEvent T} (hx : x.thread = t) (hbound : x.pos ≤ s'.log.length)
    (hlen : s.log.length ≤ s'.log.length) (hseen : th.view .head ≤ x.pos ∨ s.log.length < x.pos)
    (hsees : x.pos ≤ w.view .head) (hev : s'.events = s.events ++ [x])
    (hlifo : ∀ a b, order = a ++ b → (∀ y ∈ a, y.pos ≤ x.pos) → (∀ y ∈ b, x.pos < y.pos) →
      ∀ k ≤ s'.log.length, Lifo (((a ++ x :: b).filter fun y => y.pos ≤ k).map PoolEvent.op)
        (stackOf (s'.log.take k))) :
    ∃ order', s'.Ordered order' := by
  have hsplit := filter_append_filter h.sorted x.pos
  generalize ha : (order.filter fun y => y.pos ≤ x.pos) = a at hsplit
  generalize hb : (order.filter fun y => x.pos < y.pos) = b at hsplit
  have hale : ∀ y ∈ a, y.pos ≤ x.pos := fun y hy => by
    rw [← ha] at hy
    simpa using (List.mem_filter.mp hy).2
  have hblt : ∀ y ∈ b, x.pos < y.pos := fun y hy => by
    rw [← hb] at hy
    simpa using (List.mem_filter.mp hy).2
  have hsorted := h.sorted
  rw [← hsplit] at hsorted
  obtain ⟨hsa, hsb, hsab⟩ := List.pairwise_append.mp hsorted
  -- the thread's own calls are all in front
  have hown : b.filter (fun y => y.thread = t) = [] := by
    refine List.filter_eq_nil_iff.mpr fun y hy hyt => ?_
    have hyt' : y.thread = t := by simpa using hyt
    have hmem : y ∈ s.events := h.perm.subset (hsplit ▸ List.mem_append_right a hy)
    have hpos := hblt y hy
    rcases hseen with hs | hs
    · have := (h.seen y hmem th (hyt' ▸ hm.here)).trans hs
      omega
    · have := h.bound y hmem
      omega
  refine ⟨a ++ x :: b, ?_, fun i => ?_, ?_, fun y hy => ?_, hlifo a b hsplit.symm hale hblt,
    fun y hy thy hget => ?_⟩
  · rw [hev]
    exact List.perm_middle.trans ((List.perm_append_singleton x _).symm.trans
      ((hsplit ▸ h.perm).append_right [x]))
  · rw [hev, List.filter_append, List.filter_append, ← h.threads i, ← hsplit, List.filter_append,
      List.append_assoc]
    by_cases hi : x.thread = i
    · obtain rfl : t = i := hx.symm.trans hi
      rw [List.filter_cons_of_pos (by simpa using hx), hown, List.filter_cons_of_pos
        (by simpa using hx)]
      rfl
    · rw [List.filter_cons_of_neg (by simpa using hi), List.filter_cons_of_neg (by simpa using hi),
        List.filter_nil, List.append_nil]
  · refine List.pairwise_append.mpr ⟨hsa, List.pairwise_cons.mpr ⟨fun y hy => (hblt y hy).le, hsb⟩,
      fun y hy z hz => ?_⟩
    rcases List.mem_cons.mp hz with rfl | hz
    · exact hale y hy
    · exact hsab y hy z hz
  · rw [hev] at hy
    rcases List.mem_append.mp hy with hy | hy
    · exact (h.bound y hy).trans hlen
    · rw [List.mem_singleton.mp hy]
      exact hbound
  · rw [hev] at hy
    rcases List.mem_append.mp hy with hy | hy
    · exact h.seen_moves hm y hy thy hget
    · obtain rfl := List.mem_singleton.mp hy
      rw [hm.threads, hx, List.getElem?_set_self (List.getElem?_eq_some_iff.mp hm.here).1] at hget
      cases hget
      exact hsees

/-- A call that found nothing. -/
theorem Ordered.miss (h : s.Ordered order) {k : Nat} {th w : WeakThread T}
    (hm : Moves s s' t th w) (hseen : th.view .head ≤ k) (hsees : k ≤ w.view .head)
    (hbound : k ≤ s.log.length) (hempty : stackOf (s.log.take k) = []) (hlog : s'.log = s.log)
    (hev : s'.events = s.events ++ [⟨t, k, .miss⟩]) : ∃ order', s'.Ordered order' := by
  refine h.place hm (x := ⟨t, k, .miss⟩) rfl (hlog ▸ hbound) (hlog ▸ le_refl _) (Or.inl hseen) hsees
    hev fun a b hab ha hb j hj => ?_
  rw [hlog] at hj ⊢
  have hl := h.lifo j hj
  rw [hab, List.filter_append] at hl
  rw [List.filter_append]
  by_cases hkj : k ≤ j
  · have hall : a.filter (fun y => y.pos ≤ j) = a :=
      List.filter_eq_self.mpr fun y hy => by simpa using (ha y hy).trans hkj
    have hk := h.lifo k hbound
    have hka : order.filter (fun y => y.pos ≤ k) = a := by
      have hnil : b.filter (fun y => y.pos ≤ k) = [] :=
        List.filter_eq_nil_iff.mpr fun y hy => by simpa using hb y hy
      have hself : a.filter (fun y => y.pos ≤ k) = a :=
        List.filter_eq_self.mpr fun y hy => by simpa using ha y hy
      rw [hab, List.filter_append, hnil, hself, List.append_nil]
    rw [hka, hempty] at hk
    rw [hall, List.map_append] at hl
    rw [hall, List.filter_cons_of_pos (by simpa using hkj), List.map_append, List.map_cons]
    exact hl.insert_miss hk
  · rw [List.filter_cons_of_neg (by simpa using hkj)]
    exact hl

/-- A write to `head`. -/
theorem Ordered.swing (h : s.Ordered order) {th w : WeakThread T} (hm : Moves s s' t th w)
    {op : StackOp (PoolCell T)} (hsees : s.log.length + 1 ≤ w.view .head)
    (hlog : s'.log = s.log ++ [op])
    (hev : s'.events = s.events ++ [⟨t, s.log.length + 1, op⟩])
    (hop : ∀ ops, Lifo ops (stackOf s.log) → Lifo (ops ++ [op]) (stackOf (s.log ++ [op]))) :
    ∃ order', s'.Ordered order' := by
  have hlen : s'.log.length = s.log.length + 1 := by rw [hlog, List.length_append]; rfl
  refine h.place hm (x := ⟨t, s.log.length + 1, op⟩) rfl hlen.ge (by omega)
    (Or.inr (Nat.lt_succ_self _)) hsees hev fun a b hab ha hb j hj => ?_
  have hnil : b = [] := by
    refine List.eq_nil_iff_forall_not_mem.mpr fun y hy => ?_
    have h1 : s.log.length + 1 < y.pos := hb y hy
    have h2 := h.bound y (h.perm.subset (hab ▸ List.mem_append_right a hy))
    omega
  rw [hnil, List.append_nil] at hab
  subst hab
  rw [hnil, List.filter_append, hlog]
  by_cases hjl : j ≤ s.log.length
  · rw [List.filter_cons_of_neg (by simpa using Nat.lt_succ_of_le hjl), List.filter_nil,
      List.append_nil, List.take_append_of_le_length hjl]
    exact h.lifo j hjl
  · obtain rfl : j = s.log.length + 1 := by omega
    have hall : order.filter (fun y => y.pos ≤ s.log.length + 1) = order :=
      List.filter_eq_self.mpr fun y hy => by
        have := h.bound y (h.perm.subset hy)
        simp only [decide_eq_true_eq]
        omega
    have hl := h.lifo s.log.length (le_refl _)
    rw [h.filter_length, List.take_length] at hl
    rw [hall, List.filter_cons_of_pos (by simp), List.map_append,
      List.take_of_length_le (by rw [List.length_append]; rfl)]
    exact hop _ hl

/-- **Every step** keeps an order. -/
theorem Acts.ordered (ha : Acts s s') (h : s.Ordered order) : ∃ order', s'.Ordered order' := by
  cases ha with
  | quiet hm hlog hev => exact ⟨order, h.quiet hm hlog hev⟩
  | miss hm hseen hsees hbound hempty hlog hev =>
      exact h.miss hm hseen hsees hbound hempty hlog hev
  | push hm hsees hlog hev =>
      refine h.swing hm hsees hlog hev fun ops hops => ?_
      rw [stackOf_concat]
      exact .push _ hops
  | pop hm hsees htop hlog hev =>
      refine h.swing hm hsees hlog hev fun ops hops => ?_
      rw [stackOf_concat, htop]
      rw [htop] at hops
      exact .pop hops
  | free hm hlog hev => exact ⟨order, h.quiet hm hlog hev⟩
  | make hm hlog hev => exact ⟨order, h.quiet hm hlog hev⟩

/-! ## 4. What is returned, and where the values are -/

/-- What a call of `try_alloc` returns; a call of `dealloc` returns nothing. -/
def result : StackOp (PoolCell T) → Option (Option (Nat × T))
  | .push _ => none
  | .pop c => some (some (c.ticket, c.data))
  | .miss => some none

/-- The results of the calls of thread `t` that took effect. -/
def results (s : WeakPool T) (t : Nat) : List (Option (Nat × T)) :=
  (s.events.filter fun x => x.thread = t).filterMap fun x => result x.op

/-- What thread `t` got from `try_alloc`. -/
def returns (s : WeakPool T) (t : Nat) : List (Option (Nat × T)) :=
  (s.answers.filter fun x => x.1 = t).map Prod.snd

/-- What it is about to get. -/
def returning (s : WeakPool T) (th : WeakThread T) : List (Option (Nat × T)) :=
  (s.taken th).toList.map fun c => some (c.ticket, c.data)

/-- Each thread gets what its calls resulted in. -/
def Answered (s : WeakPool T) : Prop :=
  ∀ (t : Nat) (th : WeakThread T), s.threads[t]? = some th →
    s.results t = s.returns t ++ s.returning th

theorem Moves.taken_other {th w : WeakThread T} (hm : Moves s s' t th w) {i : Nat}
    {thi : WeakThread T} (hi : i ≠ t) (hget : s.threads[i]? = some thi) :
    s'.taken thi = s.taken thi := by
  unfold taken
  cases hp : thi.pc.leaves with
  | none => rfl
  | some p => exact hm.cells i thi p hi hget (Pc.owns_of_leaves hp)

theorem Moves.built_other {th w : WeakThread T} (hm : Moves s s' t th w) {i : Nat}
    {thi : WeakThread T} (hi : i ≠ t) (hget : s.threads[i]? = some thi) :
    s'.built thi = s.built thi := by
  unfold built
  cases hp : thi.pc.builds with
  | none => rfl
  | some p => exact hm.cells i thi p hi hget (Pc.owns_of_builds hp)

theorem results_concat {x : PoolEvent T} (h : s'.events = s.events ++ [x]) (i : Nat) :
    s'.results i = s.results i ++ if x.thread = i then (result x.op).toList else [] := by
  unfold results
  rw [h, List.filter_append, List.filterMap_append]
  congr 1
  by_cases hx : x.thread = i
  · rw [List.filter_cons_of_pos (by simpa using hx), if_pos hx]
    cases hr : result x.op <;> simp [hr]
  · rw [List.filter_cons_of_neg (by simpa using hx), if_neg hx]
    rfl

theorem returns_concat {x : Nat × Option (Nat × T)} (h : s'.answers = s.answers ++ [x]) (i : Nat) :
    s'.returns i = s.returns i ++ if x.1 = i then [x.2] else [] := by
  unfold returns
  rw [h, List.filter_append, List.map_append]
  congr 1
  by_cases hx : x.1 = i
  · rw [List.filter_cons_of_pos (by simpa using hx), if_pos hx]
    rfl
  · rw [List.filter_cons_of_neg (by simpa using hx), if_neg hx]
    rfl

/-- Only thread `t` has new results. -/
theorem Answered.move (h : s.Answered) {th w : WeakThread T} (hm : Moves s s' t th w)
    {rs as : List (Option (Nat × T))}
    (hres : ∀ i, s'.results i = s.results i ++ if t = i then rs else [])
    (hret : ∀ i, s'.returns i = s.returns i ++ if t = i then as else [])
    (hself : s.returning th ++ rs = as ++ s'.returning w) : s'.Answered := by
  unfold Answered
  rw [hm.threads]
  refine forall_getElem?_set ?_ fun i thi hit hi => ?_
  · rw [hres, hret, if_pos rfl, if_pos rfl, h t th hm.here, List.append_assoc, List.append_assoc,
      hself]
  · rw [hres, hret, if_neg (Ne.symm hit), if_neg (Ne.symm hit), List.append_nil, List.append_nil,
      returning, hm.taken_other hit hi]
    exact h i thi hi

theorem returning_of {th : WeakThread T} {c : Option (PoolCell T)} (h : s.taken th = c) :
    s.returning th = c.toList.map fun c => some (c.ticket, c.data) := by
  rw [returning, h]

theorem results_same (h : s'.events = s.events) (i : Nat) :
    s'.results i = s.results i ++ if t = i then [] else [] := by
  rw [results, h, ite_self, List.append_nil]
  rfl

theorem returns_same (h : s'.answers = s.answers) (i : Nat) :
    s'.returns i = s.returns i ++ if t = i then [] else [] := by
  rw [returns, h, ite_self, List.append_nil]
  rfl

/-- **Every step** keeps the answers right. -/
theorem Acts.answered (ha : Acts s s') (h : s.Answered) : s'.Answered := by
  cases ha with
  | quiet hm _ hev hans _ _ htk =>
      refine h.move hm (results_same hev) (returns_same hans) ?_
      rw [List.append_nil, List.nil_append, returning_of htk]
      rfl
  | miss hm _ _ _ _ _ hev hans _ _ htk =>
      refine h.move hm (results_concat hev) (returns_concat hans) ?_
      rw [returning_of htk]
      rfl
  | push hm _ _ hev hans _ _ htk =>
      refine h.move hm (results_concat hev) (returns_same hans) ?_
      rw [returning_of htk]
      rfl
  | pop hm _ _ _ hev hans _ _ _ htk htk' =>
      refine h.move hm (results_concat hev) (returns_same hans) ?_
      rw [returning_of htk, returning_of htk']
      rfl
  | free hm _ hev hans _ _ htk =>
      refine h.move hm (results_same hev) (returns_concat hans) ?_
      rw [returning_of htk]
      rfl
  | make hm _ hev hans _ _ _ _ htk htk' =>
      refine h.move hm (results_same hev) (returns_same hans) ?_
      rw [returning_of htk, returning_of htk']
      rfl

/-- The operations that took effect. -/
def effects (s : WeakPool T) : List (StackOp (PoolCell T)) := s.events.map PoolEvent.op

/-- The nodes that threads are about to link in. -/
def building (s : WeakPool T) : List (PoolCell T) := s.threads.flatMap fun th => (s.built th).toList

/-- Every value passed in was pushed, or is in the hands of the thread that is to push it. -/
structure Placed (s : WeakPool T) : Prop where
  perm : ((pushed s.effects ++ s.building).map PoolCell.ticket).Perm (List.range s.given.length)
  given : ∀ c ∈ pushed s.effects ++ s.building, s.given[c.ticket]? = some c.data

/-- A permutation of what there is, and perhaps one more. -/
theorem Placed.of_perm (h : s.Placed) (new : List (PoolCell T))
    (hp : (pushed s'.effects ++ s'.building).Perm (pushed s.effects ++ s.building ++ new))
    (hg : s'.given = s.given ++ new.map PoolCell.data)
    (hn : new.map PoolCell.ticket = List.range' s.given.length new.length) : s'.Placed := by
  refine ⟨(hp.map _).trans ?_, fun c hc => ?_⟩
  · rw [List.map_append, hn, hg, List.length_append, List.length_map, List.range_eq_range',
      ← List.range'_append_1, Nat.zero_add, ← List.range_eq_range']
    exact h.perm.append_right _
  · rw [hg]
    rcases List.mem_append.mp (hp.subset hc) with hc | hc
    · have := h.given c hc
      rw [List.getElem?_append_left (List.getElem?_eq_some_iff.mp this).1, this]
    · obtain ⟨j, hj⟩ := List.mem_iff_getElem?.mp hc
      have htk : (new.map PoolCell.ticket)[j]? = some c.ticket := by
        rw [List.getElem?_map, hj]
        rfl
      have hlt := (List.getElem?_eq_some_iff.mp hj).1
      rw [hn, List.getElem?_range' hlt, Nat.one_mul] at htk
      rw [← Option.some.inj htk, List.getElem?_append_right (Nat.le_add_right _ _),
        Nat.add_sub_cancel_left, List.getElem?_map, hj]
      rfl

/-- **Every step** keeps every value in one place. -/
theorem Acts.placed (ha : Acts s s') (h : s.Placed) : s'.Placed := by
  -- what the thread that moved holds, and what the others hold
  have hsplit : ∀ {t : Nat} {th w : WeakThread T}, Moves s s' t th w → ∃ rest,
      s.building.Perm ((s.built th).toList ++ rest) ∧
      s'.building.Perm ((s'.built w).toList ++ rest) := by
    intro t th w hm
    obtain ⟨rest, h₁, h₂⟩ := flatMap_set (f := fun th => (s.built th).toList)
      (g := fun th => (s'.built th).toList) hm.here
      fun i thi hi hget => congrArg Option.toList (hm.built_other hi hget)
    refine ⟨rest, h₁, ?_⟩
    have := h₂ w
    rwa [← hm.threads] at this
  cases ha with
  | quiet hm _ hev _ hg hb _ =>
      obtain ⟨rest, h₁, h₂⟩ := hsplit hm
      refine h.of_perm [] ?_ (by rw [hg]; exact (List.append_nil _).symm) rfl
      rw [effects, hev, List.append_nil]
      rw [hb] at h₂
      exact (h₂.trans h₁.symm).append_left _
  | miss hm _ _ _ _ _ hev _ hg hb _ =>
      obtain ⟨rest, h₁, h₂⟩ := hsplit hm
      refine h.of_perm [] ?_ (by rw [hg]; exact (List.append_nil _).symm) rfl
      rw [effects, hev, List.map_append, pushed_append, List.append_nil]
      rw [hb] at h₁
      exact ((List.append_nil _).symm ▸ (h₂.trans h₁.symm).append_left _)
  | @push t th v c hm _ _ hev _ hg hb _ =>
      obtain ⟨rest, h₁, h₂⟩ := hsplit hm
      refine h.of_perm [] ?_ (by rw [hg]; exact (List.append_nil _).symm) rfl
      rw [effects, hev, List.map_append, pushed_append, List.append_nil, List.append_assoc]
      rw [hb] at h₁
      exact ((h₂.append_left [c]).trans h₁.symm).append_left _
  | pop hm _ _ _ hev _ hg hb hb' _ _ =>
      obtain ⟨rest, h₁, h₂⟩ := hsplit hm
      refine h.of_perm [] ?_ (by rw [hg]; exact (List.append_nil _).symm) rfl
      rw [effects, hev, List.map_append, pushed_append, List.append_nil]
      rw [hb] at h₁
      rw [hb'] at h₂
      exact ((List.append_nil _).symm ▸ (h₂.trans h₁.symm).append_left _)
  | free hm _ hev _ hg hb _ =>
      obtain ⟨rest, h₁, h₂⟩ := hsplit hm
      refine h.of_perm [] ?_ (by rw [hg]; exact (List.append_nil _).symm) rfl
      rw [effects, hev, List.append_nil]
      rw [hb] at h₁
      exact (h₂.trans h₁.symm).append_left _
  | @make t th w c hm _ hev _ htick hg hb hb' _ _ =>
      obtain ⟨rest, h₁, h₂⟩ := hsplit hm
      refine h.of_perm [c] ?_ hg (by rw [List.map_singleton, htick]; rfl)
      rw [effects, hev, List.append_assoc]
      rw [hb] at h₁
      rw [hb'] at h₂
      refine List.Perm.append_left _ (h₂.trans ?_)
      exact List.perm_append_comm.trans (h₁.symm.append_right [c])

/-! ## 5. No thread is stuck -/

/-- All views point to messages there are. -/
structure ViewsOk (s : WeakPool T) : Prop where
  mem : s.mem.Closed
  threads : ∀ th ∈ s.threads, s.mem.ClosedView th.view
  freed : ∀ a, s.mem.ClosedView (s.freed a)

theorem ViewsOk.view (h : s.ViewsOk) {th : WeakThread T} (ht : s.threads[t]? = some th) :
    s.mem.ClosedView th.view := h.threads th (List.mem_of_getElem? ht)

theorem ViewsOk.goto (h : s.ViewsOk) {v : View PoolLoc} (hv : s.mem.ClosedView v) (pc : Pc T) :
    (s.goto t pc v).ViewsOk := ⟨h.mem, forall_set h.threads hv, h.freed⟩

theorem ViewsOk.load (h : s.ViewsOk) {v : View PoolLoc} (hv : s.mem.ClosedView v) {o : MemOrder}
    {l : PoolLoc} {k : Nat} {r : PoolVal T × View PoolLoc} (e : s.mem.load o v l k = some r)
    (pc : Pc T) : (s.goto t pc r.2).ViewsOk := h.goto (h.mem.load hv e) pc

theorem ViewsOk.store (h : s.ViewsOk) {v : View PoolLoc} (hv : s.mem.ClosedView v) (o : MemOrder)
    (l : PoolLoc) (x : PoolVal T) (pc : Pc T) :
    ((s.withMem (s.mem.store o v l x).1).goto t pc (s.mem.store o v l x).2).ViewsOk :=
  ⟨(h.mem.store hv).1,
    forall_set (fun th hth => (h.threads th hth).store o v l x) (h.mem.store hv).2,
    fun a => (h.freed a).store o v l x⟩

theorem ViewsOk.exchange (h : s.ViewsOk) {v : View PoolLoc} (hv : s.mem.ClosedView v)
    {o : MemOrder} {l : PoolLoc} {x : PoolVal T} {r : Messages PoolLoc (PoolVal T) × View PoolLoc}
    (e : s.mem.exchange o v l x = some r) (op : StackOp (PoolCell T)) (pc : Pc T) :
    (((s.withMem r.1).acts t op).goto t pc r.2).ViewsOk :=
  ⟨(h.mem.exchange hv e).1, forall_set (fun th hth => (h.threads th hth).exchange e)
    (h.mem.exchange hv e).2, fun a => (h.freed a).exchange e⟩

theorem ViewsOk.make (h : s.ViewsOk) {v : View PoolLoc} (hv : s.mem.ClosedView v) (a : Nat)
    (d : T) : (s.make t a d v).ViewsOk := by
  have h₁ := h.mem.store (o := .relaxed) (l := .data a) (x := .data s.given.length d) hv
  have h₂ := h₁.1.store (o := .relaxed) (l := .next a) (x := .ptr 0) h₁.2
  exact ⟨h₂.1, forall_set (fun th hth => ((h.threads th hth).store _ _ _ _).store _ _ _ _) h₂.2,
    fun x => ((h.freed x).store _ _ _ _).store _ _ _ _⟩

variable {o : PoolOrders} {choice : Nat} {spurious : Bool}

theorem ViewsOk.run (h : s.ViewsOk) {th : WeakThread T} (ht : s.threads[t]? = some th)
    (e : s.run o t choice spurious th.view th.pc = some s') : s'.ViewsOk := by
  obtain ⟨pc, v⟩ := th
  have hv := h.view ht
  have hfail : ∀ v', s.mem.ClosedView v' → (s.fail t v').ViewsOk := fun v' hv' =>
    ⟨(h.goto (t := t) hv' .idle).mem, (h.goto hv' .idle).threads, h.freed⟩
  have hmiss : ∀ k v', s.mem.ClosedView v' → (s.miss t k v').ViewsOk := fun k v' hv' =>
    ⟨(h.goto (t := t) hv' .idle).mem, (h.goto hv' .idle).threads, h.freed⟩
  cases pc with
  | idle => cases e
  | popCheck =>
      obtain ⟨r, hr, rfl⟩ := Option.map_eq_some_iff.mp e
      have hv' := h.mem.load hv hr
      split
      · exact hmiss _ _ hv'
      · exact h.goto hv' _
  | popLoad =>
      obtain ⟨r, hr, rfl⟩ := Option.map_eq_some_iff.mp e
      have hv' := h.mem.load hv hr
      split
      · exact hmiss _ _ hv'
      · exact h.goto hv' _
      · exact hfail _ hv'
  | popNext head =>
      simp only [WeakPool.run] at e
      split at e
      · obtain ⟨r, hr, rfl⟩ := Option.map_eq_some_iff.mp e
        have hv' := h.mem.load hv hr
        split
        · exact h.store hv' _ _ _ _
        · exact hfail _ hv'
      · cases e
        exact hfail _ hv
  | popCas head next =>
      simp only [WeakPool.run] at e
      split at e
      · split at e
        · obtain ⟨r, hr, rfl⟩ := Option.map_eq_some_iff.mp e
          exact h.exchange hv hr _ _
        · cases e
          exact hfail _ hv
      · obtain ⟨r, hr, rfl⟩ := Option.map_eq_some_iff.mp e
        exact h.load hv hr _
  | popRead head =>
      simp only [WeakPool.run] at e
      split at e
      · split at e
        · cases e
          exact h.store hv _ _ _ _
        · cases e
          exact hfail _ hv
      · cases e
        exact hfail _ hv
  | popFree head ticket d =>
      simp only [WeakPool.run] at e
      split at e
      · cases e
        refine ⟨(h.goto (t := t) hv .idle).mem, (h.goto hv .idle).threads, fun a => ?_⟩
        show s.mem.ClosedView (if a = head then v else s.freed a)
        split
        · exact hv
        · exact h.freed a
      · cases e
        exact hfail _ hv
  | pushLoad node =>
      obtain ⟨r, hr, rfl⟩ := Option.map_eq_some_iff.mp e
      have hv' := h.mem.load hv hr
      split
      · exact h.goto hv' _
      · exact hfail _ hv'
  | pushStore node head =>
      simp only [WeakPool.run] at e
      split at e
      · cases e
        exact h.store hv _ _ _ _
      · cases e
        exact hfail _ hv
  | pushCas node head =>
      simp only [WeakPool.run] at e
      split at e
      · split at e
        · obtain ⟨r, hr, rfl⟩ := Option.map_eq_some_iff.mp e
          exact h.exchange hv hr _ _
        · cases e
          exact hfail _ hv
      · obtain ⟨r, hr, rfl⟩ := Option.map_eq_some_iff.mp e
        exact h.load hv hr _

theorem ViewsOk.exec (h : s.ViewsOk) {st : WeakStep T} (e : s.exec o st = some s') :
    s'.ViewsOk := by
  cases st with
  | tryAlloc t =>
      simp only [WeakPool.exec] at e
      split at e
      · rename_i v ht
        split at e
        · cases e
          exact h.goto (h.view ht) _
        · cases e
      · cases e
  | dealloc t d a =>
      simp only [WeakPool.exec] at e
      split at e
      · rename_i v ht
        have hv := h.view ht
        split at e
        · cases e
          exact h.make (hv.sup (h.freed a)) a d
        · cases e
          exact ⟨(h.goto (t := t) hv .idle).mem, (h.goto hv .idle).threads, h.freed⟩
      · cases e
  | run t choice spurious =>
      obtain ⟨th, ht, e⟩ := Option.bind_eq_some_iff.mp e
      exact h.run ht e
  | handOver t =>
      simp only [WeakPool.exec] at e
      split at e
      · rename_i th th' ht ht'
        split at e
        · cases e
        · cases e
          have hg := h.goto (t := t) ((h.view ht').sup (h.view ht)) th'.pc
          exact ⟨hg.mem, hg.threads, hg.freed⟩
      · cases e

/-- **A thread inside a call has a next step**, whether its compare-exchange fails or not. -/
theorem ViewsOk.exists_run (h : s.ViewsOk) {th : WeakThread T} (ht : s.threads[t]? = some th)
    (hpc : th.pc ≠ .idle) (spurious : Bool) :
    ∃ choice s', s.run o t choice spurious th.view th.pc = some s' := by
  obtain ⟨pc, v⟩ := th
  have hv := h.view ht
  have hload : ∀ (o : MemOrder) (l : PoolLoc) (f : Nat → PoolVal T × View PoolLoc → WeakPool T),
      ∃ choice s', (s.mem.load o v l choice).map (f choice) = some s' := by
    intro o l f
    obtain ⟨k, r, hr⟩ := hv.exists_load o l
    exact ⟨k, f k r, by rw [hr]; rfl⟩
  have hswap : ∀ (o : MemOrder) (x : PoolVal T)
      (f : Messages PoolLoc (PoolVal T) × View PoolLoc → WeakPool T),
      ∃ s', (s.mem.exchange o v .head x).map f = some s' := by
    intro o x f
    have hne : s.mem .head ≠ [] := List.ne_nil_of_length_pos (Nat.lt_of_le_of_lt (Nat.zero_le _)
      (hv .head))
    rw [Messages.exchange, List.getLast?_eq_some_getLast hne]
    exact ⟨_, rfl⟩
  cases pc with
  | idle => exact absurd rfl hpc
  | popCheck => exact hload o.popLoad .head fun _ _ => _
  | popLoad => exact hload o.popLoad .head fun _ _ => _
  | popNext head =>
      simp only [WeakPool.run]
      split
      · exact hload _ _ _
      · exact ⟨0, _, rfl⟩
  | popCas head next =>
      simp only [WeakPool.run]
      split
      · split
        · exact ⟨0, hswap _ _ _⟩
        · exact ⟨0, _, rfl⟩
      · exact hload _ _ _
  | popRead head =>
      simp only [WeakPool.run]
      split
      · split
        · exact ⟨0, _, rfl⟩
        · exact ⟨0, _, rfl⟩
      · exact ⟨0, _, rfl⟩
  | popFree head ticket d =>
      simp only [WeakPool.run]
      split
      · exact ⟨0, _, rfl⟩
      · exact ⟨0, _, rfl⟩
  | pushLoad node => exact hload _ _ _
  | pushStore node head =>
      simp only [WeakPool.run]
      split
      · exact ⟨0, _, rfl⟩
      · exact ⟨0, _, rfl⟩
  | pushCas node head =>
      simp only [WeakPool.run]
      split
      · split
        · exact ⟨0, hswap _ _ _⟩
        · exact ⟨0, _, rfl⟩
      · exact hload _ _ _

/-! ## 6. Every run -/

/-- **The invariant of every run.** -/
structure Steady (s : WeakPool T) : Prop where
  sound : s.Sound
  views : s.ViewsOk
  ordered : ∃ order, s.Ordered order
  answered : s.Answered
  placed : s.Placed

section Start

variable {n popper : Nat}

theorem idle_start {i : Nat} {th : WeakThread T} (h : (start T n popper).threads[i]? = some th) :
    th = ⟨.idle, ⊥⟩ := List.eq_of_mem_replicate (List.mem_of_getElem? h)

theorem covers_start (v : View PoolLoc) (l : PoolLoc) : (start T n popper).mem.Covers v l :=
  Nat.le_add_left 1 (v l)

theorem sound_start : (start T n popper).Sound where
  fault := rfl
  count := rfl
  heads k x hx := by
    cases k with
    | zero =>
        cases hx
        rfl
    | succ k => cases hx
  linked := trivial
  nodup := .nil
  live c hc := by cases hc
  last x _ c hc := by cases hc
  fresh th _ j x _ _ := by
    have hnil : (start T n popper).log.take j = [] := List.take_nil
    rw [hnil]
    exact ⟨List.suffix_refl _, fun c hc => by cases hc⟩
  marks th _ a i := covers_start _ _
  alone i th hi hp := by
    rw [idle_start hi] at hp
    cases hp
  owned i th p hi hp := by
    rw [idle_start hi] at hp
    cases hp
  relies i th hi := by
    rw [idle_start hi]
    trivial
  freed a _ := ⟨⟨covers_start _ _, covers_start _ _⟩, fun i => covers_start _ _⟩

theorem viewsOk_start : (start T n popper).ViewsOk := by
  have hclosed : (start T n popper).mem.ClosedView ⊥ := fun _ => Nat.one_pos
  refine ⟨⟨hclosed, fun l x hx => ?_⟩, fun th hth => ?_, fun a => hclosed⟩
  · rw [List.mem_singleton.mp hx]
    exact hclosed
  · rw [List.eq_of_mem_replicate hth]
    exact hclosed

theorem ordered_start : (start T n popper).Ordered [] where
  perm := .refl _
  threads _ := rfl
  sorted := .nil
  bound x hx := by cases hx
  lifo k _ := by
    have hnil : (start T n popper).log.take k = [] := List.take_nil
    rw [hnil]
    exact .nil
  seen x hx := by cases hx

theorem placed_start : (start T n popper).Placed := by
  have hnil : (start T n popper).building = [] := by
    refine List.flatMap_eq_nil_iff.mpr fun th hth => ?_
    rw [List.eq_of_mem_replicate hth]
    rfl
  refine ⟨?_, fun c hc => ?_⟩
  · rw [hnil]
    exact .refl _
  · rw [hnil] at hc
    cases hc

theorem steady_start : (start T n popper).Steady := by
  refine ⟨sound_start, viewsOk_start, ⟨[], ordered_start⟩, fun t th hi => ?_, placed_start⟩
  rw [idle_start hi]
  rfl

end Start

theorem reach_steady (ho : o.Enough) (hr : (weakPools T o).Reach s) : s.Steady := by
  refine hr.inv (P := Steady) (fun s hi => ?_) fun s st s' h hok e => ?_
  · obtain ⟨n, popper, rfl⟩ := hi
    exact steady_start
  · obtain ⟨hs, ha⟩ := exec_acts ho h.sound hok e
    obtain ⟨order, hord⟩ := h.ordered
    exact ⟨hs, h.views.exec e, ha.ordered hord, ha.answered h.answered, ha.placed h.placed⟩

end WeakPool

/-- **The pool on weak memory is a stack.** Loads may be old; one thread at a time may be inside
    `try_alloc`, and the next one has seen what the last one did. If a push releases and the load of
    the head in `try_alloc` acquires, as in the source, then in every reachable state:

    1. no node was used after its free, and no access raced with another;
    2. the calls that took effect, put in some order that agrees with what each thread did, are
       those of a stack with the linked nodes on it;
    3. what `try_alloc` returned to a thread, and is about to return, are its results in that order;
    4. every value passed in was popped, or is linked, or is in the hands of the thread that is to
       link it in, and in one of these places only;
    5. a thread inside a call has a next step, whether its compare-exchange fails or not. -/
theorem weak_pool_consistent {T : Type u} {o : PoolOrders} (ho : o.Enough) {s : WeakPool T}
    (hr : (weakPools T o).Reach s) :
    s.fault = false ∧
    (∃ (order : List (PoolEvent T)) (l : List (PoolCell T)), order.Perm s.events ∧
      (∀ t, order.filter (fun x => x.thread = t) = s.events.filter (fun x => x.thread = t)) ∧
      Lifo (order.map PoolEvent.op) l ∧ Linked s.mem l ∧
      s.mem.latest .head = some (.ptr (topAddr l)) ∧
      ((popped (order.map PoolEvent.op) ++ l ++ s.building).map PoolCell.ticket).Perm
        (List.range s.given.length) ∧
      ∀ c ∈ popped (order.map PoolEvent.op) ++ l ++ s.building, s.given[c.ticket]? = some c.data) ∧
    (∀ (t : Nat) (th : WeakThread T), s.threads[t]? = some th →
      s.results t = s.returns t ++ s.returning th) ∧
    ∀ (t : Nat) (th : WeakThread T), s.threads[t]? = some th → th.pc ≠ .idle → ∀ spurious,
      ∃ choice s', s.exec o (.run t choice spurious) = some s' := by
  have h := WeakPool.reach_steady ho hr
  obtain ⟨order, hord⟩ := h.ordered
  have hlifo := hord.lifo s.log.length (le_refl _)
  rw [hord.filter_length, List.take_length] at hlifo
  -- what was pushed, as it went and in the order found
  have hperm : (pushed s.effects ++ s.building).Perm
      (popped (order.map PoolEvent.op) ++ stackOf s.log ++ s.building) :=
    (((hord.perm.map PoolEvent.op).symm.filterMap _).trans hlifo.perm).append_right _
  refine ⟨h.sound.fault, ⟨order, stackOf s.log, hord.perm, hord.threads, hlifo, h.sound.linked,
    h.sound.latest_head, (hperm.map _).symm.trans h.placed.perm,
    fun c hc => h.placed.given c (hperm.symm.subset hc)⟩, h.answered,
    fun t th ht hpc spurious => ?_⟩
  obtain ⟨choice, s', e⟩ := h.views.exists_run (o := o) ht hpc spurious
  exact ⟨choice, s', by rw [WeakPool.exec, ht]; exact e⟩

/-- With the orders of the source: thread 1 misses a push that is over, since it reads an old head;
    then it pops the node, thread 0 uses the block again, and thread 2 takes over. -/
theorem weak_pool_consistent_stale : PoolOrders.source.Enough ∧
    ∃ s, (weakPools Nat .source).Reach s ∧
      s.answers = [(1, none), (1, some (0, 10)), (2, some (1, 20))] ∧ s.fault = false := by
  obtain ⟨s, hr, hs⟩ := System.exists_reach_of_replay (weakPools Nat .source)
    [.dealloc 0 10 8, .run 0 0 false, .run 0 0 false, .run 0 0 false,
      .tryAlloc 1, .run 1 0 false,
      .tryAlloc 1, .run 1 1 false, .run 1 1 false, .run 1 2 false, .run 1 0 false, .run 1 0 false,
      .run 1 0 false,
      .dealloc 0 20 8, .run 0 2 false, .run 0 0 false, .run 0 0 false,
      .handOver 2, .tryAlloc 2, .run 2 3 false, .run 2 3 false, .run 2 4 false, .run 2 0 false,
      .run 2 0 false, .run 2 0 false]
    (P := fun s => s.answers = [(1, none), (1, some (0, 10)), (2, some (1, 20))])
    (s := .start Nat 3 1) ⟨3, 1, rfl⟩ (by decide)
  exact ⟨by decide, s, hr, hs, (weak_pool_consistent (by decide) hr).1⟩

/-- **Both orders are needed**: without the release of a push, or without the acquire of the load,
    a thread reads a node whose contents it does not know. -/
theorem weak_pool_needs :
    (∃ s, (weakPools Nat { PoolOrders.source with pushCas := .acquire }).Reach s ∧
      s.fault = true) ∧
    ∃ s, (weakPools Nat { PoolOrders.source with popLoad := .relaxed }).Reach s ∧
      s.fault = true := by
  have hrun : ∀ o : PoolOrders, _ → ∃ s, (weakPools Nat o).Reach s ∧ s.fault = true := fun o =>
    System.exists_reach_of_replay (weakPools Nat o)
      [.dealloc 0 10 8, .run 0 0 false, .run 0 0 false, .run 0 0 false,
        .tryAlloc 1, .run 1 1 false, .run 1 1 false, .run 1 0 false]
      (s := .start Nat 2 1) ⟨2, 1, rfl⟩
  exact ⟨hrun _ (by decide), hrun _ (by decide)⟩

end ArenaB
