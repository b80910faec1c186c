/-
  File:      ArenaB/LockFree/Pool.lean
  Subject:   `LockFreePool<T>` (src/lockfree.rs): a stack of boxed nodes, atomic step by atomic
             step.

  `dealloc` pushes a node, `try_alloc` pops one, reads the value out of it and frees it. Any number
  of threads run these two in any interleaving; a step is one atomic load, store or
  compare-exchange, the allocation of a node or its free. A weak compare-exchange may fail
  spuriously, and an allocation may return any address that is not allocated.

  * `Pc` -- where a thread is; `LockFreePool.run` -- its next step. Reading, writing or freeing a
    node that is not allocated sets `fault`. The counters of `stats` are updated together with the
    step they follow; nothing reads them;
  * `Quiet` -- the condition on a step: a node is freed only when no thread is about to read its
    `next`, and an allocation does not return an address that a thread in `try_alloc` still holds
    as the head it saw;
  * `Safe` -- who owns which node, and that the stack is a chain; **`Safe.step`**;
  * **`pool_sound`** -- in runs whose steps all meet the condition nothing freed is read, and what
    `try_alloc` returns was passed to `dealloc`, once each. `pool_reads_freed`: other runs fail.
-/
import ArenaB.Base.System
import ArenaB.Base.Ledger
import ArenaB.Base.Chain
import ArenaB.LockFree.Buffer

namespace ArenaB

open Base

universe u

/-! ## 1. Steps -/

/-- `LockFreeNode<T>`; `ticket` is the number of the `dealloc` call that made it. -/
structure LockFreeNode (T : Type u) where
  ticket : Nat
  data : T
  next : Nat
  deriving DecidableEq, Repr

/-- Where a thread is; the arguments are its local variables. -/
inductive Pc (T : Type u) where
  | idle
  /-- `try_alloc`: the load before the loop. -/
  | popCheck
  | popLoad
  | popNext (head : Nat)
  | popCas (head next : Nat)
  | popRead (head : Nat)
  | popFree (head ticket : Nat) (data : T)
  /-- `dealloc`: the node is made, the loop begins. -/
  | pushLoad (node : Nat)
  | pushStore (node head : Nat)
  | pushCas (node head : Nat)
  deriving DecidableEq, Repr

/-- The pool, the heap of nodes, the threads; what was passed in, what was handed out. -/
structure LockFreePool (T : Type u) where
  head : Nat
  heap : Nat → Option (LockFreeNode T)
  stats : LockFreeStats
  threads : List (Pc T)
  given : List T
  returned : List (Nat × T)
  fault : Bool

/-- The scheduler's choice: a call by an idle thread, or the next step of a thread. -/
inductive PoolStep (T : Type u) where
  | tryAlloc (t : Nat)
  | dealloc (t : Nat) (data : T) (addr : Nat)
  | run (t : Nat) (spurious : Bool)

namespace LockFreePool

variable {T : Type u}

/-- Thread `t` goes on at `pc`. -/
def goto (s : LockFreePool T) (t : Nat) (pc : Pc T) : LockFreePool T :=
  { s with threads := s.threads.set t pc }

/-- The node at an address is made, changed or freed. -/
def store (s : LockFreePool T) (a : Nat) (n : Option (LockFreeNode T)) : LockFreePool T :=
  { s with heap := fun x => if x = a then n else s.heap x }

/-- The counters move. -/
def count (s : LockFreePool T) (f : LockFreeStats → LockFreeStats) : LockFreePool T :=
  { s with stats := f s.stats }

/-- The head changes. -/
def swing (s : LockFreePool T) (head : Nat) : LockFreePool T := { s with head := head }

/-- A value is passed in. -/
def take (s : LockFreePool T) (data : T) : LockFreePool T := { s with given := s.given ++ [data] }

/-- A value is handed out. -/
def give (s : LockFreePool T) (ticket : Nat) (data : T) : LockFreePool T :=
  { s with returned := s.returned ++ [(ticket, data)] }

/-- A node that is not allocated was touched. -/
def fail (s : LockFreePool T) (t : Nat) : LockFreePool T :=
  { s with threads := s.threads.set t .idle, fault := true }

/-- The next step of thread `t`, which is at the given place. -/
def run (s : LockFreePool T) (t : Nat) (spurious : Bool) : Pc T → LockFreePool T
  | .idle => s
  | .popCheck =>
      if s.head = 0 then (s.goto t .idle).count .recordCacheMiss else s.goto t .popLoad
  | .popLoad =>
      if s.head = 0 then (s.goto t .idle).count .recordCacheMiss
      else s.goto t (.popNext s.head)
  | .popNext head =>
      match s.heap head with
      | some node => s.goto t (.popCas head node.next)
      | none => s.fail t
  | .popCas head next =>
      if s.head = head ∧ spurious = false then
        ((s.swing next).goto t (.popRead head)).count (·.recordAllocation.recordCacheHit)
      else (s.goto t .popLoad).count .recordContention
  | .popRead head =>
      match s.heap head with
      | some node => s.goto t (.popFree head node.ticket node.data)
      | none => s.fail t
  | .popFree head ticket data =>
      match s.heap head with
      | some _ => ((s.store head none).give ticket data).goto t .idle
      | none => (s.fail t).give ticket data
  | .pushLoad node => s.goto t (.pushStore node s.head)
  | .pushStore node head =>
      match s.heap node with
      | some n => (s.store node (some { n with next := head })).goto t (.pushCas node head)
      | none => s.fail t
  | .pushCas node head =>
      if s.head = head ∧ spurious = false then
        ((s.swing node).goto t .idle).count .recordDeallocation
      else (s.goto t (.pushLoad node)).count .recordContention

/-- One step of the system. -/
def exec (s : LockFreePool T) : PoolStep T → Option (LockFreePool T)
  | .tryAlloc t =>
      match s.threads[t]? with
      | some .idle => some (s.goto t .popCheck)
      | _ => none
  | .dealloc t data addr =>
      match s.threads[t]? with
      | some .idle =>
          some (((s.store addr (some ⟨s.given.length, data, 0⟩)).take data).goto t (.pushLoad addr))
      | _ => none
  | .run t spurious => s.threads[t]?.map (s.run t spurious)

/-- An allocation returns an address that is not allocated. -/
def Ok (s : LockFreePool T) : PoolStep T → Prop
  | .dealloc _ _ addr => addr ≠ 0 ∧ (s.heap addr).isNone
  | _ => True

instance (s : LockFreePool T) : (st : PoolStep T) → Decidable (s.Ok st)
  | .dealloc _ _ addr => inferInstanceAs (Decidable (addr ≠ 0 ∧ (s.heap addr).isNone))
  | .tryAlloc _ => isTrue trivial
  | .run _ _ => isTrue trivial

/-- An empty pool and `n` idle threads. -/
def start (T : Type u) (n : Nat) : LockFreePool T :=
  ⟨0, fun _ => none, LockFreeStats.new, List.replicate n .idle, [], [], false⟩

end LockFreePool

/-- The runs of any number of threads on a new pool. -/
def lockFreePools (T : Type u) : System (LockFreePool T) (PoolStep T) where
  init s := ∃ n, s = .start T n
  ok := LockFreePool.Ok
  step := LockFreePool.exec

instance (T : Type u) (s : LockFreePool T) (st : PoolStep T) :
    Decidable ((lockFreePools T).ok s st) :=
  inferInstanceAs (Decidable (s.Ok st))

/-! ## 2. The condition -/

namespace Pc

variable {T : Type u}

/-- The node that only this thread may free or link in. -/
def owns : Pc T → Option Nat
  | .popRead head => some head
  | .popFree head _ _ => some head
  | .pushLoad node => some node
  | .pushStore node _ => some node
  | .pushCas node _ => some node
  | _ => none

/-- The node this thread is about to link in. -/
def builds : Pc T → Option Nat
  | .pushLoad node => some node
  | .pushStore node _ => some node
  | .pushCas node _ => some node
  | _ => none

/-- The head this thread has seen in `try_alloc` and not yet exchanged. -/
def peeks : Pc T → Option Nat
  | .popNext head => some head
  | .popCas head _ => some head
  | _ => none

/-- The node whose `next` this thread reads now. -/
def reads : Pc T → Option Nat
  | .popNext head => some head
  | _ => none

/-- The node this thread frees now. -/
def frees : Pc T → Option Nat
  | .popFree head _ _ => some head
  | _ => none

theorem owns_of_builds {pc : Pc T} {p : Nat} (h : pc.builds = some p) : pc.owns = some p := by
  cases pc <;> first | exact h | cases h

end Pc

/-- No thread is about to read the node that is freed, or still holds the address returned. -/
def Quiet {T : Type u} (s : LockFreePool T) : PoolStep T → Prop
  | .tryAlloc _ => True
  | .dealloc _ _ addr => ∀ pc ∈ s.threads, pc.peeks ≠ some addr
  | .run t _ => ∀ h ∈ s.threads[t]?.bind Pc.frees, ∀ pc ∈ s.threads, pc.reads ≠ some h

instance {T : Type u} (s : LockFreePool T) : (st : PoolStep T) → Decidable (Quiet s st)
  | .tryAlloc _ => isTrue trivial
  | .dealloc _ _ _ => inferInstanceAs (Decidable (∀ pc ∈ s.threads, pc.peeks ≠ some _))
  | .run _ _ => inferInstanceAs (Decidable (∀ h ∈ _, ∀ pc ∈ s.threads, pc.reads ≠ some h))

/-! ## 3. Ownership -/

namespace Pc

variable {T : Type u} {heap heap' : Nat → Option (LockFreeNode T)} {pc a b : Pc T}

/-- What a thread relies on at each place. -/
def Good (heap : Nat → Option (LockFreeNode T)) : Pc T → Prop
  | .popNext head => ∃ n, heap head = some n
  | .popCas head next => head ≠ 0 ∧ ∀ n, heap head = some n → n.next = next
  | .popRead head => ∃ n, heap head = some n
  | .popFree head ticket data => ∃ n, heap head = some n ∧ n.ticket = ticket ∧ n.data = data
  | .pushLoad node => ∃ n, heap node = some n
  | .pushStore node _ => ∃ n, heap node = some n
  | .pushCas node head => ∃ n, heap node = some n ∧ n.next = head
  | _ => True

/-- An owned node is allocated. -/
theorem Good.alloc (h : pc.Good heap) {p : Nat} (ho : pc.owns = some p) : ∃ n, heap p = some n := by
  cases pc with
  | popRead head => cases ho; exact h
  | popFree head ticket data => cases ho; exact ⟨_, h.choose_spec.1⟩
  | pushLoad node => cases ho; exact h
  | pushStore node head => cases ho; exact h
  | pushCas node head => cases ho; exact ⟨_, h.choose_spec.1⟩
  | _ => cases ho

/-- A thread notices a change of the heap only at the nodes it owns or peeks at. -/
theorem Good.frame (h : pc.Good heap)
    (he : ∀ p, pc.owns = some p ∨ pc.peeks = some p → heap' p = heap p) : pc.Good heap' := by
  cases pc with
  | idle => trivial
  | popCheck => trivial
  | popLoad => trivial
  | popNext head =>
      obtain ⟨n, hn⟩ := h
      exact ⟨n, (he head (Or.inr rfl)).trans hn⟩
  | popCas head next => exact ⟨h.1, fun n hn => h.2 n (he head (Or.inr rfl) ▸ hn)⟩
  | popRead head =>
      obtain ⟨n, hn⟩ := h
      exact ⟨n, (he head (Or.inl rfl)).trans hn⟩
  | popFree head ticket data =>
      obtain ⟨n, hn, hd⟩ := h
      exact ⟨n, (he head (Or.inl rfl)).trans hn, hd⟩
  | pushLoad node =>
      obtain ⟨n, hn⟩ := h
      exact ⟨n, (he node (Or.inl rfl)).trans hn⟩
  | pushStore node head =>
      obtain ⟨n, hn⟩ := h
      exact ⟨n, (he node (Or.inl rfl)).trans hn⟩
  | pushCas node head =>
      obtain ⟨n, hn, hd⟩ := h
      exact ⟨n, (he node (Or.inl rfl)).trans hn, hd⟩

/-- Nor does it notice a free of a node it neither owns nor is about to read. -/
theorem Good.free (h : pc.Good heap) {x : Nat} (ho : pc.owns ≠ some x) (hr : pc.reads ≠ some x) :
    pc.Good fun y => if y = x then none else heap y := by
  by_cases hp : pc.peeks = some x
  · cases pc with
    | popNext head => exact absurd hp hr
    | popCas head next =>
        refine ⟨h.1, fun n hn => ?_⟩
        obtain rfl : head = x := Option.some.inj hp
        simp at hn
    | _ => cases hp
  · refine h.frame fun p hpq => if_neg ?_
    rintro rfl
    exact hpq.elim ho hp

/-- Two threads own different nodes, and none peeks at a node the other is to link in. -/
structure Compatible (a b : Pc T) : Prop where
  owns : ∀ p, a.owns = some p → b.owns ≠ some p
  left : ∀ p, a.builds = some p → b.peeks ≠ some p
  right : ∀ p, b.builds = some p → a.peeks ≠ some p

theorem Compatible.symm (h : Compatible a b) : Compatible b a :=
  ⟨fun p hb ha => h.owns p ha hb, h.right, h.left⟩

/-- A thread that gives up what it has stays compatible. -/
theorem Compatible.shrink (h : Compatible pc b) (h1 : ∀ p, a.owns = some p → pc.owns = some p)
    (h2 : ∀ p, a.builds = some p → pc.builds = some p)
    (h3 : ∀ p, a.peeks = some p → pc.peeks = some p) : Compatible a b :=
  ⟨fun p hp => h.owns p (h1 p hp), fun p hp => h.left p (h2 p hp),
    fun p hp hq => h.right p hp (h3 p hq)⟩

end Pc

namespace LockFreePool

variable {T : Type u} {s : LockFreePool T} {t : Nat} {pc pc' : Pc T}

/-- The links of the heap. -/
def next (s : LockFreePool T) (a : Nat) : Option Nat := (s.heap a).map LockFreeNode.next

/-- **The invariant**: nothing went wrong, the stack is a chain that no thread owns a part of, and
    every thread has what it relies on. -/
structure Safe (s : LockFreePool T) : Prop where
  fault : s.fault = false
  null : s.heap 0 = none
  chain : ∃ l, Chain s.next s.head l ∧ l.Nodup ∧ ∀ pc ∈ s.threads, ∀ p, pc.owns = some p → p ∉ l
  good : ∀ pc ∈ s.threads, pc.Good s.heap
  compatible : s.threads.Pairwise Pc.Compatible

theorem safe_start (n : Nat) : (start T n).Safe := by
  have hidle : ∀ pc ∈ (start T n).threads, pc = .idle := fun pc h => (List.mem_replicate.mp h).2
  refine ⟨rfl, rfl, ⟨[], .nil, .nil, fun _ _ _ _ h => nomatch h⟩, fun pc hpc => ?_, ?_⟩
  · rw [hidle pc hpc]
    trivial
  · refine List.pairwise_of_forall_mem_list fun a ha b hb => ?_
    rw [hidle a ha, hidle b hb]
    exact ⟨(fun _ h => nomatch h), (fun _ h => nomatch h), fun _ h => nomatch h⟩

theorem Safe.count (h : s.Safe) (f : LockFreeStats → LockFreeStats) : (s.count f).Safe :=
  ⟨h.fault, h.null, h.chain, h.good, h.compatible⟩

/-- A step that leaves heap and head alone. -/
theorem Safe.goto (h : s.Safe) (ht : s.threads[t]? = some pc) (hg : pc'.Good s.heap)
    (ho : ∀ p, pc'.owns = some p → pc.owns = some p)
    (hc : ∀ b ∈ s.threads, pc.Compatible b → pc'.Compatible b) : (s.goto t pc').Safe := by
  obtain ⟨l, hl, hnd, hown⟩ := h.chain
  refine ⟨h.fault, h.null, ⟨l, hl, hnd, ?_⟩, ?_, ?_⟩
  · exact forall_set hown fun p hp => hown pc (List.mem_of_getElem? ht) p (ho p hp)
  · exact forall_set h.good hg
  · exact pairwise_set (fun _ _ h => h.symm) h.compatible ht hc

/-- A thread that keeps at most what it had. -/
theorem Safe.goto_shrink (h : s.Safe) (ht : s.threads[t]? = some pc) (hg : pc'.Good s.heap)
    (h1 : ∀ p, pc'.owns = some p → pc.owns = some p)
    (h2 : ∀ p, pc'.builds = some p → pc.builds = some p)
    (h3 : ∀ p, pc'.peeks = some p → pc.peeks = some p) : (s.goto t pc').Safe :=
  h.goto ht hg h1 fun _ _ hc => hc.shrink h1 h2 h3

/-- A thread that keeps nothing. -/
theorem Safe.goto_bare (h : s.Safe) (ht : s.threads[t]? = some pc) (hg : pc'.Good s.heap)
    (h1 : pc'.owns = none) (h2 : pc'.builds = none) (h3 : pc'.peeks = none) :
    (s.goto t pc').Safe :=
  h.goto_shrink ht hg (by simp [h1]) (by simp [h2]) (by simp [h3])

/-- The head of a stack that is not empty is a node that nobody owns. -/
theorem Safe.head_node (h : s.Safe) (h0 : s.head ≠ 0) :
    (∃ n, s.heap s.head = some n) ∧ ∀ b ∈ s.threads, b.owns ≠ some s.head := by
  obtain ⟨l, hl, _, hown⟩ := h.chain
  obtain ⟨b, l', hn, rfl, _⟩ := hl.uncons h0
  obtain ⟨n, hn, _⟩ := Option.map_eq_some_iff.mp hn
  exact ⟨⟨n, hn⟩, fun b hb ho => hown b hb _ ho List.mem_cons_self⟩

/-- `try_alloc` sees a head. -/
theorem Safe.peek (h : s.Safe) (ht : s.threads[t]? = some .popLoad) (h0 : s.head ≠ 0) :
    (s.goto t (.popNext s.head)).Safe := by
  obtain ⟨hn, hfree⟩ := h.head_node h0
  refine h.goto ht hn (fun _ h => nomatch h) fun b hb _ => ⟨(fun _ h => nomatch h),
    (fun _ h => nomatch h), fun p hp hq => ?_⟩
  cases hq
  exact hfree b hb (Pc.owns_of_builds hp)

/-- The exchange of `try_alloc`: the head leaves the stack and is the thread's own. -/
theorem Safe.pop (h : s.Safe) {n : Nat} (ht : s.threads[t]? = some (.popCas s.head n)) :
    ((s.swing n).goto t (.popRead s.head)).Safe := by
  obtain ⟨h0, hnext⟩ := h.good _ (List.mem_of_getElem? ht)
  obtain ⟨l, hl, hnd, hown⟩ := h.chain
  obtain ⟨b, l', hb, rfl, hl'⟩ := hl.uncons h0
  obtain ⟨nd, hnode, rfl⟩ := Option.map_eq_some_iff.mp hb
  rw [hnext nd hnode] at hl'
  obtain ⟨hnot, hnd'⟩ := List.nodup_cons.mp hnd
  refine ⟨h.fault, h.null, ⟨l', hl', hnd', ?_⟩, ?_, ?_⟩
  · refine forall_mem_set ht (fun p hp => ?_) fun _ b _ hb p hp hm => ?_
    · cases hp
      exact hnot
    · exact hown b (List.mem_of_getElem? hb) p hp (List.mem_cons_of_mem _ hm)
  · exact forall_set h.good ⟨nd, hnode⟩
  · refine pairwise_set (fun _ _ h => h.symm) h.compatible ht fun b hb _ =>
      ⟨fun p hp ho => ?_, (fun _ h => nomatch h), fun _ _ h => nomatch h⟩
    cases hp
    exact hown b hb _ ho List.mem_cons_self

/-- The exchange of `dealloc`: the thread's node becomes the head. -/
theorem Safe.push (h : s.Safe) {p : Nat} (ht : s.threads[t]? = some (.pushCas p s.head)) :
    ((s.swing p).goto t .idle).Safe := by
  obtain ⟨nd, hnode, hnext⟩ := h.good _ (List.mem_of_getElem? ht)
  obtain ⟨l, hl, hnd, hown⟩ := h.chain
  have h0 : p ≠ 0 := by
    rintro rfl
    rw [h.null] at hnode
    cases hnode
  have hlink : s.next p = some s.head := by
    rw [next, hnode, ← hnext]
    rfl
  have hp := hown _ (List.mem_of_getElem? ht) p rfl
  refine ⟨h.fault, h.null, ⟨p :: l, .cons h0 hlink hl, List.nodup_cons.mpr ⟨hp, hnd⟩, ?_⟩, ?_, ?_⟩
  · refine forall_mem_set ht (fun _ h => nomatch h) fun j b hj hb q hq hm => ?_
    rcases List.mem_cons.mp hm with rfl | hm
    · exact (pairwise_getElem?_ne (fun _ _ h => h.symm) h.compatible (Ne.symm hj) ht hb).owns q
        rfl hq
    · exact hown b (List.mem_of_getElem? hb) q hq hm
  · exact forall_set h.good trivial
  · exact pairwise_set (fun _ _ h => h.symm) h.compatible ht fun b _ hc =>
      hc.shrink (fun _ h => nomatch h) (fun _ h => nomatch h) fun _ h => nomatch h

/-- A node that a thread owns is not the null pointer. -/
theorem Safe.owned_ne_zero (h : s.Safe) (ht : s.threads[t]? = some pc) {p : Nat}
    (ho : pc.owns = some p) : p ≠ 0 := by
  rintro rfl
  obtain ⟨n, hn⟩ := (h.good pc (List.mem_of_getElem? ht)).alloc ho
  rw [h.null] at hn
  cases hn

/-- A step that changes the heap at a node of the thread's own, or at a free address: it is
no part of the stack. -/
theorem Safe.store (h : s.Safe) (ht : s.threads[t]? = some pc) {a : Nat}
    {n : Option (LockFreeNode T)} (h0 : a ≠ 0) (ha : pc.owns = some a ∨ s.heap a = none)
    (hg : pc'.Good (s.store a n).heap)
    (ho : ∀ p, pc'.owns = some p → p = a)
    (hothers : ∀ j b, j ≠ t → s.threads[j]? = some b → b.Good (s.store a n).heap)
    (hc : ∀ b ∈ s.threads, pc.Compatible b → pc'.Compatible b) :
    ((s.store a n).goto t pc').Safe := by
  obtain ⟨l, hl, hnd, hown⟩ := h.chain
  have hal : a ∉ l := by
    rcases ha with ha | ha
    · exact hown pc (List.mem_of_getElem? ht) a ha
    · exact fun hm => hl.alloc a hm (by simp [next, ha])
  have hframe : Chain (s.store a n).next s.head l := hl.frame fun x hx => by
    have hne : x ≠ a := fun e => hal (e ▸ hx)
    simp [next, LockFreePool.store, hne]
  refine ⟨h.fault, (if_neg (Ne.symm h0)).trans h.null, ⟨l, hframe, hnd, ?_⟩, ?_, ?_⟩
  · exact forall_set hown fun p hp => ho p hp ▸ hal
  · exact forall_mem_set ht hg hothers
  · exact pairwise_set (fun _ _ h => h.symm) h.compatible ht hc

/-- `dealloc` makes its node at an address that no thread still holds. -/
theorem Safe.make (h : s.Safe) (ht : s.threads[t]? = some .idle) {a : Nat} (h0 : a ≠ 0)
    (ha : s.heap a = none) (hq : ∀ b ∈ s.threads, b.peeks ≠ some a) (n : LockFreeNode T) :
    ((s.store a (some n)).goto t (.pushLoad a)).Safe := by
  -- an owned node is allocated, so nobody owns this one
  have hown : ∀ b ∈ s.threads, b.owns ≠ some a := fun b hb ho => by
    obtain ⟨m, hm⟩ := (h.good b hb).alloc ho
    rw [ha] at hm
    cases hm
  refine h.store ht h0 (Or.inr ha) ⟨n, if_pos rfl⟩ (fun p hp => (Option.some.inj hp).symm)
    (fun j b _ hb => ?_) fun b hb _ => ⟨fun p hp => ?_, fun p hp => ?_, fun _ _ h => nomatch h⟩
  · have hm := List.mem_of_getElem? hb
    refine (h.good b hm).frame fun p hp => if_neg ?_
    rintro rfl
    exact hp.elim (hown b hm) (hq b hm)
  · exact Option.some.inj hp ▸ hown b hb
  · exact Option.some.inj hp ▸ hq b hb

/-- `dealloc` stores the link of its node: nobody else looks at it. -/
theorem Safe.link (h : s.Safe) {p head : Nat} (ht : s.threads[t]? = some (.pushStore p head))
    (n : LockFreeNode T) :
    ((s.store p (some { n with next := head })).goto t (.pushCas p head)).Safe := by
  refine h.store ht (h.owned_ne_zero ht rfl) (Or.inl rfl) ⟨_, if_pos rfl, rfl⟩
    (fun q hq => (Option.some.inj hq).symm) (fun j b hj hb => ?_) fun b _ hc =>
    hc.shrink (fun _ h => h) (fun _ h => h) fun _ h => nomatch h
  have hc := pairwise_getElem?_ne (fun _ _ h => h.symm) h.compatible (Ne.symm hj) ht hb
  refine (h.good b (List.mem_of_getElem? hb)).frame fun q hq => if_neg ?_
  rintro rfl
  exact hq.elim (hc.owns q rfl) (hc.left q rfl)

/-- `try_alloc` frees its node when nobody is about to read it. -/
theorem Safe.free (h : s.Safe) {p k : Nat} {x : T} (ht : s.threads[t]? = some (.popFree p k x))
    (hq : ∀ b ∈ s.threads, b.reads ≠ some p) : ((s.store p none).goto t .idle).Safe := by
  refine h.store ht (h.owned_ne_zero ht rfl) (Or.inl rfl) trivial (fun _ h => nomatch h)
    (fun j b hj hb => ?_) fun b _ hc =>
    hc.shrink (fun _ h => nomatch h) (fun _ h => nomatch h) fun _ h => nomatch h
  have hc := pairwise_getElem?_ne (fun _ _ h => h.symm) h.compatible (Ne.symm hj) ht hb
  have hm := List.mem_of_getElem? hb
  exact (h.good b hm).free (hc.owns p rfl) (hq b hm)

/-- Values passed in and handed out do not matter here. -/
theorem Safe.take (h : s.Safe) (x : T) : (s.take x).Safe :=
  ⟨h.fault, h.null, h.chain, h.good, h.compatible⟩

theorem Safe.give (h : s.Safe) (k : Nat) (x : T) : (s.give k x).Safe :=
  ⟨h.fault, h.null, h.chain, h.good, h.compatible⟩

/-- **The step of a thread**: it finds what it relies on, so it touches no freed node. -/
theorem Safe.run (h : s.Safe) (ht : s.threads[t]? = some pc)
    (hq : ∀ p, pc.frees = some p → ∀ b ∈ s.threads, b.reads ≠ some p) (spurious : Bool) :
    (s.run t spurious pc).Safe := by
  have hg := h.good pc (List.mem_of_getElem? ht)
  have hidle : (s.goto t .idle).Safe := h.goto_bare ht trivial rfl rfl rfl
  have hload : (s.goto t .popLoad).Safe := h.goto_bare ht trivial rfl rfl rfl
  cases pc with
  | idle => exact h
  | popCheck =>
      simp only [LockFreePool.run]
      split
      · exact hidle.count _
      · exact hload
  | popLoad =>
      simp only [LockFreePool.run]
      split
      · exact hidle.count _
      · next h0 => exact h.peek ht h0
  | popNext head =>
      obtain ⟨n, hn⟩ := hg
      simp only [LockFreePool.run, hn]
      refine h.goto_shrink ht ⟨?_, fun m hm => ?_⟩ (fun _ h => h) (fun _ h => h) fun _ h => h
      · rintro rfl
        rw [h.null] at hn
        cases hn
      · rw [hn] at hm
        cases hm
        rfl
  | popCas head next =>
      simp only [LockFreePool.run]
      split
      · next hc =>
        obtain ⟨rfl, _⟩ := hc
        exact (h.pop ht).count _
      · exact hload.count _
  | popRead head =>
      obtain ⟨n, hn⟩ := hg
      simp only [LockFreePool.run, hn]
      exact h.goto_shrink ht ⟨n, hn, rfl, rfl⟩ (fun _ h => h) (fun _ h => h) fun _ h => h
  | popFree head ticket data =>
      obtain ⟨n, hn, _⟩ := hg
      simp only [LockFreePool.run, hn]
      exact (h.free ht (hq head rfl)).give ticket data
  | pushLoad node =>
      exact h.goto_shrink ht hg (fun _ h => h) (fun _ h => h) fun _ h => h
  | pushStore node head =>
      obtain ⟨n, hn⟩ := hg
      simp only [LockFreePool.run, hn]
      exact h.link ht n
  | pushCas node head =>
      simp only [LockFreePool.run]
      split
      · next hc =>
        obtain ⟨rfl, _⟩ := hc
        exact (h.push ht).count _
      · obtain ⟨n, hn, _⟩ := hg
        have hback : (s.goto t (.pushLoad node)).Safe :=
          h.goto_shrink ht ⟨n, hn⟩ (fun _ h => h) (fun _ h => h) fun _ h => h
        exact hback.count _

/-- **One step keeps the pool safe**, if it meets the condition. -/
theorem Safe.step (h : s.Safe) {s' : LockFreePool T} {st : PoolStep T} (hok : s.Ok st)
    (hq : Quiet s st) (e : s.exec st = some s') : s'.Safe := by
  cases st with
  | tryAlloc t =>
      simp only [exec] at e
      split at e
      · next ht =>
        cases e
        exact h.goto_bare ht trivial rfl rfl rfl
      · cases e
  | dealloc t data addr =>
      simp only [exec] at e
      split at e
      · next ht =>
        cases e
        exact (h.make ht hok.1 (Option.isNone_iff_eq_none.mp hok.2) hq _).take data
      · cases e
  | run t spurious =>
      obtain ⟨pc, ht, rfl⟩ := Option.map_eq_some_iff.mp e
      refine h.run ht (fun p hp => hq p ?_) spurious
      rw [ht]
      exact hp

/-! ## 4. Values -/

/-- **The second invariant**: the tickets of the nodes and of what was handed out. -/
structure Honest (s : LockFreePool T) : Prop where
  issued : ∀ a n, s.heap a = some n → s.given[n.ticket]? = some n.data
  apart : ∀ a b m n, s.heap a = some m → s.heap b = some n → m.ticket = n.ticket → a = b
  fresh : ∀ a n, s.heap a = some n → n.ticket ∉ s.returned.map Prod.fst
  once : (s.returned.map Prod.fst).Nodup
  genuine : ∀ r ∈ s.returned, s.given[r.1]? = some r.2

theorem honest_start (n : Nat) : (start T n).Honest :=
  ⟨(fun _ _ h => nomatch h), (fun _ _ _ _ h => nomatch h), (fun _ _ h => nomatch h), .nil,
    fun _ h => nomatch h⟩

/-- A step that leaves nodes and values alone. -/
theorem Honest.same (h : s.Honest) {s' : LockFreePool T} (h1 : s'.heap = s.heap)
    (h2 : s'.given = s.given) (h3 : s'.returned = s.returned) : s'.Honest := by
  refine ⟨?_, ?_, ?_, ?_, ?_⟩ <;> simp only [h1, h2, h3]
  · exact h.issued
  · exact h.apart
  · exact h.fresh
  · exact h.once
  · exact h.genuine

/-- The next ticket is on no node and was not handed out. -/
theorem Honest.unused (h : s.Honest) : (∀ a n, s.heap a = some n → n.ticket < s.given.length) ∧
    s.given.length ∉ s.returned.map Prod.fst := by
  refine ⟨fun a n hn => (List.getElem?_eq_some_iff.mp (h.issued a n hn)).1, fun hm => ?_⟩
  obtain ⟨r, hr, he⟩ := List.mem_map.mp hm
  have hlt := (List.getElem?_eq_some_iff.mp (h.genuine r hr)).1
  omega

/-- `dealloc` makes a node with the next ticket. -/
theorem Honest.make (h : s.Honest) (data : T) (a : Nat) :
    ((s.store a (some ⟨s.given.length, data, 0⟩)).take data).Honest := by
  obtain ⟨hlt, hnew⟩ := h.unused
  have hkeep : ∀ k x, s.given[k]? = some x → (s.given ++ [data])[k]? = some x := fun k x hk => by
    rw [List.getElem?_append_left (List.getElem?_eq_some_iff.mp hk).1, hk]
  have hnode : ∀ b n, (if b = a then some ⟨s.given.length, data, 0⟩ else s.heap b) = some n →
      b = a ∧ n = ⟨s.given.length, data, 0⟩ ∨ b ≠ a ∧ s.heap b = some n := fun b n hn => by
    split at hn
    · next hb => exact Or.inl ⟨hb, (Option.some.inj hn).symm⟩
    · next hb => exact Or.inr ⟨hb, hn⟩
  refine ⟨fun b n hn => ?_, fun b c m n hm hn ht => ?_, fun b n hn => ?_, h.once,
    fun r hr => hkeep _ _ (h.genuine r hr)⟩
  · rcases hnode b n hn with ⟨_, rfl⟩ | ⟨_, hn⟩
    · simp [LockFreePool.take, LockFreePool.store]
    · exact hkeep _ _ (h.issued b n hn)
  · rcases hnode b m hm with ⟨hb, rfl⟩ | ⟨_, hm'⟩ <;>
      rcases hnode c n hn with ⟨hc, rfl⟩ | ⟨_, hn'⟩
    · exact hb.trans hc.symm
    · exact absurd ht (Nat.ne_of_gt (hlt c n hn'))
    · exact absurd ht (Nat.ne_of_lt (hlt b m hm'))
    · exact h.apart b c m n hm' hn' ht
  · rcases hnode b n hn with ⟨_, rfl⟩ | ⟨_, hn⟩
    · exact hnew
    · exact h.fresh b n hn

/-- `dealloc` changes the link of a node, not its value. -/
theorem Honest.link (h : s.Honest) {p : Nat} {n : LockFreeNode T} (hp : s.heap p = some n)
    (head : Nat) : (s.store p (some { n with next := head })).Honest := by
  -- every node has a node with its ticket and value at the same address before the step
  have hnode : ∀ b m, (if b = p then some { n with next := head } else s.heap b) = some m →
      ∃ m', s.heap b = some m' ∧ m'.ticket = m.ticket ∧ m'.data = m.data := fun b m hm => by
    split at hm
    · next hb =>
      cases hm
      exact ⟨n, hb ▸ hp, rfl, rfl⟩
    · exact ⟨m, hm, rfl, rfl⟩
  refine ⟨fun b m hm => ?_, fun b c m k hm hk ht => ?_, fun b m hm => ?_, h.once, h.genuine⟩
  · obtain ⟨m', hm', ht, hd⟩ := hnode b m hm
    rw [← ht, ← hd]
    exact h.issued b m' hm'
  · obtain ⟨m', hm', hmt, _⟩ := hnode b m hm
    obtain ⟨k', hk', hkt, _⟩ := hnode c k hk
    exact h.apart b c m' k' hm' hk' (hmt.trans (ht.trans hkt.symm))
  · obtain ⟨m', hm', ht, _⟩ := hnode b m hm
    exact ht ▸ h.fresh b m' hm'

/-- `try_alloc` frees a node and hands out its value. -/
theorem Honest.free (h : s.Honest) {p : Nat} {n : LockFreeNode T} (hp : s.heap p = some n) :
    ((s.store p none).give n.ticket n.data).Honest := by
  have hnode : ∀ b m, (if b = p then none else s.heap b) = some m → b ≠ p ∧ s.heap b = some m :=
    fun b m hm => by
      split at hm
      · cases hm
      · next hb => exact ⟨hb, hm⟩
  have hmap : (s.returned ++ [(n.ticket, n.data)]).map Prod.fst =
      s.returned.map Prod.fst ++ [n.ticket] := by simp
  refine ⟨fun b m hm => h.issued b m (hnode b m hm).2,
    fun b c m k hm hk => h.apart b c m k (hnode b m hm).2 (hnode c k hk).2, fun b m hm hin => ?_,
    ?_, fun r hr => ?_⟩
  · obtain ⟨hb, hm⟩ := hnode b m hm
    rcases List.mem_append.mp (hmap ▸ hin) with hin | hin
    · exact h.fresh b m hm hin
    · exact hb (h.apart b p m n hm hp (List.mem_singleton.mp hin))
  · refine (congrArg List.Nodup hmap).mpr (List.nodup_append.mpr ⟨h.once, by simp, ?_⟩)
    rintro x hx y hy rfl
    exact h.fresh p n hp (List.mem_singleton.mp hy ▸ hx)
  · rcases List.mem_append.mp hr with hr | hr
    · exact h.genuine r hr
    · rw [List.mem_singleton.mp hr]
      exact h.issued p n hp

theorem Honest.run (h : s.Honest) (hg : pc.Good s.heap) (t : Nat) (spurious : Bool) :
    (s.run t spurious pc).Honest := by
  cases pc with
  | idle => exact h
  | popCheck =>
      simp only [LockFreePool.run]
      split <;> exact h.same rfl rfl rfl
  | popLoad =>
      simp only [LockFreePool.run]
      split <;> exact h.same rfl rfl rfl
  | popNext head =>
      simp only [LockFreePool.run]
      split <;> exact h.same rfl rfl rfl
  | popCas head next =>
      simp only [LockFreePool.run]
      split <;> exact h.same rfl rfl rfl
  | popRead head =>
      simp only [LockFreePool.run]
      split <;> exact h.same rfl rfl rfl
  | popFree head ticket data =>
      obtain ⟨n, hn, rfl, rfl⟩ := hg
      simp only [LockFreePool.run, hn]
      exact (h.free hn).same rfl rfl rfl
  | pushLoad node => exact h.same rfl rfl rfl
  | pushStore node head =>
      obtain ⟨n, hn⟩ := hg
      simp only [LockFreePool.run, hn]
      exact (h.link hn head).same rfl rfl rfl
  | pushCas node head =>
      simp only [LockFreePool.run]
      split <;> exact h.same rfl rfl rfl

/-- **One step of a safe pool keeps the books.** -/
theorem Honest.step (h : s.Honest) (hs : s.Safe) {s' : LockFreePool T} {st : PoolStep T}
    (e : s.exec st = some s') : s'.Honest := by
  cases st with
  | tryAlloc t =>
      simp only [exec] at e
      split at e
      · cases e
        exact h.same rfl rfl rfl
      · cases e
  | dealloc t data addr =>
      simp only [exec] at e
      split at e
      · cases e
        exact (h.make data addr).same rfl rfl rfl
      · cases e
  | run t spurious =>
      obtain ⟨pc, ht, rfl⟩ := Option.map_eq_some_iff.mp e
      exact h.run (hs.good pc (List.mem_of_getElem? ht)) t spurious

end LockFreePool

/-- **The pool**: in every run whose steps all meet the condition no step touches a freed node, and
    what `try_alloc` returns is what some `dealloc` passed in, once for each call. -/
theorem pool_sound {T : Type u} {s : LockFreePool T}
    (h : ((lockFreePools T).under Quiet).Reach s) :
    s.fault = false ∧ (s.returned.map Prod.fst).Nodup ∧
      ∀ r ∈ s.returned, s.given[r.1]? = some r.2 := by
  have hs : s.Safe ∧ s.Honest := by
    refine h.inv (P := fun s => s.Safe ∧ s.Honest) (fun s hi => ?_) fun s op s' hs hok e => ?_
    · obtain ⟨n, rfl⟩ := hi
      exact ⟨LockFreePool.safe_start n, LockFreePool.honest_start n⟩
    · exact ⟨hs.1.step hok.1 hok.2 e, hs.2.step hs.1 e⟩
  exact ⟨hs.1.fault, hs.2.once, hs.2.genuine⟩

/-- Two threads that push and pop at the same time; one exchange fails, and a freed address is
    used again. -/
theorem pool_sound_contended : ∃ s, ((lockFreePools Nat).under Quiet).Reach s ∧
    s.returned = [(1, 20), (0, 10), (2, 30)] ∧
    (s.fault = false ∧ (s.returned.map Prod.fst).Nodup ∧
      ∀ r ∈ s.returned, s.given[r.1]? = some r.2) := by
  obtain ⟨s, hr, hs⟩ := System.exists_reach_of_replay ((lockFreePools Nat).under Quiet)
    [.dealloc 0 10 8, .dealloc 1 20 16, .run 0 false, .run 1 false, .run 0 false, .run 1 false,
      .run 0 false, .run 1 false, .run 1 false, .run 1 false, .run 1 true, .run 1 false,
      .run 1 false, .run 1 false,
      .tryAlloc 0, .tryAlloc 1, .run 0 false, .run 1 false, .run 0 false, .run 1 false,
      .run 0 false, .run 1 false, .run 0 false, .run 1 false, .run 0 false, .run 0 false,
      .run 1 false, .run 1 false, .run 1 false, .run 1 false, .run 1 false,
      .dealloc 0 30 16, .run 0 false, .run 0 false, .run 0 false,
      .tryAlloc 1, .run 1 false, .run 1 false, .run 1 false, .run 1 false, .run 1 false,
      .run 1 false]
    (P := fun s => s.returned = [(1, 20), (0, 10), (2, 30)])
    (s := .start Nat 2) ⟨2, rfl⟩ (by decide)
  exact ⟨s, hr, hs, pool_sound hr⟩

/-- The popper of a node frees it while another thread is about to read its `next`; and when the
    node's address comes back as the head, the exchange succeeds with an outdated `next`, and two
    threads are handed the same value. -/
theorem pool_reads_freed :
    (∃ s, (lockFreePools Nat).Reach s ∧ s.fault = true) ∧
    ∃ s, (lockFreePools Nat).Reach s ∧ s.fault = false ∧ ¬ (s.returned.map Prod.fst).Nodup := by
  refine ⟨?_, ?_⟩
  · exact System.exists_reach_of_replay (lockFreePools Nat)
      [.dealloc 0 10 8, .run 0 false, .run 0 false, .run 0 false,
        -- thread 0 holds the head, thread 1 pops and frees it
        .tryAlloc 0, .run 0 false, .run 0 false,
        .tryAlloc 1, .run 1 false, .run 1 false, .run 1 false, .run 1 false, .run 1 false,
        .run 1 false,
        .run 0 false] (s := .start Nat 2) ⟨2, rfl⟩ (by decide)
  · exact System.exists_reach_of_replay (lockFreePools Nat)
      [.dealloc 0 10 16, .run 0 false, .run 0 false, .run 0 false,
        .dealloc 0 20 8, .run 0 false, .run 0 false, .run 0 false,
        -- thread 0 has read that 16 follows 8
        .tryAlloc 0, .run 0 false, .run 0 false, .run 0 false,
        -- thread 1 empties the stack and pushes a node at 8 again
        .tryAlloc 1, .run 1 false, .run 1 false, .run 1 false, .run 1 false, .run 1 false,
        .run 1 false,
        .tryAlloc 1, .run 1 false, .run 1 false, .run 1 false, .run 1 false, .run 1 false,
        .run 1 false,
        .dealloc 1 30 8, .run 1 false, .run 1 false, .run 1 false,
        -- thread 0 makes the freed 16 the head, then pushes a node at 16: it follows itself
        .run 0 false, .run 0 false, .run 0 false,
        .dealloc 0 40 16, .run 0 false, .run 0 false, .run 0 false,
        -- both threads pop it and read its value
        .tryAlloc 0, .run 0 false, .run 0 false, .run 0 false, .run 0 false, .run 0 false,
        .tryAlloc 1, .run 1 false, .run 1 false, .run 1 false, .run 1 false, .run 1 false,
        .run 0 false, .dealloc 0 50 16, .run 1 false]
      (s := .start Nat 2) ⟨2, rfl⟩ (by decide)

end ArenaB
