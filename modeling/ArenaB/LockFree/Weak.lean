/-
  File:      ArenaB/LockFree/Weak.lean
  Subject:   `LockFreePool<T>` (src/lockfree.rs) with the memory orders of its atomic operations.

  The loads of `try_alloc` and `dealloc` may return old values of `head`, and a node is read by
  a thread that did not make it. Here the pool runs on the memory of ArenaB/Base/Views.lean; one
  thread at a time may be inside `try_alloc`, and the threads that take this role in turn are
  synchronised by what passes it on (a mutex, a channel). `dealloc` is called by all of them, at
  any time.

  * `PoolLoc` -- the head and the fields of the nodes; `reads a t` stands for the reads that thread
    `t` made of the node at `a`, which its free has to come after;
  * `WeakPool.run` -- the next step of a thread. A node that is not allocated, or whose contents
    the thread does not know, sets `fault`: a use after free, or a race. The system allocator
    passes on what the thread that freed a block had seen;
  * `PoolOrders` -- the orders of the eight operations, `source` those of the source,
    `Enough` -- the two that are needed.
-/
import ArenaB.Base.Views
import ArenaB.LockFree.Lifo

namespace ArenaB

open Base

universe u

/-! ## 1. Locations and orders -/

/-- The locations of a pool. -/
inductive PoolLoc where
  | head
  | next (a : Nat)
  | data (a : Nat)
  /-- The reads of the node at `a` by thread `t`. -/
  | reads (a t : Nat)
  deriving DecidableEq, Repr

/-- What they hold; an address is `0` for a null pointer. -/
inductive PoolVal (T : Type u) where
  | undef
  | ptr (a : Nat)
  | data (ticket : Nat) (d : T)
  deriving DecidableEq, Repr

/-- The orders of the atomic operations of `try_alloc` and `dealloc`. -/
structure PoolOrders where
  popLoad : MemOrder
  popNext : MemOrder
  popCas : MemOrder
  popFail : MemOrder
  pushLoad : MemOrder
  pushStore : MemOrder
  pushCas : MemOrder
  pushFail : MemOrder

namespace PoolOrders

/-- The orders the source asks for. -/
def source : PoolOrders where
  popLoad := .acquire
  popNext := .acquire
  popCas := .acqRel
  popFail := .acquire
  pushLoad := .acquire
  pushStore := .relaxed
  pushCas := .acqRel
  pushFail := .acquire

/-- A push releases, and the load of the head in `try_alloc` acquires. -/
def Enough (o : PoolOrders) : Prop := o.pushCas.releases = true ∧ o.popLoad.acquires = true

instance (o : PoolOrders) : Decidable o.Enough := inferInstanceAs (Decidable (_ ∧ _))

end PoolOrders

/-! ## 2. Steps -/

/-- A node on the stack. -/
structure PoolCell (T : Type u) where
  addr : Nat
  ticket : Nat
  data : T
  deriving DecidableEq, Repr

/-- A call took effect: the thread, the number of writes to `head` it comes after (itself
    included), the operation. -/
structure PoolEvent (T : Type u) where
  thread : Nat
  pos : Nat
  op : StackOp (PoolCell T)

/-- A thread: where it is, what it has seen. -/
structure WeakThread (T : Type u) where
  pc : Pc T
  view : View PoolLoc

/-- The pool and its threads. No step reads the last four fields but `given`, whose length is the
    next ticket: what was passed in, what `try_alloc` returned, the operations in the modification
    order of `head`, and all that took effect as time goes. -/
structure WeakPool (T : Type u) where
  mem : Messages PoolLoc (PoolVal T)
  live : Nat → Bool
  /-- What the thread that last freed the block had seen. -/
  freed : Nat → View PoolLoc
  threads : List (WeakThread T)
  /-- The thread that may call `try_alloc`. -/
  popper : Nat
  fault : Bool
  given : List T
  answers : List (Nat × Option (Nat × T))
  log : List (StackOp (PoolCell T))
  events : List (PoolEvent T)

/-- The scheduler's choice. A load reads message `choice` of its location. -/
inductive WeakStep (T : Type u) where
  | tryAlloc (t : Nat)
  | dealloc (t : Nat) (data : T) (addr : Nat)
  | run (t choice : Nat) (spurious : Bool)
  /-- The thread that may call `try_alloc` leaves this to thread `t`. -/
  | handOver (t : Nat)

namespace WeakPool

variable {T : Type u}

/-- Thread `t` goes on at `pc` with view `v`. -/
def goto (s : WeakPool T) (t : Nat) (pc : Pc T) (v : View PoolLoc) : WeakPool T :=
  { s with threads := s.threads.set t ⟨pc, v⟩ }

/-- A use after free, or a race. -/
def fail (s : WeakPool T) (t : Nat) (v : View PoolLoc) : WeakPool T :=
  { s.goto t .idle v with fault := true }

def withMem (s : WeakPool T) (mem : Messages PoolLoc (PoolVal T)) : WeakPool T :=
  { s with mem := mem }

/-- Thread `t` has read the node at `a`, and goes on. -/
def touch (s : WeakPool T) (t a : Nat) (pc : Pc T) (v : View PoolLoc) : WeakPool T :=
  let r := s.mem.store .relaxed v (.reads a t) .undef
  (s.withMem r.1).goto t pc r.2

/-- The comparison of a compare-exchange on `head`, which looks at the last write. -/
def headIs (s : WeakPool T) (a : Nat) : Bool :=
  match s.mem.latest .head with
  | some (.ptr b) => b == a
  | _ => false

/-- The node at an address as it was made last. -/
def cell? (s : WeakPool T) (a : Nat) : Option (PoolCell T) :=
  match s.mem.latest (.data a) with
  | some (.data ticket d) => some ⟨a, ticket, d⟩
  | _ => none

/-- All that was ever done to the node at `a` has been seen. -/
def Clear (s : WeakPool T) (v : View PoolLoc) (a : Nat) : Prop :=
  s.mem.Covers v (.next a) ∧ s.mem.Covers v (.data a) ∧
    ∀ t < s.threads.length, s.mem.Covers v (.reads a t)

instance (s : WeakPool T) (v : View PoolLoc) (a : Nat) : Decidable (s.Clear v a) :=
  inferInstanceAs (Decidable (_ ∧ _ ∧ _))

/-- A write to `head` took effect. -/
def acts (s : WeakPool T) (t : Nat) (op : StackOp (PoolCell T)) : WeakPool T :=
  { s with
    log := s.log ++ [op]
    events := s.events ++ [⟨t, s.log.length + 1, op⟩] }

/-- `try_alloc` found nothing in message `k` of `head`, and returns. -/
def miss (s : WeakPool T) (t k : Nat) (v : View PoolLoc) : WeakPool T :=
  { s.goto t .idle v with
    answers := s.answers ++ [(t, none)]
    events := s.events ++ [⟨t, k, .miss⟩] }

/-- The node is freed, and `try_alloc` returns. -/
def free (s : WeakPool T) (t a ticket : Nat) (d : T) (v : View PoolLoc) : WeakPool T :=
  { s.goto t .idle v with
    live := fun x => if x = a then false else s.live x
    freed := fun x => if x = a then v else s.freed x
    answers := s.answers ++ [(t, some (ticket, d))] }

/-- A node is made, and `dealloc` begins its loop. -/
def make (s : WeakPool T) (t a : Nat) (d : T) (v : View PoolLoc) : WeakPool T :=
  let r := s.mem.store .relaxed v (.data a) (.data s.given.length d)
  let r' := r.1.store .relaxed r.2 (.next a) (.ptr 0)
  { (s.withMem r'.1).goto t (.pushLoad a) r'.2 with
    live := fun x => if x = a then true else s.live x
    given := s.given ++ [d] }

/-- The node gets its link. -/
def link (o : MemOrder) (s : WeakPool T) (t node head : Nat) (v : View PoolLoc) : WeakPool T :=
  let r := s.mem.store o v (.next node) (.ptr head)
  (s.withMem r.1).goto t (.pushCas node head) r.2

/-- The next step of thread `t`, which has view `v` and is at the given place. -/
def run (o : PoolOrders) (s : WeakPool T) (t choice : Nat) (spurious : Bool)
    (v : View PoolLoc) : Pc T → Option (WeakPool T)
  | .idle => none
  | .popCheck =>
      (s.mem.load o.popLoad v .head choice).map fun r =>
        match r.1 with
        | .ptr 0 => s.miss t choice r.2
        | _ => s.goto t .popLoad r.2
  | .popLoad =>
      (s.mem.load o.popLoad v .head choice).map fun r =>
        match r.1 with
        | .ptr 0 => s.miss t choice r.2
        | .ptr head => s.goto t (.popNext head) r.2
        | _ => s.fail t r.2
  | .popNext head =>
      if s.live head then
        (s.mem.load o.popNext v (.next head) choice).map fun r =>
          match r.1 with
          | .ptr next => s.touch t head (.popCas head next) r.2
          | _ => s.fail t r.2
      else some (s.fail t v)
  | .popCas head next =>
      if s.headIs head = true ∧ spurious = false then
        match s.cell? head with
        | some c => (s.mem.exchange o.popCas v .head (.ptr next)).map fun r =>
            ((s.withMem r.1).acts t (.pop c)).goto t (.popRead head) r.2
        | none => some (s.fail t v)
      else (s.mem.load o.popFail v .head choice).map fun r => s.goto t .popLoad r.2
  | .popRead head =>
      if s.live head = true ∧ s.mem.Covers v (.data head) then
        match s.cell? head with
        | some c => some (s.touch t head (.popFree head c.ticket c.data) v)
        | none => some (s.fail t v)
      else some (s.fail t v)
  | .popFree head ticket d =>
      if s.live head = true ∧ s.Clear v head then some (s.free t head ticket d v)
      else some (s.fail t v)
  | .pushLoad node =>
      (s.mem.load o.pushLoad v .head choice).map fun r =>
        match r.1 with
        | .ptr head => s.goto t (.pushStore node head) r.2
        | _ => s.fail t r.2
  | .pushStore node head =>
      if s.live node then some (s.link o.pushStore t node head v)
      else some (s.fail t v)
  | .pushCas node head =>
      if s.headIs head = true ∧ spurious = false then
        match s.cell? node with
        | some c => (s.mem.exchange o.pushCas v .head (.ptr node)).map fun r =>
            ((s.withMem r.1).acts t (.push c)).goto t .idle r.2
        | none => some (s.fail t v)
      else (s.mem.load o.pushFail v .head choice).map fun r => s.goto t (.pushLoad node) r.2

/-- One step of the system. -/
def exec (o : PoolOrders) (s : WeakPool T) : WeakStep T → Option (WeakPool T)
  | .tryAlloc t =>
      match s.threads[t]? with
      | some ⟨.idle, v⟩ => if t = s.popper then some (s.goto t .popCheck v) else none
      | _ => none
  | .dealloc t d a =>
      match s.threads[t]? with
      | some ⟨.idle, v⟩ =>
          if s.Clear (v ⊔ s.freed a) a then some (s.make t a d (v ⊔ s.freed a))
          else some (s.fail t v)
      | _ => none
  | .run t choice spurious =>
      s.threads[t]?.bind fun th => s.run o t choice spurious th.view th.pc
  | .handOver t =>
      match s.threads[s.popper]?, s.threads[t]? with
      | some th, some th' =>
          if th.pc.pops then none
          else some { s.goto t th'.pc (th'.view ⊔ th.view) with popper := t }
      | _, _ => none

/-- An allocation returns an address that is not allocated. -/
def Ok (s : WeakPool T) : WeakStep T → Prop
  | .dealloc _ _ a => a ≠ 0 ∧ s.live a = false
  | _ => True

instance (s : WeakPool T) : (st : WeakStep T) → Decidable (s.Ok st)
  | .dealloc _ _ _ => inferInstanceAs (Decidable (_ ∧ _))
  | .tryAlloc _ => isTrue trivial
  | .run _ _ _ => isTrue trivial
  | .handOver _ => isTrue trivial

/-- An empty pool, `n` idle threads that have seen nothing, and the one that may pop. -/
def start (T : Type u) (n popper : Nat) : WeakPool T where
  mem := fun l => [⟨if l = .head then .ptr 0 else .undef, ⊥⟩]
  live := fun _ => false
  freed := fun _ => ⊥
  threads := List.replicate n ⟨.idle, ⊥⟩
  popper := popper
  fault := false
  given := []
  answers := []
  log := []
  events := []

end WeakPool

/-- The runs of any number of threads on a new pool, with the orders `o`. -/
def weakPools (T : Type u) (o : PoolOrders) : System (WeakPool T) (WeakStep T) where
  init s := ∃ n popper, s = .start T n popper
  ok := WeakPool.Ok
  step := WeakPool.exec o

instance (T : Type u) (o : PoolOrders) (s : WeakPool T) (st : WeakStep T) :
    Decidable ((weakPools T o).ok s st) :=
  inferInstanceAs (Decidable (s.Ok st))

/-! ## 3. What holds between the steps -/

/-- What an operation leaves on the stack. -/
def StackOp.on {α : Type u} : List α → StackOp α → List α
  | l, .push a => a :: l
  | l, .pop _ => l.tail
  | l, .miss => l

/-- What is on the stack after some operations. -/
def stackOf {α : Type u} (ops : List (StackOp α)) : List α := ops.foldl StackOp.on []

theorem stackOf_concat {α : Type u} (ops : List (StackOp α)) (op : StackOp α) :
    stackOf (ops ++ [op]) = StackOp.on (stackOf ops) op := List.foldl_concat _ _ _ _

section Chain

variable {T : Type u}

/-- The address of the first node. -/
def topAddr : List (PoolCell T) → Nat
  | [] => 0
  | c :: _ => c.addr

/-- The nodes are linked in this order, with these values. -/
def Linked (m : Messages PoolLoc (PoolVal T)) : List (PoolCell T) → Prop
  | [] => True
  | c :: cs => m.latest (.next c.addr) = some (.ptr (topAddr cs)) ∧
      m.latest (.data c.addr) = some (.data c.ticket c.data) ∧ Linked m cs

/-- The view knows the node at `a` as it is. -/
def Knows (m : Messages PoolLoc (PoolVal T)) (v : View PoolLoc) (a : Nat) : Prop :=
  m.Covers v (.next a) ∧ m.Covers v (.data a)

/-- Nothing was written to the node at `a`. -/
def SameNode (m m' : Messages PoolLoc (PoolVal T)) (a : Nat) : Prop :=
  m' (.next a) = m (.next a) ∧ m' (.data a) = m (.data a)

variable {m m' : Messages PoolLoc (PoolVal T)} {v v' : View PoolLoc} {a : Nat}

theorem latest_congr {l : PoolLoc} (h : m' l = m l) : m'.latest l = m.latest l := by
  rw [Messages.latest, h]
  rfl

theorem Knows.mono (h : Knows m v a) (hv : v ≤ v') : Knows m v' a := ⟨h.1.mono hv, h.2.mono hv⟩

theorem Knows.congr (h : Knows m v a) (hm : SameNode m m' a) : Knows m' v a :=
  ⟨h.1.congr hm.1, h.2.congr hm.2⟩

theorem Linked.congr {cs : List (PoolCell T)} (h : Linked m cs)
    (hm : ∀ c ∈ cs, SameNode m m' c.addr) : Linked m' cs := by
  induction cs with
  | nil => trivial
  | cons c cs ih =>
      have hc := hm c List.mem_cons_self
      refine ⟨(latest_congr hc.1).trans h.1, (latest_congr hc.2).trans h.2.1, ?_⟩
      exact ih h.2.2 fun x hx => hm x (List.mem_cons_of_mem _ hx)

theorem Linked.next {cs : List (PoolCell T)} (h : Linked m cs) {c : PoolCell T} (hc : c ∈ cs) :
    ∃ n, m.latest (.next c.addr) = some (.ptr n) := by
  induction cs with
  | nil => cases hc
  | cons x cs ih =>
      rcases List.mem_cons.mp hc with rfl | hc
      · exact ⟨_, h.1⟩
      · exact ih h.2.2 hc

theorem sameNode_post_head (m : Messages PoolLoc (PoolVal T)) (z : Message PoolLoc (PoolVal T))
    (a : Nat) : SameNode m (m.post .head z) a :=
  ⟨m.post_of_ne z (fun h => by cases h), m.post_of_ne z (fun h => by cases h)⟩

end Chain

/-- What a thread relies on at each place: the node it works on is as it knows it. -/
def Pc.Relies {T : Type u} (m : Messages PoolLoc (PoolVal T)) (stack : List (PoolCell T))
    (v : View PoolLoc) : Pc T → Prop
  | .popNext head => (∃ c ∈ stack, c.addr = head) ∧ Knows m v head
  | .popCas head next => (∃ c ∈ stack, c.addr = head) ∧ Knows m v head ∧
      m.latest (.next head) = some (.ptr next)
  | .popRead head => Knows m v head ∧ ∃ k d, m.latest (.data head) = some (.data k d)
  | .popFree head k d => Knows m v head ∧ m.latest (.data head) = some (.data k d)
  | .pushLoad node => Knows m v node ∧ ∃ k d, m.latest (.data node) = some (.data k d)
  | .pushStore node _ => Knows m v node ∧ ∃ k d, m.latest (.data node) = some (.data k d)
  | .pushCas node head => Knows m v node ∧ (∃ k d, m.latest (.data node) = some (.data k d)) ∧
      m.latest (.next node) = some (.ptr head)
  | _ => True

section Relies

variable {T : Type u} {m m' : Messages PoolLoc (PoolVal T)} {stack stack' : List (PoolCell T)}
  {v v' : View PoolLoc} {pc : Pc T}

/-- A thread notices writes to the nodes it owns or peeks at only. -/
theorem Pc.Relies.frame (h : pc.Relies m stack v) (hv : v ≤ v')
    (hm : ∀ p, pc.owns = some p ∨ pc.peeks = some p → SameNode m m' p)
    (hs : ∀ p, pc.peeks = some p → ∀ c ∈ stack, c.addr = p → ∃ c' ∈ stack', c'.addr = p) :
    pc.Relies m' stack' v' := by
  have hknows : ∀ p, (pc.owns = some p ∨ pc.peeks = some p) → Knows m v p → Knows m' v' p :=
    fun p hp hk => (hk.mono hv).congr (hm p hp)
  have hdata : ∀ p, pc.owns = some p → m'.latest (.data p) = m.latest (.data p) :=
    fun p hp => latest_congr (hm p (Or.inl hp)).2
  cases pc with
  | idle => trivial
  | popCheck => trivial
  | popLoad => trivial
  | popNext head =>
      obtain ⟨⟨c, hc, ha⟩, hk⟩ := h
      exact ⟨hs head rfl c hc ha, hknows head (Or.inr rfl) hk⟩
  | popCas head next =>
      obtain ⟨⟨c, hc, ha⟩, hk, hn⟩ := h
      exact ⟨hs head rfl c hc ha, hknows head (Or.inr rfl) hk,
        (latest_congr (hm head (Or.inr rfl)).1).trans hn⟩
  | popRead head =>
      obtain ⟨hk, k, d, hd⟩ := h
      exact ⟨hknows head (Or.inl rfl) hk, k, d, (hdata head rfl).trans hd⟩
  | popFree head k d => exact ⟨hknows head (Or.inl rfl) h.1, (hdata head rfl).trans h.2⟩
  | pushLoad node =>
      obtain ⟨hk, k, d, hd⟩ := h
      exact ⟨hknows node (Or.inl rfl) hk, k, d, (hdata node rfl).trans hd⟩
  | pushStore node head =>
      obtain ⟨hk, k, d, hd⟩ := h
      exact ⟨hknows node (Or.inl rfl) hk, k, d, (hdata node rfl).trans hd⟩
  | pushCas node head =>
      obtain ⟨hk, ⟨k, d, hd⟩, hn⟩ := h
      exact ⟨hknows node (Or.inl rfl) hk, ⟨k, d, (hdata node rfl).trans hd⟩,
        (latest_congr (hm node (Or.inl rfl)).1).trans hn⟩

end Relies

namespace WeakPool

variable {T : Type u} {s s' : WeakPool T} {t : Nat} {th : WeakThread T}

/-- The node at `p` is allocated, not on the stack, and no thread but `t` owns it. -/
structure Loose (s : WeakPool T) (t p : Nat) : Prop where
  null : p ≠ 0
  live : s.live p = true
  off : ∀ c ∈ stackOf s.log, c.addr ≠ p
  sole : ∀ (i : Nat) (th : WeakThread T), i ≠ t → s.threads[i]? = some th → th.pc.owns ≠ some p

/-- From message `k` of `head` on: what was on the stack at that message is still there, and the
    message tells all about it. -/
def Fresh (s : WeakPool T) (k : Nat) : Prop :=
  ∀ (j : Nat) (x : Message PoolLoc (PoolVal T)), k ≤ j → (s.mem .head)[j]? = some x →
    stackOf (s.log.take j) <:+ stackOf s.log ∧
      ∀ c ∈ stackOf (s.log.take j), Knows s.mem x.view c.addr

/-- **The invariant.** -/
structure Sound (s : WeakPool T) : Prop where
  fault : s.fault = false
  count : (s.mem .head).length = s.log.length + 1
  heads : ∀ (k : Nat) (x : Message PoolLoc (PoolVal T)), (s.mem .head)[k]? = some x →
    x.val = .ptr (topAddr (stackOf (s.log.take k)))
  linked : Linked s.mem (stackOf s.log)
  nodup : ((stackOf s.log).map PoolCell.addr).Nodup
  live : ∀ c ∈ stackOf s.log, c.addr ≠ 0 ∧ s.live c.addr = true
  last : ∀ x, (s.mem .head).getLast? = some x → ∀ c ∈ stackOf s.log, Knows s.mem x.view c.addr
  fresh : ∀ th, s.threads[s.popper]? = some th → s.Fresh (th.view .head)
  marks : ∀ th, s.threads[s.popper]? = some th → ∀ a i, s.mem.Covers th.view (.reads a i)
  alone : ∀ (i : Nat) (th : WeakThread T), s.threads[i]? = some th → th.pc.pops = true →
    i = s.popper
  owned : ∀ (i : Nat) (th : WeakThread T) (p : Nat), s.threads[i]? = some th →
    th.pc.owns = some p → s.Loose i p
  relies : ∀ (i : Nat) (th : WeakThread T), s.threads[i]? = some th →
    th.pc.Relies s.mem (stackOf s.log) th.view
  freed : ∀ a, s.live a = false → Knows s.mem (s.freed a) a ∧
    ∀ i, s.mem.Covers (s.freed a) (.reads a i)

theorem Sound.peeked (h : s.Sound) {i : Nat} (hi : s.threads[i]? = some th) {p : Nat}
    (hp : th.pc.peeks = some p) : ∃ c ∈ stackOf s.log, c.addr = p := by
  have hr := h.relies i th hi
  obtain ⟨pc, v⟩ := th
  cases pc with
  | popNext head =>
      cases hp
      exact hr.1
  | popCas head next =>
      cases hp
      exact hr.1
  | _ => cases hp

/-- **A step that leaves `head` alone**: thread `t` moves, at most the node at `x` is written, which
    is neither on the stack nor another thread's. -/
theorem Sound.turn (h : s.Sound) (ht : s.threads[t]? = some th) {x : Nat} {pc : Pc T}
    {v : View PoolLoc} (hth : s'.threads = s.threads.set t ⟨pc, v⟩) (hlog : s'.log = s.log)
    (hpop : s'.popper = s.popper) (hfault : s'.fault = false)
    (hhead : s'.mem .head = s.mem .head)
    (hsame : ∀ a, a ≠ x → SameNode s.mem s'.mem a ∧ s'.live a = s.live a)
    (hx : ∀ c ∈ stackOf s.log, c.addr ≠ x)
    (hxo : ∀ (i : Nat) (th : WeakThread T), i ≠ t → s.threads[i]? = some th →
      th.pc.owns ≠ some x) (hv : th.view ≤ v)
    (hreads : (∀ a i, s'.mem (.reads a i) = s.mem (.reads a i)) ∨
      t = s.popper ∧ ∀ a i, s'.mem.Covers v (.reads a i))
    (hpops : pc.pops = true → t = s.popper) (howns : ∀ p, pc.owns = some p → s'.Loose t p)
    (hrel : pc.Relies s'.mem (stackOf s.log) v)
    (hfreed : ∀ a, s'.live a = false → Knows s'.mem (s'.freed a) a ∧
      ∀ i, s'.mem.Covers (s'.freed a) (.reads a i)) : s'.Sound := by
  have hcell : ∀ c ∈ stackOf s.log, SameNode s.mem s'.mem c.addr :=
    fun c hc => (hsame _ (hx c hc)).1
  refine ⟨hfault, ?_, ?_, ?_, ?_, ?_, ?_, ?_, ?_, ?_, ?_, ?_, hfreed⟩
  · rw [hhead, hlog]
    exact h.count
  · rw [hhead, hlog]
    exact h.heads
  · rw [hlog]
    exact h.linked.congr hcell
  · rw [hlog]
    exact h.nodup
  · rw [hlog]
    intro c hc
    rw [(hsame _ (hx c hc)).2]
    exact h.live c hc
  · rw [hhead, hlog]
    exact fun y hy c hc => (h.last y hy c hc).congr (hcell c hc)
  · -- the popper has seen no less than before
    have hfr : ∀ k, s.Fresh k → ∀ k', k ≤ k' → s'.Fresh k' := by
      intro k hk k' hkk j y hj hy
      rw [hhead] at hy
      obtain ⟨hsuf, hknow⟩ := hk j y (hkk.trans hj) hy
      rw [hlog]
      exact ⟨hsuf, fun c hc => (hknow c hc).congr (hcell c (hsuf.subset hc))⟩
    rw [hth, hpop]
    refine fun th' hget => forall_getElem?_set
      (P := fun i th' => i = s.popper → s'.Fresh (th'.view .head))
      (fun hi => ?_) (fun i thi _ hi hip => ?_) _ th' hget rfl
    · exact hfr _ (h.fresh th (hi ▸ ht)) _ (hv .head)
    · exact hfr _ (h.fresh thi (hip ▸ hi)) _ (Nat.le_refl _)
  · rw [hth, hpop]
    refine fun th' hget => forall_getElem?_set
      (P := fun i th' => i = s.popper → ∀ a j, s'.mem.Covers th'.view (.reads a j))
      (fun hi a j => ?_) (fun i thi hit hi hip a j => ?_) _ th' hget rfl
    · rcases hreads with hr | ⟨_, hr⟩
      · exact ((h.marks th (hi ▸ ht) a j).mono hv).congr (hr a j)
      · exact hr a j
    · rcases hreads with hr | ⟨htp, _⟩
      · exact (h.marks thi (hip ▸ hi) a j).congr (hr a j)
      · exact absurd (hip.trans htp.symm) hit
  · rw [hth, hpop]
    exact forall_getElem?_set hpops fun i thi _ hi => h.alone i thi hi
  · rw [hth]
    intro i thi p hi ho
    refine forall_getElem?_set (P := fun i thi => thi.pc.owns = some p → s'.Loose i p) (howns p)
      (fun i thi hit hi ho => ?_) i thi hi ho
    have hl := h.owned i thi p hi ho
    have hpx : p ≠ x := fun e => hxo i thi hit hi (e ▸ ho)
    refine ⟨hl.null, ?_, ?_, ?_⟩
    · rw [(hsame p hpx).2]
      exact hl.live
    · rw [hlog]
      exact hl.off
    · rw [hth]
      refine fun j thj hj hget => forall_getElem?_set
        (P := fun j (thj : WeakThread T) => j ≠ i → thj.pc.owns ≠ some p)
        (fun _ hpc => ?_) (fun j thj _ hget hj => hl.sole j thj hj hget) j thj hget hj
      have hi' : (s'.threads)[i]? = some thi := by
        rw [hth, List.getElem?_set_ne (Ne.symm hit)]
        exact hi
      exact (howns p hpc).sole i thi hit hi' ho
  · rw [hth, hlog]
    refine forall_getElem?_set hrel fun i thi hit hi => ?_
    refine (h.relies i thi hi).frame (le_refl _) (fun p hp => ?_) fun p _ c hc ha => ⟨c, hc, ha⟩
    rcases hp with hp | hp
    · exact (hsame p fun e => hxo i thi hit hi (e ▸ hp)).1
    · obtain ⟨c, hc, rfl⟩ := h.peeked hi hp
      exact hcell c hc

/-- What a thread has to itself it keeps while it moves. -/
theorem Loose.moved {p : Nat} (h : s.Loose t p) (hlive : s'.live p = true) (hlog : s'.log = s.log)
    {th' : WeakThread T} (hth : s'.threads = s.threads.set t th') : s'.Loose t p := by
  refine ⟨h.null, hlive, hlog ▸ h.off, fun i thi hit hi => ?_⟩
  rw [hth, List.getElem?_set_ne (Ne.symm hit)] at hi
  exact h.sole i thi hit hi

/-- **A thread moves**, and has seen more. -/
theorem Sound.goto (h : s.Sound) (ht : s.threads[t]? = some th) {pc : Pc T} {v : View PoolLoc}
    (hv : th.view ≤ v) (hpops : pc.pops = true → t = s.popper)
    (howns : ∀ p, pc.owns = some p → th.pc.owns = some p)
    (hrel : pc.Relies s.mem (stackOf s.log) v) : (s.goto t pc v).Sound := by
  refine h.turn ht (x := 0) rfl rfl rfl h.fault rfl (fun _ _ => ⟨⟨rfl, rfl⟩, rfl⟩)
    (fun c hc => (h.live c hc).1) (fun i thi _ hi ho => (h.owned i thi 0 hi ho).null rfl) hv
    (Or.inl fun _ _ => rfl) hpops (fun p hp => ?_) hrel h.freed
  have hl := h.owned t th p ht (howns p hp)
  exact hl.moved hl.live rfl rfl

/-- **A call that found nothing returns.** -/
theorem Sound.miss (h : s.Sound) (ht : s.threads[t]? = some th) {v : View PoolLoc}
    (hv : th.view ≤ v) (k : Nat) : (s.miss t k v).Sound :=
  h.turn ht (x := 0) rfl rfl rfl h.fault rfl (fun _ _ => ⟨⟨rfl, rfl⟩, rfl⟩)
    (fun c hc => (h.live c hc).1) (fun i thi _ hi ho => (h.owned i thi 0 hi ho).null rfl) hv
    (Or.inl fun _ _ => rfl) (fun e => by cases e) (fun p hp => by cases hp) trivial h.freed

theorem touch_mem {a : Nat} {pc : Pc T} {v : View PoolLoc} {l : PoolLoc} (hl : l ≠ .reads a t) :
    (s.touch t a pc v).mem l = s.mem l := Messages.store_of_ne _ _ _ _ hl

/-- **The thread that may pop reads a node.** -/
theorem Sound.touch (h : s.Sound) (ht : s.threads[t]? = some th) (htp : t = s.popper) {a : Nat}
    (ha : s.live a = true) {pc : Pc T} {v : View PoolLoc} (hv : th.view ≤ v)
    (howns : ∀ p, pc.owns = some p → th.pc.owns = some p)
    (hrel : pc.Relies s.mem (stackOf s.log) v) : (s.touch t a pc v).Sound := by
  have hsame : ∀ x, SameNode s.mem (s.touch t a pc v).mem x :=
    fun x => ⟨touch_mem (fun e => by cases e), touch_mem (fun e => by cases e)⟩
  have hview := s.mem.le_store .relaxed v (.reads a t) .undef
  refine h.turn ht (x := 0) rfl rfl rfl h.fault (touch_mem (fun e => by cases e))
    (fun x _ => ⟨hsame x, rfl⟩) (fun c hc => (h.live c hc).1)
    (fun i thi _ hi ho => (h.owned i thi 0 hi ho).null rfl) (hv.trans hview)
    (Or.inr ⟨htp, fun x i => ?_⟩) (fun _ => htp) (fun p hp => ?_) ?_ fun x hx => ?_
  · by_cases hxi : PoolLoc.reads x i = .reads a t
    · rw [hxi]
      exact s.mem.covers_store _ _ _ _
    · exact ((h.marks th (htp ▸ ht) x i).mono (hv.trans hview)).congr (touch_mem hxi)
  · have hl := h.owned t th p ht (howns p hp)
    exact hl.moved hl.live rfl rfl
  · exact hrel.frame hview (fun p _ => hsame p) fun p _ c hc hca => ⟨c, hc, hca⟩
  · obtain ⟨hk, hr⟩ := h.freed x hx
    refine ⟨hk.congr (hsame x), fun i => (hr i).congr (touch_mem fun e => ?_)⟩
    cases e
    exact absurd (ha.symm.trans hx) (by decide)

/-- The last value of `head` is the first node of the stack. -/
theorem Sound.latest_head (h : s.Sound) :
    s.mem.latest .head = some (.ptr (topAddr (stackOf s.log))) := by
  have hlt : s.log.length < (s.mem .head).length := by rw [h.count]; exact Nat.lt_succ_self _
  have hval := h.heads s.log.length _ (List.getElem?_eq_getElem hlt)
  rw [Messages.latest, List.getLast?_eq_getElem?, h.count, Nat.add_sub_cancel,
    List.getElem?_eq_getElem hlt, Option.map_some, hval, List.take_length]

theorem Sound.headIs_iff (h : s.Sound) {a : Nat} :
    s.headIs a = true ↔ topAddr (stackOf s.log) = a := by
  rw [headIs, h.latest_head]
  exact beq_iff_eq

/-- What message `k` of `head` points to. -/
theorem Sound.read_head (h : s.Sound) {k : Nat} {y : Message PoolLoc (PoolVal T)}
    (hy : (s.mem .head)[k]? = some y) : k ≤ s.log.length ∧
      y.val = .ptr (topAddr (stackOf (s.log.take k))) := by
  have hlt := (List.getElem?_eq_some_iff.mp hy).1
  rw [h.count] at hlt
  exact ⟨Nat.le_of_lt_succ hlt, h.heads k y hy⟩

/-- The messages of `head` after one more write. -/
theorem Sound.heads_post (h : s.Sound) {z : Message PoolLoc (PoolVal T)}
    {op : StackOp (PoolCell T)} (hz : z.val = .ptr (topAddr (stackOf (s.log ++ [op])))) (k : Nat)
    (y : Message PoolLoc (PoolVal T)) (hy : (s.mem.post .head z .head)[k]? = some y) :
    (k ≤ s.log.length ∧ (s.mem .head)[k]? = some y ∧ (s.log ++ [op]).take k = s.log.take k ∨
      k = s.log.length + 1 ∧ y = z ∧ (s.log ++ [op]).take k = s.log ++ [op]) ∧
    y.val = .ptr (topAddr (stackOf ((s.log ++ [op]).take k))) := by
  rw [Messages.post_self] at hy
  by_cases hk : k ≤ s.log.length
  · have hlt : k < (s.mem .head).length := by rw [h.count]; exact Nat.lt_succ_of_le hk
    rw [List.getElem?_append_left hlt] at hy
    have htake : (s.log ++ [op]).take k = s.log.take k := List.take_append_of_le_length hk
    exact ⟨Or.inl ⟨hk, hy, htake⟩, by rw [htake]; exact h.heads k y hy⟩
  · have hlt := (List.getElem?_eq_some_iff.mp hy).1
    rw [List.length_append, h.count, List.length_singleton] at hlt
    obtain rfl : k = s.log.length + 1 := by omega
    rw [List.getElem?_append_right (by rw [h.count]), h.count, Nat.sub_self] at hy
    cases hy
    have htake : (s.log ++ [op]).take (s.log.length + 1) = s.log ++ [op] :=
      List.take_of_length_le (by rw [List.length_append]; rfl)
    exact ⟨Or.inr ⟨rfl, rfl, htake⟩, by rw [htake]; exact hz⟩

/-- **A write to `head`**: thread `t` swings it to the first node of the new stack. The message
    knows all nodes of that stack; either the stack only grew, or `t` is the thread that pops and
    has seen its own write. -/
theorem Sound.swing (h : s.Sound) (ht : s.threads[t]? = some th)
    {z : Message PoolLoc (PoolVal T)} {op : StackOp (PoolCell T)} {pc : Pc T} {v : View PoolLoc}
    (st : List (PoolCell T)) (hst : stackOf (s.log ++ [op]) = st) (hz : z.val = .ptr (topAddr st))
    (hv : th.view ≤ v) (hlinked : Linked s.mem st) (hnodup : (st.map PoolCell.addr).Nodup)
    (hlive : ∀ c ∈ st, c.addr ≠ 0 ∧ s.live c.addr = true)
    (hknows : ∀ c ∈ st, Knows s.mem z.view c.addr)
    (hgrows : stackOf s.log <:+ st ∨ t = s.popper ∧ s.log.length + 1 ≤ v .head)
    (hpops : pc.pops = true → t = s.popper)
    (howns : ∀ p, pc.owns = some p → p ≠ 0 ∧ s.live p = true ∧ (∀ c ∈ st, c.addr ≠ p) ∧
      ∀ (i : Nat) (thi : WeakThread T), i ≠ t → s.threads[i]? = some thi → thi.pc.owns ≠ some p)
    (hoff : ∀ (i : Nat) (thi : WeakThread T) (p : Nat), i ≠ t → s.threads[i]? = some thi →
      thi.pc.owns = some p → ∀ c ∈ st, c.addr ≠ p)
    (hpeek : ∀ (i : Nat) (thi : WeakThread T) (p : Nat), i ≠ t → s.threads[i]? = some thi →
      thi.pc.peeks = some p → ∃ c ∈ st, c.addr = p)
    (hrel : pc.Relies s.mem st v) :
    (((s.withMem (s.mem.post .head z)).acts t op).goto t pc v).Sound := by
  have hsame : ∀ a, SameNode s.mem (s.mem.post .head z) a := sameNode_post_head s.mem z
  have hreads : ∀ a i, s.mem.post .head z (.reads a i) = s.mem (.reads a i) :=
    fun a i => s.mem.post_of_ne z (fun e => by cases e)
  have hz' : z.val = .ptr (topAddr (stackOf (s.log ++ [op]))) := hst ▸ hz
  -- what a popper that has seen message `k` relies on
  have hfresh : ∀ k, (s.Fresh k ∧ stackOf s.log <:+ st) ∨ s.log.length + 1 ≤ k →
      (((s.withMem (s.mem.post .head z)).acts t op).goto t pc v).Fresh k := by
    intro k hk j y hj hy
    show stackOf ((s.log ++ [op]).take j) <:+ stackOf (s.log ++ [op]) ∧
      ∀ c ∈ stackOf ((s.log ++ [op]).take j), Knows (s.mem.post .head z) y.view c.addr
    obtain ⟨⟨hjl, hy', htake⟩ | ⟨_, rfl, htake⟩, _⟩ := h.heads_post hz' j y hy
    · rcases hk with ⟨hk, hsuf⟩ | hk
      · obtain ⟨hs, hkn⟩ := hk j y hj hy'
        rw [htake, hst]
        exact ⟨hs.trans hsuf, fun c hc => (hkn c hc).congr (hsame _)⟩
      · omega
    · rw [htake, hst]
      exact ⟨List.suffix_refl _, fun c hc => (hknows c hc).congr (hsame _)⟩
  refine ⟨h.fault, ?_, fun k y hy => (h.heads_post hz' k y hy).2, ?_, ?_, ?_, ?_, ?_, ?_, ?_, ?_,
    ?_, fun a ha => ?_⟩
  · show (s.mem.post .head z .head).length = (s.log ++ [op]).length + 1
    rw [Messages.post_self, List.length_append, List.length_append, h.count]
    rfl
  · show Linked (s.mem.post .head z) (stackOf (s.log ++ [op]))
    rw [hst]
    exact hlinked.congr fun c _ => hsame _
  · show ((stackOf (s.log ++ [op])).map PoolCell.addr).Nodup
    rw [hst]
    exact hnodup
  · show ∀ c ∈ stackOf (s.log ++ [op]), c.addr ≠ 0 ∧ s.live c.addr = true
    rw [hst]
    exact hlive
  · show ∀ x, (s.mem.post .head z .head).getLast? = some x → ∀ c ∈ stackOf (s.log ++ [op]),
      Knows (s.mem.post .head z) x.view c.addr
    rw [Messages.post_self, List.getLast?_concat, hst]
    rintro x hx c hc
    cases hx
    exact (hknows c hc).congr (hsame _)
  · refine fun th' hget => forall_getElem?_set (P := fun i th' => i = s.popper →
      (((s.withMem (s.mem.post .head z)).acts t op).goto t pc v).Fresh (th'.view .head))
      (fun hi => ?_) (fun i thi hit hi hip => ?_) _ th' hget rfl
    · refine hfresh _ (hgrows.imp (fun hsuf => ⟨?_, hsuf⟩) And.right)
      exact fun j y hj => h.fresh th (hi ▸ ht) j y ((hv .head).trans hj)
    · rcases hgrows with hsuf | ⟨htp, _⟩
      · exact hfresh _ (Or.inl ⟨h.fresh thi (hip ▸ hi), hsuf⟩)
      · exact absurd (hip.trans htp.symm) hit
  · refine fun th' hget => forall_getElem?_set (P := fun i (th' : WeakThread T) => i = s.popper →
      ∀ a j, (s.mem.post .head z).Covers th'.view (.reads a j))
      (fun hi a j => ?_) (fun i thi _ hi hip a j => ?_) _ th' hget rfl
    · exact ((h.marks th (hi ▸ ht) a j).mono hv).congr (hreads a j)
    · exact (h.marks thi (hip ▸ hi) a j).congr (hreads a j)
  · exact forall_getElem?_set hpops fun i thi _ hi => h.alone i thi hi
  · intro i thi p hi ho
    refine forall_getElem?_set (P := fun i thi => thi.pc.owns = some p →
      (((s.withMem (s.mem.post .head z)).acts t op).goto t pc v).Loose i p)
      (fun ho => ?_) (fun i thi hit hi ho => ?_) i thi hi ho
    · obtain ⟨h0, hl, hoff', hsole⟩ := howns p ho
      refine ⟨h0, hl, ?_, fun j thj hj hget => ?_⟩
      · show ∀ c ∈ stackOf (s.log ++ [op]), c.addr ≠ p
        rw [hst]
        exact hoff'
      · have hget' : (s.threads.set t ⟨pc, v⟩)[j]? = some thj := hget
        rw [List.getElem?_set_ne (Ne.symm hj)] at hget'
        exact hsole j thj hj hget'
    · have hl := h.owned i thi p hi ho
      refine ⟨hl.null, hl.live, ?_, fun j thj hj hget => ?_⟩
      · show ∀ c ∈ stackOf (s.log ++ [op]), c.addr ≠ p
        rw [hst]
        exact hoff i thi p hit hi ho
      · refine forall_getElem?_set (P := fun j thj => j ≠ i → thj.pc.owns ≠ some p)
          (fun _ hpc => ?_) (fun j thj _ hget hj => hl.sole j thj hj hget) j thj hget hj
        exact (howns p hpc).2.2.2 i thi hit hi ho
  · show ∀ (i : Nat) (thi : WeakThread T), (s.threads.set t ⟨pc, v⟩)[i]? = some thi →
      thi.pc.Relies (s.mem.post .head z) (stackOf (s.log ++ [op])) thi.view
    rw [hst]
    refine forall_getElem?_set ?_ fun i thi hit hi => ?_
    · exact hrel.frame (le_refl _) (fun p _ => hsame p) fun p _ c hc ha => ⟨c, hc, ha⟩
    · exact (h.relies i thi hi).frame (le_refl _) (fun p _ => hsame p)
        fun p hp _ _ _ => hpeek i thi p hit hi hp
  · obtain ⟨hk, hr⟩ := h.freed a ha
    exact ⟨hk.congr (hsame a), fun i => (hr i).congr (hreads a i)⟩

/-- A node with a value. -/
theorem cell?_eq_some {a k : Nat} {d : T} (h : s.mem.latest (.data a) = some (.data k d)) :
    s.cell? a = some ⟨a, k, d⟩ := by
  rw [cell?, h]

theorem latest_of_cell? {a : Nat} {c : PoolCell T} (h : s.cell? a = some c) :
    c.addr = a ∧ s.mem.latest (.data a) = some (.data c.ticket c.data) := by
  unfold cell? at h
  split at h
  · rename_i heq
    cases h
    exact ⟨rfl, heq⟩
  · cases h

/-- **A push takes effect.** -/
theorem Sound.push (h : s.Sound) {node head : Nat} {v₀ v : View PoolLoc}
    (ht : s.threads[t]? = some ⟨.pushCas node head, v₀⟩) (hhead : s.headIs head = true)
    {c : PoolCell T} (hc : s.cell? node = some c) {y z : Message PoolLoc (PoolVal T)}
    (hy : (s.mem .head).getLast? = some y) (hz : z.val = .ptr node) (hv : v₀ ≤ v)
    (hyz : y.view ≤ z.view) (hrel : v₀ ≤ z.view) :
    (((s.withMem (s.mem.post .head z)).acts t (.push c)).goto t .idle v).Sound := by
  obtain ⟨rfl, hdata⟩ := latest_of_cell? hc
  have hr : Knows s.mem v₀ c.addr ∧ _ ∧ s.mem.latest (.next c.addr) = some (.ptr head) :=
    h.relies t _ ht
  have hl := h.owned t _ c.addr ht rfl
  refine h.swing ht (c :: stackOf s.log) (stackOf_concat _ _) hz hv ?_ ?_ ?_ ?_
    (Or.inl (List.suffix_cons _ _)) (fun e => by cases e) (fun p hp => by cases hp) ?_ ?_ trivial
  · exact ⟨by rw [hr.2.2, h.headIs_iff.mp hhead], hdata, h.linked⟩
  · refine List.nodup_cons.mpr ⟨fun hmem => ?_, h.nodup⟩
    obtain ⟨x, hx, hxa⟩ := List.mem_map.mp hmem
    exact hl.off x hx hxa
  · intro x hx
    rcases List.mem_cons.mp hx with rfl | hx
    · exact ⟨hl.null, hl.live⟩
    · exact h.live x hx
  · intro x hx
    rcases List.mem_cons.mp hx with rfl | hx
    · exact hr.1.mono hrel
    · exact (h.last y hy x hx).mono hyz
  · intro i thi p hit hi ho x hx
    rcases List.mem_cons.mp hx with rfl | hx
    · exact fun e => hl.sole i thi hit hi (e ▸ ho)
    · exact (h.owned i thi p hi ho).off x hx
  · intro i thi p _ hi hp
    obtain ⟨x, hx, hxa⟩ := h.peeked hi hp
    exact ⟨x, List.mem_cons_of_mem _ hx, hxa⟩

/-- The stack whose first node is not null has one. -/
theorem Sound.uncons (h : s.Sound) {a : Nat} (ha : s.headIs a = true) (h0 : a ≠ 0) :
    ∃ c rest, stackOf s.log = c :: rest ∧ c.addr = a ∧ s.cell? a = some c ∧
      s.mem.latest (.next a) = some (.ptr (topAddr rest)) := by
  have htop := h.headIs_iff.mp ha
  have hlinked := h.linked
  cases hst : stackOf s.log with
  | nil =>
      rw [hst] at htop
      exact absurd htop.symm h0
  | cons c rest =>
      rw [hst] at htop hlinked
      obtain rfl : c.addr = a := htop
      exact ⟨c, rest, rfl, rfl, cell?_eq_some hlinked.2.1, hlinked.1⟩

/-- **A pop takes effect.** -/
theorem Sound.pop (h : s.Sound) {head next : Nat} {v₀ v : View PoolLoc}
    (ht : s.threads[t]? = some ⟨.popCas head next, v₀⟩) (hhead : s.headIs head = true)
    {c : PoolCell T} (hc : s.cell? head = some c) {y z : Message PoolLoc (PoolVal T)}
    (hy : (s.mem .head).getLast? = some y) (hz : z.val = .ptr next) (hv : v₀ ≤ v)
    (hyz : y.view ≤ z.view) (hseen : s.log.length + 1 ≤ v .head) :
    (∃ rest, stackOf s.log = c :: rest) ∧
    (((s.withMem (s.mem.post .head z)).acts t (.pop c)).goto t (.popRead head) v).Sound := by
  have hr : _ ∧ Knows s.mem v₀ head ∧ s.mem.latest (.next head) = some (.ptr next) :=
    h.relies t _ ht
  obtain ⟨x, hx, hxa⟩ := h.peeked ht (p := head) rfl
  obtain ⟨c', rest, hst, rfl, hc', hnext⟩ := h.uncons hhead (hxa ▸ (h.live x hx).1)
  obtain rfl : c' = c := Option.some.inj (hc'.symm.trans hc)
  have hlinked := h.linked
  have hnodup := h.nodup
  have hlive := h.live
  have hlast := h.last y hy
  rw [hst] at hlinked hnodup hlive hlast
  have hpop : ∀ i thi, s.threads[i]? = some thi → thi.pc.pops = true → i = t := by
    intro i thi hi hp
    exact (h.alone i thi hi hp).trans (h.alone t _ ht rfl).symm
  have hoff : ∀ x ∈ rest, x.addr ≠ c'.addr := fun x hx e =>
    (List.nodup_cons.mp hnodup).1 (List.mem_map.mpr ⟨x, hx, e⟩)
  have hown : ∀ (i : Nat) (thi : WeakThread T) (p : Nat), s.threads[i]? = some thi →
      thi.pc.owns = some p → ∀ x ∈ c' :: rest, x.addr ≠ p := by
    intro i thi p hi ho
    rw [← hst]
    exact (h.owned i thi p hi ho).off
  refine ⟨⟨rest, hst⟩, h.swing ht rest ?_ ?_ hv hlinked.2.2 (List.nodup_cons.mp hnodup).2
    (fun x hx => hlive x (List.mem_cons_of_mem _ hx))
    (fun x hx => (hlast x (List.mem_cons_of_mem _ hx)).mono hyz)
    (Or.inr ⟨h.alone t _ ht rfl, hseen⟩) (fun _ => h.alone t _ ht rfl) (fun p hp => ?_)
    (fun i thi p _ hi ho x hx => hown i thi p hi ho x (List.mem_cons_of_mem _ hx))
    (fun i thi p hit hi hp => ?_) ?_⟩
  · rw [stackOf_concat, hst]
    rfl
  · have hn : some (PoolVal.ptr next) = some (PoolVal.ptr (T := T) (topAddr rest)) :=
      hr.2.2.symm.trans hnext
    rw [hz, Option.some.inj hn]
  · cases hp
    refine ⟨(hlive c' List.mem_cons_self).1, (hlive c' List.mem_cons_self).2, hoff, ?_⟩
    exact fun i thi _ hi ho => hown i thi _ hi ho c' List.mem_cons_self rfl
  · exact absurd (hpop i thi hi (Pc.pops_of_peeks hp)) hit
  · exact ⟨hr.2.1.mono hv, c'.ticket, c'.data, hlinked.2.1⟩

/-- **A node is freed** by the thread that popped it. -/
theorem Sound.free (h : s.Sound) {a k : Nat} {d : T} {v : View PoolLoc}
    (ht : s.threads[t]? = some ⟨.popFree a k d, v⟩) : (s.free t a k d v).Sound := by
  have hl := h.owned t _ a ht rfl
  have hr : Knows s.mem v a ∧ _ := h.relies t _ ht
  have htp : t = s.popper := h.alone t _ ht rfl
  refine h.turn ht (x := a) rfl rfl rfl h.fault rfl (fun x hx => ⟨⟨rfl, rfl⟩, if_neg hx⟩) hl.off
    hl.sole (le_refl v) (Or.inl fun _ _ => rfl) (fun e => by cases e) (fun p hp => by cases hp)
    trivial fun x hx => ?_
  have hx' : (if x = a then false else s.live x) = false := hx
  show Knows s.mem (if x = a then v else s.freed x) x ∧
    ∀ i, s.mem.Covers (if x = a then v else s.freed x) (.reads x i)
  by_cases hxa : x = a
  · subst hxa
    rw [if_pos rfl]
    exact ⟨hr.1, h.marks _ (htp ▸ ht) x⟩
  · rw [if_neg hxa] at hx' ⊢
    exact h.freed x hx'

/-- The memory after a node was made. -/
theorem make_mem {a : Nat} {d : T} {v : View PoolLoc} {l : PoolLoc} (h1 : l ≠ .data a)
    (h2 : l ≠ .next a) : (s.make t a d v).mem l = s.mem l :=
  (Messages.store_of_ne _ _ _ _ h2).trans (Messages.store_of_ne _ _ _ _ h1)

/-- The view of the thread that made it. -/
def madeView (s : WeakPool T) (a : Nat) (d : T) (v : View PoolLoc) : View PoolLoc :=
  let r := s.mem.store .relaxed v (.data a) (.data s.given.length d)
  (r.1.store .relaxed r.2 (.next a) (.ptr 0)).2

theorem le_madeView (s : WeakPool T) (a : Nat) (d : T) (v : View PoolLoc) :
    v ≤ s.madeView a d v := by
  unfold madeView
  exact (Messages.le_store _ _ _ _ _).trans (Messages.le_store _ _ _ _ _)

theorem make_same {a x : Nat} {d : T} {v : View PoolLoc} (hx : x ≠ a) :
    SameNode s.mem (s.make t a d v).mem x := by
  have hd : PoolLoc.data x ≠ .data a := fun e => hx (PoolLoc.data.inj e)
  have hn : PoolLoc.next x ≠ .next a := fun e => hx (PoolLoc.next.inj e)
  exact ⟨make_mem (fun e => by cases e) hn, make_mem hd (fun e => by cases e)⟩

/-- **A node is made** in a block that is not allocated. -/
theorem Sound.make (h : s.Sound) {v : View PoolLoc} (ht : s.threads[t]? = some ⟨.idle, v⟩) {a : Nat}
    (h0 : a ≠ 0) (ha : s.live a = false) (d : T) (w : View PoolLoc) :
    (s.make t a d (v ⊔ w)).Sound ∧
      (s.make t a d (v ⊔ w)).cell? a = some ⟨a, s.given.length, d⟩ := by
  have hoff : ∀ c ∈ stackOf s.log, c.addr ≠ a := by
    intro c hc e
    have := (h.live c hc).2
    rw [e, ha] at this
    cases this
  have hsole : ∀ (i : Nat) (thi : WeakThread T), i ≠ t → s.threads[i]? = some thi →
      thi.pc.owns ≠ some a := by
    intro i thi _ hi ho
    have := (h.owned i thi a hi ho).live
    rw [ha] at this
    cases this
  -- the data is written first, then the link
  let r := s.mem.store .relaxed (v ⊔ w) (.data a) (.data s.given.length d)
  have hdata : (s.make t a d (v ⊔ w)).mem.latest (.data a) = some (.data s.given.length d) := by
    have hne : (r.1.store .relaxed r.2 (.next a) (.ptr 0)).1 (.data a) = r.1 (.data a) :=
      Messages.store_of_ne _ _ _ _ (fun e => by cases e)
    exact (latest_congr hne).trans (s.mem.latest_store _ _ _ _)
  have hknows : Knows (s.make t a d (v ⊔ w)).mem (r.1.store .relaxed r.2 (.next a) (.ptr 0)).2 a :=
    ⟨r.1.covers_store _ _ _ _, (s.mem.covers_store _ _ _ _).store _ _ _⟩
  have hreads : ∀ x i, (s.make t a d (v ⊔ w)).mem (.reads x i) = s.mem (.reads x i) :=
    fun x i => make_mem (fun e => by cases e) (fun e => by cases e)
  refine ⟨h.turn ht (x := a) rfl rfl rfl h.fault (make_mem (fun e => by cases e)
      (fun e => by cases e)) (fun x hx => ⟨make_same hx, if_neg hx⟩) hoff hsole ?_ (Or.inl hreads)
    (fun e => by cases e) (fun p hp => ?_) ⟨hknows, _, _, hdata⟩ (fun x hx => ?_),
    cell?_eq_some hdata⟩
  · exact le_sup_left.trans (s.le_madeView a d (v ⊔ w))
  · cases hp
    refine ⟨h0, if_pos rfl, hoff, fun i thi hit hi => ?_⟩
    have hi' : (s.threads.set t _)[i]? = some thi := hi
    rw [List.getElem?_set_ne (Ne.symm hit)] at hi'
    exact hsole i thi hit hi'
  · have hx' : (if x = a then true else s.live x) = false := hx
    by_cases hxa : x = a
    · rw [if_pos hxa] at hx'
      cases hx'
    · rw [if_neg hxa] at hx'
      obtain ⟨hk, hr⟩ := h.freed x hx'
      exact ⟨hk.congr (make_same hxa), fun i => (hr i).congr (hreads x i)⟩

theorem link_mem {o : MemOrder} {node head : Nat} {v : View PoolLoc} {l : PoolLoc}
    (hl : l ≠ .next node) : (s.link o t node head v).mem l = s.mem l :=
  Messages.store_of_ne _ _ _ _ hl

/-- **A node gets its link**, before it is published. -/
theorem Sound.link (h : s.Sound) {node head : Nat} {v : View PoolLoc}
    (ht : s.threads[t]? = some ⟨.pushStore node head, v⟩) (o : MemOrder) :
    (s.link o t node head v).Sound := by
  have hl := h.owned t _ node ht rfl
  obtain ⟨hk, k, d, hd⟩ : Knows s.mem v node ∧
      ∃ k d, s.mem.latest (.data node) = some (.data k d) := h.relies t _ ht
  have hsame : ∀ x, x ≠ node → SameNode s.mem (s.link o t node head v).mem x := fun x hx =>
    ⟨link_mem fun e => hx (PoolLoc.next.inj e), link_mem (fun e => by cases e)⟩
  have hdata : (s.link o t node head v).mem (.data node) = s.mem (.data node) :=
    link_mem (fun e => by cases e)
  have hreads : ∀ x i, (s.link o t node head v).mem (.reads x i) = s.mem (.reads x i) :=
    fun x i => link_mem (fun e => by cases e)
  refine h.turn ht (x := node) rfl rfl rfl h.fault (link_mem (fun e => by cases e))
    (fun x hx => ⟨hsame x hx, rfl⟩) hl.off hl.sole (s.mem.le_store _ _ _ _) (Or.inl hreads)
    (fun e => by cases e) (fun p hp => ?_) ⟨⟨s.mem.covers_store _ _ _ _, hk.2.store _ _ _⟩,
      ⟨k, d, (latest_congr hdata).trans hd⟩, s.mem.latest_store _ _ _ _⟩ fun x hx => ?_
  · cases hp
    exact hl.moved hl.live rfl rfl
  · obtain ⟨hk, hr⟩ := h.freed x hx
    refine ⟨hk.congr (hsame x fun e => ?_), fun i => (hr i).congr (hreads x i)⟩
    have hlive : s.live x = false := hx
    rw [e, hl.live] at hlive
    cases hlive

/-- **The role is passed on** to a thread that has seen what the last one has. -/
theorem Sound.handOver (h : s.Sound) {th th' : WeakThread T}
    (ht : s.threads[s.popper]? = some th) (ht' : s.threads[t]? = some th')
    (hout : th.pc.pops = false) :
    Sound { s.goto t th'.pc (th'.view ⊔ th.view) with popper := t } := by
  have hnone : ∀ (i : Nat) (thi : WeakThread T), s.threads[i]? = some thi →
      thi.pc.pops = false := by
    intro i thi hi
    by_contra hp
    have hip := h.alone i thi hi (Bool.eq_true_of_not_eq_false hp)
    rw [hip, ht] at hi
    cases hi
    exact hp hout
  have hg : (s.goto t th'.pc (th'.view ⊔ th.view)).Sound := by
    refine h.goto ht' le_sup_left (h.alone t th' ht') (fun _ hp => hp) ?_
    exact (h.relies t th' ht').frame le_sup_left (fun _ _ => ⟨rfl, rfl⟩)
      fun p _ c hc ha => ⟨c, hc, ha⟩
  have hget : ∀ x, (s.threads.set t ⟨th'.pc, th'.view ⊔ th.view⟩)[t]? = some x →
      th.view ≤ x.view := by
    intro x hx
    rw [List.getElem?_set_self (List.getElem?_eq_some_iff.mp ht').1] at hx
    cases hx
    exact le_sup_right
  refine ⟨hg.fault, hg.count, hg.heads, hg.linked, hg.nodup, hg.live, hg.last, fun x hx => ?_,
    fun x hx a i => (h.marks th ht a i).mono (hget x hx), fun i thi hi hp => ?_, ?_, hg.relies,
    hg.freed⟩
  · exact fun j y hj => h.fresh th ht j y ((hget x hx .head).trans hj)
  · have hnew : (⟨th'.pc, th'.view ⊔ th.view⟩ : WeakThread T).pc.pops = false := hnone t th' ht'
    have hfalse : thi.pc.pops = false := forall_getElem?_set
      (P := fun _ (thi : WeakThread T) => thi.pc.pops = false) hnew
      (fun j thj _ hj => hnone j thj hj) i thi hi
    rw [hfalse] at hp
    cases hp
  · intro i thi p hi ho
    have hl := hg.owned i thi p hi ho
    exact ⟨hl.null, hl.live, hl.off, hl.sole⟩

end WeakPool

end ArenaB
