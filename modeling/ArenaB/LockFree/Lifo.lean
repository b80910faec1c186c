/-
  File:      ArenaB/LockFree/Lifo.lean
  Subject:   `LockFreePool<T>` with at most one thread inside `try_alloc` at a time: it is a stack.

  * `StackOp`, `Lifo` -- the stack it should be: operations one after another, with their results;
  * `effect` -- the operation that takes effect in a step: a push or a pop at its successful
    compare-exchange, a pop that finds nothing at the load of a null head. `History` collects these
    beside the run, with the threads that made calls;
  * `Solo` -- the condition: `try_alloc` is entered only while no other thread is inside it. Then
    the node a thread peeks at stays allocated, which implies `Quiet` (`solo_quiet`);
  * `Acts` -- what a step can do, once for all invariants (`exec_acts`);
  * `Teardown` -- `Drop for LockFreePoolInner`;
  * **`pool_linearizable`** -- in every state of such a run the history is one of a stack with
    exactly the values of the linked nodes on it, every value passed in is in one place, and
    dropping the pool drops each value left and frees each node left, once.
-/
import ArenaB.LockFree.Pool

namespace ArenaB

open Base

universe u

/-! ## 1. The stack it should be -/

/-- An operation on a stack, with its result. -/
inductive StackOp (α : Type u) where
  | push (a : α)
  | pop (a : α)
  /-- A pop that finds nothing. -/
  | miss
  deriving DecidableEq, Repr

/-- **A stack**: operations one after another, and what is on it after them, top first. -/
inductive Lifo {α : Type u} : List (StackOp α) → List α → Prop where
  | nil : Lifo [] []
  | push {ops : List (StackOp α)} {l : List α} (a : α) :
      Lifo ops l → Lifo (ops ++ [.push a]) (a :: l)
  | pop {ops : List (StackOp α)} {l : List α} {a : α} :
      Lifo ops (a :: l) → Lifo (ops ++ [.pop a]) l
  | miss {ops : List (StackOp α)} : Lifo ops [] → Lifo (ops ++ [.miss]) []

/-- What was popped, in order. -/
def popped {α : Type u} (ops : List (StackOp α)) : List α :=
  ops.filterMap fun
    | .pop a => some a
    | _ => none

@[simp] theorem popped_append {α : Type u} (ops ops' : List (StackOp α)) :
    popped (ops ++ ops') = popped ops ++ popped ops' := List.filterMap_append

/-- What was pushed, in order. -/
def pushed {α : Type u} (ops : List (StackOp α)) : List α :=
  ops.filterMap fun
    | .push a => some a
    | _ => none

@[simp] theorem pushed_append {α : Type u} (ops ops' : List (StackOp α)) :
    pushed (ops ++ ops') = pushed ops ++ pushed ops' := List.filterMap_append

/-- What was pushed was popped or is still there. -/
theorem Lifo.perm {α : Type u} {ops : List (StackOp α)} {l : List α} (h : Lifo ops l) :
    (pushed ops).Perm (popped ops ++ l) := by
  induction h with
  | nil => exact .refl _
  | @push ops l a _ ih =>
      rw [pushed_append, popped_append]
      show (pushed ops ++ [a]).Perm ((popped ops ++ []) ++ a :: l)
      rw [List.append_nil]
      have hcomm : (l ++ [a]).Perm (a :: l) := List.perm_append_comm
      exact (ih.append_right [a]).trans
        ((List.append_assoc _ _ _).symm ▸ hcomm.append_left (popped ops))
  | @pop ops l a _ ih =>
      rw [pushed_append, popped_append]
      show (pushed ops ++ []).Perm ((popped ops ++ [a]) ++ l)
      rw [List.append_nil, List.append_assoc]
      exact ih
  | @miss ops _ ih =>
      rw [pushed_append, popped_append]
      show (pushed ops ++ []).Perm ((popped ops ++ []) ++ [])
      rwa [List.append_nil, List.append_nil]

/-! ## 2. The history of a run -/

/-- The threads that made a call, in order, and the operations that took effect, by thread. -/
structure History (T : Type u) where
  calls : List Nat
  log : List (Nat × StackOp (Nat × T))

namespace Pc

variable {T : Type u}

/-- The thread is inside `try_alloc`. -/
def pops : Pc T → Bool
  | .popCheck => true
  | .popLoad => true
  | .popNext _ => true
  | .popCas _ _ => true
  | .popRead _ => true
  | .popFree _ _ _ => true
  | _ => false

/-- The thread is in a call that has not taken effect. -/
def pending : Pc T → Bool
  | .idle => false
  | .popRead _ => false
  | .popFree _ _ _ => false
  | _ => true

/-- The node this thread has taken off the stack and whose value it is to return. -/
def leaves : Pc T → Option Nat
  | .popRead head => some head
  | .popFree head _ _ => some head
  | _ => none

theorem owns_of_leaves {pc : Pc T} {p : Nat} (h : pc.leaves = some p) : pc.owns = some p := by
  cases pc <;> first | exact h | cases h

theorem pops_of_leaves {pc : Pc T} {p : Nat} (h : pc.leaves = some p) : pc.pops = true := by
  cases pc <;> first | rfl | cases h

theorem pops_of_peeks {pc : Pc T} {p : Nat} (h : pc.peeks = some p) : pc.pops = true := by
  cases pc <;> first | rfl | cases h

end Pc

namespace LockFreePool

variable {T : Type u}

/-- Ticket and value of the node at an address. -/
def value (s : LockFreePool T) (a : Nat) : Option (Nat × T) :=
  (s.heap a).map fun n => (n.ticket, n.data)

/-- Tickets and values of the nodes at several addresses. -/
def values (s : LockFreePool T) (l : List Nat) : List (Nat × T) := l.filterMap s.value

/-- The nodes that threads own. -/
def owned (s : LockFreePool T) : List Nat := s.threads.filterMap Pc.owns

/-- The value that is about to be returned. -/
def leaving (s : LockFreePool T) : List (Nat × T) := s.values (s.threads.filterMap Pc.leaves)

/-- The operation that takes effect in the next step of a thread at the given place. -/
def effect (s : LockFreePool T) (spurious : Bool) : Pc T → Option (StackOp (Nat × T))
  | .popCheck => if s.head = 0 then some .miss else none
  | .popLoad => if s.head = 0 then some .miss else none
  | .popCas head _ =>
      if s.head = head ∧ spurious = false then (s.value head).map .pop else none
  | .pushCas node head =>
      if s.head = head ∧ spurious = false then (s.value node).map .push else none
  | _ => none

end LockFreePool

/-- The history after one more step. -/
def History.next {T : Type u} (s : LockFreePool T) (st : PoolStep T) (h : History T) : History T :=
  match st with
  | .tryAlloc t => ⟨h.calls ++ [t], h.log⟩
  | .dealloc t _ _ => ⟨h.calls ++ [t], h.log⟩
  | .run t spurious =>
      ⟨h.calls, h.log ++ ((s.threads[t]?.bind (s.effect spurious)).map (Prod.mk t)).toList⟩

/-- No other thread is inside `try_alloc` when it is entered. -/
def Solo {T : Type u} (s : LockFreePool T) : PoolStep T → Prop
  | .tryAlloc _ => ∀ pc ∈ s.threads, pc.pops = false
  | _ => True

instance {T : Type u} (s : LockFreePool T) : (st : PoolStep T) → Decidable (Solo s st)
  | .tryAlloc _ => inferInstanceAs (Decidable (∀ pc ∈ s.threads, pc.pops = false))
  | .dealloc _ _ _ => isTrue trivial
  | .run _ _ => isTrue trivial

/-! ## 3. What a step can do -/

namespace LockFreePool

variable {T : Type u} {s s' : LockFreePool T} {t : Nat} {op : Option (StackOp (Nat × T))}
  {called : Bool}

/-- A thread goes from one place to another with what it has; it may look at the head. -/
structure Keeps (s : LockFreePool T) (pc pc' : Pc T) : Prop where
  owns : pc'.owns = pc.owns
  leaves : pc'.leaves = pc.leaves
  pending : pc'.pending = pc.pending
  pops : pc'.pops = pc.pops
  peeks : ∀ p, pc'.peeks = some p → pc.peeks = some p ∨ (p = s.head ∧ s.head ≠ 0)

/-- **What a step of thread `t` can do**: whether it is a call, and what takes effect. -/
inductive Acts (s : LockFreePool T) (t : Nat) :
    LockFreePool T → Bool → Option (StackOp (Nat × T)) → Prop where
  | idle : Acts s t s false none
  | call : s.threads[t]? = some .idle → (∀ pc ∈ s.threads, pc.pops = false) →
      Acts s t (s.goto t .popCheck) true none
  | stay {pc pc' : Pc T} (f : LockFreeStats → LockFreeStats) : s.threads[t]? = some pc →
      s.Keeps pc pc' → Acts s t ((s.goto t pc').count f) false none
  | miss {pc : Pc T} (f : LockFreeStats → LockFreeStats) : s.threads[t]? = some pc →
      pc.owns = none → pc.leaves = none → pc.pending = true → s.head = 0 →
      Acts s t ((s.goto t .idle).count f) false (some .miss)
  | make (data : T) (a : Nat) : s.threads[t]? = some .idle → s.heap a = none →
      Acts s t (((s.store a (some ⟨s.given.length, data, 0⟩)).take data).goto t (.pushLoad a))
        true none
  | link (p head : Nat) (n : LockFreeNode T) : s.threads[t]? = some (.pushStore p head) →
      s.heap p = some n →
      Acts s t ((s.store p (some { n with next := head })).goto t (.pushCas p head)) false none
  | push (p : Nat) (n : LockFreeNode T) (f : LockFreeStats → LockFreeStats) :
      s.threads[t]? = some (.pushCas p s.head) → s.heap p = some n → n.next = s.head →
      Acts s t (((s.swing p).goto t .idle).count f) false (some (.push (n.ticket, n.data)))
  | pop (n : LockFreeNode T) (f : LockFreeStats → LockFreeStats) :
      s.threads[t]? = some (.popCas s.head n.next) → s.heap s.head = some n →
      Acts s t (((s.swing n.next).goto t (.popRead s.head)).count f) false
        (some (.pop (n.ticket, n.data)))
  | free (p : Nat) (n : LockFreeNode T) : s.threads[t]? = some (.popFree p n.ticket n.data) →
      s.heap p = some n →
      Acts s t (((s.store p none).give n.ticket n.data).goto t .idle) false none

/-- The next step of a thread in a safe pool. -/
theorem run_acts (h : s.Safe) {pc : Pc T} (ht : s.threads[t]? = some pc) (spurious : Bool) :
    Acts s t (s.run t spurious pc) false (s.effect spurious pc) := by
  have hg := h.good pc (List.mem_of_getElem? ht)
  cases pc with
  | idle => exact .idle
  | popCheck =>
      simp only [LockFreePool.run, effect]
      split
      · next h0 => exact .miss _ ht rfl rfl rfl h0
      · exact .stay id ht ⟨rfl, rfl, rfl, rfl, fun _ h => by cases h⟩
  | popLoad =>
      simp only [LockFreePool.run, effect]
      split
      · next h0 => exact .miss _ ht rfl rfl rfl h0
      · next h0 =>
        exact .stay id ht ⟨rfl, rfl, rfl, rfl, fun p hp => Or.inr ⟨(Option.some.inj hp).symm, h0⟩⟩
  | popNext head =>
      obtain ⟨n, hn⟩ := hg
      simp only [LockFreePool.run, effect, hn]
      exact .stay id ht ⟨rfl, rfl, rfl, rfl, fun p hp => Or.inl hp⟩
  | popCas head next =>
      simp only [LockFreePool.run, effect]
      split
      · next hc =>
        obtain ⟨rfl, _⟩ := hc
        obtain ⟨⟨n, hn⟩, _⟩ := h.head_node hg.1
        obtain rfl := hg.2 n hn
        simp only [value, hn, Option.map_some]
        exact .pop n _ ht hn
      · exact .stay _ ht ⟨rfl, rfl, rfl, rfl, fun _ h => by cases h⟩
  | popRead head =>
      obtain ⟨n, hn⟩ := hg
      simp only [LockFreePool.run, effect, hn]
      exact .stay id ht ⟨rfl, rfl, rfl, rfl, fun _ h => by cases h⟩
  | popFree head ticket data =>
      obtain ⟨n, hn, rfl, rfl⟩ := hg
      simp only [LockFreePool.run, effect, hn]
      exact .free head n ht hn
  | pushLoad node => exact .stay id ht ⟨rfl, rfl, rfl, rfl, fun _ h => by cases h⟩
  | pushStore node head =>
      obtain ⟨n, hn⟩ := hg
      simp only [LockFreePool.run, effect, hn]
      exact .link node head n ht hn
  | pushCas node head =>
      obtain ⟨n, hn, hnext⟩ := hg
      simp only [LockFreePool.run, effect]
      split
      · next hc =>
        obtain ⟨rfl, _⟩ := hc
        simp only [value, hn, Option.map_some]
        exact .push node n _ ht hn hnext
      · exact .stay _ ht ⟨rfl, rfl, rfl, rfl, fun _ h => by cases h⟩

/-- **Every step is one of these**, and the history follows it. -/
theorem exec_acts (h : s.Safe) {st : PoolStep T} (hok : s.Ok st) (hsolo : Solo s st)
    (e : s.exec st = some s') (hist : History T) : ∃ t called op, Acts s t s' called op ∧
      History.next s st hist = ⟨hist.calls ++ (if called then [t] else []),
        hist.log ++ (op.map (Prod.mk t)).toList⟩ := by
  cases st with
  | tryAlloc t =>
      simp only [exec] at e
      split at e
      · next ht =>
        cases e
        exact ⟨t, true, none, .call ht hsolo, by simp [History.next]⟩
      · cases e
  | dealloc t data addr =>
      simp only [exec] at e
      split at e
      · next ht =>
        cases e
        refine ⟨t, true, none, .make data addr ht (Option.isNone_iff_eq_none.mp hok.2), ?_⟩
        simp [History.next]
      · cases e
  | run t spurious =>
      obtain ⟨pc, ht, rfl⟩ := Option.map_eq_some_iff.mp e
      exact ⟨t, false, s.effect spurious pc, run_acts h ht spurious, by simp [History.next, ht]⟩

/-! ## 4. One popper -/

/-- Not both threads are inside `try_alloc`. -/
def Alone (a b : Pc T) : Prop := ¬ (a.pops = true ∧ b.pops = true)

/-- The thread of a step, before and after it: a call makes an operation pending, its effect ends
    that. -/
theorem Acts.moves (ha : Acts s t s' called op) : (s' = s ∧ called = false ∧ op = none) ∨
    ∃ pc pc', s.threads[t]? = some pc ∧ s'.threads = s.threads.set t pc' ∧
      (pc'.pops = true → pc.pops = true ∨ ∀ b ∈ s.threads, b.pops = false) ∧
      called.toNat + pc.pending.toNat = op.isSome.toNat + pc'.pending.toNat := by
  cases ha with
  | idle => exact Or.inl ⟨rfl, rfl, rfl⟩
  | call ht hs => exact Or.inr ⟨_, _, ht, rfl, fun _ => Or.inr hs, rfl⟩
  | stay f ht hk =>
      refine Or.inr ⟨_, _, ht, rfl, fun hp => Or.inl (hk.pops ▸ hp), ?_⟩
      rw [hk.pending]
      rfl
  | miss f ht _ _ hp _ =>
      refine Or.inr ⟨_, _, ht, rfl, (fun hp => by cases hp), ?_⟩
      rw [hp]
      rfl
  | make data a ht _ => exact Or.inr ⟨_, _, ht, rfl, (fun hp => by cases hp), rfl⟩
  | link p head n ht _ => exact Or.inr ⟨_, _, ht, rfl, (fun hp => by cases hp), rfl⟩
  | push p n f ht _ _ => exact Or.inr ⟨_, _, ht, rfl, (fun hp => by cases hp), rfl⟩
  | pop n f ht _ => exact Or.inr ⟨_, _, ht, rfl, fun _ => Or.inl rfl, rfl⟩
  | free p n ht _ => exact Or.inr ⟨_, _, ht, rfl, (fun hp => by cases hp), rfl⟩

theorem Acts.alone (ha : Acts s t s' called op) (h : s.threads.Pairwise Alone) :
    s'.threads.Pairwise Alone := by
  rcases ha.moves with ⟨rfl, _⟩ | ⟨pc, pc', ht, e, hp, _⟩
  · exact h
  · rw [e]
    refine pairwise_set (fun a b hab hba => hab ⟨hba.2, hba.1⟩) h ht fun b hb hab hab' => ?_
    rcases hp hab'.1 with hp | hp
    · exact hab ⟨hp, hab'.2⟩
    · rw [hp b hb] at hab'
      cases hab'.2

/-- While one thread is inside, the others are not. -/
theorem others_out (h : s.threads.Pairwise Alone) {pc : Pc T} (ht : s.threads[t]? = some pc)
    (hp : pc.pops = true) {j : Nat} {b : Pc T} (hj : j ≠ t) (hb : s.threads[j]? = some b) :
    b.pops = false := by
  have hab := pairwise_getElem?_ne (fun a b hab hba => hab ⟨hba.2, hba.1⟩) h (Ne.symm hj) ht hb
  cases hbp : b.pops with
  | false => rfl
  | true => exact absurd ⟨hp, hbp⟩ hab

/-- Every node a thread peeks at is allocated. -/
def Peeked (s : LockFreePool T) : Prop :=
  ∀ pc ∈ s.threads, ∀ p, pc.peeks = some p → s.heap p ≠ none

/-- Only the thread inside `try_alloc` frees nodes, and it does not peek when it does. -/
theorem Acts.peeked (ha : Acts s t s' called op) (hs : s.Safe) (h1 : s.threads.Pairwise Alone)
    (h : s.Peeked) : s'.Peeked := by
  have hset (pc' : Pc T) {pc : Pc T} (ht : s.threads[t]? = some pc)
      (hp : ∀ p, pc'.peeks = some p → s.heap p ≠ none) :
      ∀ b ∈ s.threads.set t pc', ∀ p, b.peeks = some p → s.heap p ≠ none :=
    forall_set h hp
  cases ha with
  | idle => exact h
  | call ht _ => exact hset _ ht fun _ h => by cases h
  | stay f ht hk =>
      refine hset _ ht fun p hp => ?_
      rcases hk.peeks p hp with hp | ⟨rfl, h0⟩
      · exact h _ (List.mem_of_getElem? ht) p hp
      · obtain ⟨⟨n, hn⟩, _⟩ := hs.head_node h0
        rw [hn]
        exact Option.some_ne_none n
  | miss f ht _ _ _ _ => exact hset _ ht fun _ h => by cases h
  | make data a ht _ =>
      refine fun b hb p hp => ?_
      show (if p = a then _ else s.heap p) ≠ none
      split
      · exact Option.some_ne_none _
      · exact hset (.pushLoad a) ht (fun _ h => by cases h) b hb p hp
  | link q head n ht _ =>
      refine fun b hb p hp => ?_
      show (if p = q then _ else s.heap p) ≠ none
      split
      · exact Option.some_ne_none _
      · exact hset (.pushCas q head) ht (fun _ h => by cases h) b hb p hp
  | push p n f ht _ _ => exact hset _ ht fun _ h => by cases h
  | pop n f ht _ => exact hset _ ht fun _ h => by cases h
  | free q n ht _ =>
      refine forall_mem_set ht (fun _ h => by cases h) fun j b hj hb p hp => ?_
      have hb' := others_out h1 ht rfl hj hb
      rw [Pc.pops_of_peeks hp] at hb'
      cases hb'

/-- **One popper is quiet**: it frees no node another is about to read, and the address it peeks at
    is not handed out again. -/
theorem solo_quiet (h1 : s.threads.Pairwise Alone) (hp : s.Peeked) {st : PoolStep T}
    (hok : s.Ok st) : Quiet s st := by
  cases st with
  | tryAlloc t => trivial
  | dealloc t data addr =>
      intro pc hpc he
      exact hp pc hpc addr he (Option.isNone_iff_eq_none.mp hok.2)
  | run t spurious =>
      intro a ha pc hpc hr
      obtain ⟨pct, ht, hf⟩ := Option.bind_eq_some_iff.mp ha
      obtain ⟨j, hj⟩ := List.mem_iff_getElem?.mp hpc
      have hpt : pct.pops = true := by cases pct <;> first | rfl | cases hf
      have hpr : pc.pops = true := by cases pc <;> first | rfl | cases hr
      by_cases hjt : j = t
      · subst hjt
        rw [ht] at hj
        cases hj
        cases pc with
        | popFree head ticket data => cases hr
        | _ => cases hf
      · have := others_out h1 ht hpt hjt hj
        rw [hpr] at this
        cases this

/-! ## 5. The linked nodes are the stack -/

theorem values_frame {l : List Nat} (h : ∀ a ∈ l, s'.value a = s.value a) :
    s'.values l = s.values l :=
  List.filterMap_congr h

/-- A node is changed or freed at an address that is none of these. -/
theorem values_store {a : Nat} {n : Option (LockFreeNode T)} {l : List Nat} (h : a ∉ l) :
    (s.store a n).values l = s.values l := by
  refine values_frame fun x hx => ?_
  have hne : x ≠ a := fun e => h (e ▸ hx)
  simp [value, store, hne]

/-- The linked nodes: nobody owns one, every other node is owned, and the stack the operations
    lead to has their values. -/
structure Stacked (s : LockFreePool T) (ops : List (StackOp (Nat × T))) (l : List Nat) : Prop where
  chain : Chain s.next s.head l
  nodup : l.Nodup
  free : ∀ pc ∈ s.threads, ∀ p, pc.owns = some p → p ∉ l
  covered : ∀ a n, s.heap a = some n → a ∈ l ∨ ∃ pc ∈ s.threads, pc.owns = some a
  lifo : Lifo ops (s.values l)

/-- An owner is still there after a step of a thread that keeps what it owns. -/
theorem exists_owner_set {pc pc' : Pc T} (ht : s.threads[t]? = some pc) {a : Nat}
    (ho : pc.owns = some a → pc'.owns = some a) (h : ∃ b ∈ s.threads, b.owns = some a) :
    ∃ b ∈ s.threads.set t pc', b.owns = some a := by
  obtain ⟨b, hb, hba⟩ := h
  obtain ⟨j, hj⟩ := List.mem_iff_getElem?.mp hb
  by_cases hjt : j = t
  · subst hjt
    rw [ht] at hj
    cases hj
    exact ⟨pc', List.mem_set (List.getElem?_eq_some_iff.mp ht).1 _, ho hba⟩
  · refine ⟨b, List.mem_of_getElem? (i := j) ?_, hba⟩
    rw [List.getElem?_set_ne (Ne.symm hjt)]
    exact hj

section Stacked

variable {ops : List (StackOp (Nat × T))} {l : List Nat} {pc pc' : Pc T}

/-- A step that leaves nodes and head alone. -/
theorem Stacked.goto (h : s.Stacked ops l) (ht : s.threads[t]? = some pc) (pc' : Pc T)
    (ho : pc'.owns = pc.owns) : (s.goto t pc').Stacked ops l := by
  refine ⟨h.chain, h.nodup, ?_, fun a n hn => ?_, h.lifo⟩
  · refine forall_set h.free fun p hp => ?_
    exact h.free _ (List.mem_of_getElem? ht) p (ho ▸ hp)
  · exact (h.covered a n hn).imp_right (exists_owner_set ht fun hp => ho ▸ hp)

/-- A step that makes, changes or frees a node that is not linked: the thread owns it after, or it
    is free. -/
theorem Stacked.store (h : s.Stacked ops l) (ht : s.threads[t]? = some pc) (pc' : Pc T) {a : Nat}
    {n : Option (LockFreeNode T)} (hal : a ∉ l) (ho : ∀ p, pc.owns = some p → p = a)
    (ho' : ∀ p, pc'.owns = some p → p = a) (hn : n = none ∨ pc'.owns = some a) :
    ((s.store a n).goto t pc').Stacked ops l := by
  refine ⟨h.chain.frame fun x hx => ?_, h.nodup, ?_, fun b m hm => ?_, ?_⟩
  · have hne : x ≠ a := fun e => hal (e ▸ hx)
    simp [next, LockFreePool.goto, LockFreePool.store, hne]
  · exact forall_set h.free fun p hp => ho' p hp ▸ hal
  · by_cases hb : b = a
    · subst hb
      rcases hn with rfl | hn
      · cases (if_pos rfl).symm.trans hm
      · exact Or.inr ⟨pc', List.mem_set (List.getElem?_eq_some_iff.mp ht).1 _, hn⟩
    · have hm' : s.heap b = some m := (if_neg hb).symm.trans hm
      exact (h.covered b m hm').imp_right (exists_owner_set ht fun hp => absurd (ho b hp) hb)
  · have hv : (s.store a n).values l = s.values l := values_store hal
    exact hv ▸ h.lifo

/-- The exchange of `dealloc`. -/
theorem Stacked.push (h : s.Stacked ops l) (hs : s.Safe) {p : Nat} {n : LockFreeNode T}
    (ht : s.threads[t]? = some (.pushCas p s.head)) (hn : s.heap p = some n)
    (hnext : n.next = s.head) :
    ((s.swing p).goto t .idle).Stacked (ops ++ [.push (n.ticket, n.data)]) (p :: l) := by
  have hpl : p ∉ l := h.free _ (List.mem_of_getElem? ht) p rfl
  have hlink : s.next p = some s.head := by simp [next, hn, hnext]
  refine ⟨.cons (hs.owned_ne_zero ht rfl) hlink h.chain, List.nodup_cons.mpr ⟨hpl, h.nodup⟩, ?_,
    fun a m hm => ?_, ?_⟩
  · refine forall_mem_set ht (fun _ h => by cases h) fun j b hj hb q hq hm => ?_
    rcases List.mem_cons.mp hm with rfl | hm
    · exact (pairwise_getElem?_ne (fun _ _ h => h.symm) hs.compatible (Ne.symm hj) ht hb).owns q
        rfl hq
    · exact h.free b (List.mem_of_getElem? hb) q hq hm
  · by_cases hap : a = p
    · exact Or.inl (hap ▸ List.mem_cons_self)
    · refine (h.covered a m hm).imp (List.mem_cons_of_mem p) (exists_owner_set ht fun ho => ?_)
      exact absurd (Option.some.inj ho).symm hap
  · have hv : s.values (p :: l) = (n.ticket, n.data) :: s.values l := by simp [values, value, hn]
    exact hv ▸ h.lifo.push _

/-- The exchange of `try_alloc`. -/
theorem Stacked.pop (h : s.Stacked ops l) (hs : s.Safe) {n : LockFreeNode T}
    (ht : s.threads[t]? = some (.popCas s.head n.next)) (hn : s.heap s.head = some n) :
    ∃ l', ((s.swing n.next).goto t (.popRead s.head)).Stacked (ops ++ [.pop (n.ticket, n.data)])
      l' := by
  have h0 : s.head ≠ 0 := (hs.good _ (List.mem_of_getElem? ht)).1
  obtain ⟨b, l', hb, rfl, hl'⟩ := h.chain.uncons h0
  obtain rfl : n.next = b := by simpa [next, hn] using hb
  obtain ⟨hnot, hnd⟩ := List.nodup_cons.mp h.nodup
  refine ⟨l', hl', hnd, ?_, fun a m hm => ?_, ?_⟩
  · refine forall_mem_set ht (fun p hp => ?_) fun _ b _ hb p hp hm => ?_
    · cases hp
      exact hnot
    · exact h.free b (List.mem_of_getElem? hb) p hp (List.mem_cons_of_mem _ hm)
  · by_cases hah : a = s.head
    · subst hah
      exact Or.inr ⟨_, List.mem_set (List.getElem?_eq_some_iff.mp ht).1 _, rfl⟩
    · refine (h.covered a m hm).imp (fun hm => ?_) (exists_owner_set ht fun h => by cases h)
      exact (List.mem_cons.mp hm).resolve_left hah
  · have hv : s.values (s.head :: l') = (n.ticket, n.data) :: s.values l' := by
      simp [values, value, hn]
    exact (hv ▸ h.lifo).pop

/-- A load of a null head: nothing is linked. -/
theorem Stacked.miss (h : s.Stacked ops l) (h0 : s.head = 0) :
    s.Stacked (ops ++ [.miss]) l := by
  have hc := h.chain
  rw [h0] at hc
  obtain rfl := hc.eq_nil
  exact ⟨h.chain, h.nodup, h.free, h.covered, h.lifo.miss⟩

/-- Counters and values passed in or handed out do not matter here. -/
theorem Stacked.same (h : s.Stacked ops l) (h1 : s'.heap = s.heap) (h2 : s'.head = s.head)
    (h3 : s'.threads = s.threads) : s'.Stacked ops l := by
  have hnext : s'.next = s.next := by funext a; simp only [next, h1]
  have hvalue : s'.value = s.value := by funext a; simp only [value, h1]
  refine ⟨?_, h.nodup, ?_, ?_, ?_⟩
  · rw [hnext, h2]
    exact h.chain
  · rw [h3]
    exact h.free
  · rw [h1, h3]
    exact h.covered
  · rw [values, hvalue]
    exact h.lifo

end Stacked

/-- **What takes effect on the stack takes effect on the linked nodes.** -/
theorem Acts.stacked (ha : Acts s t s' called op) (hs : s.Safe) {ops : List (StackOp (Nat × T))}
    {l : List Nat} (h : s.Stacked ops l) : ∃ l', s'.Stacked (ops ++ op.toList) l' := by
  cases ha with
  | idle => exact ⟨l, by simpa using h⟩
  | call ht _ => exact ⟨l, by simpa using h.goto ht .popCheck rfl⟩
  | stay f ht hk =>
      rw [Option.toList_none, List.append_nil]
      exact ⟨l, (h.goto ht _ hk.owns).same rfl rfl rfl⟩
  | miss f ht ho _ _ h0 => exact ⟨l, ((h.miss h0).goto ht .idle ho.symm).same rfl rfl rfl⟩
  | make data a ht hnone =>
      have hal : a ∉ l := fun hm => h.chain.alloc a hm (by simp [next, hnone])
      rw [Option.toList_none, List.append_nil]
      refine ⟨l, (h.store ht (.pushLoad a) hal (fun _ h => by cases h) (fun p hp => ?_)
        (Or.inr rfl)).same rfl rfl rfl⟩
      exact (Option.some.inj hp).symm
  | link p head n ht hn =>
      have hpl : p ∉ l := h.free _ (List.mem_of_getElem? ht) p rfl
      rw [Option.toList_none, List.append_nil]
      exact ⟨l, h.store ht (.pushCas p head) hpl (fun q hq => (Option.some.inj hq).symm)
        (fun q hq => (Option.some.inj hq).symm) (Or.inr rfl)⟩
  | push p n f ht hn hnext => exact ⟨p :: l, (h.push hs ht hn hnext).same rfl rfl rfl⟩
  | pop n f ht hn =>
      obtain ⟨l', hl'⟩ := h.pop hs ht hn
      exact ⟨l', hl'.same rfl rfl rfl⟩
  | free p n ht hn =>
      have hpl : p ∉ l := h.free _ (List.mem_of_getElem? ht) p rfl
      rw [Option.toList_none, List.append_nil]
      exact ⟨l, (h.store ht .idle hpl (fun q hq => (Option.some.inj hq).symm)
        (fun _ h => by cases h) (Or.inl rfl)).same rfl rfl rfl⟩

/-! ## 6. Nothing is lost -/

/-- Every value passed in was handed out or is in a node. -/
def Complete (s : LockFreePool T) : Prop :=
  ∀ k, k < s.given.length → k ∈ s.returned.map Prod.fst ∨ ∃ a n, s.heap a = some n ∧ n.ticket = k

theorem Acts.complete (ha : Acts s t s' called op) (h : s.Complete) : s'.Complete := by
  cases ha with
  | idle => exact h
  | call ht _ => exact h
  | stay f ht hk => exact h
  | miss f ht _ _ _ _ => exact h
  | make data a ht hnone =>
      intro k hk
      have hk' : k < (s.given ++ [data]).length := hk
      rw [List.length_append, List.length_singleton] at hk'
      by_cases hlast : k = s.given.length
      · exact Or.inr ⟨a, _, if_pos rfl, hlast.symm⟩
      · refine (h k (by omega)).imp_right ?_
        rintro ⟨b, n, hn, rfl⟩
        have hne : b ≠ a := by
          rintro rfl
          rw [hnone] at hn
          cases hn
        exact ⟨b, n, (if_neg hne).trans hn, rfl⟩
  | link p head n ht hn =>
      intro k hk
      refine (h k hk).imp_right ?_
      rintro ⟨b, m, hm, rfl⟩
      by_cases hb : b = p
      · subst hb
        rw [hn] at hm
        cases hm
        exact ⟨b, _, if_pos rfl, rfl⟩
      · exact ⟨b, m, (if_neg hb).trans hm, rfl⟩
  | push p n f ht _ _ => exact h
  | pop n f ht _ => exact h
  | free p n ht hn =>
      intro k hk
      show k ∈ (s.returned ++ [(n.ticket, n.data)]).map Prod.fst ∨ _
      rw [List.map_append, List.mem_append]
      rcases h k hk with hr | ⟨b, m, hm, rfl⟩
      · exact Or.inl (Or.inl hr)
      · by_cases hb : b = p
        · subst hb
          rw [hn] at hm
          cases hm
          exact Or.inl (Or.inr List.mem_cons_self)
        · exact Or.inr ⟨b, m, (if_neg hb).trans hm, rfl⟩

/-- **Every value is in one place**: handed out, linked, or in the hands of one thread. -/
theorem Stacked.perm {ops : List (StackOp (Nat × T))} {l : List Nat} (h : s.Stacked ops l)
    (hs : s.Safe) (hh : s.Honest) (hc : s.Complete) :
    ((s.returned ++ s.values (l ++ s.owned)).map Prod.fst).Perm (List.range s.given.length) ∧
      ∀ r ∈ s.returned ++ s.values (l ++ s.owned), s.given[r.1]? = some r.2 := by
  have hvalue : ∀ r ∈ s.values (l ++ s.owned), ∃ a n, a ∈ l ++ s.owned ∧ s.heap a = some n ∧
      r = (n.ticket, n.data) := by
    intro r hr
    obtain ⟨a, ha, hv⟩ := List.mem_filterMap.mp hr
    obtain ⟨n, hn, rfl⟩ := Option.map_eq_some_iff.mp hv
    exact ⟨a, n, ha, hn, rfl⟩
  have hgenuine : ∀ r ∈ s.returned ++ s.values (l ++ s.owned), s.given[r.1]? = some r.2 := by
    intro r hr
    rcases List.mem_append.mp hr with hr | hr
    · exact hh.genuine r hr
    · obtain ⟨a, n, _, hn, rfl⟩ := hvalue r hr
      exact hh.issued a n hn
  have howned : s.owned.Nodup := by
    refine List.Pairwise.filterMap Pc.owns (fun a b hab p hp q hq => ?_) hs.compatible
    rintro rfl
    exact hab.owns p hp hq
  have hnodup : (l ++ s.owned).Nodup := by
    refine List.nodup_append.mpr ⟨h.nodup, howned, fun a ha b hb e => ?_⟩
    obtain ⟨pc, hpc, ho⟩ := List.mem_filterMap.mp hb
    exact h.free pc hpc b ho (e ▸ ha)
  have htickets : ((s.values (l ++ s.owned)).map Prod.fst).Nodup := by
    refine List.pairwise_map.mpr (List.Pairwise.filterMap s.value (fun a b hab r hr r' hr' e => ?_)
      hnodup)
    obtain ⟨m, hm, rfl⟩ := Option.map_eq_some_iff.mp hr
    obtain ⟨n, hn, rfl⟩ := Option.map_eq_some_iff.mp hr'
    exact hab (hh.apart a b m n hm hn e)
  refine ⟨?_, hgenuine⟩
  rw [List.map_append]
  refine (List.perm_ext_iff_of_nodup ?_ List.nodup_range).mpr fun k => ?_
  · refine List.nodup_append.mpr ⟨hh.once, htickets, fun k hk k' hk' e => ?_⟩
    obtain ⟨r, hr, rfl⟩ := List.mem_map.mp hk'
    obtain ⟨a, n, _, hn, rfl⟩ := hvalue r hr
    have e' : k = n.ticket := e
    exact hh.fresh a n hn (e' ▸ hk)
  · rw [List.mem_range, ← List.map_append]
    constructor
    · intro hk
      obtain ⟨r, hr, rfl⟩ := List.mem_map.mp hk
      exact (List.getElem?_eq_some_iff.mp (hgenuine r hr)).1
    · intro hk
      rw [List.map_append, List.mem_append]
      refine (hc k hk).imp_right ?_
      rintro ⟨a, n, hn, rfl⟩
      have ha : a ∈ l ++ s.owned := List.mem_append.mpr <| (h.covered a n hn).imp_right
        fun ⟨pc, hpc, ho⟩ => List.mem_filterMap.mpr ⟨pc, hpc, ho⟩
      refine List.mem_map.mpr ⟨(n.ticket, n.data), List.mem_filterMap.mpr ⟨a, ha, ?_⟩, rfl⟩
      simp [value, hn]

/-! ## 7. Results and calls -/

/-- A step that pops nothing and leaves alone what is about to be returned. -/
theorem results_same {ops new : List (StackOp (Nat × T))}
    (h : popped ops = s.returned ++ s.leaving) (hnew : popped new = [])
    (hr : s'.returned = s.returned)
    (hl : s'.threads.filterMap Pc.leaves = s.threads.filterMap Pc.leaves)
    (hv : ∀ a ∈ s.threads.filterMap Pc.leaves, s'.value a = s.value a) :
    popped (ops ++ new) = s'.returned ++ s'.leaving := by
  rw [popped_append, hnew, List.append_nil, h, hr, leaving, leaving, hl, values_frame hv]

/-- What is about to be returned is in a node. -/
theorem Safe.leaves_alloc (hs : s.Safe) {a : Nat} (ha : a ∈ s.threads.filterMap Pc.leaves) :
    s.heap a ≠ none := by
  obtain ⟨pc, hpc, hl⟩ := List.mem_filterMap.mp ha
  obtain ⟨n, hn⟩ := (hs.good pc hpc).alloc (Pc.owns_of_leaves hl)
  simp [hn]

/-- **What `try_alloc` returns is what was popped**, in this order; the last value may not be
    returned yet. -/
theorem Acts.results (ha : Acts s t s' called op) (hs : s.Safe) (h1 : s.threads.Pairwise Alone)
    {ops : List (StackOp (Nat × T))} (h : popped ops = s.returned ++ s.leaving) :
    popped (ops ++ op.toList) = s'.returned ++ s'.leaving := by
  -- the thread inside `try_alloc` alone can have a value to return
  have honly {pc : Pc T} (ht : s.threads[t]? = some pc) (hp : pc.pops = true) (pc' : Pc T) :
      (s.threads.set t pc').filterMap Pc.leaves = pc'.leaves.toList := by
    refine filterMap_only (List.getElem?_set_self (List.getElem?_eq_some_iff.mp ht).1)
      fun j b hj hb => ?_
    rw [List.getElem?_set_ne (Ne.symm hj)] at hb
    cases hl : b.leaves with
    | none => rfl
    | some p =>
        have hout := others_out h1 ht hp hj hb
        rw [Pc.pops_of_leaves hl] at hout
        cases hout
  have hself {pc : Pc T} (ht : s.threads[t]? = some pc) (hp : pc.pops = true) :
      s.threads.filterMap Pc.leaves = pc.leaves.toList := by
    have hset : s.threads.set t pc = s.threads := by
      obtain ⟨hlt, rfl⟩ := List.getElem?_eq_some_iff.mp ht
      exact List.set_getElem_self hlt
    rw [← honly ht hp pc, hset]
  cases ha with
  | idle => simpa using h
  | call ht _ => exact results_same h rfl rfl (filterMap_set_self ht rfl) fun _ _ => rfl
  | stay f ht hk =>
      exact results_same h rfl rfl (filterMap_set_self ht hk.leaves) fun _ _ => rfl
  | miss f ht _ hl _ _ =>
      exact results_same h rfl rfl (filterMap_set_self ht hl.symm) fun _ _ => rfl
  | make data a ht hnone =>
      refine results_same h rfl rfl (filterMap_set_self ht rfl) fun b hb => ?_
      have hba : b ≠ a := fun e => hs.leaves_alloc hb (e ▸ hnone)
      simp [value, goto, take, store, hba]
  | link p head n ht hn =>
      refine results_same h rfl rfl (filterMap_set_self ht rfl) fun b hb => ?_
      by_cases hbp : b = p
      · subst hbp
        simp [value, goto, store, hn]
      · simp [value, goto, store, hbp]
  | push p n f ht _ _ => exact results_same h rfl rfl (filterMap_set_self ht rfl) fun _ _ => rfl
  | pop n f ht hn =>
      have hl : s.leaving = [] := congrArg s.values (hself ht rfl)
      have hl' : (s.threads.set t (.popRead s.head)).filterMap Pc.leaves = [s.head] :=
        honly ht rfl _
      rw [popped_append, h, hl, List.append_nil]
      show s.returned ++ [(n.ticket, n.data)] = s.returned ++ s.values
        ((s.threads.set t (.popRead s.head)).filterMap Pc.leaves)
      rw [hl']
      simp [values, value, hn]
  | free p n ht hn =>
      have hl : s.leaving = s.values [p] := congrArg s.values (hself ht rfl)
      have hl' : (s.threads.set t .idle).filterMap Pc.leaves = [] := honly ht rfl _
      rw [Option.toList_none, List.append_nil, h, hl]
      show s.returned ++ s.values [p] = s.returned ++ [(n.ticket, n.data)] ++
        LockFreePool.values _ ((s.threads.set t .idle).filterMap Pc.leaves)
      rw [hl']
      simp [values, value, hn]

/-- Every call of a thread has taken effect, but one that is still pending. -/
def Counted (s : LockFreePool T) (h : History T) : Prop :=
  ∀ u, h.calls.count u = (h.log.map Prod.fst).count u + (s.threads[u]?.any Pc.pending).toNat

theorem Acts.counted (ha : Acts s t s' called op) {h : History T} (hc : s.Counted h) :
    s'.Counted ⟨h.calls ++ (if called then [t] else []),
      h.log ++ (op.map (Prod.mk t)).toList⟩ := by
  intro u
  have hlog : ((h.log ++ (op.map (Prod.mk t)).toList).map Prod.fst).count u =
      (h.log.map Prod.fst).count u + if t = u then op.isSome.toNat else 0 := by
    cases op <;> simp [List.count_singleton]
  have hcalls : (h.calls ++ (if called then [t] else [])).count u =
      h.calls.count u + if t = u then called.toNat else 0 := by
    cases called <;> simp [List.count_singleton]
  have hu := hc u
  simp only [hlog, hcalls]
  rcases ha.moves with ⟨rfl, rfl, rfl⟩ | ⟨pc, pc', ht, e, _, hbal⟩
  · simpa using hu
  · by_cases htu : t = u
    · subst htu
      rw [e, List.getElem?_set_self (List.getElem?_eq_some_iff.mp ht).1]
      rw [ht] at hu
      simp only [Option.any_some, if_true] at hu ⊢
      omega
    · rw [e, List.getElem?_set_ne htu]
      simp only [if_neg htu, Nat.add_zero]
      exact hu

end LockFreePool

/-! ## 8. Dropping the pool -/

/-- `Drop for LockFreePoolInner` under way: the node it is at, the heap, what it dropped and what
    it freed. -/
structure Teardown (T : Type u) where
  head : Nat
  heap : Nat → Option (LockFreeNode T)
  dropped : List (Nat × T)
  freed : List Nat
  fault : Bool

namespace Teardown

variable {T : Type u}

/-- One round: the link is loaded, the value dropped, the node freed. -/
def step (d : Teardown T) : Teardown T :=
  match d.heap d.head with
  | some n => ⟨n.next, fun x => if x = d.head then none else d.heap x,
      d.dropped ++ [(n.ticket, n.data)], d.freed ++ [d.head], d.fault⟩
  | none => { d with head := 0, fault := true }

/-- `while !head.is_null()`, for at most `fuel` rounds. -/
def run : Nat → Teardown T → Option (Teardown T)
  | 0, d => if d.head = 0 then some d else none
  | fuel + 1, d => if d.head = 0 then some d else run fuel d.step

/-- **Along a chain** each node is freed and its value dropped, in order. -/
theorem run_chain {d : Teardown T} {l : List Nat}
    (hl : Chain (fun a => (d.heap a).map LockFreeNode.next) d.head l) (hnd : l.Nodup) {fuel : Nat}
    (hf : l.length ≤ fuel) :
    run fuel d = some ⟨0, fun x => if x ∈ l then none else d.heap x,
      d.dropped ++ l.filterMap (fun a => (d.heap a).map fun n => (n.ticket, n.data)),
      d.freed ++ l, d.fault⟩ := by
  induction l generalizing d fuel with
  | nil =>
      obtain ⟨head, heap, dropped, freed, fault⟩ := d
      cases hl
      cases fuel <;> simp [run]
  | cons a l ih =>
      obtain ⟨head, heap, dropped, freed, fault⟩ := d
      obtain ⟨hnot, hnd'⟩ := List.nodup_cons.mp hnd
      obtain ⟨h0, b, hb, hl⟩ : head ≠ 0 ∧ ∃ b, (heap head).map LockFreeNode.next = some b ∧
          head = a ∧ Chain (fun a => (heap a).map LockFreeNode.next) b l := by
        cases hl with
        | cons h0 hb hl => exact ⟨h0, _, hb, rfl, hl⟩
      obtain ⟨rfl, hl⟩ := hl
      obtain ⟨n, hn, rfl⟩ := Option.map_eq_some_iff.mp hb
      -- the rest of the chain does not pass the node that is freed
      have hne : ∀ x ∈ l, x ≠ head := fun x hx e => hnot (e ▸ hx)
      cases fuel with
      | zero => cases hf
      | succ fuel =>
          have hstep : step ⟨head, heap, dropped, freed, fault⟩ =
              ⟨n.next, fun x => if x = head then none else heap x,
                dropped ++ [(n.ticket, n.data)], freed ++ [head], fault⟩ := by
            simp [step, hn]
          have hl' : Chain (fun a => (if a = head then none else heap a).map LockFreeNode.next)
              n.next l := hl.frame fun x hx => by simp [hne x hx]
          rw [run, if_neg h0, hstep, ih hl' hnd' (Nat.le_of_succ_le_succ hf)]
          congr 2
          · funext x
            by_cases hx : x = head <;> simp [hx]
          · simp only
            rw [List.filterMap_cons, hn, List.append_assoc]
            simp only [Option.map_some, List.singleton_append]
            congr 2
            exact List.filterMap_congr fun x hx => by simp [hne x hx]
          · simp

end Teardown

/-- The runs with at most one thread inside `try_alloc`, and their history. -/
def soloPools (T : Type u) : System (LockFreePool T × History T) (PoolStep T) :=
  ((lockFreePools T).under Solo).withGhost ⟨[], []⟩ History.next

instance (T : Type u) (x : LockFreePool T × History T) (st : PoolStep T) :
    Decidable ((soloPools T).ok x st) :=
  inferInstanceAs (Decidable (((lockFreePools T).under Solo).ok x.1 st))

namespace LockFreePool

variable {T : Type u}

/-- The pool as its `Drop` finds it. -/
def teardown (s : LockFreePool T) : Teardown T := ⟨s.head, s.heap, [], [], s.fault⟩

/-- **The invariant**: the pool is a stack. -/
structure Refines (s : LockFreePool T) (h : History T) : Prop where
  safe : s.Safe
  honest : s.Honest
  alone : s.threads.Pairwise Alone
  peeked : s.Peeked
  complete : s.Complete
  stacked : ∃ l, s.Stacked (h.log.map Prod.snd) l
  results : popped (h.log.map Prod.snd) = s.returned ++ s.leaving
  counted : s.Counted h

theorem refines_start (n : Nat) : (start T n).Refines ⟨[], []⟩ := by
  have hidle : ∀ pc ∈ (start T n).threads, pc = .idle := fun pc h => (List.mem_replicate.mp h).2
  refine ⟨safe_start n, honest_start n, ?_, ?_, (fun k hk => by cases hk), ⟨[], .nil, .nil, ?_, ?_,
    .nil⟩, ?_, ?_⟩
  · refine List.pairwise_of_forall_mem_list fun a ha b _ hab => ?_
    rw [hidle a ha] at hab
    cases hab.1
  · intro pc hpc p hp
    rw [hidle pc hpc] at hp
    cases hp
  · exact fun _ _ _ _ h => by cases h
  · exact fun _ _ h => by cases h
  · have hnil : (start T n).threads.filterMap Pc.leaves = [] :=
      List.filterMap_eq_nil_iff.mpr fun pc hpc => by rw [hidle pc hpc]; rfl
    show popped [] = [] ++ (start T n).values _
    rw [hnil]
    rfl
  · intro u
    cases hu : (start T n).threads[u]? with
    | none => rfl
    | some pc =>
        rw [hidle pc (List.mem_of_getElem? hu)]
        rfl

/-- **One step keeps the pool a stack.** -/
theorem Refines.step {s s' : LockFreePool T} {h : History T} (hr : s.Refines h) {st : PoolStep T}
    (hok : s.Ok st) (hsolo : Solo s st) (e : s.exec st = some s') :
    s'.Refines (History.next s st h) := by
  have hsafe := hr.safe.step hok (solo_quiet hr.alone hr.peeked hok) e
  have hhonest := hr.honest.step hr.safe e
  obtain ⟨t, called, op, ha, hnext⟩ := exec_acts hr.safe hok hsolo e h
  have hops : (History.next s st h).log.map Prod.snd = h.log.map Prod.snd ++ op.toList := by
    rw [hnext]
    cases op <;> simp
  obtain ⟨l, hl⟩ := hr.stacked
  refine ⟨hsafe, hhonest, ha.alone hr.alone, ha.peeked hr.safe hr.alone hr.peeked,
    ha.complete hr.complete, ?_, ?_, ?_⟩
  · rw [hops]
    exact ha.stacked hr.safe hl
  · rw [hops]
    exact ha.results hr.safe hr.alone hr.results
  · rw [hnext]
    exact ha.counted hr.counted

/-- When every thread is idle every node is linked. -/
theorem Stacked.idle {s : LockFreePool T} {ops : List (StackOp (Nat × T))} {l : List Nat}
    (h : s.Stacked ops l) (hidle : ∀ pc ∈ s.threads, pc = .idle) :
    s.owned = [] ∧ ∀ a, a ∉ l → s.heap a = none := by
  have howns : ∀ pc ∈ s.threads, pc.owns = none := fun pc hpc => by rw [hidle pc hpc]; rfl
  refine ⟨List.filterMap_eq_nil_iff.mpr howns, fun a ha => ?_⟩
  cases hn : s.heap a with
  | none => rfl
  | some n =>
      rcases h.covered a n hn with hm | ⟨pc, hpc, ho⟩
      · exact absurd hm ha
      · rw [howns pc hpc] at ho
        cases ho

end LockFreePool

theorem reach_refines {T : Type u} {x : LockFreePool T × History T} (h : (soloPools T).Reach x) :
    x.1.Refines x.2 := by
  refine h.inv (P := fun x => x.1.Refines x.2) (fun x hi => ?_) fun x st x' hx hok e => ?_
  · obtain ⟨s, h⟩ := x
    obtain ⟨⟨n, rfl⟩, rfl⟩ := hi
    exact LockFreePool.refines_start n
  · obtain ⟨s', hs', rfl⟩ := Option.map_eq_some_iff.mp e
    exact hx.step hok.1 hok.2 hs'

/-- **The pool is a stack**, in every run with at most one thread inside `try_alloc`. Every call of
    a thread has taken effect once, unless it is pending; the history of what took effect is one
    of a LIFO stack, on which there are then the values of the linked nodes; what was popped is
    what was returned, and what a thread is about to return. Every value passed in is in one place:
    returned, linked, or in the hands of a thread. When all threads are idle, dropping the pool
    ends, drops the values on the stack and frees all nodes, each once. -/
theorem pool_linearizable {T : Type u} {s : LockFreePool T} {h : History T}
    (hr : (soloPools T).Reach (s, h)) :
    s.fault = false ∧
    (∀ t, h.calls.count t =
      (h.log.map Prod.fst).count t + (s.threads[t]?.any Pc.pending).toNat) ∧
    popped (h.log.map Prod.snd) = s.returned ++ s.leaving ∧
    ∃ l, Chain s.next s.head l ∧ Lifo (h.log.map Prod.snd) (s.values l) ∧
      ((s.returned ++ s.values (l ++ s.owned)).map Prod.fst).Perm (List.range s.given.length) ∧
      (∀ r ∈ s.returned ++ s.values (l ++ s.owned), s.given[r.1]? = some r.2) ∧
      ((∀ pc ∈ s.threads, pc = .idle) → l.Nodup ∧
        ((s.returned ++ s.values l).map Prod.fst).Perm (List.range s.given.length) ∧
        ∀ fuel, l.length ≤ fuel →
          Teardown.run fuel s.teardown = some ⟨0, fun _ => none, s.values l, l, false⟩) := by
  have hx : s.Refines h := reach_refines hr
  obtain ⟨l, hl⟩ := hx.stacked
  obtain ⟨hperm, hgiven⟩ := hl.perm hx.safe hx.honest hx.complete
  refine ⟨hx.safe.fault, hx.counted, hx.results, l, hl.chain, hl.lifo, hperm, hgiven,
    fun hidle => ?_⟩
  obtain ⟨howned, hheap⟩ := hl.idle hidle
  refine ⟨hl.nodup, ?_, fun fuel hf => ?_⟩
  · rw [howned, List.append_nil] at hperm
    exact hperm
  · rw [Teardown.run_chain (d := s.teardown) hl.chain hl.nodup hf]
    have hempty : (fun x => if x ∈ l then none else s.heap x) = fun _ => none := by
      funext x
      split
      · rfl
      · next hx => exact hheap x hx
    simp only [LockFreePool.teardown, hempty, List.nil_append, hx.safe.fault]
    rfl

/-- Two threads push at the same time; a pop meets a push, and a freed address is used again. -/
theorem pool_linearizable_mixed : ∃ s h, (soloPools Nat).Reach (s, h) ∧
    h.log = [(0, .push (0, 10)), (1, .push (1, 20)), (1, .push (2, 30)), (0, .pop (2, 30)),
      (1, .push (3, 40)), (1, .pop (3, 40))] ∧ s.returned = [(2, 30), (3, 40)] ∧
    ∃ l, Lifo (h.log.map Prod.snd) (s.values l) := by
  obtain ⟨⟨s, h⟩, hr, hlog, hret⟩ := System.exists_reach_of_replay (soloPools Nat)
    [.dealloc 0 10 8, .dealloc 1 20 16, .run 0 false, .run 1 false, .run 0 false, .run 1 false,
      .run 0 false, .run 1 false, .run 1 false, .run 1 false, .run 1 true, .run 1 false,
      .run 1 false, .run 1 false,
      .tryAlloc 0, .run 0 false, .run 0 false, .run 0 false,
      .dealloc 1 30 24, .run 1 false, .run 1 false, .run 1 false,
      .run 0 false, .run 0 false, .run 0 false, .run 0 false, .run 0 false, .run 0 false,
      .dealloc 1 40 24, .run 1 false, .run 1 false, .run 1 false,
      .tryAlloc 1, .run 1 false, .run 1 false, .run 1 false, .run 1 false, .run 1 false,
      .run 1 false]
    (P := fun x => x.2.log = [(0, .push (0, 10)), (1, .push (1, 20)), (1, .push (2, 30)),
      (0, .pop (2, 30)), (1, .push (3, 40)), (1, .pop (3, 40))] ∧
      x.1.returned = [(2, 30), (3, 40)])
    (s := (.start Nat 2, ⟨[], []⟩)) ⟨⟨2, rfl⟩, rfl⟩ (by decide)
  obtain ⟨_, _, _, l, _, hlifo, _⟩ := pool_linearizable hr
  exact ⟨s, h, hr, hlog, hret, l, hlifo⟩

end ArenaB
