/-
  File:      ArenaB/LockFree/Progress.lean
  Subject:   That `LockFreePool` (src/lockfree.rs) is lock-free: calls complete as long as steps are
             made.

  Both loops of the pool retry when their exchange fails. An exchange fails spuriously, or because
  the head was exchanged since the thread loaded it; then some other call has won its exchange and
  is on its way out. The potential of a pool is what its threads still need if each is left alone
  (`Pc.cost`); an exchange that is won can send every other thread round its loop once more.

  * `works`, `begins`, `wins`, `spurious`, `completes` -- what a step counts for;
  * `Pc.Moves` -- what one step of a thread does to its place and the head, for all places at once
    (`run_moves`); the three potentials are read off it;
  * **`pool_lock_free`** -- the steps of all threads together are bounded by the calls that
    completed and the spurious failures, in every interleaving of `Quiet` steps.
-/
import Mathlib.Tactic.Linarith
import ArenaB.Base.Potential
import ArenaB.LockFree.Pool

namespace ArenaB

open Base

universe u

variable {T : Type u}

/-! ## 1. What is counted -/

namespace Pc

/-- The thread is in a call. -/
def busy : Pc T → Bool
  | .idle => false
  | _ => true

/-- The head the exchange at this place expects. -/
def expects : Pc T → Option Nat
  | .popCas head _ => some head
  | .pushCas _ head => some head
  | _ => none

/-- The exchange succeeds. -/
def wins (head : Nat) (spurious : Bool) (pc : Pc T) : Bool :=
  !spurious && decide (pc.expects = some head)

/-- The exchange fails although the head is the one it expects. -/
def misses (head : Nat) (spurious : Bool) (pc : Pc T) : Bool :=
  spurious && decide (pc.expects = some head)

end Pc

namespace LockFreePool

/-- A thread makes a step of its call. -/
def works (s : LockFreePool T) : PoolStep T → Nat
  | .run t _ => (s.threads[t]?.any Pc.busy).toNat
  | _ => 0

/-- A call begins. -/
def begins (_ : LockFreePool T) : PoolStep T → Nat
  | .run _ _ => 0
  | _ => 1

/-- The head is exchanged. -/
def wins (s : LockFreePool T) : PoolStep T → Nat
  | .run t spurious => (s.threads[t]?.any (Pc.wins s.head spurious)).toNat
  | _ => 0

/-- An exchange fails spuriously. -/
def spurious (s : LockFreePool T) : PoolStep T → Nat
  | .run t spurious => (s.threads[t]?.any (Pc.misses s.head spurious)).toNat
  | _ => 0

/-- A call returns, and nothing has gone wrong. -/
def completes (s : LockFreePool T) : PoolStep T → Nat
  | .run t spurious => (s.threads[t]?.any fun pc =>
      let s' := s.run t spurious pc
      pc.busy && !(s'.threads[t]?.any Pc.busy) && !s'.fault).toNat
  | _ => 0

end LockFreePool

/-! ## 2. The potential of a thread -/

namespace Pc

/-- The steps a thread at the given place still needs on its own. A head that is no longer the one
    loaded costs the way back to the load. -/
def cost (head : Nat) : Pc T → Nat
  | .idle => 0
  | .popCheck => 6
  | .popLoad => 5
  | .popNext h => if head = h then 4 else 7
  | .popCas h _ => if head = h then 3 else 6
  | .popRead _ => 2
  | .popFree _ _ _ => 1
  | .pushLoad _ => 3
  | .pushStore _ h => if head = h then 2 else 5
  | .pushCas _ h => if head = h then 1 else 4

/-- The exchange of the call is still to come. -/
def due : Pc T → Nat
  | .idle => 0
  | .popRead _ => 0
  | .popFree _ _ _ => 0
  | _ => 1

/-- The thread can begin a call. -/
def free (pc : Pc T) : Nat := (!pc.busy).toNat

theorem cost_le (head : Nat) (pc : Pc T) : pc.cost head ≤ 7 := by
  cases pc <;> simp only [cost] <;> first | omega | (split <;> omega)

theorem due_le (pc : Pc T) : pc.due ≤ 1 := by
  cases pc <;> simp [due]

theorem free_le (pc : Pc T) : pc.free ≤ 1 := Bool.toNat_le _

/-- The exchange of another thread sends a thread at most once round its loop. -/
theorem cost_move (pc : Pc T) {head head' n : Nat} (h : head' = head ∨ n = 1) :
    pc.cost head' ≤ pc.cost head + 3 * n := by
  rcases h with rfl | rfl
  · exact Nat.le_add_right _ _
  · cases pc <;> simp only [cost] <;> first | omega | (split <;> split <;> omega)

/-- What one step of a thread does to its place and the head. -/
structure Moves (head head' : Nat) (spurious : Bool) (pc pc' : Pc T) : Prop where
  swing : head' = head ∨ pc.wins head spurious = true
  pays : pc.busy.toNat + pc'.cost head' ≤ pc.cost head + 3 * (pc.misses head spurious).toNat
  once : (pc.wins head spurious).toNat + pc'.due ≤ pc.due
  ends : pc.busy = false → pc'.busy = false

section Moves

variable {head head' h : Nat} {spurious : Bool} {pc pc' : Pc T}

/-- A step that exchanges nothing. -/
theorem Moves.stay (hx : pc.expects = none) (hb : pc.busy = true)
    (hc : pc'.cost head < pc.cost head) (hd : pc'.due ≤ pc.due) :
    Moves head head spurious pc pc' where
  swing := Or.inl rfl
  pays := by
    rw [hb, Bool.toNat_true]
    omega
  once := by
    simpa [wins, hx] using hd
  ends hi := by
    rw [hb] at hi
    cases hi

/-- An exchange that succeeds. -/
theorem Moves.won (hx : pc.expects = some head) (hb : pc.busy = true)
    (hc : pc'.cost head' < pc.cost head) (hd : pc'.due < pc.due) :
    Moves head head' false pc pc' where
  swing := Or.inr (by simp [wins, hx])
  pays := by
    rw [hb, Bool.toNat_true]
    omega
  once := by
    have hwin : pc.wins head false = true := by simp [wins, hx]
    rw [hwin, Bool.toNat_true]
    omega
  ends hi := by
    rw [hb] at hi
    cases hi

/-- An exchange that fails: the loop begins again. -/
theorem Moves.lost (hx : pc.expects = some h) (hw : ¬ (head = h ∧ spurious = false))
    (hb : pc.busy = true) (hfresh : pc'.cost head ≤ pc.cost head + 2)
    (hstale : head ≠ h → pc'.cost head < pc.cost head) (hd : pc'.due ≤ pc.due) :
    Moves head head spurious pc pc' where
  swing := Or.inl rfl
  pays := by
    rw [hb, Bool.toNat_true]
    by_cases hh : head = h
    · have hmiss : pc.misses head spurious = true := by
        have : spurious = true := by simpa [hh] using hw
        simp [misses, hx, this, hh]
      rw [hmiss, Bool.toNat_true]
      omega
    · have := hstale hh
      omega
  once := by
    have hwin : pc.wins head spurious = false := by
      by_cases hh : head = h
      · have : spurious = true := by simpa [hh] using hw
        simp [wins, this]
      · simp [wins, hx, Ne.symm hh]
    rw [hwin, Bool.toNat_false]
    omega
  ends hi := by
    rw [hb] at hi
    cases hi

end Moves

end Pc

/-! ## 3. Steps -/

namespace LockFreePool

variable {s s' : LockFreePool T} {t n : Nat} {pc : Pc T} {l : PoolStep T}

/-- **One step of a thread**, place by place. -/
theorem run_moves (ht : s.threads[t]? = some pc) (spurious : Bool) :
    ∃ pc', (s.run t spurious pc).threads = s.threads.set t pc' ∧
      Pc.Moves s.head (s.run t spurious pc).head spurious pc pc' := by
  cases pc with
  | idle =>
      refine ⟨.idle, (set_self ht).symm, Or.inl rfl, Nat.zero_le _, ?_, fun h => h⟩
      simp [Pc.wins, Pc.expects, Pc.due]
  | popCheck =>
      simp only [run]
      split
      · exact ⟨.idle, rfl, .stay rfl rfl (by simp [Pc.cost]) (by simp [Pc.due])⟩
      · exact ⟨.popLoad, rfl, .stay rfl rfl (by simp [Pc.cost]) (by simp [Pc.due])⟩
  | popLoad =>
      simp only [run]
      split
      · exact ⟨.idle, rfl, .stay rfl rfl (by simp [Pc.cost]) (by simp [Pc.due])⟩
      · exact ⟨.popNext s.head, rfl, .stay rfl rfl (by simp [Pc.cost]) (by simp [Pc.due])⟩
  | popNext head =>
      simp only [run]
      split
      · refine ⟨.popCas head _, rfl, .stay rfl rfl ?_ (by simp [Pc.due])⟩
        simp only [Pc.cost]
        split <;> omega
      · refine ⟨.idle, rfl, .stay rfl rfl ?_ (by simp [Pc.due])⟩
        simp only [Pc.cost]
        split <;> omega
  | popCas head next =>
      simp only [run]
      split
      · rename_i hw
        obtain ⟨rfl, rfl⟩ := hw
        exact ⟨.popRead _, rfl, .won rfl rfl (by simp [Pc.cost]) (by simp [Pc.due])⟩
      · rename_i hw
        refine ⟨.popLoad, rfl, .lost rfl hw rfl ?_ (fun h => ?_) (by simp [Pc.due])⟩
        · simp only [Pc.cost]
          split <;> omega
        · simp [Pc.cost, h]
  | popRead head =>
      simp only [run]
      split
      · exact ⟨.popFree head _ _, rfl, .stay rfl rfl (by simp [Pc.cost]) (by simp [Pc.due])⟩
      · exact ⟨.idle, rfl, .stay rfl rfl (by simp [Pc.cost]) (by simp [Pc.due])⟩
  | popFree head ticket data =>
      simp only [run]
      split
      · exact ⟨.idle, rfl, .stay rfl rfl (by simp [Pc.cost]) (by simp [Pc.due])⟩
      · exact ⟨.idle, rfl, .stay rfl rfl (by simp [Pc.cost]) (by simp [Pc.due])⟩
  | pushLoad node =>
      exact ⟨.pushStore node s.head, rfl, .stay rfl rfl (by simp [Pc.cost]) (by simp [Pc.due])⟩
  | pushStore node head =>
      simp only [run]
      split
      · refine ⟨.pushCas node head, rfl, .stay rfl rfl ?_ (by simp [Pc.due])⟩
        simp only [Pc.cost]
        split <;> omega
      · refine ⟨.idle, rfl, .stay rfl rfl ?_ (by simp [Pc.due])⟩
        simp only [Pc.cost]
        split <;> omega
  | pushCas node head =>
      simp only [run]
      split
      · rename_i hw
        obtain ⟨rfl, rfl⟩ := hw
        exact ⟨.idle, rfl, .won rfl rfl (by simp [Pc.cost]) (by simp [Pc.due])⟩
      · rename_i hw
        refine ⟨.pushLoad node, rfl, .lost rfl hw rfl ?_ (fun h => ?_) (by simp [Pc.due])⟩
        · simp only [Pc.cost]
          split <;> omega
        · simp [Pc.cost, h]

/-- A step of the system begins a call of an idle thread, or is the next step of a thread. -/
theorem exec_cases (e : s.exec l = some s') :
    (∃ t pc', s.threads[t]? = some .idle ∧ pc'.cost s.head ≤ 6 ∧ pc'.due = 1 ∧
      s'.threads = s.threads.set t pc' ∧ s'.head = s.head ∧ ∀ t spurious, l ≠ .run t spurious) ∨
    ∃ t spurious pc, l = .run t spurious ∧ s.threads[t]? = some pc ∧ s' = s.run t spurious pc := by
  cases l with
  | tryAlloc t =>
      simp only [exec] at e
      split at e
      · next ht =>
        cases e
        exact Or.inl ⟨t, .popCheck, ht, by simp [Pc.cost], rfl, rfl, rfl, fun _ _ h => by cases h⟩
      · cases e
  | dealloc t data addr =>
      simp only [exec] at e
      split at e
      · next ht =>
        cases e
        exact Or.inl ⟨t, .pushLoad addr, ht, by simp [Pc.cost], rfl, rfl, rfl,
          fun _ _ h => by cases h⟩
      · cases e
  | run t spurious =>
      obtain ⟨pc, ht, rfl⟩ := Option.map_eq_some_iff.mp e
      exact Or.inr ⟨t, spurious, pc, rfl, ht, rfl⟩

/-- A call that begins counts as that and nothing else. -/
theorem begins_of_call (h : ∀ t spurious, l ≠ .run t spurious) : s.begins l = 1 ∧ s.works l = 0 ∧
    s.wins l = 0 ∧ s.spurious l = 0 ∧ s.completes l = 0 := by
  cases l with
  | tryAlloc t => exact ⟨rfl, rfl, rfl, rfl, rfl⟩
  | dealloc t data addr => exact ⟨rfl, rfl, rfl, rfl, rfl⟩
  | run t spurious => exact absurd rfl (h t spurious)

/-- The threads stay the same ones. -/
theorem length_step (e : s.exec l = some s') : s'.threads.length = s.threads.length := by
  rcases exec_cases e with ⟨t, pc', _, _, _, hset, _, _⟩ | ⟨t, spurious, pc, rfl, ht, rfl⟩
  · rw [hset, List.length_set]
  · obtain ⟨pc', hset, _⟩ := run_moves ht spurious
    rw [hset, List.length_set]

/-- What all threads still need. -/
def cost (s : LockFreePool T) : Nat := (s.threads.map (Pc.cost s.head)).sum

/-- The exchanges still to come in the calls that have begun. -/
def due (s : LockFreePool T) : Nat := (s.threads.map Pc.due).sum

/-- The idle threads. -/
def free (s : LockFreePool T) : Nat := (s.threads.map Pc.free).sum

/-- A sum over the threads when one of them moves. -/
theorem sum_set (f : Pc T → Nat) (pc' : Pc T) (ht : s.threads[t]? = some pc) :
    ((s.threads.set t pc').map f).sum + f pc ≤ (s.threads.map f).sum + f pc' := by
  have := sum_map_set_le (b := pc') (k := 0) ht fun x (_ : x ∈ s.threads) => Nat.le_refl (f x)
  simpa using this

/-- **The work is paid for**: by the calls that begin, by the exchanges won against the other
    threads and by the spurious failures. -/
theorem cost_step (e : s.exec l = some s') : s.works l + s'.cost ≤ s.cost +
    (6 * s.begins l + (3 * (s.threads.length - 1) * s.wins l + 3 * s.spurious l)) := by
  rcases exec_cases e with ⟨t, pc', ht, hc, _, hset, hhead, hl⟩ | ⟨t, spurious, pc, rfl, ht, rfl⟩
  · obtain ⟨hb, hw, _⟩ := begins_of_call (s := s) hl
    have hsum := sum_set (Pc.cost s.head) pc' ht
    have hidle : Pc.cost s.head (.idle : Pc T) = 0 := rfl
    rw [cost, cost, hset, hhead, hb, hw]
    omega
  · obtain ⟨pc', hset, hm⟩ := run_moves ht spurious
    have hmove : (s.run t spurious pc).head = s.head ∨ s.wins (.run t spurious) = 1 :=
      hm.swing.imp_right fun h => by
        rw [wins, ht, Option.any_some, h]
        rfl
    have hsum := sum_map_set_le (f := Pc.cost s.head) (g := Pc.cost (s.run t spurious pc).head)
      (b := pc') ht fun pc _ => pc.cost_move hmove
    have hpays := hm.pays
    have hmul : (s.threads.length - 1) * (3 * s.wins (.run t spurious)) =
        3 * (s.threads.length - 1) * s.wins (.run t spurious) := by
      rw [Nat.mul_left_comm, Nat.mul_assoc]
    rw [hmul] at hsum
    simp only [cost, hset, works, LockFreePool.spurious, ht, Option.any_some]
    omega

/-- **A call wins its exchange once.** -/
theorem due_step (e : s.exec l = some s') : s.wins l + s'.due ≤ s.due + s.begins l := by
  rcases exec_cases e with ⟨t, pc', ht, _, hd, hset, _, hl⟩ | ⟨t, spurious, pc, rfl, ht, rfl⟩
  · obtain ⟨hb, _, hw, _⟩ := begins_of_call (s := s) hl
    have hsum := sum_set Pc.due pc' ht
    rw [due, due, hset, hb, hw]
    simp only [hd] at hsum
    omega
  · obtain ⟨pc', hset, hm⟩ := run_moves ht spurious
    have hsum := sum_set Pc.due pc' ht
    have honce := hm.once
    simp only [due, hset, wins, ht, Option.any_some]
    omega

/-- **A thread that begins a call has completed the one before.** -/
theorem free_step (e : s.exec l = some s') (hf : s'.fault = false) :
    s.begins l + s'.free ≤ s.free + s.completes l := by
  rcases exec_cases e with ⟨t, pc', ht, _, hd, hset, _, hl⟩ | ⟨t, spurious, pc, rfl, ht, rfl⟩
  · obtain ⟨hb, _, _, _, hc⟩ := begins_of_call (s := s) hl
    have hsum := sum_set Pc.free pc' ht
    have hfree : pc'.free = 0 := by
      cases pc' with
      | idle => cases hd
      | _ => rfl
    have hidle : (Pc.idle : Pc T).free = 1 := rfl
    rw [free, free, hset, hb, hc]
    omega
  · obtain ⟨pc', hset, hm⟩ := run_moves ht spurious
    have hsum := sum_set Pc.free pc' ht
    have hget : (s.run t spurious pc).threads[t]? = some pc' := by
      rw [hset]
      exact List.getElem?_set_self (List.getElem?_eq_some_iff.mp ht).1
    have hone : pc'.free ≤ pc.free + s.completes (.run t spurious) := by
      simp only [completes, ht, Option.any_some, hget, hf, Pc.free]
      cases hb : pc.busy with
      | false => simp [hm.ends hb]
      | true => simp
    simp only [free, hset, begins]
    omega

end LockFreePool

/-! ## 4. Runs -/

open LockFreePool in
/-- **The pool is lock-free.** Let `n` threads push and pop in any interleaving whose steps are all
    `Quiet`, from any state such a run reaches on. All steps the threads make in their calls,
    retries included, are bounded by the calls that complete and the exchanges that fail
    spuriously. So if the threads go on making steps, calls go on completing. -/
theorem pool_lock_free {s s' : LockFreePool T} {ls : List (PoolStep T)}
    (hr : ((lockFreePools T).under Quiet).Reach s)
    (h : ((lockFreePools T).under Quiet).Runs s ls s') :
    let n := s.threads.length
    let M := (lockFreePools T).under Quiet
    M.total works s ls ≤ n * (6 * n + 7) + (3 * n + 3) * M.total completes s ls +
      3 * M.total spurious s ls := by
  intro n M
  have hsafe : s.Safe := by
    refine hr.inv (P := Safe) (fun s hi => ?_) fun s l s' hs hok e => ?_
    · obtain ⟨n, rfl⟩ := hi
      exact safe_start n
    · exact hs.step hok.1 hok.2 e
  have hinv : ∀ s l s', s.Safe ∧ s.threads.length = n → M.ok s l → M.step s l = some s' →
      s'.Safe ∧ s'.threads.length = n := by
    intro s l s' hs hok e
    exact ⟨hs.1.step hok.1 hok.2 e, (length_step e).trans hs.2⟩
  have hcost := h.potential (m := cost) (c := works)
    (p := fun s l => 6 * begins s l + (3 * (n - 1) * wins s l + 3 * spurious s l)) hinv
    (fun s l s' hs _ e => hs.2 ▸ cost_step e) ⟨hsafe, rfl⟩
  have hdue := h.potential (m := due) (c := wins) (p := begins) hinv
    (fun s l s' _ _ e => due_step e) ⟨hsafe, rfl⟩
  have hfree := h.potential (m := free) (c := begins) (p := completes) hinv
    (fun s l s' hs hok e => free_step e (hs.1.step hok.1 hok.2 e).fault) ⟨hsafe, rfl⟩
  rw [System.total_add h, System.total_add h, System.total_mul 6 h, System.total_mul 3 h,
    System.total_mul (3 * (n - 1)) h] at hcost
  have hcost₀ : s.cost ≤ n * 7 := sum_map_le fun pc _ => pc.cost_le _
  have hdue₀ : s.due ≤ n * 1 := sum_map_le fun pc _ => pc.due_le
  have hfree₀ : s.free ≤ n * 1 := sum_map_le fun pc _ => pc.free_le
  by_cases hnil : s.threads = []
  · -- without threads there is no step
    cases h with
    | nil => exact Nat.zero_le _
    | cons hok e _ =>
        rcases exec_cases e with ⟨t, _, ht, _⟩ | ⟨t, _, _, _, ht, _⟩
        · rw [hnil] at ht
          cases ht
        · rw [hnil] at ht
          cases ht
  · obtain ⟨k, hk⟩ : ∃ k, n = k + 1 :=
      Nat.exists_eq_succ_of_ne_zero fun h0 => hnil (List.length_eq_zero_iff.mp h0)
    rw [hk, Nat.add_sub_cancel] at hcost
    rw [hk] at hcost₀ hdue₀ hfree₀ ⊢
    have hwins : M.total wins s ls ≤ 2 * (k + 1) + M.total completes s ls := by omega
    have hothers := Nat.mul_le_mul_left (3 * k) hwins
    linarith

open LockFreePool in
/-- Two threads push at the same time, one loses its exchange and then fails once spuriously; then
    one pops. Three calls complete in eighteen steps. -/
theorem pool_lock_free_contended : ∃ s' ls,
    let M := (lockFreePools Nat).under Quiet
    M.Runs (.start Nat 2) ls s' ∧ M.total works (.start Nat 2) ls = 18 ∧
    M.total completes (.start Nat 2) ls = 3 ∧ M.total spurious (.start Nat 2) ls = 1 ∧
    M.total works (.start Nat 2) ls ≤ 2 * (6 * 2 + 7) +
      (3 * 2 + 3) * M.total completes (.start Nat 2) ls +
      3 * M.total spurious (.start Nat 2) ls := by
  obtain ⟨s', hrun, _⟩ := System.exists_run_of_replay ((lockFreePools Nat).under Quiet)
    (.start Nat 2)
    [.dealloc 0 10 8, .dealloc 1 20 16, .run 0 false, .run 1 false, .run 0 false, .run 1 false,
      .run 0 false, .run 1 false, .run 1 false, .run 1 false, .run 1 true, .run 1 false,
      .run 1 false, .run 1 false, .tryAlloc 0, .run 0 false, .run 0 false, .run 0 false,
      .run 0 false, .run 0 false, .run 0 false]
    (P := fun s => s.returned = [(1, 20)]) (by decide)
  exact ⟨s', _, hrun, by decide, by decide, by decide,
    pool_lock_free (.init ⟨2, rfl⟩) hrun⟩

end ArenaB
