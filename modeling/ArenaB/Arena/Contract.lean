/-
  File:      ArenaB/Arena/Contract.lean
  Subject:   What an arena is for, without addresses: the abstract arena and the refinement.

  The abstract arena knows no chunks, no buffer and no addresses. It keeps the contents of the
  live allocations, the ids of the valid checkpoints with the number of allocations each of them
  covers, and the stack of pushed ids. Its operations are total functions.

  * `Sess.contract` forgets the addresses of a session;
  * **`exec_refines`** -- an operation that succeeds on a session does on the contract what the
    abstract arena does. Whether the bytes came from a chunk or from the lock-free buffer is not
    visible there, so two builds that execute the same operations have the same contract.
-/
import ArenaB.Arena.Stack

namespace ArenaB

open Base

/-- The arena as its callers mean it. -/
@[ext] structure Contract where
  ledger : Ledger (List (Option UInt8)) Nat
  stack : List Nat
  nextId : Nat

namespace Contract

/-- One more live allocation. -/
def take (c : Contract) (data : List (Option UInt8)) : Contract :=
  { c with ledger := c.ledger.record data }

/-- A checkpoint with the next id, pushed or not. -/
def mark (c : Contract) (push : Bool) : Contract :=
  ⟨c.ledger.mark c.nextId, if push then c.stack ++ [c.nextId] else c.stack, c.nextId + 1⟩

/-- Back to the `i`th valid checkpoint; of `stack`, the ids below the checkpoint's remain. -/
def rewind (c : Contract) (i : Nat) (stack : List Nat) : Contract :=
  match c.ledger.marks[i]? with
  | none => c
  | some m => { c with ledger := c.ledger.rewind i, stack := stack.filter (· < m.1) }

/-- One operation. -/
def exec (c : Contract) : Op → Contract
  | .allocateRaw _ layout => c.take (List.replicate layout.size none)
  | .alloc _ value => c.take (value.bytes.map some)
  | .allocSliceCopy _ slice =>
      if slice.len = 0 ∨ (slice.elem.array slice.len).isNone then c
      else c.take (slice.bytes.map some)
  | .write i j b => { c with ledger := c.ledger.amend i (·.set j (some b)) }
  | .checkpoint => c.mark false
  | .scopeNew => c.mark false
  | .pushCheckpoint => c.mark true
  | .rewindToCheckpoint i => c.rewind i c.stack
  | .scopeReset i => c.rewind i c.stack
  | .scopeDrop i => c.rewind i c.stack
  | .popAndRewind =>
      match c.stack.getLast? with
      | none => c
      | some id => c.rewind (c.ledger.marks.findIdx fun m => m.1 = id) c.stack.dropLast
  | .clearCheckpoints => { c with stack := [] }
  | .reset => { c with ledger := .empty, stack := [] }
  | .resetAndShrinkToFit => { c with ledger := .empty, stack := [] }

end Contract

namespace Sess

/-- The contract of a session. -/
def contract (s : Sess) : Contract where
  ledger := s.ledger.map Obj.data ArenaCheckpoint.checkpointId
  stack := s.arena.inner.checkpoints.map ArenaCheckpoint.checkpointId
  nextId := s.arena.inner.currentCheckpointId

variable {s s' : Sess}

/-- The bookkeeping alone decides the contract. -/
theorem contract_eq {w : Arena} {L : Ledger Obj ArenaCheckpoint} {c : Contract}
    (h1 : L.map Obj.data ArenaCheckpoint.checkpointId = c.ledger)
    (h2 : w.inner.checkpoints.map ArenaCheckpoint.checkpointId = c.stack)
    (h3 : w.inner.currentCheckpointId = c.nextId) : (⟨w, L⟩ : Sess).contract = c :=
  Contract.ext h1 h2 h3

theorem contract_take (hs : s.arena.inner.Shape) {sys : Option Nat} {l : Layout} {p : Nat}
    {w' : Arena} (ha : s.arena.allocateRaw sys l = some (p, w')) (m : Mem)
    (data : List (Option UInt8)) :
    (⟨w'.withMem m, s.ledger.record ⟨p, data⟩⟩ : Sess).contract = s.contract.take data := by
  have hg := (Arena.allocateRaw_grows hs ha).2
  exact contract_eq (Ledger.map_record _ _) (congrArg _ hg.checkpoints) hg.nextId

theorem contract_mark (hs : s.arena.inner.Shape) {cp : ArenaCheckpoint} {a' : ArenaInner}
    (e : s.arena.inner.checkpoint = some (cp, a')) :
    (⟨s.arena.withInner a', s.ledger.mark cp⟩ : Sess).contract = s.contract.mark false ∧
    (⟨s.arena.withInner { a' with checkpoints := a'.checkpoints ++ [cp] },
      s.ledger.mark cp⟩ : Sess).contract = s.contract.mark true := by
  rw [ArenaInner.checkpoint_eq hs] at e
  cases e
  exact ⟨contract_eq (Ledger.map_mark _ _) rfl rfl,
    contract_eq (Ledger.map_mark _ _) List.map_append rfl⟩

/-- A rewind of an arena whose stack is `stack`, without the debug feature. -/
theorem contract_rewind {i : Nat} {m : ArenaCheckpoint × Nat}
    (hm : s.ledger.marks[i]? = some m) {stack : List ArenaCheckpoint} {a' : ArenaInner}
    (e : { s.arena.inner with checkpoints := stack }.rewindToCheckpoint false m.1 = some a') :
    (⟨(s.arena.withInner a').resetBuffer, s.ledger.rewind i⟩ : Sess).contract =
      s.contract.rewind i (stack.map ArenaCheckpoint.checkpointId) := by
  have hsame := Arena.same_resetBuffer (s.arena.withInner a')
  have hm' : s.contract.ledger.marks[i]? = some (m.1.checkpointId, m.2) := by
    rw [contract, Ledger.getElem?_marks_map, hm]
    rfl
  obtain ⟨_, rfl⟩ := ArenaInner.rewind_eq_some.mp e
  rw [Contract.rewind, hm']
  refine contract_eq (Ledger.map_rewind _ _) ?_ ?_
  · rw [hsame.checkpoints]
    show (stack.filter _).map _ = (stack.map _).filter _
    rw [List.filter_map]
    rfl
  · rw [hsame.nextId]
    rfl

/-- The top of the stack is found by its id. -/
theorem popIndex_eq (hk : StackOk s.arena.inner s.cps) {cp : ArenaCheckpoint}
    (hcp : s.arena.inner.checkpoints.getLast? = some cp) :
    s.popIndex = s.contract.ledger.marks.findIdx fun m => m.1 = cp.checkpointId := by
  have hmem : cp ∈ s.cps := hk.stack.subset (List.mem_of_getLast? hcp)
  have hcpi : ∀ m ∈ s.ledger.marks, (m.1 = cp ↔ m.1.checkpointId = cp.checkpointId) := by
    intro m hm
    refine ⟨fun h => h ▸ rfl, fun h => ?_⟩
    have hm1 : m.1 ∈ s.cps := List.mem_map_of_mem hm
    obtain ⟨j, hj⟩ := List.mem_iff_getElem?.mp hm1
    obtain ⟨k, hk'⟩ := List.mem_iff_getElem?.mp hmem
    by_cases hjk : j = k
    · subst hjk
      rw [hj] at hk'
      exact Option.some.inj hk'
    · have := pairwise_getElem?_ne
        (R := fun c d : ArenaCheckpoint => c.checkpointId ≠ d.checkpointId) (fun _ _ h => h.symm)
        (hk.ids.imp Nat.ne_of_lt) hjk hj hk'
      exact absurd h this
  have hidx : s.popIndex = s.ledger.marks.findIdx fun m => m.1 = cp := by rw [popIndex, hcp]
  show s.popIndex = (s.ledger.marks.map fun m => (m.1.checkpointId, m.2)).findIdx _
  rw [hidx, List.findIdx_map]
  exact findIdx_congr fun m hm => decide_eq_decide.mpr (hcpi m hm)

theorem exec_asks {c : Contract} {op : Op} {sys : Option Nat} {l : Layout}
    {data : List (Option UInt8)} (h : op.Asks sys l data) : c.exec op = c.take data := by
  cases h with
  | allocateRaw sys l => rfl
  | alloc sys v => rfl
  | @allocSliceCopy sys sl l h0 hl =>
      have hne : ¬ (sl.len = 0 ∨ (sl.elem.array sl.len).isNone) := by simp [h0, hl]
      exact if_neg hne

/-- **Refinement**: an operation does on the contract what the abstract arena does. -/
theorem exec_refines (hk : StackOk s.arena.inner s.cps) {op : Op}
    (e : s.exec false op = some s') : s'.contract = s.contract.exec op := by
  cases s.exec_acts e with
  | take hask hw _ _ => exact (contract_take hk.shape hw _ _).trans (exec_asks hask).symm
  | skip h0 => exact (if_pos (h0.imp_right Option.isNone_iff_eq_none.mpr)).symm
  | write _ _ => exact contract_eq (Ledger.map_amend _ _ fun _ => rfl) rfl rfl
  | mark hop ha => cases hop <;> exact (contract_mark hk.shape ha).1
  | push ha => exact (contract_mark hk.shape ha).2
  | rewind hop hm ha =>
      have hr := contract_rewind hm ha
      cases hop <;> exact hr
  | pop hcp ha =>
      obtain ⟨m, hm, rfl⟩ := popIndex_spec hk hcp
      have htop : s.contract.stack.getLast? = some m.1.checkpointId := by
        show (s.arena.inner.checkpoints.map _).getLast? = _
        rw [List.getLast?_map, hcp]
        rfl
      have hpop : s.contract.exec .popAndRewind =
          s.contract.rewind s.popIndex s.contract.stack.dropLast := by
        rw [popIndex_eq hk hcp, Contract.exec, htop]
      rw [hpop]
      refine (contract_rewind hm ha).trans (congrArg _ ?_)
      exact List.map_dropLast
  | clear => rfl
  | reset =>
      refine contract_eq rfl ?_ ?_
      · rw [Arena.reset, (Arena.same_resetBuffer _).checkpoints]
        rfl
      · rw [Arena.reset, (Arena.same_resetBuffer _).nextId]
        rfl
  | shrink => rfl

end Sess

end ArenaB
