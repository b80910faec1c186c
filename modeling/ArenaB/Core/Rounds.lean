/-
  File:      ArenaB/Core/Rounds.lean
  Subject:   How long a call of `Chunk::allocate` (src/core.rs) can take among others.

  The loop of `allocate` goes round again whenever its exchange fails. It fails spuriously, or
  because another call has moved `used` since the load; and `used` only grows, so it is moved at
  most as often as there are bytes left.

  * `works`, `spurious`, `moves`, `rivals` -- what a step of the system counts for: a step of call
    `i` before it has returned, an exchange of call `i` that fails although it finds what it
    expects, an exchange of any call that moves `used`, and one of a call other than `i`;
  * `cost` -- how many steps a call still needs if it is left alone;
  * **`bump_wait_free`** -- the steps of one call are bounded by its spurious failures and the bytes
    left, whatever the others do and however they are scheduled.
-/
import ArenaB.Base.Potential
import ArenaB.Core.Bump

namespace ArenaB

open Base

/-! ## 1. What is counted -/

/-- The call has not returned. -/
def BumpPc.busy : BumpPc → Bool
  | .ret _ => false
  | _ => true

/-- The exchange the call is at finds the value it expects. -/
def BumpCall.meets (c : Chunk) (k : BumpCall) : Bool :=
  match k.pc with
  | .exchange currentUsed _ _ => decide (c.used = currentUsed)
  | _ => false

/-- The exchange the call is at moves the offset, unless it fails spuriously. -/
def BumpCall.moves (c : Chunk) (k : BumpCall) : Bool :=
  match k.pc with
  | .exchange currentUsed _ fin => decide (c.used = currentUsed ∧ fin ≠ currentUsed)
  | _ => false

namespace SharedChunk

/-- Call `i` makes a step. -/
def works (i : Nat) (s : SharedChunk) : BumpStep → Nat
  | .call _ => 0
  | .run j _ => if j = i then (s.calls[i]?.any fun k => k.pc.busy).toNat else 0

/-- The exchange of call `i` fails spuriously. -/
def spurious (i : Nat) (s : SharedChunk) : BumpStep → Nat
  | .call _ => 0
  | .run j spurious =>
      if j = i ∧ spurious = true then (s.calls[i]?.any (BumpCall.meets s.chunk)).toNat else 0

/-- The offset is moved. -/
def moves (s : SharedChunk) : BumpStep → Nat
  | .call _ => 0
  | .run j spurious =>
      if spurious = true then 0 else (s.calls[j]?.any (BumpCall.moves s.chunk)).toNat

/-- The input is a step of call `i`. -/
def isRun (i : Nat) : BumpStep → Bool
  | .call _ => false
  | .run j _ => decide (j = i)

/-- The offset is moved by a call other than `i`. -/
def rivals (i : Nat) (s : SharedChunk) (l : BumpStep) : Nat := if isRun i l then 0 else moves s l

theorem rivals_le_moves (i : Nat) (s : SharedChunk) (l : BumpStep) : rivals i s l ≤ moves s l := by
  unfold rivals
  split
  · exact Nat.zero_le _
  · exact Nat.le_refl _

end SharedChunk

/-! ## 2. The cost of a call -/

/-- The steps a call at the given place still needs on its own; one that fails goes back to its
    load. -/
def BumpPc.cost (used : Nat) : BumpPc → Nat
  | .load => 2
  | .exchange currentUsed _ _ => if used = currentUsed then 1 else 3
  | .ret _ => 0

/-- The cost of call `i`, also if it has not been made yet. -/
def SharedChunk.cost (i : Nat) (s : SharedChunk) : Nat :=
  (s.calls[i]?.map fun k => k.pc.cost s.chunk.used).getD 2

section Cost

variable {k : BumpCall} {s s' : SharedChunk} {i : Nat}

theorem BumpPc.cost_le (used : Nat) (pc : BumpPc) : pc.cost used ≤ 3 := by
  cases pc with
  | load => exact Nat.le_succ _
  | exchange currentUsed start fin =>
      simp only [cost]
      split <;> omega
  | ret p => exact Nat.zero_le _

/-- A load is followed by an exchange that expects what it loaded, or by the return. -/
theorem Chunk.cost_reserve (c : Chunk) (l : Layout) : (c.reserve l).cost c.used ≤ 1 := by
  unfold reserve
  dsimp only
  split
  · exact Nat.zero_le _
  · split
    · exact Nat.zero_le _
    · exact Nat.le_of_eq (if_pos rfl)

/-- Only an exchange that moves the offset changes it. -/
theorem BumpCall.run_used (c : Chunk) (k : BumpCall) (spurious : Bool) :
    (k.run c spurious).1.used = c.used ∨ spurious = false ∧ k.moves c = true := by
  obtain ⟨layout, pc, reads⟩ := k
  cases pc with
  | load => exact Or.inl rfl
  | exchange currentUsed start fin =>
      by_cases hx : c.used = currentUsed ∧ spurious = false
      · by_cases hfin : fin = currentUsed
        · refine Or.inl ?_
          simp only [run, if_pos hx]
          exact hfin.trans hx.1.symm
        · exact Or.inr ⟨hx.2, decide_eq_true ⟨hx.1, hfin⟩⟩
      · refine Or.inl ?_
        simp only [run, if_neg hx]
  | ret p => exact Or.inl rfl

/-- **The step of the call itself** lowers its cost, unless it fails spuriously. -/
theorem BumpCall.run_cost (c : Chunk) (k : BumpCall) (spurious : Bool) :
    k.pc.busy.toNat + (k.run c spurious).2.pc.cost (k.run c spurious).1.used ≤
      k.pc.cost c.used + 2 * (if spurious = true then (k.meets c).toNat else 0) := by
  obtain ⟨layout, pc, reads⟩ := k
  cases pc with
  | load =>
      have := c.cost_reserve layout
      simp only [run, BumpPc.busy, Bool.toNat_true]
      exact (Nat.add_le_add_left this 1).trans (Nat.le_add_right 2 _)
  | exchange currentUsed start fin =>
      by_cases hu : c.used = currentUsed
      · cases spurious with
        | false => simp [run, hu, BumpPc.busy, BumpPc.cost]
        | true => simp [run, hu, BumpPc.busy, BumpPc.cost, meets]
      · simp [run, hu, BumpPc.busy, BumpPc.cost]
  | ret p => simp [run, BumpPc.busy, BumpPc.cost]

/-- The step of another call raises it only by moving the offset. -/
theorem BumpPc.cost_move (pc : BumpPc) {used used' n : Nat} (h : used' = used ∨ n = 1) :
    pc.cost used' ≤ pc.cost used + 2 * n := by
  rcases h with rfl | rfl
  · exact Nat.le_add_right _ _
  · cases pc with
    | load => exact Nat.le_add_right _ _
    | exchange currentUsed start fin =>
        simp only [cost]
        split <;> split <;> omega
    | ret p => exact Nat.zero_le _

/-- **Every step is paid for**: what it costs call `i` comes from its potential, a spurious failure
    of its own or a move of the offset by another call. -/
theorem SharedChunk.cost_step {l : BumpStep} (e : s.exec l = some s') :
    works i s l + s'.cost i ≤ s.cost i + (2 * SharedChunk.spurious i s l + 2 * rivals i s l) := by
  cases l with
  | call layout =>
      cases e
      -- a call that is new begins at its load
      by_cases hi : i < s.calls.length
      · have heq : (s.calls ++ [⟨layout, .load, []⟩])[i]? = s.calls[i]? :=
          List.getElem?_append_left hi
        simp only [works, cost, heq]
        omega
      · have hnone : s.calls[i]? = none := List.getElem?_eq_none (Nat.not_lt.mp hi)
        have hle : (((s.calls ++ [⟨layout, .load, []⟩])[i]?).map fun k =>
            k.pc.cost s.chunk.used).getD 2 ≤ 2 := by
          rw [List.getElem?_append_right (Nat.not_lt.mp hi)]
          cases i - s.calls.length with
          | zero => exact Nat.le_refl _
          | succ n => exact Nat.le_refl _
        simp only [works, cost, hnone]
        exact (Nat.zero_add _).trans_le (hle.trans (Nat.le_add_right _ _))
  | run j spurious =>
      obtain ⟨k, hk, rfl⟩ := Option.map_eq_some_iff.mp e
      by_cases hij : j = i
      · subst hij
        have hset : (s.calls.set j (k.run s.chunk spurious).2)[j]? =
            some (k.run s.chunk spurious).2 :=
          List.getElem?_set_self (List.getElem?_eq_some_iff.mp hk).1
        have hrun := k.run_cost s.chunk spurious
        simp only [works, SharedChunk.spurious, cost, hset, hk, if_true, true_and, Option.any_some,
          Option.map_some, Option.getD_some]
        omega
      · have hset : (s.calls.set j (k.run s.chunk spurious).2)[i]? = s.calls[i]? :=
          List.getElem?_set_ne hij
        have hmove : (k.run s.chunk spurious).1.used = s.chunk.used ∨
            rivals i s (.run j spurious) = 1 := by
          refine (k.run_used s.chunk spurious).imp_right fun h => ?_
          simp only [rivals, isRun, decide_eq_false hij, moves, h.1, hk, Option.any_some, h.2,
            Bool.false_eq_true, if_false, Bool.toNat_true]
        simp only [works, cost, hset, if_neg hij]
        cases s.calls[i]? with
        | none => exact Nat.le_add_right _ _
        | some k' =>
            have := k'.pc.cost_move hmove
            simp only [Option.map_some, Option.getD_some]
            omega

/-- The bytes left pay for the moves. -/
theorem SharedChunk.Sound.moves_step (h : s.Sound) {l : BumpStep} (e : s.exec l = some s') :
    moves s l + (s'.chunk.capacity - s'.chunk.used) ≤ s.chunk.capacity - s.chunk.used := by
  obtain ⟨h', hahead⟩ := h.step e
  have hcap := hahead.capacity
  have hle := hahead.used
  have hle' := h'.ok.used
  cases l with
  | call layout =>
      cases e
      simp only [moves]
      omega
  | run j spurious =>
      obtain ⟨k, hk, rfl⟩ := Option.map_eq_some_iff.mp e
      have hmoves : moves s (.run j spurious) = 0 ∨ (k.run s.chunk spurious).1.used ≠
          s.chunk.used ∧ moves s (.run j spurious) = 1 := by
        simp only [moves, hk, Option.any_some]
        obtain ⟨layout, pc, reads⟩ := k
        cases spurious with
        | true => exact Or.inl rfl
        | false =>
            cases pc with
            | load => exact Or.inl rfl
            | exchange currentUsed start fin =>
                by_cases hx : s.chunk.used = currentUsed ∧ fin ≠ currentUsed
                · refine Or.inr ⟨?_, ?_⟩
                  · simp only [BumpCall.run, hx.1, and_self, if_true]
                    exact hx.2
                  · simp [BumpCall.moves, hx]
                · refine Or.inl ?_
                  simp only [BumpCall.moves, decide_eq_false hx, Bool.toNat_false,
                    Bool.false_eq_true, if_false]
            | ret p => exact Or.inl rfl
      simp only at hcap hle hle' ⊢
      omega

/-- A call that has returned stays as it is. -/
theorem SharedChunk.returned_stays {l : BumpStep} (e : s.exec l = some s')
    (hk : s.calls[i]? = some k) (hret : k.pc.busy = false) : s'.calls[i]? = some k := by
  cases l with
  | call layout =>
      cases e
      exact (List.getElem?_append_left (List.getElem?_eq_some_iff.mp hk).1).trans hk
  | run j spurious =>
      obtain ⟨k', hk', rfl⟩ := Option.map_eq_some_iff.mp e
      by_cases hij : j = i
      · subst hij
        obtain rfl : k' = k := Option.some.inj (hk'.symm.trans hk)
        refine (List.getElem?_set_self (List.getElem?_eq_some_iff.mp hk).1).trans ?_
        obtain ⟨layout, pc, reads⟩ := k'
        cases pc with
        | load => cases hret
        | exchange currentUsed start fin => cases hret
        | ret p => rfl
      · exact (List.getElem?_set_ne hij).trans hk

end Cost

/-! ## 3. Runs -/

section Runs

variable {s s' : SharedChunk} {ls : List BumpStep} {i : Nat}

theorem returned_stays_run {k : BumpCall} (h : bumps.Runs s ls s') (hk : s.calls[i]? = some k)
    (hret : k.pc.busy = false) : s'.calls[i]? = some k := by
  induction h with
  | nil s => exact hk
  | cons _ e _ ih => exact ih (SharedChunk.returned_stays e hk hret)

/-- Before a call has returned, each of its steps counts. -/
theorem works_eq (h : bumps.Runs s ls s') (hi : i < s.calls.length) :
    (∃ k, s'.calls[i]? = some k ∧ k.pc.busy = false) ∨
      bumps.total (SharedChunk.works i) s ls = ls.countP (SharedChunk.isRun i) := by
  induction h with
  | nil s => exact Or.inr rfl
  | @cons s s₁ s' l ls _ e h ih =>
      obtain ⟨k, hk⟩ : ∃ k, s.calls[i]? = some k := ⟨_, List.getElem?_eq_getElem hi⟩
      by_cases hret : k.pc.busy = false
      · exact Or.inl ⟨k, returned_stays_run h (SharedChunk.returned_stays e hk hret) hret, hret⟩
      have hi₁ : i < s₁.calls.length := by
        cases l with
        | call layout =>
            cases e
            rw [List.length_append]
            omega
        | run j spurious =>
            obtain ⟨k', _, rfl⟩ := Option.map_eq_some_iff.mp e
            rw [List.length_set]
            exact hi
      refine (ih hi₁).imp_right fun heq => ?_
      have hstep : SharedChunk.works i s l = (SharedChunk.isRun i l).toNat := by
        cases l with
        | call layout => rfl
        | run j spurious =>
            by_cases hij : j = i
            · subst hij
              simp [SharedChunk.works, SharedChunk.isRun, hk, hret]
            · simp [SharedChunk.works, SharedChunk.isRun, hij]
      rw [System.total_cons e, heq, hstep, List.countP_cons, Nat.add_comm]
      cases SharedChunk.isRun i l <;> rfl

end Runs

/-- **Bounded retries.** However the calls on a chunk are scheduled, from every reachable state on:
    call `i` makes at most three steps, and two for each of its exchanges that fails spuriously and
    for each time another call moves `used`; and `used` is moved at most once for each byte that is
    left. So a call that has been given more steps than that has returned. -/
theorem bump_wait_free {s s' : SharedChunk} {ls : List BumpStep} (hr : bumps.Reach s)
    (h : bumps.Runs s ls s') (i : Nat) :
    bumps.total (SharedChunk.works i) s ls ≤ 3 + 2 * bumps.total (SharedChunk.spurious i) s ls +
      2 * bumps.total (SharedChunk.rivals i) s ls ∧
    bumps.total (SharedChunk.rivals i) s ls ≤ bumps.total SharedChunk.moves s ls ∧
    bumps.total SharedChunk.moves s ls ≤ s.chunk.capacity - s.chunk.used ∧
    (i < s.calls.length →
      3 + 2 * bumps.total (SharedChunk.spurious i) s ls + 2 * (s.chunk.capacity - s.chunk.used) <
        ls.countP (SharedChunk.isRun i) → ∃ k p, s'.calls[i]? = some k ∧ k.pc = .ret p) := by
  have hcost := h.potential (I := fun _ => True) (m := SharedChunk.cost i)
    (c := SharedChunk.works i)
    (p := fun s l => 2 * SharedChunk.spurious i s l + 2 * SharedChunk.rivals i s l)
    (fun _ _ _ _ _ _ => trivial) (fun _ _ _ _ _ e => SharedChunk.cost_step e) trivial
  rw [System.total_add h, System.total_mul 2 h, System.total_mul 2 h] at hcost
  have hrivals := System.total_mono (SharedChunk.rivals_le_moves i) h
  have hmoves := h.spent (I := SharedChunk.Sound)
    (m := fun s => s.chunk.capacity - s.chunk.used) (c := SharedChunk.moves)
    (fun _ _ _ hs _ e => (hs.step e).1) (fun _ _ _ hs _ e => hs.moves_step e) (reach_bumps hr)
  have hstart : s.cost i ≤ 3 := by
    unfold SharedChunk.cost
    cases s.calls[i]? with
    | none => exact Nat.le_succ 2
    | some k => exact k.pc.cost_le _
  have hworks : bumps.total (SharedChunk.works i) s ls ≤ 3 +
      2 * bumps.total (SharedChunk.spurious i) s ls +
      2 * bumps.total (SharedChunk.rivals i) s ls := by
    omega
  refine ⟨hworks, hrivals, by omega, fun hi hmany => ?_⟩
  rcases works_eq h hi with ⟨k, hk, hret⟩ | heq
  · obtain ⟨layout, pc, reads⟩ := k
    cases pc with
    | load => cases hret
    | exchange currentUsed start fin => cases hret
    | ret p => exact ⟨_, p, hk, rfl⟩
  · omega

/-- Two calls for one byte each on a chunk with two bytes left. The first loads, loses the byte to
    the second, fails once spuriously, and has returned when it has been given ten steps. -/
theorem bump_wait_free_pair : ∃ s s' ls, bumps.Reach s ∧ bumps.Runs s ls s' ∧
    bumps.total (SharedChunk.works 0) s ls = 6 ∧ bumps.total (SharedChunk.spurious 0) s ls = 1 ∧
    bumps.total (SharedChunk.rivals 0) s ls = 1 ∧ bumps.total SharedChunk.moves s ls = 2 ∧
    ∃ k p, s'.calls[0]? = some k ∧ k.pc = .ret p := by
  have hinit : bumps.Reach ⟨⟨4096, 2, 0⟩, []⟩ := .init ⟨⟨by decide, by decide⟩, rfl⟩
  have hr := (hinit.step (.call .byte) trivial rfl).step
    (.call .byte) trivial rfl
  obtain ⟨s', hrun, _⟩ := System.exists_run_of_replay bumps
    ⟨⟨4096, 2, 0⟩, [⟨.byte, .load, []⟩,
      ⟨.byte, .load, []⟩]⟩
    [.run 0 false, .run 1 false, .run 1 false, .run 0 false, .run 0 false, .run 0 true,
      .run 0 false, .run 0 false, .run 0 false, .run 0 false, .run 0 false, .run 0 false]
    (P := fun s => s.chunk.used = 2) (by decide)
  exact ⟨_, s', _, hr, hrun, by decide, by decide, by decide, by decide,
    (bump_wait_free hr hrun 0).2.2.2 (by decide) (by decide)⟩

end ArenaB
