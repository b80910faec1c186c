/-
  File:      ArenaB/Base/System.lean
  Subject:   Transition systems with an executable step and an environment.

  The step function decides what the program does, `ok` says what the environment may feed it
  (which blocks a system allocator may hand out, which references a caller still holds). The
  rules used by every machine of the development:

  * `Reach.inv` -- an invariant that holds at the start and survives every step holds everywhere;
  * `Reach.image` -- a part of the state on which the steps are those of another machine;
  * `System.under G` -- the same machine on the runs whose every step meets `G`: it reaches less
    (`Reach.of_under`), and it reaches everything when `G` always holds (`Reach.under`);
  * `Reach.replay`, `exists_reach_of_replay` -- a list of inputs, checked and executed, ends in a
    reachable state;
  * `System.withGhost` -- the machine with a value beside the state that its steps only write: it
    has the same runs (`Reach.of_withGhost`, `Reach.exists_ghost`);
  * `iter` -- a loop whose body may fail, and the rule for a measure that every round raises.
-/
import Mathlib.Logic.Basic

namespace Base

universe u v w x

/-- A transition system: start states, the inputs the environment may give, the step. -/
structure System (S : Type u) (L : Type v) where
  init : S → Prop
  ok : S → L → Prop
  step : S → L → Option S

namespace System

variable {S : Type u} {L : Type v} {M : System S L}

/-- The states the system reaches. -/
inductive Reach (M : System S L) : S → Prop where
  | init {s : S} : M.init s → Reach M s
  | step {s s' : S} (l : L) : Reach M s → M.ok s l → M.step s l = some s' → Reach M s'

/-- **The invariant rule.** -/
theorem Reach.inv {P : S → Prop} (h0 : ∀ s, M.init s → P s)
    (hs : ∀ s l s', P s → M.ok s l → M.step s l = some s' → P s') {s : S} (h : M.Reach s) :
    P s := by
  induction h with
  | init hi => exact h0 _ hi
  | step l _ hok he ih => exact hs _ l _ ih hok he

/-- The invariant rule with reachability at hand in the step. -/
theorem Reach.inv' {P : S → Prop} (h0 : ∀ s, M.init s → P s)
    (hs : ∀ s l s', M.Reach s → P s → M.ok s l → M.step s l = some s' → P s') {s : S}
    (h : M.Reach s) : P s := by
  induction h with
  | init hi => exact h0 _ hi
  | step l hr hok he ih => exact hs _ l _ hr ih hok he

/-- **The projection rule**: a part of the state on which every step is a step of another machine,
    or nothing, runs as that machine does. -/
theorem Reach.image {S' : Type w} {L' : Type x} {M' : System S' L'} (f : S → S')
    (h0 : ∀ s, M.init s → M'.init (f s))
    (hs : ∀ s l s', M.ok s l → M.step s l = some s' → f s' = f s ∨
      ∃ l', M'.ok (f s) l' ∧ M'.step (f s) l' = some (f s')) {s : S} (h : M.Reach s) :
    M'.Reach (f s) := by
  induction h with
  | init hi => exact .init (h0 _ hi)
  | step l _ hok he ih =>
      rcases hs _ l _ hok he with heq | ⟨l', hok', he'⟩
      · rw [heq]
        exact ih
      · exact .step l' ih hok' he'

/-- The machine on the runs whose steps all meet `G`. -/
def under (M : System S L) (G : S → L → Prop) : System S L :=
  { M with ok := fun s l => M.ok s l ∧ G s l }

instance {G : S → L → Prop} [∀ s l, Decidable (M.ok s l)] [∀ s l, Decidable (G s l)] (s : S)
    (l : L) : Decidable ((M.under G).ok s l) :=
  inferInstanceAs (Decidable (M.ok s l ∧ G s l))

theorem Reach.of_under {G : S → L → Prop} {s : S} (h : (M.under G).Reach s) : M.Reach s := by
  induction h with
  | init hi => exact .init hi
  | step l _ hok he ih => exact .step l ih hok.1 he

theorem Reach.under {G : S → L → Prop} (hG : ∀ s l, M.Reach s → M.ok s l → G s l) {s : S}
    (h : M.Reach s) : (M.under G).Reach s := by
  induction h with
  | init hi => exact .init hi
  | step l hr hok he ih => exact .step l ih ⟨hok, hG _ l hr hok⟩ he

/-- Executes a list of inputs, refusing one the environment may not give. -/
def replay (M : System S L) [∀ s l, Decidable (M.ok s l)] : S → List L → Option S
  | s, [] => some s
  | s, l :: ls => if M.ok s l then (M.step s l).bind (replay M · ls) else none

theorem Reach.replay [∀ s l, Decidable (M.ok s l)] :
    ∀ {s s' : S} {ls : List L}, M.Reach s → M.replay s ls = some s' → M.Reach s'
  | s, s', [], hr, h => by
      simp only [System.replay, Option.some.injEq] at h
      exact h ▸ hr
  | s, s', l :: ls, hr, h => by
      unfold System.replay at h
      split at h
      · rename_i hok
        obtain ⟨s1, h1, h2⟩ := Option.bind_eq_some_iff.mp h
        exact Reach.replay (.step l hr hok h1) h2
      · cases h

/-- A list of inputs whose execution ends in a state with `P` shows that such a state is reached. -/
theorem exists_reach_of_replay (M : System S L) [∀ s l, Decidable (M.ok s l)] (ls : List L)
    {s : S} (hs : M.init s) {P : S → Prop} [DecidablePred P]
    (h : (M.replay s ls).any (fun s' => decide (P s')) = true) : ∃ s', M.Reach s' ∧ P s' := by
  cases e : M.replay s ls with
  | none =>
      rw [e] at h
      cases h
  | some s' =>
      rw [e] at h
      exact ⟨s', (Reach.init hs).replay e, of_decide_eq_true h⟩

variable {G : Type w} {g₀ : G} {next : S → L → G → G}

/-- The machine with a value beside the state, which starts at `g₀` and follows the steps. -/
def withGhost (M : System S L) (g₀ : G) (next : S → L → G → G) : System (S × G) L where
  init x := M.init x.1 ∧ x.2 = g₀
  ok x l := M.ok x.1 l
  step x l := (M.step x.1 l).map fun s => (s, next x.1 l x.2)

instance [∀ s l, Decidable (M.ok s l)] (x : S × G) (l : L) :
    Decidable ((M.withGhost g₀ next).ok x l) :=
  inferInstanceAs (Decidable (M.ok x.1 l))

theorem Reach.of_withGhost {x : S × G} (h : (M.withGhost g₀ next).Reach x) : M.Reach x.1 := by
  induction h with
  | init hi => exact .init hi.1
  | step l _ hok he ih =>
      obtain ⟨s', hs, rfl⟩ := Option.map_eq_some_iff.mp he
      exact .step l ih hok hs

/-- Every run can be followed beside the state. -/
theorem Reach.exists_ghost (g₀ : G) (next : S → L → G → G) {s : S} (h : M.Reach s) :
    ∃ g, (M.withGhost g₀ next).Reach (s, g) := by
  induction h with
  | init hi => exact ⟨g₀, .init ⟨hi, rfl⟩⟩
  | step l _ hok he ih =>
      obtain ⟨g, hg⟩ := ih
      exact ⟨next _ l g, .step l hg hok (Option.map_eq_some_iff.mpr ⟨_, he, rfl⟩)⟩

end System

/-- The body at `0`, ..., `n - 1`, stopping where it fails. -/
def iter {S : Type u} (body : Nat → S → Option S) : Nat → S → Option S
  | 0, s => some s
  | n + 1, s => (iter body n s).bind (body n)

/-- **The loop rule** for a measure that every round raises by `k`. -/
theorem iter_measure {S : Type u} {body : Nat → S → Option S} {P : S → Prop} {m : S → Nat} {k : Nat}
    (h : ∀ i s s', P s → body i s = some s' → P s' ∧ m s' = m s + k) {s : S} (hs : P s) :
    ∀ {n : Nat} {s' : S}, iter body n s = some s' → P s' ∧ m s' = m s + n * k
  | 0, s', e => by
      cases e
      exact ⟨hs, by omega⟩
  | n + 1, s', e => by
      obtain ⟨s₁, h₁, e⟩ := Option.bind_eq_some_iff.mp e
      obtain ⟨hP, hm⟩ := iter_measure h hs h₁
      obtain ⟨hP', hm'⟩ := h n s₁ s' hP e
      refine ⟨hP', ?_⟩
      rw [hm', hm, Nat.succ_mul, Nat.add_assoc]

end Base
