/-
  File:      ArenaB/Base/Lock.lean
  Subject:   A mutex around an object whose uses come in sessions.

  The object is a system of its own. Each of its inputs is made by some thread (`who`), and in
  between a session may be open (`opener` names the thread that has it). Without a lock threads mix
  their inputs as they like; behind one a thread acts only while it holds the lock, and gives it
  back only when its session is over. A holder that unwinds leaves the mutex poisoned, and the
  poison is ignored by whoever locks it next.

  * `locked M who opener` -- the object behind the mutex, any number of threads, in any order of
    their steps;
  * **`locked_serial`** -- all the lock lets through are the runs of the object in which a session
    belongs to one thread; whatever is known of those is known behind the lock. While the lock is
    free no session is open, and a thread is inside exactly if it holds the lock.
-/
import ArenaB.Base.Ledger
import ArenaB.Base.System

namespace Base

universe u v

/-- Where a thread is. -/
inductive Phase where
  | idle
  /-- Blocked in `lock`. -/
  | waiting
  | inside
  deriving DecidableEq, Repr

/-- An object, the mutex around it, the threads. -/
structure Locked (S : Type u) where
  obj : S
  holder : Option Nat
  poisoned : Bool
  threads : List Phase

/-- The scheduler's choice. -/
inductive LockStep (L : Type v) where
  | call (t : Nat)
  | lock (t : Nat)
  | act (t : Nat) (l : L)
  /-- The guard is dropped, by a return or while a panic unwinds. -/
  | unlock (t : Nat) (panicking : Bool)

section Lock

variable {S : Type u} {L : Type v}

/-- One step. -/
def Locked.exec (M : System S L) (opener : S → Option Nat) (s : Locked S) :
    LockStep L → Option (Locked S)
  | .call t =>
      if s.threads[t]? = some .idle then some { s with threads := s.threads.set t .waiting }
      else none
  | .lock t =>
      if s.threads[t]? = some .waiting ∧ s.holder = none then
        some { s with holder := some t, threads := s.threads.set t .inside }
      else none
  | .act t l =>
      if s.holder = some t then (M.step s.obj l).map fun obj => { s with obj := obj } else none
  | .unlock t panicking =>
      if s.holder = some t ∧ opener s.obj = none then
        some { s with
          holder := none
          poisoned := s.poisoned || panicking
          threads := s.threads.set t .idle }
      else none

/-- A thread speaks for itself. -/
def Locked.Ok (M : System S L) (who : L → Nat) (s : Locked S) : LockStep L → Prop
  | .act t l => M.ok s.obj l ∧ who l = t
  | _ => True

/-- The object behind the mutex. -/
def locked (M : System S L) (who : L → Nat) (opener : S → Option Nat) :
    System (Locked S) (LockStep L) where
  init s := M.init s.obj ∧ s.holder = none ∧ s.poisoned = false ∧ ∀ p ∈ s.threads, p = .idle
  ok := Locked.Ok M who
  step := Locked.exec M opener

instance {M : System S L} {who : L → Nat} {opener : S → Option Nat}
    [∀ s l, Decidable (M.ok s l)] (s : Locked S) :
    (l : LockStep L) → Decidable ((locked M who opener).ok s l)
  | .act t l => inferInstanceAs (Decidable (M.ok s.obj l ∧ who l = t))
  | .call _ => isTrue trivial
  | .lock _ => isTrue trivial
  | .unlock _ _ => isTrue trivial

/-- The inputs that respect an open session. -/
def Serial (who : L → Nat) (opener : S → Option Nat) (s : S) (l : L) : Prop :=
  ∀ t ∈ opener s, who l = t

variable {M : System S L} {who : L → Nat} {opener : S → Option Nat} {s s' : Locked S}

/-- What the mutex keeps. -/
structure Locked.Held (opener : S → Option Nat) (s : Locked S) : Prop where
  /-- An open session is the holder's. -/
  session : ∀ t ∈ opener s.obj, s.holder = some t
  inside : ∀ t, s.threads[t]? = some .inside ↔ s.holder = some t

theorem Locked.Held.holder_lt (h : s.Held opener) {t : Nat} (ht : s.holder = some t) :
    t < s.threads.length :=
  (List.getElem?_eq_some_iff.mp ((h.inside t).mpr ht)).1

/-- The mutex keeps it, if no thread opens a session for another. -/
theorem Locked.Held.step
    (hopen : ∀ o l o', M.step o l = some o' → ∀ t ∈ opener o', t ∈ opener o ∨ who l = t)
    (h : s.Held opener) {l : LockStep L} (hok : (locked M who opener).ok s l)
    (e : s.exec M opener l = some s') : s'.Held opener := by
  cases l with
  | call t =>
      simp only [exec] at e
      split at e
      · rename_i ht
        cases e
        refine ⟨h.session, fun i => ?_⟩
        have hlt := (List.getElem?_eq_some_iff.mp ht).1
        by_cases hi : t = i
        · subst hi
          -- a thread that begins to wait was not the holder
          have hne : s.holder ≠ some t := fun hh => by
            rw [(h.inside t).mpr hh] at ht
            cases ht
          simp [List.getElem?_set_self hlt, hne]
        · rw [List.getElem?_set_ne hi]
          exact h.inside i
      · cases e
  | lock t =>
      simp only [exec] at e
      split at e
      · rename_i ht
        cases e
        refine ⟨fun i hi => ?_, fun i => ?_⟩
        · have := h.session i hi
          rw [ht.2] at this
          cases this
        · have hlt := (List.getElem?_eq_some_iff.mp ht.1).1
          by_cases hi : t = i
          · subst hi
            simp [List.getElem?_set_self hlt]
          · rw [List.getElem?_set_ne hi, h.inside i, ht.2]
            simp [hi]
      · cases e
  | act t l =>
      simp only [exec] at e
      split at e
      · rename_i ht
        obtain ⟨o, ho, rfl⟩ := Option.map_eq_some_iff.mp e
        refine ⟨fun i hi => ?_, h.inside⟩
        rcases hopen _ _ _ ho i hi with hi | rfl
        · exact h.session i hi
        · rw [hok.2]
          exact ht
      · cases e
  | unlock t panicking =>
      simp only [exec] at e
      split at e
      · rename_i ht
        cases e
        refine ⟨fun i hi => ?_, fun i => ?_⟩
        · have hi' : opener s.obj = some i := hi
          rw [ht.2] at hi'
          cases hi'
        · by_cases hi : t = i
          · subst hi
            simp [List.getElem?_set_self (h.holder_lt ht.1)]
          · rw [List.getElem?_set_ne hi, h.inside i, ht.1]
            simp [hi]
      · cases e

/-- **What a lock is for**: behind it the object is run by one thread per session. While the lock is
    free no session is open, and a thread is inside exactly if it holds the lock. -/
theorem locked_serial (hinit : ∀ o, M.init o → opener o = none)
    (hopen : ∀ o l o', M.step o l = some o' → ∀ t ∈ opener o', t ∈ opener o ∨ who l = t)
    (h : (locked M who opener).Reach s) :
    (M.under (Serial who opener)).Reach s.obj ∧ (s.holder = none → opener s.obj = none) ∧
      ∀ t, s.threads[t]? = some .inside ↔ s.holder = some t := by
  have hboth : (M.under (Serial who opener)).Reach s.obj ∧ s.Held opener := by
    refine h.inv (P := fun s => (M.under (Serial who opener)).Reach s.obj ∧ s.Held opener)
      (fun s hi => ?_) fun s l s' hs hok e => ?_
    · obtain ⟨h₀, hh, _, hidle⟩ := hi
      refine ⟨.init h₀, fun t ht => ?_, fun t => ?_⟩
      · rw [hinit _ h₀] at ht
        cases ht
      · rw [hh]
        refine ⟨fun ht => ?_, fun ht => by cases ht⟩
        cases hidle _ (List.mem_of_getElem? ht)
    · refine ⟨?_, hs.2.step hopen hok e⟩
      cases l with
      | act t l =>
          simp only [locked, Locked.exec] at e
          split at e
          · rename_i ht
            obtain ⟨o, ho, rfl⟩ := Option.map_eq_some_iff.mp e
            refine .step l hs.1 ⟨hok.1, fun i hi => ?_⟩ ho
            have := hs.2.session i hi
            rw [ht] at this
            cases this
            exact hok.2
          · cases e
      | call t =>
          simp only [locked, Locked.exec] at e
          split at e
          · cases e
            exact hs.1
          · cases e
      | lock t =>
          simp only [locked, Locked.exec] at e
          split at e
          · cases e
            exact hs.1
          · cases e
      | unlock t panicking =>
          simp only [locked, Locked.exec] at e
          split at e
          · cases e
            exact hs.1
          · cases e
  refine ⟨hboth.1, fun hh => ?_, hboth.2.inside⟩
  cases ho : opener s.obj with
  | none => rfl
  | some t =>
      have := hboth.2.session t ho
      rw [hh] at this
      cases this

end Lock

end Base
