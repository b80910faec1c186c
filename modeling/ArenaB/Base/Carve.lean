/-
  File:      ArenaB/Base/Carve.lean
  Subject:   Ranges carved out of one block by several holders.

  Each holder has a range in hand (`held`), from which it gives away pieces (`given`). What one
  holder may take is whatever no other has in hand and nobody was given.

  * `Carve.Ok` -- all ranges in hand and all given ones are pairwise apart;
  * `Carve.Avoids i F` -- nothing of `F` is in another hand than `i`'s, or given: `F` may be the
    range in hand itself (`Ok.avoids_held`), also with everything from a bound on that all ranges
    stay below (`Ok.avoids_above`);
  * **`Ok.renew`** -- a holder takes a new range from there and gives at most one piece of it away;
    `Ok.take`, `Ok.shrink` -- it gives nothing, or nobody takes anything.
-/
import ArenaB.Base.Span

namespace Base

universe u

/-- The ranges in hand and the ranges given away. -/
structure Carve (ι : Type u) where
  held : ι → Span
  given : List Span

namespace Carve

variable {ι : Type u}

/-- All ranges are apart. -/
structure Ok (c : Carve ι) : Prop where
  held : ∀ i j, i ≠ j → (c.held i).Apart (c.held j)
  given : c.given.Pairwise Span.Apart
  apart : ∀ s ∈ c.given, ∀ i, s.Apart (c.held i)

/-- Nothing of `F` is in another hand than `i`'s, or given. -/
structure Avoids (c : Carve ι) (i : ι) (F : Nat → Prop) : Prop where
  held : ∀ j, j ≠ i → ∀ x, (c.held j).Has x → ¬ F x
  given : ∀ s ∈ c.given, ∀ x, s.Has x → ¬ F x

/-- All ranges stay below `n`. -/
structure Below (c : Carve ι) (n : Nat) : Prop where
  held : ∀ i x, (c.held i).Has x → x < n
  given : ∀ s ∈ c.given, ∀ x, s.Has x → x < n

variable {c c' : Carve ι} {i : ι} {F : Nat → Prop}

theorem Avoids.mono {F' : Nat → Prop} (h : c.Avoids i F) (hF : ∀ x, F' x → F x) :
    c.Avoids i F' :=
  ⟨fun j hj x hx hx' => h.held j hj x hx (hF x hx'),
    fun s hs x hx hx' => h.given s hs x hx (hF x hx')⟩

theorem Ok.avoids_held (h : c.Ok) (i : ι) : c.Avoids i (c.held i).Has :=
  ⟨fun j hj x hx => Span.apart_iff.mp (h.held j i hj) x hx,
    fun s hs x hx => Span.apart_iff.mp (h.apart s hs i) x hx⟩

theorem Ok.avoids_above (h : c.Ok) {n : Nat} (hn : c.Below n) (i : ι) :
    c.Avoids i fun x => (c.held i).Has x ∨ n ≤ x := by
  refine ⟨fun j hj x hx => ?_, fun s hs x hx => ?_⟩
  · rintro (hx' | hx')
    · exact (h.avoids_held i).held j hj x hx hx'
    · exact absurd (hn.held j x hx) (Nat.not_lt.mpr hx')
  · rintro (hx' | hx')
    · exact (h.avoids_held i).given s hs x hx hx'
    · exact absurd (hn.given s hs x hx) (Nat.not_lt.mpr hx')

/-- **One holder takes a new range in hand and gives at most one away**, both from `F`, of which
    nothing was given before and nothing is in another hand after; the others at most shrink. -/
theorem Ok.renew (h : c.Ok) (i : ι) (F : Nat → Prop) {new : Option Span}
    (hother : ∀ j, j ≠ i → ∀ x, (c'.held j).Has x → (c.held j).Has x ∧ ¬ F x)
    (hold : ∀ s ∈ c.given, ∀ x, s.Has x → ¬ F x)
    (hheld : ∀ x, (c'.held i).Has x → F x) (hgiven : c'.given = c.given ++ new.toList)
    (hnew : ∀ s ∈ new, ∀ x, s.Has x → F x ∧ ¬ (c'.held i).Has x) : c'.Ok := by
  refine ⟨fun j k hjk => Span.apart_iff.mpr fun x hj hk => ?_, ?_, fun s hs j => ?_⟩
  · by_cases hji : j = i
    · subst hji
      exact (hother k (Ne.symm hjk) x hk).2 (hheld x hj)
    · by_cases hki : k = i
      · subst hki
        exact (hother j hji x hj).2 (hheld x hk)
      · exact Span.apart_iff.mp (h.held j k hjk) x (hother j hji x hj).1 (hother k hki x hk).1
  · rw [hgiven]
    refine List.pairwise_append.mpr ⟨h.given, ?_, fun s hs t ht => ?_⟩
    · cases new with
      | none => exact .nil
      | some s => exact List.pairwise_singleton _ s
    · refine Span.apart_iff.mpr fun x hx hx' => hold s hs x hx ?_
      exact (hnew t (Option.mem_toList.mp ht) x hx').1
  · refine Span.apart_iff.mpr fun x hx hj => ?_
    rw [hgiven] at hs
    rcases List.mem_append.mp hs with hs | hs
    · by_cases hji : j = i
      · subst hji
        exact hold s hs x hx (hheld x hj)
      · exact Span.apart_iff.mp (h.apart s hs j) x hx (hother j hji x hj).1
    · obtain ⟨h1, h2⟩ := hnew s (Option.mem_toList.mp hs) x hx
      by_cases hji : j = i
      · subst hji
        exact h2 hj
      · exact (hother j hji x hj).2 h1

/-- One holder takes a new range in hand and gives nothing away. -/
theorem Ok.take (h : c.Ok) (i : ι) (F : Nat → Prop)
    (hother : ∀ j, j ≠ i → ∀ x, (c'.held j).Has x → (c.held j).Has x ∧ ¬ F x)
    (hold : ∀ s ∈ c.given, ∀ x, s.Has x → ¬ F x) (hheld : ∀ x, (c'.held i).Has x → F x)
    (hgiven : c'.given = c.given) : c'.Ok := by
  have hnone : c'.given = c.given ++ (none : Option Span).toList := by simp [hgiven]
  exact h.renew i F hother hold hheld hnone fun _ h => nomatch h

/-- All ranges at most shrink. -/
theorem Ok.shrink (h : c.Ok) (hheld : ∀ i x, (c'.held i).Has x → (c.held i).Has x)
    (hgiven : c'.given = c.given) : c'.Ok := by
  refine ⟨fun i j hij => Span.apart_iff.mpr fun x hi hj => ?_, hgiven ▸ h.given, fun s hs i => ?_⟩
  · exact Span.apart_iff.mp (h.held i j hij) x (hheld i x hi) (hheld j x hj)
  · refine Span.apart_iff.mpr fun x hx hi => ?_
    exact Span.apart_iff.mp (h.apart s (hgiven ▸ hs) i) x hx (hheld i x hi)

/-- Nobody has anything. -/
theorem ok_empty (hheld : ∀ i x, ¬ (c.held i).Has x) (hgiven : c.given = []) : c.Ok :=
  ⟨fun i _ _ => Span.apart_iff.mpr fun x hi => absurd hi (hheld i x), hgiven ▸ .nil,
    fun s hs => by rw [hgiven] at hs; cases hs⟩

end Carve

end Base
