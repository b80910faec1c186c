/-
  File:      ArenaB/Arena/Capacity.lean
  Subject:   `Chunk::new`, `ArenaInner::add_chunk` and `Arena::try_with_capacity` over the whole
             range of `usize`, in a build with overflow checks and in one without.

  `capacity + 63` passes the word size for the last 63 capacities. With overflow checks (a debug
  build) it panics; without them (the release profile of Cargo.toml sets none) it wraps and the
  mask leaves a layout of no bytes, for which the system allocator is then asked.

  * `Chunk.newIn`, `ArenaInner.addChunkIn`, `Arena.tryWithCapacity` -- the three functions with
    the build as an argument; `none` is the panic;
  * `Chunk.dropLayout` -- the layout `Drop for Chunk` hands to `dealloc`;
  * `capacity_exact_iff` -- each of the three is exact (an error, or a chunk of the capacity
    rounded up to 64 that is freed as it was allocated) if and only if the sum does not overflow,
    or a release build is refused the memory.
-/
import ArenaB.Arena.Ops

namespace ArenaB

open Base

/-! ## 1. The functions, with the build as an argument -/

/-- `ArenaError` of error.rs. -/
inductive ArenaError where
  | allocationFailed (message : String)
  | virtualMemoryError (message : String)
  | invalidLayout (message : String)
  | other (message : String)
  deriving DecidableEq, Repr

namespace Chunk

/-- Whether `capacity + 63` panics: in a build with overflow checks, behind the test for zero. -/
def roundPanics (checks : Bool) (capacity : Nat) : Bool :=
  checks && decide (capacity ≠ 0) && decide (wordMod ≤ capacity + 63)

/-- `Chunk::new` in a build with or without overflow checks. -/
def newIn (checks : Bool) (sys : Option Nat) (capacity : Nat) : Option (Except String Chunk) :=
  if roundPanics checks capacity then none else some (new sys capacity)

/-- The layout `Chunk::new` asks the system allocator for. -/
def newLayout (capacity : Nat) : Option Layout := Layout.fromSizeAlign (roundCapacity capacity) 64

/-- `Drop for Chunk`: the layout given to `dealloc`; a chunk of no bytes is not given back. -/
def dropLayout (c : Chunk) : Option Layout :=
  if c.capacity > 0 then
    match Layout.fromSizeAlign c.capacity 64 with
    | some layout => some layout
    | none => Layout.fromSizeAlign 64 64
  else none

end Chunk

/-- `ArenaInner::new` in a build with or without overflow checks: its first call is `Chunk::new`. -/
def ArenaInner.newIn (checks : Bool) (sys : Option Nat) (lockfree : Option (Option Nat))
    (capacity : Nat) : Option (Except String ArenaInner) :=
  if Chunk.roundPanics checks capacity then none else some (ArenaInner.new sys lockfree capacity)

/-- `ArenaInner::add_chunk` in a build with or without overflow checks. -/
def ArenaInner.addChunkIn (a : ArenaInner) (checks : Bool) (sys : Option Nat) (capacity : Nat) :
    Option (Except String (Nat × ArenaInner)) :=
  if Chunk.roundPanics checks capacity then none else some (a.addChunk sys capacity)

/-- `Arena::try_with_capacity`. -/
def Arena.tryWithCapacity (checks : Bool) (sys : Option Nat) (lockfree : Option (Option Nat))
    (owner : Nat) (slab : ThreadSlab) (mem : Mem) (capacity : Nat) :
    Option (Except ArenaError Arena) :=
  (ArenaInner.newIn checks sys lockfree capacity).map fun r =>
    match r with
    | .error s => .error (.allocationFailed s)
    | .ok inner => .ok ⟨inner, LockFreeStats.new, owner, slab, mem⟩

/-! ## 2. What an exact outcome is -/

/-- No panic, and a value that is returned satisfies `P`. -/
def Delivers {ε α : Type} (P : α → Prop) : Option (Except ε α) → Prop
  | none => False
  | some (.error _) => True
  | some (.ok x) => P x

/-- The chunk `c` is what was asked for: its capacity is the requested one rounded up to 64, and
    it is given back under the layout it was allocated with. -/
structure Chunk.Exact (capacity : Nat) (c : Chunk) : Prop where
  dvd : 64 ∣ c.capacity
  le : capacity ≤ c.capacity
  lt : c.capacity < capacity + 64
  layout : ∃ l, newLayout capacity = some l ∧ c.dropLayout = some l

/-- When the three functions are exact for `capacity`. -/
def RoundsUp (checks : Bool) (sys : Option Nat) (capacity : Nat) : Prop :=
  capacity + 63 < wordMod ∨ (checks = false ∧ sys = none)

namespace Chunk

section Round

variable {capacity : Nat}

/-- The rounding below the last 63 values: up to a multiple of 64, by less than 64. -/
theorem roundCapacity_spec (h : capacity + 63 < wordMod) :
    64 ∣ roundCapacity capacity ∧ capacity ≤ roundCapacity capacity ∧
      roundCapacity capacity < capacity + 64 := by
  have hsum := roundCapacity_add_mod h
  omega

theorem roundPanics_eq_false (checks : Bool) (h : capacity + 63 < wordMod) :
    roundPanics checks capacity = false := by
  have hd : decide (wordMod ≤ capacity + 63) = false := decide_eq_false (Nat.not_le.mpr h)
  rw [roundPanics, hd, Bool.and_false]

/-- In the last 63 values the build decides whether the sum panics. -/
theorem roundPanics_eq (checks : Bool) (h : wordMod ≤ capacity + 63) :
    roundPanics checks capacity = checks := by
  have hz : capacity ≠ 0 := by
    rintro rfl
    exact absurd h (by decide)
  rw [roundPanics, decide_eq_true hz, decide_eq_true h, Bool.and_true, Bool.and_true]

/-- A chunk `Chunk::new` returns is freed under the layout it was allocated with, unless it has
    no bytes. -/
theorem dropLayout_new {sys : Option Nat} {c : Chunk} (h : new sys capacity = .ok c)
    (hc : c.capacity ≠ 0) : ∃ l, newLayout capacity = some l ∧ c.dropLayout = some l := by
  have hcap : c.capacity = roundCapacity capacity := (new_ok h).2.1
  have hlay : ∃ l, newLayout capacity = some l := by
    unfold new at h
    split at h
    · cases h
    · split at h
      · cases h
      · rename_i layout hl
        exact ⟨layout, hl⟩
  obtain ⟨l, hl⟩ := hlay
  refine ⟨l, hl, ?_⟩
  have hl' : Layout.fromSizeAlign c.capacity 64 = some l := by rwa [hcap]
  rw [dropLayout, if_pos (Nat.pos_of_ne_zero hc), hl']

/-- **`Chunk::new` without an overflow**: a chunk that is returned is exact. -/
theorem exact_of_new {sys : Option Nat} {c : Chunk} (h : capacity + 63 < wordMod)
    (e : new sys capacity = .ok c) : c.Exact capacity := by
  obtain ⟨hdvd, hle, hlt⟩ := roundCapacity_spec h
  have hcap : c.capacity = roundCapacity capacity := (new_ok e).2.1
  have hne : capacity ≠ 0 := by
    rintro rfl
    cases e
  rw [← hcap] at hdvd hle hlt
  exact ⟨hdvd, hle, hlt, dropLayout_new e (by omega)⟩

/-- **`Chunk::new` with the overflow of a release build**: it returns a chunk of no bytes. -/
theorem new_wrapped (h : wordMod ≤ capacity + 63) (hc : capacity < wordMod) (sys : Option Nat) :
    new sys capacity =
      match sys with
      | none => .error "Failed to allocate memory"
      | some ptr => .ok ⟨ptr, 0, 0⟩ := by
  have hz : capacity ≠ 0 := by
    rintro rfl
    exact absurd h (by decide)
  rw [new, if_neg hz, roundCapacity_wrapped h hc]
  -- A layout of no bytes is a valid one.
  cases sys with
  | none => rfl
  | some ptr => rfl

theorem not_exact_of_wrapped {ptr : Nat} (h : wordMod ≤ capacity + 63) :
    ¬ Exact capacity ⟨ptr, 0, 0⟩ := by
  intro he
  have hle : capacity ≤ 0 := he.le
  obtain rfl : capacity = 0 := Nat.le_zero.mp hle
  exact absurd h (by decide)

end Round

end Chunk

/-! ## 3. The three functions -/

section Outcomes

variable {checks : Bool} {sys : Option Nat} {capacity : Nat}

/-- **`Chunk::new`** is exact where the sum does not overflow, and elsewhere only in a release
    build that is refused the memory. -/
theorem Chunk.newIn_delivers_iff (hc : capacity < wordMod) :
    Delivers (Chunk.Exact capacity) (Chunk.newIn checks sys capacity) ↔
      RoundsUp checks sys capacity := by
  unfold Chunk.newIn
  by_cases h : capacity + 63 < wordMod
  · rw [Chunk.roundPanics_eq_false checks h]
    refine ⟨fun _ => .inl h, fun _ => ?_⟩
    cases e : Chunk.new sys capacity with
    | error s => trivial
    | ok c => exact Chunk.exact_of_new h e
  · have hover : wordMod ≤ capacity + 63 := Nat.not_lt.mp h
    have hup : RoundsUp checks sys capacity ↔ checks = false ∧ sys = none :=
      ⟨fun hr => hr.resolve_left h, .inr⟩
    rw [Chunk.roundPanics_eq checks hover, hup]
    cases checks with
    | true => exact ⟨False.elim, fun hr => absurd hr.1 Bool.noConfusion⟩
    | false =>
        rw [Chunk.new_wrapped hover hc]
        cases sys with
        | none => exact ⟨fun _ => ⟨rfl, rfl⟩, fun _ => trivial⟩
        | some ptr =>
            exact ⟨fun he => absurd he (Chunk.not_exact_of_wrapped hover),
              fun hr => absurd hr.2 (Option.some_ne_none ptr)⟩

/-- A call that passes errors on and wraps the value is as exact as the call it makes. -/
theorem delivers_map {ε ε' α β : Type} {P : β → Prop} {Q : α → Prop} (f : α → β) (g : ε → ε')
    (h : ∀ x, P (f x) ↔ Q x) (o : Option (Except ε α)) :
    Delivers P (o.map fun r => (r.map f).mapError g) ↔ Delivers Q o := by
  cases o with
  | none => exact Iff.rfl
  | some r =>
      cases r with
      | error e => exact Iff.rfl
      | ok x => exact h x

/-- An arena of one chunk that is exact. -/
def ArenaInner.ExactFirst (capacity : Nat) (a : ArenaInner) : Prop :=
  ∃ c, a.chunks = [c] ∧ c.Exact capacity

/-- A result of `add_chunk` with one exact chunk behind those of `a`. -/
def ArenaInner.ExactLast (a : ArenaInner) (capacity : Nat) (r : Nat × ArenaInner) : Prop :=
  ∃ c, r.2.chunks = a.chunks ++ [c] ∧ c.Exact capacity

theorem ArenaInner.addChunkIn_delivers_iff (a : ArenaInner) (hc : capacity < wordMod) :
    Delivers (a.ExactLast capacity) (a.addChunkIn checks sys capacity) ↔
      RoundsUp checks sys capacity := by
  -- `add_chunk` is `Chunk::new` with its chunk appended.
  have hcall : a.addChunkIn checks sys capacity = (Chunk.newIn checks sys capacity).map fun r =>
      (r.map fun chunk => (a.chunks.length, { a with
        chunks := a.chunks ++ [chunk]
        currentChunk := a.chunks.length
        stats := { a.stats with
          chunkCount := a.chunks.length + 1
          bytesAllocated := a.stats.bytesAllocated + capacity } })).mapError id := by
    unfold ArenaInner.addChunkIn Chunk.newIn ArenaInner.addChunk
    split
    · rfl
    · cases Chunk.new sys capacity <;> rfl
  rw [hcall, ← Chunk.newIn_delivers_iff hc]
  refine delivers_map _ id (fun c => ⟨fun he => ?_, fun he => ⟨c, rfl, he⟩⟩) _
  obtain ⟨d, hchunks, hexact⟩ := he
  obtain rfl : c = d := List.singleton_inj.mp (List.append_cancel_left hchunks)
  exact hexact

theorem Arena.tryWithCapacity_delivers_iff (lockfree : Option (Option Nat)) (owner : Nat)
    (slab : ThreadSlab) (mem : Mem) (hc : capacity < wordMod) :
    Delivers (fun w : Arena => w.inner.ExactFirst capacity)
        (Arena.tryWithCapacity checks sys lockfree owner slab mem capacity) ↔
      RoundsUp checks sys capacity := by
  -- `try_with_capacity` is `Chunk::new` with its chunk as the only one of an arena.
  have hcall : Arena.tryWithCapacity checks sys lockfree owner slab mem capacity =
      (Chunk.newIn checks sys capacity).map fun r =>
        (r.map fun chunk => (⟨⟨[chunk], 0, [], 0, ⟨0, capacity, 0, 1⟩,
          lockfree.map LockFreeBuffer.new⟩, LockFreeStats.new, owner, slab, mem⟩ : Arena)).mapError
            ArenaError.allocationFailed := by
    unfold Arena.tryWithCapacity ArenaInner.newIn Chunk.newIn ArenaInner.new
    split
    · rfl
    · cases Chunk.new sys capacity <;> rfl
  rw [hcall, ← Chunk.newIn_delivers_iff hc]
  refine delivers_map _ _ (fun c => ⟨fun he => ?_, fun he => ⟨c, rfl, he⟩⟩) _
  obtain ⟨d, hchunks, hexact⟩ := he
  obtain rfl : c = d := List.singleton_inj.mp hchunks
  exact hexact

/-- **Capacities over all of `usize`.** In every build and for every answer of the system
    allocator, `Chunk::new`, `add_chunk` on any arena and `try_with_capacity` are exact (an error,
    or a chunk whose capacity is the requested one rounded up to a multiple of 64 and which is
    freed under the layout it was allocated with) if and only if `capacity + 63` does not overflow,
    or the build wraps and the memory is refused. -/
theorem capacity_exact_iff (checks : Bool) (sys : Option Nat) (hc : capacity < wordMod) :
    (Delivers (Chunk.Exact capacity) (Chunk.newIn checks sys capacity) ↔
      RoundsUp checks sys capacity) ∧
    (∀ a : ArenaInner, Delivers (a.ExactLast capacity) (a.addChunkIn checks sys capacity) ↔
      RoundsUp checks sys capacity) ∧
    (∀ lockfree owner slab mem, Delivers (fun w : Arena => w.inner.ExactFirst capacity)
        (Arena.tryWithCapacity checks sys lockfree owner slab mem capacity) ↔
      RoundsUp checks sys capacity) :=
  ⟨Chunk.newIn_delivers_iff hc, fun a => a.addChunkIn_delivers_iff hc,
    fun lockfree owner slab mem => Arena.tryWithCapacity_delivers_iff lockfree owner slab mem hc⟩

end Outcomes

/-- A request for 100 bytes: the sum does not overflow, and the chunk has 128. -/
theorem capacity_exact_hundred :
    (RoundsUp true (some 4096) 100 ∧ Chunk.new (some 4096) 100 = .ok ⟨4096, 128, 0⟩) ∧
      Delivers (Chunk.Exact 100) (Chunk.newIn true (some 4096) 100) := by
  have hr : RoundsUp true (some 4096) 100 := .inl (by decide)
  exact ⟨⟨hr, rfl⟩, (capacity_exact_iff true (some 4096) (by decide)).1.mpr hr⟩

/-- The largest capacity: a build with overflow checks panics, a release build makes an arena
    whose chunk has no bytes. -/
theorem capacity_wraps :
    Chunk.newIn true (some 4096) (2 ^ 64 - 1) = none ∧
    Chunk.newIn false (some 4096) (2 ^ 64 - 1) = some (.ok ⟨4096, 0, 0⟩) ∧
    ¬ Delivers (Chunk.Exact (2 ^ 64 - 1)) (Chunk.newIn true (some 4096) (2 ^ 64 - 1)) ∧
    ¬ Delivers (Chunk.Exact (2 ^ 64 - 1)) (Chunk.newIn false (some 4096) (2 ^ 64 - 1)) := by
  have hchecked : Chunk.newIn true (some 4096) (2 ^ 64 - 1) = none := by decide +kernel
  have hwrapped : Chunk.newIn false (some 4096) (2 ^ 64 - 1) = some (.ok ⟨4096, 0, 0⟩) := rfl
  refine ⟨hchecked, hwrapped, ?_, ?_⟩
  · rw [hchecked]
    exact id
  · rw [hwrapped]
    exact Chunk.not_exact_of_wrapped (by decide)

end ArenaB
