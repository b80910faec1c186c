/-
  File:      ArenaB/Arena/Host.lean
  Subject:   Any number of arenas over one system allocator, one memory and one slab.

  A thread creates arenas, uses them in turn, moves and drops them, and allocates for itself
  beside them, in a build without the debug feature. The system allocator may return any block
  that is not out, so also memory that a shrunk or dropped arena gave back.

  * `hosts lockfree` -- the runs; `Careful` -- what a caller has to heed in a build with the
    lock-free feature, and `Inv.careful`: nothing in a build without it;
  * `Good`, `Host.Inv` -- what holds of one arena, and of all of them together;
  * `Inv.use`, `Inv.create`, `Inv.drop`, ... **`Inv.step`**;
  * **`hosts_sound`** -- every `dealloc` is of a block that is out, with the layout it was
    obtained with; nothing leaks; the live allocations of all arenas are apart, lie in memory that
    is out, and keep their bytes.
-/
import Mathlib.Data.List.ReduceOption
import ArenaB.Arena.Blocks

namespace ArenaB

open Base

/-! ## 1. The program -/

/-- The system allocator, the arenas (a dropped one is `none`), the memory and the slab they share,
    and the blocks the program holds itself. The memory and the slab inside a session are those of
    its last call and are not read. -/
structure Host where
  heap : Heap
  arenas : List (Option Sess)
  mem : Mem
  slab : ThreadSlab
  others : List Block

/-- What the program does. -/
inductive HostStep where
  | create (sys sys' : Option Nat) (lockfree : Option (Option Nat)) (owner capacity : Nat)
  | use (k : Nat) (op : Op)
  /-- The arena is moved, and with it the struct of its buffer. -/
  | move (k owner : Nat)
  | drop (k : Nat)
  | alloc (b : Block)
  | free (i : Nat)
  /-- A write that is none of an arena's. -/
  | write (addr : Nat) (bytes : List UInt8)

namespace Host

/-- The session as a call finds it. -/
def view (h : Host) (s : Sess) : Sess := ⟨{ s.arena with slab := h.slab, mem := h.mem }, s.ledger⟩

/-- The arena at `k` after a call that got and gave back these blocks. -/
def put (h : Host) (k : Nat) (got freed : List Block) (s : Sess) : Host :=
  { h with
    heap := (h.heap.alloc got).freeAll freed
    arenas := h.arenas.set k (some s)
    mem := s.arena.mem
    slab := s.arena.slab }

/-- One step of the program. -/
def exec (h : Host) : HostStep → Option Host
  | .create sys sys' lockfree owner capacity =>
      (Arena.withCapacity sys sys' lockfree owner h.slab h.mem capacity).map fun w =>
        { h with
          heap := h.heap.alloc (Arena.opens sys sys' lockfree capacity)
          arenas := h.arenas ++ [some ⟨w, .empty⟩] }
  | .use k op =>
      h.arenas[k]?.join.bind fun s =>
        ((h.view s).exec false op).map fun s' =>
          h.put k ((h.view s).obtains op).toList ((h.view s).releases op) s'
  | .move k owner =>
      h.arenas[k]?.join.map fun s =>
        { h with arenas := h.arenas.set k (some ⟨{ s.arena with owner := owner }, s.ledger⟩) }
  | .drop k =>
      h.arenas[k]?.join.map fun s =>
        { h with heap := h.heap.freeAll s.arena.inner.releases, arenas := h.arenas.set k none }
  | .alloc b => some { h with heap := h.heap.alloc [b], others := b :: h.others }
  | .free i =>
      h.others[i]?.map fun b => { h with heap := h.heap.free b, others := h.others.eraseIdx i }
  | .write addr bytes => some { h with mem := h.mem.write addr bytes }

/-- The blocks an arena would give back if it were dropped. -/
def share : Option Sess → List Block
  | none => []
  | some s => s.arena.inner.releases

/-- No arena is at this address. -/
def Unused (h : Host) (owner : Nat) : Prop := ∀ s ∈ h.arenas.reduceOption, s.arena.owner ≠ owner

instance (h : Host) (owner : Nat) : Decidable (h.Unused owner) :=
  inferInstanceAs (Decidable (∀ s ∈ h.arenas.reduceOption, s.arena.owner ≠ owner))

/-- The slab was not left behind by another buffer that was at this address. -/
def NotStale (h : Host) (owner : Nat) (a : ArenaInner) : Prop :=
  ∀ b ∈ a.lockfreeBuffer, ¬ h.slab.Matches owner b.generation

instance (h : Host) (owner : Nat) (a : ArenaInner) : Decidable (h.NotStale owner a) :=
  inferInstanceAs (Decidable (∀ b ∈ a.lockfreeBuffer, ¬ h.slab.Matches owner b.generation))

/-- What the environment does: the system allocator returns what is not out, a struct is put where
    none is, and nobody else writes into the blocks of an arena. -/
def Ok (feature : Bool) (h : Host) : HostStep → Prop
  | .create sys sys' lockfree owner capacity =>
      lockfree.isSome = feature ∧ capacity + 63 < wordMod ∧
        h.heap.Admits (Arena.opens sys sys' lockfree capacity) ∧ h.Unused owner
  | .use k op => ∀ s ∈ h.arenas[k]?.join, h.heap.Admits ((h.view s).obtains op).toList
  | .move _ owner => h.Unused owner
  | .drop _ => True
  | .alloc b => h.heap.Admits [b]
  | .free _ => True
  | .write addr bytes => ∀ s ∈ h.arenas.reduceOption, ∀ t ∈ s.arena.inner.regions,
      t.Apart ⟨addr, bytes.length⟩

instance (feature : Bool) (h : Host) : (st : HostStep) → Decidable (h.Ok feature st)
  | .create _ _ _ _ _ => inferInstanceAs (Decidable (_ ∧ _ ∧ _ ∧ _))
  | .use k op => inferInstanceAs
      (Decidable (∀ s ∈ h.arenas[k]?.join, h.heap.Admits ((h.view s).obtains op).toList))
  | .move _ owner => inferInstanceAs (Decidable (h.Unused owner))
  | .drop _ => isTrue trivial
  | .alloc b => inferInstanceAs (Decidable (h.heap.Admits [b]))
  | .free _ => isTrue trivial
  | .write _ _ => inferInstanceAs (Decidable (∀ s ∈ h.arenas.reduceOption,
      ∀ t ∈ s.arena.inner.regions, _))

/-- With a lock-free buffer: no rewind finds an older live allocation in the buffer, and no arena
    comes to an address at which the slab takes it for another. -/
def Careful (h : Host) : HostStep → Prop
  | .create _ _ lockfree owner _ => lockfree ≠ none → ¬ h.slab.Matches owner 0
  | .use k op => ∀ s ∈ h.arenas[k]?.join, RewindsMeet Undisturbed (h.view s) op
  | .move k owner => ∀ s ∈ h.arenas[k]?.join, h.NotStale owner s.arena.inner
  | _ => True

instance (h : Host) : (st : HostStep) → Decidable (h.Careful st)
  | .create _ _ lockfree owner _ =>
      inferInstanceAs (Decidable (lockfree ≠ none → ¬ h.slab.Matches owner 0))
  | .use k op => inferInstanceAs
      (Decidable (∀ s ∈ h.arenas[k]?.join, RewindsMeet Undisturbed (h.view s) op))
  | .move k owner => inferInstanceAs
      (Decidable (∀ s ∈ h.arenas[k]?.join, h.NotStale owner s.arena.inner))
  | .drop _ => isTrue trivial
  | .alloc _ => isTrue trivial
  | .free _ => isTrue trivial
  | .write _ _ => isTrue trivial

/-- What a caller heeds: nothing in a build without the lock-free feature. -/
def Heeds (feature : Bool) (h : Host) (st : HostStep) : Prop := feature = true → h.Careful st

instance (feature : Bool) (h : Host) (st : HostStep) : Decidable (h.Heeds feature st) :=
  inferInstanceAs (Decidable (feature = true → h.Careful st))

end Host

/-- The programs, from a start without arenas. -/
def hosts (lockfree : Bool) : System Host HostStep where
  init h := h.heap = ⟨[], false⟩ ∧ h.arenas = [] ∧ h.others = []
  ok := Host.Ok lockfree
  step h st := h.exec st

instance (lockfree : Bool) (h : Host) (st : HostStep) : Decidable ((hosts lockfree).ok h st) :=
  inferInstanceAs (Decidable (h.Ok lockfree st))

/-! ## 2. The invariant -/

/-- What holds of one arena, with the memory and the slab as they are. -/
structure Good (mem : Mem) (slab : ThreadSlab) (s : Sess) : Prop where
  stack : StackOk s.arena.inner s.cps
  solid : ∀ t ∈ s.arena.inner.regions, Solid t
  live : Live ⟨{ s.arena with slab := slab, mem := mem }, s.ledger⟩

/-- Arenas that are both there are at different addresses. -/
def Elsewhere (x y : Option Sess) : Prop :=
  ∀ s ∈ x, ∀ s' ∈ y, s.arena.owner ≠ s'.arena.owner

theorem Elsewhere.symm {x y : Option Sess} (h : Elsewhere x y) : Elsewhere y x :=
  fun s hs s' hs' => (h s' hs' s hs).symm

namespace Host

/-- **What holds of all arenas together.** -/
structure Inv (lockfree : Bool) (h : Host) : Prop where
  owns : h.heap.Owns (h.arenas.flatMap share ++ h.others)
  bare : lockfree = false → ∀ s, some s ∈ h.arenas → s.arena.inner.lockfreeBuffer = none
  good : ∀ s, some s ∈ h.arenas → Good h.mem h.slab s
  owners : h.arenas.Pairwise Elsewhere

end Host

section Inv

variable {feature : Bool} {h h' : Host} {s s' : Sess} {k : Nat}

/-- An arena does not notice what happens outside its regions. -/
theorem Good.other {mem mem' : Mem} {slab slab' : ThreadSlab} (hg : Good mem slab s)
    (hm : ∀ t ∈ s.arena.inner.regions, Mem.Agree mem mem' t)
    (hsl : slab' = slab ∨ slab'.Foreign s.arena.owner) : Good mem' slab' s := by
  have hlive := hg.live.agree hg.stack.shape hm
  refine ⟨hg.stack, hg.solid, ?_⟩
  rcases hsl with rfl | hsl
  · exact hlive
  · exact hlive.foreign fun _ => hsl

theorem mem_join {x : Option (Option Sess)} : s ∈ x.join ↔ x = some (some s) :=
  Option.join_eq_some_iff

namespace Host

/-- The regions of different arenas are apart. -/
theorem Inv.regions_apart (hi : Inv feature h) {j : Nat} (hj : h.arenas[j]? = some (some s))
    (hk : h.arenas[k]? = some (some s')) (hjk : j ≠ k) {t u : Span}
    (ht : t ∈ s.arena.inner.regions) (hu : u ∈ s'.arena.inner.regions) : t.Apart u := by
  have hp := (List.pairwise_append.mp hi.owns.apart).1
  have hs := (hi.good s (List.mem_of_getElem? hj)).solid
  have hs' := (hi.good s' (List.mem_of_getElem? hk)).solid
  refine pairwise_flatMap_ne (x := blockOf t) (y := blockOf u) (fun _ _ hbc => hbc.symm) hp hj hk
    hjk ?_ ?_
  · rw [share, ArenaInner.releases_eq hs]
    exact List.mem_map_of_mem ht
  · rw [share, ArenaInner.releases_eq hs']
    exact List.mem_map_of_mem hu

/-- The regions of an arena are out. -/
theorem Inv.region_out (hi : Inv feature h) (hs : some s ∈ h.arenas) {t : Span}
    (ht : t ∈ s.arena.inner.regions) : blockOf t ∈ h.heap.live := by
  refine hi.owns.perm.mem_iff.mpr (List.mem_append_left _ (List.mem_flatMap.mpr ⟨_, hs, ?_⟩))
  rw [share, ArenaInner.releases_eq (hi.good s hs).solid]
  exact List.mem_map_of_mem ht

/-- A block the system allocator returns overlaps none of an arena's. -/
theorem Inv.fresh (hi : Inv feature h) (hs : some s ∈ h.arenas) {bs : List Block}
    (ha : h.heap.Admits bs) {b : Block} (hb : b ∈ bs) : s.arena.inner.Fresh b.span := by
  have hap : ∀ t ∈ s.arena.inner.regions, t.Apart b.span := fun t ht =>
    (ha.1 b hb).2 (blockOf t) (hi.region_out hs ht)
  refine ⟨fun t ht => hap t (List.mem_append_left _ ht), fun u hu => ?_⟩
  exact (hap u (List.mem_append_right _ (Option.mem_toList.mpr hu))).symm

/-- A call on one of the arenas does what an operation on an arena of its own does, whose promises
    are kept. -/
theorem Inv.acts (hi : Inv feature h) (hs : some s ∈ h.arenas) {op : Op}
    (ha : h.heap.Admits ((h.view s).obtains op).toList)
    (hmeet : RewindsMeet Undisturbed (h.view s) op)
    (e : (h.view s).exec false op = some s') : ∃ op', Acts false (h.view s) op' s' ∧
      (∀ blk ∈ op'.block, s.arena.inner.Fresh blk) ∧ RewindsMeet Undisturbed (h.view s) op' := by
  cases hobt : (h.view s).obtains op with
  | none =>
      -- the system allocator is not asked, so its answer may be taken to be none
      rw [← Sess.exec_unasked hobt] at e
      refine ⟨op.withSys none, Sess.exec_acts e, fun blk hblk => ?_, ?_⟩
      · cases op <;> cases hblk
      · cases op <;> exact hmeet
  | some b =>
      refine ⟨op, Sess.exec_acts e, fun blk hblk => ?_, hmeet⟩
      rw [Sess.obtains_eq_some hobt] at hblk
      cases hblk
      exact hi.fresh hs ha (by rw [hobt]; exact List.mem_singleton.mpr rfl)

/-- One arena is replaced, at the same address or gone; the others keep what they have. -/
theorem Inv.owners_set (hi : Inv feature h) (hk : h.arenas[k]? = some (some s)) {x : Option Sess}
    (hx : ∀ s' ∈ x, s'.arena.owner = s.arena.owner) :
    (h.arenas.set k x).Pairwise Elsewhere := by
  refine pairwise_set (fun _ _ hxy => hxy.symm) hi.owners hk fun y _ hy s' hs' s'' hs'' => ?_
  rw [hx s' hs']
  exact hy s rfl s'' hs''

/-- **A call on an arena.** -/
theorem Inv.use (hi : Inv feature h) (hk : h.arenas[k]? = some (some s)) {op : Op}
    (ha : h.heap.Admits ((h.view s).obtains op).toList)
    (hmeet : RewindsMeet Undisturbed (h.view s) op) (e : (h.view s).exec false op = some s') :
    Inv feature (h.put k ((h.view s).obtains op).toList ((h.view s).releases op) s') := by
  have hs := List.mem_of_getElem? hk
  have hg := hi.good s hs
  obtain ⟨op', hacts, hfresh, hmeet'⟩ := hi.acts hs ha hmeet e
  have hloc := hacts.isLocal hfresh hg.stack.shape hg.live
  have hbal := Sess.exec_balance (s := h.view s) hg.stack.shape hloc.block e
  have hsolid := hbal.solid hg.solid
  obtain ⟨rest, ho, hback⟩ := hi.owns.split hk
  have howns := hback (b := some s') (ho.exchange ha (hbal.perm hg.solid))
  refine ⟨howns, fun hf s₁ hs₁ => ?_, fun s₁ hs₁ => ?_, hi.owners_set hk fun s₁ hs₁ => ?_⟩
  · rcases List.mem_or_eq_of_mem_set hs₁ with hs₁ | hs₁
    · exact hi.bare hf s₁ hs₁
    · cases hs₁
      exact hacts.noBuffer hg.stack.shape (hi.bare hf s hs)
  · obtain ⟨j, hj⟩ := List.mem_iff_getElem?.mp hs₁
    by_cases hjk : j = k
    · subst hjk
      rw [show (h.put j _ _ s').arenas = h.arenas.set j (some s') from rfl,
        List.getElem?_set_self (List.getElem?_eq_some_iff.mp hk).1] at hj
      cases hj
      exact ⟨hacts.stackOk hg.stack, hsolid, hacts.live hfresh hmeet' hg.stack hg.live⟩
    · have hj' := hj
      rw [show (h.put k _ _ s').arenas = h.arenas.set k (some s') from rfl,
        List.getElem?_set_ne (Ne.symm hjk)] at hj
      have hne : s₁.arena.owner ≠ s.arena.owner :=
        pairwise_getElem?_ne (fun _ _ hxy => hxy.symm) hi.owners hjk hj hk s₁ rfl s rfl
      have hg₁ := hi.good s₁ (List.mem_of_getElem? hj)
      refine hg₁.other (fun t ht => ?_) ?_
      · -- the regions of `s'` are apart from those of `s₁`: all blocks are, after the exchange
        refine hloc.mem t fun u hu => ?_
        have hp := (List.pairwise_append.mp howns.apart).1
        have hk' : (h.arenas.set k (some s'))[k]? = some (some s') :=
          List.getElem?_set_self (List.getElem?_eq_some_iff.mp hk).1
        refine pairwise_flatMap_ne (x := blockOf t) (y := blockOf u) (fun _ _ hbc => hbc.symm)
          hp hj' hk' hjk ?_ ?_
        · rw [share, ArenaInner.releases_eq hg₁.solid]
          exact List.mem_map_of_mem ht
        · rw [share, ArenaInner.releases_eq hsolid]
          exact List.mem_map_of_mem hu
      · exact hloc.slab.imp_right fun hf => hf _ hne
  · cases hs₁
    exact hloc.owner

/-- **An arena is created.** -/
theorem Inv.create (hi : Inv feature h) {sys sys' : Option Nat} {lockfree : Option (Option Nat)}
    {owner cap : Nat} {w : Arena} (hlf : lockfree.isSome = feature) (hcap : cap + 63 < wordMod)
    (ha : h.heap.Admits (Arena.opens sys sys' lockfree cap)) (hu : h.Unused owner)
    (hstale : lockfree ≠ none → ¬ h.slab.Matches owner 0)
    (e : Arena.withCapacity sys sys' lockfree owner h.slab h.mem cap = some w) :
    Inv feature { h with
      heap := h.heap.alloc (Arena.opens sys sys' lockfree cap)
      arenas := h.arenas ++ [some ⟨w, .empty⟩] } := by
  obtain ⟨hopens, hsolid⟩ := Arena.opens_eq hcap (fun b hb => (ha.1 b hb).1) e
  have hsep : w.inner.Separate := by
    refine ArenaInner.separate_of_regions ?_
    have hp := ha.2
    rw [hopens, List.pairwise_map] at hp
    exact hp
  obtain ⟨_, _, a, hn, rfl⟩ := Arena.withCapacity_eq_some e
  refine ⟨?_, fun hf s hs => ?_, fun s hs => ?_, ?_⟩
  · refine (hi.owns.alloc ha).of_perm ?_
    have hshare : Arena.opens sys sys' lockfree cap = a.releases :=
      hopens.trans (ArenaInner.releases_eq hsolid).symm
    rw [List.flatMap_append, hshare, ← List.append_assoc]
    refine List.Perm.append_right _ (List.perm_append_comm.trans ?_)
    rw [List.flatMap_singleton]
    exact .refl _
  · rcases List.mem_append.mp hs with hs | hs
    · exact hi.bare hf s hs
    · cases List.mem_singleton.mp hs
      have hnone : lockfree = none :=
        Option.isNone_iff_eq_none.mp (Option.isSome_eq_false_iff.mp (hlf.trans hf))
      show a.lockfreeBuffer = none
      rw [(ArenaInner.new_eq_ok hn).2.2, hnone]
      rfl
  · rcases List.mem_append.mp hs with hs | hs
    · exact hi.good s hs
    · cases List.mem_singleton.mp hs
      refine ⟨.nil (ArenaInner.new_shape hn) (ArenaInner.new_eq_ok hn).1, hsolid, ?_⟩
      refine live_empty hsep fun b hb => ?_
      have hb' : b ∈ a.lockfreeBuffer := hb
      rw [(ArenaInner.new_eq_ok hn).2.2] at hb'
      obtain ⟨sysb, hsome, rfl⟩ := Option.map_eq_some_iff.mp hb'
      exact ⟨LockFreeBuffer.ok_new sysb, fun hm => absurd hm (hstale (by simp [hsome]))⟩
  · refine List.pairwise_append.mpr ⟨hi.owners, List.pairwise_singleton _ _, ?_⟩
    intro x hx y hy s hs s' hs'
    cases List.mem_singleton.mp hy
    cases hs'
    rw [Option.mem_def] at hs
    subst hs
    exact hu s (List.reduceOption_mem_iff.mpr hx)

/-- **An arena is moved.** -/
theorem Inv.move (hi : Inv feature h) (hk : h.arenas[k]? = some (some s)) {owner : Nat}
    (hu : h.Unused owner) (hstale : h.NotStale owner s.arena.inner) :
    Inv feature { h with
      arenas := h.arenas.set k (some ⟨{ s.arena with owner := owner }, s.ledger⟩) } := by
  have hg := hi.good s (List.mem_of_getElem? hk)
  obtain ⟨rest, ho, hback⟩ := hi.owns.split hk
  refine ⟨hback ho, fun hf s₁ hs₁ => ?_, fun s₁ hs₁ => ?_, ?_⟩
  · rcases List.mem_or_eq_of_mem_set hs₁ with hs₁ | hs₁
    · exact hi.bare hf s₁ hs₁
    · cases hs₁
      exact hi.bare hf s (List.mem_of_getElem? hk)
  · rcases List.mem_or_eq_of_mem_set hs₁ with hs₁ | hs₁
    · exact hi.good s₁ hs₁
    · cases hs₁
      exact ⟨hg.stack, hg.solid, hg.live.moved hstale⟩
  · refine pairwise_set (fun _ _ hxy => hxy.symm) hi.owners hk fun y hy _ s₁ hs₁ s₂ hs₂ => ?_
    cases hs₁
    rw [Option.mem_def] at hs₂
    subst hs₂
    exact (hu s₂ (List.reduceOption_mem_iff.mpr hy)).symm

/-- **An arena is dropped.** -/
theorem Inv.drop (hi : Inv feature h) (hk : h.arenas[k]? = some (some s)) :
    Inv feature { h with
      heap := h.heap.freeAll s.arena.inner.releases, arenas := h.arenas.set k none } := by
  obtain ⟨rest, ho, hback⟩ := hi.owns.split hk
  refine ⟨hback (b := none) ho.freeAll, fun hf s₁ hs₁ => ?_, fun s₁ hs₁ => ?_,
    hi.owners_set hk fun s' hs' => ?_⟩
  · rcases List.mem_or_eq_of_mem_set hs₁ with hs₁ | hs₁
    · exact hi.bare hf s₁ hs₁
    · cases hs₁
  · rcases List.mem_or_eq_of_mem_set hs₁ with hs₁ | hs₁
    · exact hi.good s₁ hs₁
    · cases hs₁
  · cases hs'

/-- The program gives back one of its own blocks. -/
theorem Inv.free (hi : Inv feature h) {i : Nat} {b : Block} (hb : h.others[i]? = some b) :
    Inv feature { h with heap := h.heap.free b, others := h.others.eraseIdx i } := by
  refine ⟨(hi.owns.of_perm ?_).free, hi.bare, hi.good, hi.owners⟩
  obtain ⟨hlt, rfl⟩ := List.getElem?_eq_some_iff.mp hb
  have hp : h.others.Perm (h.others[i] :: h.others.eraseIdx i) :=
    (List.getElem_cons_eraseIdx_perm hlt).symm
  exact (hp.append_left _).trans List.perm_middle

/-- Without the lock-free feature there is nothing to heed. -/
theorem Inv.careful (hi : Inv false h) {st : HostStep} (hok : h.Ok false st) : h.Careful st := by
  cases st with
  | create sys sys' lf owner cap =>
      intro hne
      exact absurd (Option.isNone_iff_eq_none.mp (Option.isSome_eq_false_iff.mp hok.1)) hne
  | use k op =>
      intro s hs i hi' o ho hd hon
      obtain ⟨u, hu, _⟩ := hon
      have hbare := hi.bare rfl s (List.mem_of_getElem? (mem_join.mp hs))
      have hu' : u ∈ s.arena.inner.block := hu
      rw [ArenaInner.block, hbare] at hu'
      cases hu'
  | move k owner =>
      intro s hs b hb
      rw [hi.bare rfl s (List.mem_of_getElem? (mem_join.mp hs))] at hb
      cases hb
  | drop k => trivial
  | alloc b => trivial
  | free i => trivial
  | write addr bytes => trivial

/-- **Every step keeps the invariant.** -/
theorem Inv.step (hi : Inv feature h) {st : HostStep} (hok : h.Ok feature st)
    (hcare : h.Careful st) (e : h.exec st = some h') : Inv feature h' := by
  cases st with
  | create sys sys' lf owner cap =>
      obtain ⟨w, hw, rfl⟩ := Option.map_eq_some_iff.mp e
      obtain ⟨hlf, hcap, ha, hu⟩ := hok
      exact hi.create hlf hcap ha hu hcare hw
  | use k op =>
      obtain ⟨s, hs, e⟩ := Option.bind_eq_some_iff.mp e
      obtain ⟨s', hs', rfl⟩ := Option.map_eq_some_iff.mp e
      exact hi.use (mem_join.mp hs) (hok s hs) (hcare s hs) hs'
  | move k owner =>
      obtain ⟨s, hs, rfl⟩ := Option.map_eq_some_iff.mp e
      exact hi.move (mem_join.mp hs) hok (hcare s hs)
  | drop k =>
      obtain ⟨s, hs, rfl⟩ := Option.map_eq_some_iff.mp e
      exact hi.drop (mem_join.mp hs)
  | alloc b =>
      cases e
      have hp : (b :: (h.arenas.flatMap share ++ h.others)).Perm
          (h.arenas.flatMap share ++ b :: h.others) := List.perm_middle.symm
      exact ⟨(hi.owns.alloc hok).of_perm hp, hi.bare, hi.good, hi.owners⟩
  | free i =>
      obtain ⟨b, hb, rfl⟩ := Option.map_eq_some_iff.mp e
      exact hi.free hb
  | write addr bytes =>
      cases e
      refine ⟨hi.owns, hi.bare, fun s hs => ?_, hi.owners⟩
      have hap := hok s (List.reduceOption_mem_iff.mpr hs)
      exact (hi.good s hs).other (fun t ht => Mem.agree_write (hap t ht)) (Or.inl rfl)

end Host

end Inv

/-! ## 3. Runs -/

theorem reach_host {lockfree : Bool} {h : Host}
    (hr : ((hosts lockfree).under (Host.Heeds lockfree)).Reach h) : h.Inv lockfree := by
  refine hr.inv (P := Host.Inv lockfree) (fun h hi => ?_) fun h st h' hi hok e => ?_
  · obtain ⟨hheap, harenas, hothers⟩ := hi
    refine ⟨?_, fun _ s hs => ?_, fun s hs => ?_, ?_⟩
    · rw [hheap, harenas, hothers]
      exact ⟨rfl, .refl _, .nil⟩
    · rw [harenas] at hs
      cases hs
    · rw [harenas] at hs
      cases hs
    · rw [harenas]
      exact .nil
  · obtain ⟨hok, hheeds⟩ := hok
    cases lockfree with
    | true => exact hi.step hok (hheeds rfl) e
    | false => exact hi.step hok (hi.careful hok) e

/-- **Arenas and their memory, over whole programs.** However many arenas a thread creates, uses,
    moves, shrinks and drops, and whatever blocks the system allocator hands out again, for
    capacities whose rounding up does not overflow; in a build with the lock-free feature if the
    caller heeds `Careful`:

    1. no block is given back that is not out, or under another layout than it was obtained with;
    2. what is out is what the arenas that are left would give back, and what the program holds
       itself: when all arenas are dropped, all they obtained has been given back;
    3. a live allocation lies in one block that is out and reads back what was last written to it;
    4. two live allocations, of one arena or of two, are apart, and apart from what the program
       holds itself. -/
theorem hosts_sound (lockfree : Bool) {h : Host}
    (hr : ((hosts lockfree).under (Host.Heeds lockfree)).Reach h) :
    h.heap.fault = false ∧
    h.heap.live.Perm (h.arenas.flatMap Host.share ++ h.others) ∧
    ((∀ x ∈ h.arenas, x = none) → h.heap.live.Perm h.others) ∧
    (∀ s, some s ∈ h.arenas → ∀ o ∈ s.ledger.log, Holds h.mem o.addr o.data ∧
      (o.data ≠ [] → ∃ b ∈ h.heap.live, o.span.Inside b.span) ∧
      ∀ b ∈ h.others, o.span.Apart b.span) ∧
    (∀ s, some s ∈ h.arenas → s.ledger.log.Pairwise fun o o' => o.span.Apart o'.span) ∧
    ∀ (j k : Nat) (s s' : Sess), h.arenas[j]? = some (some s) → h.arenas[k]? = some (some s') →
      j ≠ k → ∀ o ∈ s.ledger.log, ∀ o' ∈ s'.ledger.log, o.span.Apart o'.span := by
  have hi := reach_host hr
  -- where a live allocation of an arena is
  have hplace : ∀ s, some s ∈ h.arenas → ∀ o ∈ s.ledger.log, o.data ≠ [] →
      ∃ t ∈ s.arena.inner.regions, o.span.Inside t := by
    intro s hs o ho hd
    have hg := hi.good s hs
    exact hg.live.inside hg.stack.shape ho hd
  refine ⟨hi.owns.fault, hi.owns.perm, fun hnone => ?_, fun s hs o ho => ⟨?_, fun hd => ?_, ?_⟩,
    fun s hs => (hi.good s hs).live.apart, fun j k s s' hj hk hjk o ho o' ho' => ?_⟩
  · have hempty : h.arenas.flatMap Host.share = [] := by
      refine List.flatMap_eq_nil_iff.mpr fun x hx => ?_
      rw [hnone x hx]
      rfl
    have hp := hi.owns.perm
    rwa [hempty, List.nil_append] at hp
  · exact (hi.good s hs).live.holds o ho
  · obtain ⟨t, ht, hin⟩ := hplace s hs o ho hd
    exact ⟨blockOf t, hi.region_out hs ht, hin⟩
  · intro b hb
    by_cases hd : o.data = []
    · exact (apart_of_nil hd _).symm
    · obtain ⟨t, ht, hin⟩ := hplace s hs o ho hd
      have hcross := (List.pairwise_append.mp hi.owns.apart).2.2
      have hmem : blockOf t ∈ h.arenas.flatMap Host.share := by
        refine List.mem_flatMap.mpr ⟨_, hs, ?_⟩
        rw [Host.share, ArenaInner.releases_eq (hi.good s hs).solid]
        exact List.mem_map_of_mem ht
      exact (hcross _ hmem b hb).mono hin (Span.Inside.refl _)
  · by_cases hd : o.data = []
    · exact (apart_of_nil hd _).symm
    · by_cases hd' : o'.data = []
      · exact apart_of_nil hd' _
      · obtain ⟨t, ht, hin⟩ := hplace s (List.mem_of_getElem? hj) o ho hd
        obtain ⟨u, hu, hin'⟩ := hplace s' (List.mem_of_getElem? hk) o' ho' hd'
        exact (hi.regions_apart hj hk hjk ht hu).mono hin hin'

/-- Two arenas with a buffer each; the first grows, allocates in its buffer, is shrunk, and the
    second gets the block that was given back; the first is then dropped. -/
theorem hosts_sound_recycled : ∃ h, ((hosts true).under (Host.Heeds true)).Reach h ∧
    (h.arenas.length = 2 ∧ h.heap.live.length = 4 ∧ h.others.length = 1) ∧
    h.heap.fault = false := by
  obtain ⟨h, hr, hs⟩ := System.exists_reach_of_replay ((hosts true).under (Host.Heeds true))
    [.create (some 65536) none (some (some 131072)) 1024 64,
      .create (some 196608) none (some (some 262144)) 2048 64,
      .use 0 (.alloc none ⟨.byte, [42], rfl⟩),
      .use 0 (.allocateRaw (some 327680) ⟨2000, 8, ⟨3, rfl⟩, by decide⟩),
      .use 1 (.alloc none ⟨.byte, [7], rfl⟩),
      .use 0 .resetAndShrinkToFit,
      .use 1 (.allocateRaw (some 327680) ⟨2000, 8, ⟨3, rfl⟩, by decide⟩),
      .alloc ⟨8192, 32, 8⟩, .write 8192 [1, 2, 3], .move 1 4096, .drop 0]
    (P := fun h => h.arenas.length = 2 ∧ h.heap.live.length = 4 ∧ h.others.length = 1)
    (s := ⟨⟨[], false⟩, [], fun _ => 0, .new, []⟩) ⟨rfl, rfl, rfl⟩ (by decide)
  exact ⟨h, hr, hs, (hosts_sound true hr).1⟩

end ArenaB
