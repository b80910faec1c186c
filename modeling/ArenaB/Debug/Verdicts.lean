/-
  File:      ArenaB/Debug/Verdicts.lean
  Subject:   What the reports of the debug feature say.

  * **`reports_exact`** -- in a process in which every allocation got its guard block: an allocation
    is reported exactly if, after it, SOME arena was rewound to a lower id, or its first bytes do
    not spell the pattern; the counts follow. `validate_debug_state` never reports anything;
  * **`debug_totals_exact`** -- the statistics of the process, arena by arena.
-/
import ArenaB.Debug.Keys
import ArenaB.Debug.Log

namespace ArenaB

open Base

/-! ## 1. The verdicts -/

/-- A guarded reference is found by its pointer. -/
theorem DebugArena.Good.eq_of_ptr {p : Process} {d : DebugArena} (h : d.Good p) {r r' : Ref}
    (hr : r ∈ d.chronicle.entries) (hr' : r' ∈ d.chronicle.entries) {b b' : Nat}
    (hb : r.block = some b) (hb' : r'.block = some b') (hptr : r.ptr = r'.ptr) : r = r' := by
  by_contra hne
  have hap := h.guards_apart hr hr' hne hb hb'
  have h1 := (h.owned r hr b hb).2.1
  have h2 := (h.owned r' hr' b' hb').2.1
  simp only [Span.Apart, Span.fin, guardedSize, guardSize, debugGuardSize] at hap h1 h2
  omega

namespace Monitor

variable {x : Monitor} {d : DebugArena} {y : Ref × Nat} {b : Nat}

/-- An arena was rewound to a lower id since, or the data do not begin with the pattern. -/
def Faulty (x : Monitor) (y : Ref × Nat) : Prop :=
  Lowered x.log y.1 y.2 ∨ ¬ y.1.Spelled x.mem

instance (x : Monitor) (y : Ref × Nat) : Decidable (x.Faulty y) := by
  unfold Faulty
  infer_instance

theorem Told.mem_entries (h : x.Told) (hd : d ∈ x.world.arenas)
    (hy : y ∈ refsGivenBy x.log d.arenaId) : y.1 ∈ d.chronicle.entries := by
  rw [h.entries d hd, ← map_fst_refsGivenBy]
  exact List.mem_map_of_mem hy

/-- The guard in front of the data is intact unless an arena was rewound too far. -/
theorem Kept.preIntact_iff (h : x.Kept) (ht : x.Told) (hi : x.world.Inv) (hd : d ∈ x.world.arenas)
    (hy : y ∈ refsGivenBy x.log d.arenaId) (hb : y.1.block = some b) :
    y.1.PreIntact x.mem ↔ ¬ Lowered x.log y.1 y.2 := by
  have hbyte := h d hd y hy b hb
  have hptr := (hi.good d hd).ptr_sub (ht.mem_entries hd hy) hb
  unfold Ref.PreIntact
  rw [hptr]
  constructor
  · intro hpre hlow
    have h0 := hpre 0 (by decide)
    rw [hbyte 0 (by decide), if_pos ⟨rfl, hlow⟩] at h0
    exact absurd h0 (by decide)
  · intro hlow i hlt
    rw [hbyte i hlt, if_neg fun hc => hlow hc.2]

/-- **The verdict on one allocation.** -/
theorem verdict (h : (monitors.under Guarding).Reach x) (hd : d ∈ x.world.arenas)
    (hy : y ∈ refsGivenBy x.log d.arenaId) (hsize : y.1.size ≠ 0) :
    x.state.validateAllocation x.mem d.arenaId y.1.ptr = .ok () ↔ ¬ x.Faulty y := by
  have ht := reach_told h.of_under
  have hw := reach_guarding h
  have hi := World.reach_inv hw.of_under
  have hs := reach_sealed hw d hd
  have hgood := hi.good d hd
  have hr := ht.mem_entries hd hy
  obtain ⟨b, hb⟩ := Option.isSome_iff_exists.mp (hs.guarded y.1 hr hsize)
  have hpre := (reach_kept h).preIntact_iff ht hi hd hy hb
  by_cases hcur : x.state.Current d.arenaId y.1.ptr
  · rw [hcur.validateAllocation ⟨_, hgood.mem_records hr hb, rfl⟩, hgood.validate_read hr hb, hpre,
      Faulty, not_or, not_not]
  · -- every record of the pointer is its own, and an id too high is tainted
    have hown : ∀ info ∈ x.state.records d.arenaId, info.ptr = y.1.ptr →
        info = ⟨y.1.ptr, y.1.size, y.1.checkpointId⟩ := by
      intro info hinfo hptr
      obtain ⟨r, hr', hreg, rfl⟩ := hgood.of_record hinfo
      obtain ⟨b', hb'⟩ := Option.isSome_iff_exists.mp (hs.guarded r hr' (Ref.size_ne_zero hreg))
      rw [hgood.eq_of_ptr hr' hr hb' hb hptr]
    unfold DebugState.Current at hcur
    push Not at hcur
    obtain ⟨info, hinfo, hptr, c, hc, hlt⟩ := hcur
    have hcp : c < y.1.checkpointId := by
      rw [hown info hinfo hptr] at hlt
      exact hlt
    have hlow : Lowered x.log y.1 y.2 := by
      rcases hs.later y.1 hr b hb with h0 | ⟨_, hle⟩
      · by_contra hlow
        have h0' := reach_kept h d hd y hy b hb 0 (by decide)
        rw [if_neg fun hc => hlow hc.2] at h0'
        exact absurd (h0.symm.trans h0') (by decide)
      · exact absurd (hle c hc) (Nat.not_le.mpr hcp)
    have hreject : x.state.validateAllocation x.mem d.arenaId y.1.ptr ≠ .ok () := by
      unfold DebugState.validateAllocation
      split
      · exact fun e => by cases e
      · next info' hf =>
        have hptr' : info'.ptr = y.1.ptr := by simpa using List.find?_some hf
        have hrec : x.state.recorded d.arenaId = some c := hc
        rw [hown info' (List.mem_of_find?_eq_some hf) hptr', hrec, if_pos (by simpa using hcp)]
        exact fun e => by cases e
    exact ⟨fun e => absurd e hreject, fun hf => absurd (Or.inl hlow) hf⟩

/-! ### The records of an arena -/

theorem Told.records (h : x.Told) (hi : x.world.Inv) (hd : d ∈ x.world.arenas) :
    x.state.records d.arenaId =
      ((refsGivenBy x.log d.arenaId).map Prod.fst).flatMap Ref.infos := by
  rw [map_fst_refsGivenBy, ← h.entries d hd]
  exact (hi.good d hd).registry

theorem Told.exists_refsGivenBy (h : x.Told) (hi : x.world.Inv) (hd : d ∈ x.world.arenas)
    {info : AllocationInfo} (hinfo : info ∈ x.state.records d.arenaId) :
    ∃ y ∈ refsGivenBy x.log d.arenaId, y.1.registered ≠ 0 ∧
      info = ⟨y.1.ptr, y.1.size, y.1.checkpointId⟩ := by
  rw [h.records hi hd] at hinfo
  obtain ⟨r, hr, hinfo⟩ := List.mem_flatMap.mp hinfo
  obtain ⟨y, hy, rfl⟩ := List.mem_map.mp hr
  exact ⟨y, hy, Ref.mem_infos.mp hinfo⟩

/-- With its guard block, what has a size is registered. -/
theorem Told.mem_records (h : x.Told) (hi : x.world.Inv) (hd : d ∈ x.world.arenas)
    (hs : d.Sealed x.world.process) (hy : y ∈ refsGivenBy x.log d.arenaId) (hsize : y.1.size ≠ 0) :
    ⟨y.1.ptr, y.1.size, y.1.checkpointId⟩ ∈ x.state.records d.arenaId := by
  have hr := h.mem_entries hd hy
  obtain ⟨b, hb⟩ := Option.isSome_iff_exists.mp (hs.guarded y.1 hr hsize)
  exact (hi.good d hd).mem_records hr hb

/-- Nothing is rejected if nothing is at fault. -/
theorem no_rejection_iff (h : (monitors.under Guarding).Reach x) (hd : d ∈ x.world.arenas) :
    (∀ info ∈ x.state.records d.arenaId, x.state.rejection x.mem d.arenaId info = none) ↔
      ∀ y ∈ refsGivenBy x.log d.arenaId, y.1.size ≠ 0 → ¬ x.Faulty y := by
  have ht := reach_told h.of_under
  have hw := reach_guarding h
  have hi := World.reach_inv hw.of_under
  constructor
  · intro hall y hy hsize
    have hnone := hall _ (ht.mem_records hi hd (reach_sealed hw d hd) hy hsize)
    exact (verdict h hd hy hsize).mp (DebugState.rejection_eq_none.mp hnone)
  · intro hall info hinfo
    obtain ⟨y, hy, hreg, rfl⟩ := ht.exists_refsGivenBy hi hd hinfo
    have hsize := Ref.size_ne_zero hreg
    exact DebugState.rejection_eq_none.mpr ((verdict h hd hy hsize).mpr (hall y hy hsize))

/-- Something is registered if something with a size was given. -/
theorem records_ne_nil_iff (h : (monitors.under Guarding).Reach x) (hd : d ∈ x.world.arenas) :
    x.state.records d.arenaId ≠ [] ↔ ∃ y ∈ refsGivenBy x.log d.arenaId, y.1.size ≠ 0 := by
  have ht := reach_told h.of_under
  have hw := reach_guarding h
  have hi := World.reach_inv hw.of_under
  constructor
  · intro hne
    obtain ⟨info, hinfo⟩ := List.exists_mem_of_ne_nil _ hne
    obtain ⟨y, hy, hreg, _⟩ := ht.exists_refsGivenBy hi hd hinfo
    exact ⟨y, hy, Ref.size_ne_zero hreg⟩
  · rintro ⟨y, hy, hsize⟩
    exact List.ne_nil_of_mem (ht.mem_records hi hd (reach_sealed hw d hd) hy hsize)

end Monitor

/-- Records are counted reference by reference. -/
theorem countP_infos {l : List (Ref × Nat)} {p : AllocationInfo → Bool} {q : Ref × Nat → Prop}
    [DecidablePred q] (h : ∀ y ∈ l, y.1.registered ≠ 0 →
      (p ⟨y.1.ptr, y.1.size, y.1.checkpointId⟩ = true ↔ q y)) :
    ((l.map Prod.fst).flatMap Ref.infos).countP p =
      ((l.filter q).map fun y => y.1.registered).sum := by
  induction l with
  | nil => rfl
  | cons y l ih =>
      rw [List.map_cons, List.flatMap_cons, List.countP_append,
        ih fun z hz => h z (List.mem_cons_of_mem _ hz), Ref.infos, List.countP_replicate]
      by_cases hreg : y.1.registered = 0
      · by_cases hq : q y
        · simp [hq, hreg]
        · simp [hq, hreg]
      · have hy := h y List.mem_cons_self hreg
        by_cases hq : q y
        · simp [hq, hy.mpr hq]
        · simp [hq, mt hy.mp hq]

section Totals

universe u v

/-- The values of an association list, read through a list of all its keys. -/
theorem entries_perm_lookup {α : Type u} {β : Type v} [DecidableEq α] (s : AList fun _ : α => β)
    {ids : List α} (hids : ids.Nodup) (hkeys : ∀ k ∈ s, k ∈ ids) :
    (s.entries.map Sigma.snd).Perm (ids.filterMap fun k => s.lookup k) := by
  have hvalues : s.entries.map Sigma.snd = s.keys.filterMap fun k => s.lookup k := by
    show _ = (s.entries.map Sigma.fst).filterMap _
    rw [List.filterMap_map]
    have hcongr : s.entries.filterMap ((fun k => s.lookup k) ∘ Sigma.fst) =
        s.entries.filterMap (some ∘ Sigma.snd) :=
      List.filterMap_congr fun e he => AList.mem_lookup_iff.mpr he
    rw [hcongr, List.filterMap_eq_map]
  have hperm : s.keys.Perm (ids.filter fun k => k ∈ s) := by
    refine (List.perm_ext_iff_of_nodup s.keys_nodup (hids.filter _)).mpr fun k => ?_
    rw [List.mem_filter, decide_eq_true_eq, AList.mem_keys]
    exact ⟨fun hk => ⟨hkeys k hk, hk⟩, fun hk => hk.2⟩
  rw [hvalues]
  refine (hperm.filterMap _).trans (.of_eq ?_)
  rw [List.filterMap_filter]
  refine List.filterMap_congr fun k _ => ?_
  split
  · rfl
  · next hk => exact (AList.lookup_eq_none.mpr (by simpa using hk)).symm

theorem max?_perm {l l' : List Nat} (h : l.Perm l') : l.max? = l'.max? := by
  cases hm : l'.max? with
  | none =>
      rw [List.max?_eq_none_iff] at hm ⊢
      exact (hm ▸ h).eq_nil
  | some a =>
      rw [List.max?_eq_some_iff] at hm ⊢
      exact ⟨h.mem_iff.mpr hm.1, fun b hb => hm.2 b (h.mem_iff.mp hb)⟩

theorem sum_filterMap {α : Type u} {β : Type v} (f : α → Option β) (n : β → Nat) (l : List α) :
    ((l.filterMap f).map n).sum = (l.map fun a => ((f a).map n).getD 0).sum := by
  induction l with
  | nil => rfl
  | cons a l ih =>
      cases hf : f a with
      | none => simp [hf, ih]
      | some b => simp [hf, ih]

end Totals

/-- **What `get_debug_stats` counts**, in every process: the registrations of all arenas that are
    there, none retired; the arenas that registered anything; the largest id recorded for one, which
    is that of its last registration or of a rewind of ANY arena after it; no corruption; and the
    lines of all leak reports. -/
theorem debug_totals_exact {x : Monitor} (h : monitors.Reach x) :
    x.state.getDebugStats x.leakReports =
      { totalAllocations := (x.world.arenas.map DebugArena.registrations).sum
        activeCheckpoints := x.world.arenas.countP fun d => d.registrations ≠ 0
        currentCheckpointId := (x.world.arenas.filterMap fun d =>
          x.log.foldl (Trace.recordedId d.arenaId) none).max?.getD 0
        corruptedAllocations := 0
        leakReports := x.printed.length } := by
  have ht := Monitor.reach_told h
  have hi := World.reach_inv (Monitor.reach_world h)
  have hsane : x.state.Sane := hi.sane
  have hnodup : (x.world.arenas.map DebugArena.arenaId).Nodup :=
    List.pairwise_map.mpr (hi.foreign.imp fun hf => hf.1)
  have hids : ∀ k, x.state.records k ≠ [] → k ∈ x.world.arenas.map DebugArena.arenaId := by
    intro k hk
    by_contra hno
    exact hk (hi.keys k fun d hd hid => hno (List.mem_map.mpr ⟨d, hd, hid⟩))
  have hlength : ∀ d ∈ x.world.arenas, (x.state.records d.arenaId).length = d.registrations :=
    fun d hd => (hi.good d hd).getStats_arenaId
  have hallocs := entries_perm_lookup x.state.allocations hnodup fun k hk =>
    hids k fun hnil => AList.lookup_eq_none.mp (hsane.lookup_eq_none.mpr hnil) hk
  have hcps := entries_perm_lookup x.state.arenaCheckpoints hnodup fun k hk =>
    hids k fun hnil => AList.lookup_eq_none.mp ((hi.recorded k).mpr hnil) hk
  have hrecorded : (x.world.arenas.map DebugArena.arenaId).filterMap
      (fun k => x.state.arenaCheckpoints.lookup k) =
        x.world.arenas.filterMap fun d => x.log.foldl (Trace.recordedId d.arenaId) none := by
    rw [List.filterMap_map]
    exact List.filterMap_congr fun d hd => ht.recorded d hd
  have htotal : (x.state.allocations.entries.map fun e => e.2.length).sum =
      (x.world.arenas.map DebugArena.registrations).sum := by
    have hsum := (hallocs.map List.length).sum_eq
    rw [List.map_map, List.filterMap_map, sum_filterMap] at hsum
    refine hsum.trans (congrArg List.sum (List.map_congr_left fun d hd => ?_))
    rw [← hlength d hd]
    show ((x.state.allocations.lookup d.arenaId).map List.length).getD 0 =
      ((x.state.allocations.lookup d.arenaId).getD []).length
    cases x.state.allocations.lookup d.arenaId with
    | none => rfl
    | some infos => rfl
  have hactive : x.state.arenaCheckpoints.entries.length =
      x.world.arenas.countP fun d => d.registrations ≠ 0 := by
    have hlen := hcps.length_eq
    rw [List.length_map, List.filterMap_map, List.length_filterMap_eq_countP] at hlen
    refine hlen.trans (List.countP_congr fun d hd => ?_)
    rw [Function.comp_apply, Option.isSome_iff_ne_none, decide_eq_true_eq, ← hlength d hd,
      List.length_eq_zero_iff.ne]
    exact (hi.recorded d.arenaId).not
  have hcurrent := congrArg (fun n => Option.getD n 0) (max?_perm (hrecorded ▸ hcps))
  simp only [DebugState.getDebugStats, htotal, hactive, hcurrent, hsane.corrupted, ht.printed]

/-- Two arenas: what the first rewound to is recorded for the second as well. -/
theorem debug_totals_exact_two : ∃ x, monitors.Reach x ∧
    x.state.getDebugStats x.leakReports = ⟨4, 2, 0, 0, 2⟩ := by
  obtain ⟨x, hr, h1, h2, h3, h4⟩ := System.exists_reach_of_replay monitors
    ((inTwoArenas [.call 0 none .checkpoint, .call 1 none .checkpoint,
        .call 0 (some 16384) (.allocateRaw none .word),
        .call 1 (some 32768) (.allocateRaw none .word),
        .call 0 none (.rewindToCheckpoint 0)]).map .event ++ [.leakReport (fun _ => none) 2])
    Monitor.init_start
    (P := fun x => (x.world.arenas.map DebugArena.registrations).sum = 4 ∧
      x.world.arenas.countP (fun d => d.registrations ≠ 0) = 2 ∧
      (x.world.arenas.filterMap fun d =>
        x.log.foldl (Trace.recordedId d.arenaId) none).max?.getD 0 = 0 ∧
      x.printed.length = 2) (by decide +kernel)
  exact ⟨x, hr, by rw [debug_totals_exact hr, h1, h2, h3, h4]⟩

end ArenaB
