/-
  File:      ArenaB/Debug/Log.lean
  Subject:   Processes of a debug build with a log of what decides the reports.

  The verdict on an allocation lies in the past of the PROCESS, not of its arena: a rewind of any
  arena taints the guards of all. So a log is kept beside the process: which arena gave which
  reference, and to which ids arenas were rewound, in order. No function of the source reads it.

  * `eventTraces`, `Noted` and **`Happens.noted`** -- what one event adds to the log, once:
    nothing, a rewind, or what an arena gave; `Noted.seen`, `Noted.bytes` -- what an arena sees of
    it: its references, the id recorded for it, its guards;
  * `Monitor`, `monitors` -- a process with its log, the switch of the validation and the counter of
    leak reports;
  * `Monitor.Told`, `Monitor.Kept` -- what the log tells of an arena, along every run.
-/
import ArenaB.Debug.Guards
import ArenaB.Debug.Reports

namespace ArenaB

open Base

/-! ## 1. The log -/

/-- What is noted: an arena gave a reference, or some arena was rewound to an id. -/
inductive Trace where
  | gave (arenaId : Nat) (r : Ref)
  | rewound (checkpointId : Nat)
  deriving DecidableEq, Repr

namespace Trace

/-- The reference, if the arena gave one. -/
def to? (arenaId : Nat) : Trace → Option Ref
  | gave k r => if k = arenaId then some r else none
  | rewound _ => none

/-- The id of a rewind. -/
def target? : Trace → Option Nat
  | gave _ _ => none
  | rewound c => some c

/-- The checkpoint id recorded for the arena: that of its last registration, or of a rewind
    after it. -/
def recordedId (arenaId : Nat) (current : Option Nat) : Trace → Option Nat
  | gave k r => if k = arenaId ∧ r.registered ≠ 0 then some r.checkpointId else current
  | rewound c => current.map fun _ => c

end Trace

section Log

variable {log new : List Trace} {arenaId t : Nat} {r : Ref}

/-- The references the arena gave, with their places in the log. -/
def refsGivenBy (log : List Trace) (arenaId : Nat) : List (Ref × Nat) :=
  log.zipIdx.filterMap fun x => (x.1.to? arenaId).map fun r => (r, x.2)

/-- After place `t` some arena was rewound to an id below that of `r`. -/
def Lowered (log : List Trace) (r : Ref) (t : Nat) : Prop :=
  ∃ c ∈ (log.drop (t + 1)).filterMap Trace.target?, c < r.checkpointId

instance (log : List Trace) (r : Ref) (t : Nat) : Decidable (Lowered log r t) := by
  unfold Lowered
  infer_instance

theorem mem_refsGivenBy : (r, t) ∈ refsGivenBy log arenaId ↔ log[t]? = some (.gave arenaId r) := by
  unfold refsGivenBy
  rw [List.mem_filterMap]
  constructor
  · rintro ⟨⟨e, i⟩, hx, h⟩
    obtain ⟨r', hr, e'⟩ := Option.map_eq_some_iff.mp h
    cases e'
    rw [List.mem_zipIdx_iff_getElem?] at hx
    cases e with
    | gave k r' =>
        have hk : (if k = arenaId then some r' else none) = some r := hr
        split at hk
        · next hk' =>
          cases hk
          rw [← hk']
          exact hx
        · cases hk
    | rewound c => cases hr
  · intro h
    exact ⟨(.gave arenaId r, t), List.mem_zipIdx_iff_getElem?.mpr h, by simp [Trace.to?]⟩

theorem map_fst_refsGivenBy :
    (refsGivenBy log arenaId).map Prod.fst = log.filterMap (Trace.to? arenaId) := by
  unfold refsGivenBy
  rw [List.map_filterMap]
  simp only [Option.map_map]
  have hcomp : (fun x : Trace × Nat => Option.map (Prod.fst ∘ fun r => (r, x.2))
      (x.1.to? arenaId)) = Trace.to? arenaId ∘ Prod.fst := by
    funext x
    exact Option.map_id'
  rw [hcomp, ← List.filterMap_map, List.zipIdx_map_fst]

theorem lowered_append (ht : t < log.length) : Lowered (log ++ new) r t ↔
    Lowered log r t ∨ ∃ c ∈ new.filterMap Trace.target?, c < r.checkpointId := by
  unfold Lowered
  rw [List.drop_append_of_le_length ht, List.filterMap_append]
  simp only [List.mem_append, or_and_right, exists_or]

/-- No rewind is among what is new. -/
theorem not_lowered_new (hnew : new.filterMap Trace.target? = []) (ht : log.length ≤ t) :
    ¬ Lowered (log ++ new) r t := by
  rintro ⟨c, hc, _⟩
  obtain ⟨e, he, hec⟩ := List.mem_filterMap.mp hc
  rw [List.drop_append, List.drop_eq_nil_of_le (by omega), List.nil_append] at he
  have hmem : c ∈ new.filterMap Trace.target? :=
    List.mem_filterMap.mpr ⟨e, List.mem_of_mem_drop he, hec⟩
  rw [hnew] at hmem
  cases hmem

end Log

/-! ## 2. What an event adds -/

/-- What is noted of an event. -/
def eventTraces (w : World) : WorldOp → List Trace
  | .call k guard op =>
      match w.arenas[k]? with
      | none => []
      | some d =>
          match d.target op with
          | some c => [.rewound c]
          | none =>
              match d.exec w.process guard op with
              | none => []
              | some r =>
                  (r.1.chronicle.entries.drop d.chronicle.entries.length).map (.gave d.arenaId)
  | _ => []

section Events

variable {w w' : World} {k : Nat} {d d' e e' : DebugArena} {p' : Process} {guard : Option Nat}
  {op : Op} {c : Nat} {fresh : Span → Prop}

theorem eventTraces_rewound (hd : w.arenas[k]? = some d) (htarget : d.target op = some c) :
    eventTraces w (.call k guard op) = [.rewound c] := by
  simp only [eventTraces, hd, htarget]

/-- Without a rewind, what is noted is what the arena gave. -/
theorem eventTraces_gave (hd : w.arenas[k]? = some d) (htarget : d.target op = none)
    (hx : d.exec w.process guard op = some (d', p')) {new : List Ref}
    (hnew : d'.chronicle.entries = d.chronicle.entries ++ new) :
    eventTraces w (.call k guard op) = new.map (.gave d.arenaId) := by
  simp only [eventTraces, hd, htarget, hx, hnew, List.drop_left]

theorem filterMap_gave_self (k : Nat) (new : List Ref) :
    (new.map (Trace.gave k)).filterMap (Trace.to? k) = new := by
  rw [List.filterMap_map]
  have hsome : Trace.to? k ∘ Trace.gave k = some := funext fun r => if_pos rfl
  rw [hsome, List.filterMap_some]

theorem filterMap_gave_ne {j k : Nat} (hjk : k ≠ j) (new : List Ref) :
    (new.map (Trace.gave k)).filterMap (Trace.to? j) = [] := by
  refine List.filterMap_eq_nil_iff.mpr fun x hx => ?_
  obtain ⟨r, _, rfl⟩ := List.mem_map.mp hx
  exact if_neg hjk

theorem filterMap_gave_target (k : Nat) (new : List Ref) :
    (new.map (Trace.gave k)).filterMap Trace.target? = [] := by
  refine List.filterMap_eq_nil_iff.mpr fun x hx => ?_
  obtain ⟨r, _, rfl⟩ := List.mem_map.mp hx
  rfl

theorem foldl_gave_ne {j k : Nat} (hjk : k ≠ j) (new : List Ref) (current : Option Nat) :
    (new.map (Trace.gave k)).foldl (Trace.recordedId j) current = current := by
  induction new with
  | nil => rfl
  | cons r new ih =>
      rw [List.map_cons, List.foldl_cons, Trace.recordedId, if_neg fun h => hjk h.1]
      exact ih

/-- **What an arena sees of an event**: it has its id still, the references it gave are noted, and
    the id recorded for it follows from what is noted. -/
structure Seen (w w' : World) (new : List Trace) (e e' : DebugArena) : Prop where
  mem : e ∈ w.arenas
  arenaId : e'.arenaId = e.arenaId
  entries : e'.chronicle.entries =
    e.chronicle.entries ++ new.filterMap (Trace.to? e.arenaId)
  recorded : w'.process.state.recorded e.arenaId =
    new.foldl (Trace.recordedId e.arenaId) (w.process.state.recorded e.arenaId)

/-- The arena was there before, or it is new and nothing is known of it. -/
def SeenOrNew (w w' : World) (new : List Trace) (e' : DebugArena) : Prop :=
  (∃ e, Seen w w' new e e') ∨
    e'.arenaId = w.process.state.nextArenaId ∧ e'.chronicle.entries = [] ∧ new = [] ∧
      w'.process.state.recorded e'.arenaId = none

/-- Nothing is noted, and nothing happened to the arena. -/
theorem seen_nil (hmem : e ∈ w.arenas) (hid : e'.arenaId = e.arenaId)
    (hent : e'.chronicle = e.chronicle)
    (hrec : w'.process.state.recorded e.arenaId = w.process.state.recorded e.arenaId) :
    SeenOrNew w w' [] e' :=
  Or.inl ⟨e, hmem, hid, by rw [hent]; exact (List.append_nil _).symm, hrec⟩

/-- The guard in front of the data of a reference, as it is written first. -/
def Process.Fenced (p : Process) (r : Ref) : Prop :=
  ∀ b ∈ r.block, ∀ i < guardSize, p.mem (b + debugGuardSize + i) = guardByte i

/-- **What is noted of an event**: nothing, a rewind, or what an arena gave. -/
inductive Noted (w w' : World) : WorldOp → List Trace → Prop where
  | quiet {op : WorldOp} : w'.process.mem = w.process.mem →
      w.process.state.nextArenaId ≤ w'.process.state.nextArenaId →
      (∀ e' ∈ w'.arenas, SeenOrNew w w' [] e') → Noted w w' op []
  | rewound {op : WorldOp} {c k i : Nat} {d : DebugArena} {a' : ArenaInner} :
      w.arenas[k]? = some d → w'.process = w.process.rewindToCheckpoint c →
      w'.arenas = w.arenas.set k (d.rewound i a') → Noted w w' op [.rewound c]
  | gave {k : Nat} {guard : Option Nat} {op : Op} {d d' : DebugArena} {new : List Ref} :
      w.arenas[k]? = some d → DebugArena.Turn w.Fresh guard op d w.process d' w'.process →
      d.target op = none → w'.arenas = w.arenas.set k d' →
      d'.chronicle.entries = d.chronicle.entries ++ new →
      w'.process.state.recorded d.arenaId = (new.map (Trace.gave d.arenaId)).foldl
        (Trace.recordedId d.arenaId) (w.process.state.recorded d.arenaId) →
      (∀ r ∈ new, w'.process.Fenced r) →
      Noted w w' (.call k guard op) (new.map (.gave d.arenaId))

/-- A call that is no rewind: what it gave, and the id recorded for its arena. -/
theorem DebugArena.Turn.gave {p : Process} (ht : Turn fresh guard op d p d' p')
    (htarget : d.target op = none) :
    ∃ new : List Ref, d'.chronicle.entries = d.chronicle.entries ++ new ∧
      p'.state.recorded d.arenaId = (new.map (Trace.gave d.arenaId)).foldl
        (Trace.recordedId d.arenaId) (p.state.recorded d.arenaId) ∧
      ∀ r ∈ new, p'.Fenced r := by
  have hnone {p'' : Process} : ∀ r ∈ ([] : List Ref), p''.Fenced r := fun r hr => by cases hr
  cases ht with
  | idle => exact ⟨[], (List.append_nil _).symm, rfl, hnone⟩
  | @take sys l g bs hn hr hg hbs =>
      refine ⟨[g.ref], Chronicle.entries_record _ _, hg.admits.recorded d.arenaId, ?_⟩
      intro r hr' b hb
      rw [List.mem_singleton.mp hr'] at hb
      exact ((hg.admits.write bs (by rw [hg.size]; exact hbs)).guard b hb).2
  | write _ _ => exact ⟨[], (List.append_nil _).symm, rfl, hnone⟩
  | mark _ _ =>
      exact ⟨[], (Chronicle.entries_mark _ _).trans (List.append_nil _).symm, rfl, hnone⟩
  | rewind _ _ _ h =>
      rw [htarget] at h
      cases h
  | clear => exact ⟨[], (List.append_nil _).symm, rfl, hnone⟩
  | forget _ _ _ _ _ =>
      exact ⟨[], (Chronicle.entries_clear _).trans (List.append_nil _).symm, rfl, hnone⟩

theorem World.Happens.noted {op : WorldOp} (hi : w.Inv) (hx : World.Happens w op w') :
    Noted w w' op (eventTraces w op) := by
  cases hx with
  | create _ _ _ =>
      refine .quiet rfl (Nat.le_succ _) fun e' he' => ?_
      rcases List.mem_append.mp he' with he' | he'
      · exact seen_nil he' rfl rfl rfl
      · rw [List.mem_singleton.mp he']
        refine Or.inr ⟨rfl, rfl, rfl, (hi.recorded _).mpr (hi.keys _ fun d hd => ?_)⟩
        exact Nat.ne_of_lt (hi.good d hd).id_lt
  | move hd _ =>
      exact .quiet rfl (Nat.le_refl _) (forall_set (fun e he => seen_nil he rfl rfl rfl)
        (seen_nil (List.mem_of_getElem? hd) rfl rfl rfl))
  | drop hd =>
      refine .quiet rfl (Nat.le_refl _) fun e he => ?_
      obtain ⟨j, hj, he⟩ := List.mem_eraseIdx_iff_getElem?.mp he
      have hfor := pairwise_getElem?_ne (fun _ _ => DebugArena.Foreign.symm) hi.foreign hj he hd
      exact seen_nil (List.mem_of_getElem? he) rfl rfl
        (DebugState.recorded_cleanupArena.trans (if_neg hfor.1))
  | @call k guard op d d' p' hd hexec ht =>
      cases htarget : d.target op with
      | some c =>
          obtain ⟨rfl, i, a', rfl, _⟩ := ht.of_target htarget
          rw [eventTraces_rewound hd htarget]
          exact .rewound hd rfl rfl
      | none =>
          obtain ⟨new, hnew, hrec, hfence⟩ := ht.gave htarget
          rw [eventTraces_gave hd htarget hexec hnew]
          exact .gave hd ht htarget rfl hnew hrec hfence

/-- A rewind taints the first byte of the guards above it, and no other byte of a guard. -/
theorem rewind_bytes (hi : w.Inv) (hs : ∀ d ∈ w.arenas, d.Sealed w.process) (he : e ∈ w.arenas)
    {r : Ref} (hr : r ∈ e.chronicle.entries) {b : Nat} (hb : r.block = some b) {i : Nat}
    (hlt : i < guardSize) :
    (w.process.rewindToCheckpoint c).mem (b + debugGuardSize + i) =
      if i = 0 ∧ c < r.checkpointId then 0 else w.process.mem (b + debugGuardSize + i) := by
  by_cases h : i = 0 ∧ c < r.checkpointId
  · rw [if_pos h, h.1]
    exact (hi.good e he).tainted (hi.recorded _) hr hb h.2
  · rw [if_neg h]
    refine Process.rewind_mem_other fun k info hinfo hc hptr => ?_
    obtain ⟨d, hd, rfl, r', hr', b', hb', rfl⟩ := hi.of_record hs hinfo
    have hx : b' + debugGuardSize = b + debugGuardSize + i :=
      ((hi.good d hd).ptr_sub hr' hb').symm.trans hptr
    rcases hi.guards_apart hd he hr' hr hb' hb with ⟨rfl, rfl⟩ | hap
    · rw [hb] at hb'
      cases hb'
      exact h ⟨by omega, hc⟩
    · refine Span.apart_iff.mp hap (b + debugGuardSize + i) ?_ (guardBlock_has hlt)
      rw [← hx]
      exact guardBlock_has (i := 0) (by decide)

section Noted

variable {op : WorldOp} {new : List Trace}

/-- **One event, as every arena sees it.** -/
theorem Noted.seen (h : Noted w w' op new) (hi : w.Inv) :
    ∀ e' ∈ w'.arenas, SeenOrNew w w' new e' := by
  cases h with
  | quiet _ _ hseen => exact hseen
  | @rewound _ c _ _ _ _ hd hp harenas =>
      have hrec {j : Nat} : w'.process.state.recorded j =
          [Trace.rewound c].foldl (Trace.recordedId j) (w.process.state.recorded j) := by
        rw [hp]
        exact Process.rewind_recorded
      rw [harenas]
      refine forall_mem_set hd (Or.inl ⟨_, List.mem_of_getElem? hd, rfl, ?_, hrec⟩)
        fun j e _ he => Or.inl ⟨e, List.mem_of_getElem? he, rfl, (List.append_nil _).symm, hrec⟩
      exact (Chronicle.entries_rewind _ _).trans (List.append_nil _).symm
  | @gave k guard op d d' new hd ht htarget harenas hnew hrec _ =>
      rw [harenas]
      refine forall_mem_set hd (Or.inl ⟨d, List.mem_of_getElem? hd, ht.leaves.2.1, ?_, hrec⟩)
        fun j e hj he => Or.inl ⟨e, List.mem_of_getElem? he, rfl, ?_, ?_⟩
      · rw [filterMap_gave_self]
        exact hnew
      · have hfor := pairwise_getElem?_ne (fun _ _ => DebugArena.Foreign.symm) hi.foreign
          (Ne.symm hj) hd he
        rw [filterMap_gave_ne hfor.1]
        exact (List.append_nil _).symm
      · have hfor := pairwise_getElem?_ne (fun _ _ => DebugArena.Foreign.symm) hi.foreign
          (Ne.symm hj) hd he
        rw [foldl_gave_ne hfor.1]
        exact ht.keeps_recorded htarget hfor.1.symm

/-- Ids are never used again. -/
theorem Noted.nextArenaId (h : Noted w w' op new) :
    w.process.state.nextArenaId ≤ w'.process.state.nextArenaId := by
  cases h with
  | quiet _ hle _ => exact hle
  | rewound _ hp _ =>
      rw [hp, Process.rewind_nextArenaId]
  | gave _ ht _ _ _ _ _ => exact Nat.le_of_eq ht.leaves.1.nextArenaId.symm

/-- Who gave a reference is there, the reference is fenced, and nothing is rewound beside it. -/
theorem Noted.gave_mem (h : Noted w w' op new) {r : Ref} (hr : Trace.gave k r ∈ new) :
    (∃ d ∈ w.arenas, d.arenaId = k) ∧ w'.process.Fenced r ∧
      new.filterMap Trace.target? = [] := by
  cases h with
  | quiet _ _ _ => cases hr
  | rewound _ _ _ => cases List.mem_singleton.mp hr
  | gave hd _ _ _ _ _ hfence =>
      obtain ⟨r', hr', e'⟩ := List.mem_map.mp hr
      cases e'
      exact ⟨⟨_, List.mem_of_getElem? hd, rfl⟩, hfence r hr', filterMap_gave_target _ _⟩

/-- **What an event does to the guards.** -/
theorem Noted.bytes (h : Noted w w' op new) (hi : w.Inv)
    (hs : ∀ d ∈ w.arenas, d.Sealed w.process) (hget : GetsGuard w op) (he : e ∈ w.arenas)
    {r : Ref} (hr : r ∈ e.chronicle.entries) {b : Nat} (hb : r.block = some b) {i : Nat}
    (hlt : i < guardSize) :
    w'.process.mem (b + debugGuardSize + i) =
      if i = 0 ∧ ∃ c ∈ new.filterMap Trace.target?, c < r.checkpointId then 0
      else w.process.mem (b + debugGuardSize + i) := by
  have hquiet : new.filterMap Trace.target? = [] →
      w'.process.mem (b + debugGuardSize + i) = w.process.mem (b + debugGuardSize + i) →
      w'.process.mem (b + debugGuardSize + i) =
        if i = 0 ∧ ∃ c ∈ new.filterMap Trace.target?, c < r.checkpointId then 0
        else w.process.mem (b + debugGuardSize + i) := by
    intro hnil hmem
    rw [hmem, hnil, if_neg]
    rintro ⟨_, c, hc, _⟩
    cases hc
  cases h with
  | quiet hmem _ _ => exact hquiet rfl (congrFun hmem _)
  | rewound _ hp _ =>
      rw [hp]
      refine (rewind_bytes hi hs he hr hb hlt).trans (if_congr ?_ rfl rfl)
      simp [Trace.target?]
  | gave hd ht htarget _ _ _ _ =>
      have hmem := List.mem_of_getElem? hd
      refine hquiet (filterMap_gave_target _ _) ?_
      refine ht.keeps_guards (hi.good _ hmem) (hs _ hmem).guarded hget (fun g hg => hg.1)
        htarget ((hi.good e he).owned r hr b hb).2.2 (fun u hu => ?_) hlt
      obtain ⟨r', hr', b', hb', rfl⟩ := DebugArena.mem_guardSpans.mp hu
      rcases hi.guards_apart hmem he hr' hr hb' hb with ⟨rfl, rfl⟩ | hap
      · rw [hb] at hb'
        cases hb'
        exact Or.inl rfl
      · exact Or.inr hap

end Noted

end Events

/-! ## 3. Monitored processes -/

/-- A process, the switch `VALIDATION_ENABLED`, the counter of leak reports, and, read by no
    function, the log and the lines of all leak reports so far. -/
structure Monitor where
  world : World
  validationEnabled : Bool
  leakReports : Nat
  log : List Trace
  printed : List String

/-- What happens in a monitored process. -/
inductive MonitorOp where
  | event (op : WorldOp)
  | enableValidation (enable : Bool)
  | leakReport (trace : Nat → Option String) (arenaId : Nat)

namespace Monitor

variable (x : Monitor)

def state : DebugState := x.world.process.state

def mem : Mem := x.world.process.mem

/-- `debug::validate_allocation`, which `DebugAllocator::validate_pointer` calls. -/
def validateAllocation (arenaId ptr : Nat) : Except String Unit :=
  if x.validationEnabled then x.state.validateAllocation x.mem arenaId ptr else .ok ()

/-- `debug::validate_arena`, which `DebugAllocator::validate_arena` calls. -/
def validateArena (trace : Nat → Option String) (arenaId : Nat) : Except String Unit :=
  if x.validationEnabled then x.state.validateArena x.mem trace arenaId else .ok ()

def exec : MonitorOp → Option Monitor
  | .event op =>
      (x.world.exec op).map fun w => { x with world := w, log := x.log ++ eventTraces x.world op }
  | .enableValidation enable => some { x with validationEnabled := enable }
  | .leakReport trace arenaId =>
      let reports := x.state.leakReport trace arenaId
      some { x with
        leakReports := x.leakReports + reports.length
        printed := x.printed ++ reports }

/-- What the environment may do. -/
def Ok : MonitorOp → Prop
  | .event op => worlds.ok x.world op
  | _ => True

instance : (op : MonitorOp) → Decidable (x.Ok op)
  | .event op => inferInstanceAs (Decidable (worlds.ok x.world op))
  | .enableValidation _ => inferInstanceAs (Decidable True)
  | .leakReport _ _ => inferInstanceAs (Decidable True)

/-- Every allocation gets its guard block. -/
def Guarding : MonitorOp → Prop
  | .event op => GetsGuard x.world op
  | _ => True

instance : (op : MonitorOp) → Decidable (x.Guarding op)
  | .event op => inferInstanceAs (Decidable (GetsGuard x.world op))
  | .enableValidation _ => inferInstanceAs (Decidable True)
  | .leakReport _ _ => inferInstanceAs (Decidable True)

/-- A process that has just started. -/
def start : Monitor := ⟨World.start, false, 0, [], []⟩

end Monitor

/-- The monitored processes of a debug build. -/
def monitors : System Monitor MonitorOp where
  init x := worlds.init x.world ∧ x = ⟨x.world, false, 0, [], []⟩
  ok := Monitor.Ok
  step := Monitor.exec

instance (x : Monitor) (op : MonitorOp) : Decidable (monitors.ok x op) :=
  inferInstanceAs (Decidable (x.Ok op))

theorem Monitor.init_start : monitors.init Monitor.start := ⟨World.init_start, rfl⟩

/-! ## 4. What the log tells -/

theorem foldl_recordedId_none {log : List Trace} {k : Nat} (h : ∀ r, Trace.gave k r ∉ log) :
    log.foldl (Trace.recordedId k) none = none := by
  induction log with
  | nil => rfl
  | cons e log ih =>
      have hstep : Trace.recordedId k none e = none := by
        cases e with
        | gave j r =>
            refine if_neg fun hj : j = k ∧ r.registered ≠ 0 => h r ?_
            rw [hj.1]
            exact List.mem_cons_self
        | rewound c => rfl
      rw [List.foldl_cons, hstep]
      exact ih fun r hr => h r (List.mem_cons_of_mem _ hr)

theorem filterMap_to?_nil {log : List Trace} {k : Nat} (h : ∀ r, Trace.gave k r ∉ log) :
    log.filterMap (Trace.to? k) = [] := by
  refine List.filterMap_eq_nil_iff.mpr fun e he => ?_
  cases e with
  | gave j r => exact if_neg fun hj : j = k => h r (hj ▸ he)
  | rewound c => rfl

namespace Monitor

variable {x x' : Monitor}

/-- The log names arenas that were created, and tells of each that is still there what it gave and
    which id is recorded for it. -/
structure Told (x : Monitor) : Prop where
  known : ∀ k r, Trace.gave k r ∈ x.log → k < x.state.nextArenaId
  entries : ∀ d ∈ x.world.arenas, d.chronicle.entries = x.log.filterMap (Trace.to? d.arenaId)
  recorded : ∀ d ∈ x.world.arenas,
    x.state.recorded d.arenaId = x.log.foldl (Trace.recordedId d.arenaId) none
  printed : x.leakReports = x.printed.length

/-- **Everything that can happen to a monitored process**: an event, or a call that neither the
    process nor the log notices. -/
theorem exec_cases {op : MonitorOp} (e : x.exec op = some x') :
    (∃ op' w, op = .event op' ∧ x.world.exec op' = some w ∧
      x' = { x with world := w, log := x.log ++ eventTraces x.world op' }) ∨
    (x'.world = x.world ∧ x'.log = x.log ∧
      (x.leakReports = x.printed.length → x'.leakReports = x'.printed.length)) := by
  cases op with
  | event op =>
      obtain ⟨w, hx, rfl⟩ := Option.map_eq_some_iff.mp e
      exact Or.inl ⟨op, w, rfl, hx, rfl⟩
  | enableValidation enable =>
      cases e
      exact Or.inr ⟨rfl, rfl, id⟩
  | leakReport trace arenaId =>
      cases e
      refine Or.inr ⟨rfl, rfl, fun h => ?_⟩
      show x.leakReports + _ = (x.printed ++ _).length
      rw [h, List.length_append]

/-- The process runs as it does without a monitor, under what is demanded of its events. -/
theorem reach_under {G : Monitor → MonitorOp → Prop} {H : World → WorldOp → Prop}
    (hG : ∀ x op, G x (.event op) → H x.world op) (h : (monitors.under G).Reach x) :
    (worlds.under H).Reach x.world := by
  refine h.image Monitor.world (fun x hx => ?_) fun x op x' hok e => ?_
  · exact hx.1
  · rcases exec_cases e with ⟨op', w, rfl, hx, rfl⟩ | ⟨hw, _⟩
    · exact Or.inr ⟨op', ⟨hok.1, hG x op' hok.2⟩, hx⟩
    · exact Or.inl hw

theorem reach_world (h : monitors.Reach x) : worlds.Reach x.world :=
  (reach_under (G := fun _ _ => True) (H := fun _ _ => True) (fun _ _ h => h)
    (h.under fun _ _ _ _ => trivial)).of_under

theorem reach_guarding (h : (monitors.under Guarding).Reach x) :
    (worlds.under GetsGuard).Reach x.world :=
  reach_under (fun _ _ h => h) h

/-- The log of an arena that is created now. -/
theorem Told.fresh (h : x.Told) (r : Ref) :
    Trace.gave x.world.process.state.nextArenaId r ∉ x.log :=
  fun hr => Nat.lt_irrefl _ (h.known _ r hr)

theorem Told.event (h : x.Told) (hi : x.world.Inv) {w : World} {new : List Trace} {op : WorldOp}
    (hn : Noted x.world w op new) : Told { x with world := w, log := x.log ++ new } := by
  refine ⟨fun k r hr => ?_, fun e' he' => ?_, fun e' he' => ?_, h.printed⟩
  · refine Nat.lt_of_lt_of_le ?_ hn.nextArenaId
    rcases List.mem_append.mp hr with hr | hr
    · exact h.known k r hr
    · obtain ⟨⟨d, hd, rfl⟩, _⟩ := hn.gave_mem hr
      exact (hi.good d hd).id_lt
  · show _ = (x.log ++ new).filterMap _
    rw [List.filterMap_append]
    rcases hn.seen hi e' he' with ⟨e, hs⟩ | ⟨hid, hnil, hnew, _⟩
    · rw [hs.entries, hs.arenaId, h.entries e hs.mem]
    · rw [hnil, hnew, hid, filterMap_to?_nil h.fresh]
      rfl
  · show w.process.state.recorded _ = (x.log ++ new).foldl _ _
    rw [List.foldl_append]
    rcases hn.seen hi e' he' with ⟨e, hs⟩ | ⟨hid, _, hnew, hrec⟩
    · rw [hs.arenaId, hs.recorded, ← h.recorded e hs.mem]
      rfl
    · rw [hrec, hnew, hid, foldl_recordedId_none h.fresh]
      rfl

theorem reach_told (h : monitors.Reach x) : x.Told := by
  refine h.inv' (P := Told) (fun x hx => ?_) fun x op x' hr ht hok e => ?_
  · obtain ⟨hw, he⟩ := hx
    rw [he]
    exact ⟨(fun k r hr => by cases hr), World.forall_of_init hw, World.forall_of_init hw, rfl⟩
  · rcases exec_cases e with ⟨op', w, rfl, hx, rfl⟩ | ⟨hw, hlog, hprinted⟩
    · have hi := World.reach_inv (reach_world hr)
      exact ht.event hi ((World.exec_happens hi hok hx).noted hi)
    · refine ⟨?_, ?_, ?_, hprinted ht.printed⟩
      · rw [hlog, state, hw]
        exact ht.known
      · rw [hlog, hw]
        exact ht.entries
      · rw [hlog, state, hw]
        exact ht.recorded

/-- The guard of every reference is as it was written, but for the first byte, which is tainted if
    an arena was rewound to a lower id since. -/
def Kept (x : Monitor) : Prop :=
  ∀ d ∈ x.world.arenas, ∀ y ∈ refsGivenBy x.log d.arenaId, ∀ b ∈ y.1.block, ∀ i < guardSize,
    x.mem (b + debugGuardSize + i) = if i = 0 ∧ Lowered x.log y.1 y.2 then 0 else guardByte i

theorem Kept.event (h : x.Kept) (ht : x.Told) (hi : x.world.Inv)
    (hs : ∀ d ∈ x.world.arenas, d.Sealed x.world.process) {op : WorldOp}
    (hget : GetsGuard x.world op) {w : World} {new : List Trace} (hn : Noted x.world w op new) :
    Kept { x with world := w, log := x.log ++ new } := by
  rintro e' he' ⟨r, t⟩ hy b hb i hlt
  have hgot : (x.log ++ new)[t]? = some (.gave e'.arenaId r) := mem_refsGivenBy.mp hy
  show w.process.mem _ = if i = 0 ∧ Lowered (x.log ++ new) r t then 0 else _
  by_cases hold : t < x.log.length
  · rw [List.getElem?_append_left hold] at hgot
    rcases hn.seen hi e' he' with ⟨e, hsn⟩ | ⟨hid, _, _, _⟩
    · rw [hsn.arenaId] at hgot
      have hmem : r ∈ e.chronicle.entries := by
        rw [ht.entries e hsn.mem, ← map_fst_refsGivenBy]
        exact List.mem_map.mpr ⟨(r, t), mem_refsGivenBy.mpr hgot, rfl⟩
      have hbyte := h e hsn.mem (r, t) (mem_refsGivenBy.mpr hgot) b hb i hlt
      rw [hn.bytes hi hs hget hsn.mem hmem hb hlt]
      rw [show x.world.process.mem (b + debugGuardSize + i) = _ from hbyte]
      by_cases hz : i = 0
      · by_cases hlow : ∃ c ∈ new.filterMap Trace.target?, c < r.checkpointId
        · rw [if_pos ⟨hz, hlow⟩, if_pos ⟨hz, (lowered_append hold).mpr (Or.inr hlow)⟩]
        · rw [if_neg fun hc => hlow hc.2]
          refine if_congr ?_ rfl rfl
          rw [lowered_append hold, or_iff_left hlow]
      · rw [if_neg fun hc => hz hc.1, if_neg fun hc => hz hc.1, if_neg fun hc => hz hc.1]
    · rw [hid] at hgot
      exact absurd (List.mem_of_getElem? hgot) (ht.fresh r)
  · have hnew : Trace.gave e'.arenaId r ∈ new := by
      rw [List.getElem?_append_right (Nat.not_lt.mp hold)] at hgot
      exact List.mem_of_getElem? hgot
    obtain ⟨_, hfence, hnil⟩ := hn.gave_mem hnew
    rw [if_neg fun hc => not_lowered_new hnil (Nat.not_lt.mp hold) hc.2]
    exact hfence b hb i hlt

theorem reach_kept (h : (monitors.under Guarding).Reach x) : x.Kept := by
  refine h.inv' (P := Kept) (fun x hx => ?_) fun x op x' hr hk hok e => ?_
  · intro d hd
    exact World.forall_of_init hx.1 (P := fun _ => False) d hd |>.elim
  · rcases exec_cases e with ⟨op', w, rfl, hx, rfl⟩ | ⟨hw, hlog, _⟩
    · have hr' := reach_guarding hr
      have hi := World.reach_inv hr'.of_under
      exact hk.event (reach_told hr.of_under) hi (reach_sealed hr') hok.2
        ((World.exec_happens hi hok.1 hx).noted hi)
    · unfold Kept mem
      rw [hw, hlog]
      exact hk

end Monitor

end ArenaB
