/-
  File:      ArenaB/Debug/Reports.lean
  Subject:   What the debug feature reports about an arena: the checks of all its allocations, the
             leak report and the statistics of the process (src/debug.rs), and
             `validate_debug_state` (src/arena.rs).

  * the reports go through the records under a key and judge each by its pointer. The backtrace
    captured with a record is a text of the environment. The lock of the registry is never
    poisoned: no function panics while it holds it.
-/
import ArenaB.Debug.World

namespace ArenaB

open Base

/-- `{:p}`. -/
def pointer (ptr : Nat) : String := "0x" ++ String.ofList (Nat.toDigits 16 ptr)

/-- The text of a captured backtrace. -/
def backtrace (trace : Option String) : String := trace.getD "<backtrace unavailable>"

/-- The end of both validations: the reports, if there are any. -/
def report (separator : String) (reports : List String) : Except String Unit :=
  if reports.isEmpty then .ok () else .error (separator.intercalate reports)

theorem report_eq_ok {separator : String} {reports : List String} :
    report separator reports = .ok () ↔ reports = [] := by
  cases reports with
  | nil => exact ⟨fun _ => rfl, fun _ => rfl⟩
  | cons x xs => exact ⟨(fun h => by cases h), (fun h => by cases h)⟩

namespace DebugState

variable (s : DebugState) (m : Mem) (trace : Nat → Option String) (arenaId : Nat)

/-- The error of `validate_allocation` for the pointer of a record. -/
def rejection (info : AllocationInfo) : Option String :=
  match s.validateAllocation m arenaId info.ptr with
  | .ok _ => none
  | .error err => some err

/-- `DebugState::validate_arena`; `trace i` is the backtrace of the `i`th record. -/
def validateArena : Except String Unit :=
  match s.allocations.lookup arenaId with
  | none => .error "Arena not found"
  | some allocations =>
      report "\n" (allocations.zipIdx.filterMap fun x => (s.rejection m arenaId x.1).map fun err =>
        "Pointer " ++ pointer x.1.ptr ++ ": " ++ err ++ "\n" ++ backtrace (trace x.2))

/-- `DebugState::leak_report`, without the counter. -/
def leakReport : List String :=
  (s.records arenaId).zipIdx.map fun x =>
    "Leaked allocation: ptr=" ++ pointer x.1.ptr ++ ", size=" ++ toString x.1.size ++
      ", checkpoint=" ++ toString x.1.checkpointId ++ "\n" ++ backtrace (trace x.2)

/-- `debug::validate_all_allocations`. -/
def validateAllAllocations : Except String Unit :=
  match s.allocations.lookup arenaId with
  | none => .ok ()
  | some allocations =>
      report "; " (allocations.filterMap fun info => (s.rejection m arenaId info).map fun e =>
        "Pointer " ++ pointer info.ptr ++ ": " ++ e)

/-- `debug::check_memory_corruption`. -/
def checkMemoryCorruption : Nat :=
  (s.records arenaId).countP fun info => (s.rejection m arenaId info).isSome

/-- `debug::get_debug_stats`. -/
def getDebugStats (leakReports : Nat) : DebugStats where
  totalAllocations := (s.allocations.entries.map fun e => e.2.length).sum
  activeCheckpoints := s.arenaCheckpoints.entries.length
  currentCheckpointId := (s.arenaCheckpoints.entries.map Sigma.snd).max?.getD 0
  corruptedAllocations := s.corruptedAllocations
  leakReports := leakReports

variable {s m trace arenaId}

theorem rejection_eq_none {info : AllocationInfo} :
    s.rejection m arenaId info = none ↔ s.validateAllocation m arenaId info.ptr = .ok () := by
  unfold rejection
  split
  · next h => simp [h]
  · next h => simp [h]

theorem length_leakReport :
    (s.leakReport trace arenaId).length = (s.records arenaId).length := by
  rw [leakReport, List.length_map, List.length_zipIdx]

/-- No report means that no record is rejected. -/
theorem validateAllAllocations_eq_ok : s.validateAllAllocations m arenaId = .ok () ↔
    ∀ info ∈ s.records arenaId, s.rejection m arenaId info = none := by
  unfold validateAllAllocations records
  cases s.allocations.lookup arenaId with
  | none => simp
  | some infos =>
      rw [report_eq_ok, List.filterMap_eq_nil_iff]
      simp only [Option.map_eq_none_iff, Option.getD_some]

theorem validateArena_eq_ok : s.validateArena m trace arenaId = .ok () ↔
    s.allocations.lookup arenaId ≠ none ∧
      ∀ info ∈ s.records arenaId, s.rejection m arenaId info = none := by
  unfold validateArena records
  cases s.allocations.lookup arenaId with
  | none => simp
  | some infos =>
      rw [report_eq_ok, List.filterMap_eq_nil_iff]
      simp only [Option.map_eq_none_iff, Option.getD_some, ne_eq, reduceCtorEq, not_false_eq_true,
        true_and]
      constructor
      · intro h info hi
        obtain ⟨i, hi⟩ := List.mem_iff_getElem?.mp hi
        exact h (info, i) (List.mem_zipIdx_iff_getElem?.mpr hi)
      · intro h x hx
        exact h x.1 (List.mem_of_getElem? (List.mem_zipIdx_iff_getElem?.mp hx))

end DebugState

/-- `Arena::validate_debug_state`: the key is the address of the arena. -/
def World.validateDebugState (w : World) (d : DebugArena) : Except String Unit :=
  let corrupted := (w.process.state.getStats d.addr).2
  if corrupted > 0 then
    .error ("Found " ++ toString corrupted ++ " corrupted debug guards")
  else .ok ()

end ArenaB
