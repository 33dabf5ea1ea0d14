import Qoms.Monitoring
import Qoms.Run

/-!
# The latest observation

`ingestEvent` puts each signal into the zone's telemetry snapshot, whatever was observed there
before. So the snapshot is the signal that was received last (`latestOf_run`), and it is one with
the greatest `observedAt` throughout a sequence of calls just when the signals of the zone come in
the order in which they were observed (`latest_iff_inOrder`). `backDated` goes back to an older
observation.
-/

set_option autoImplicit false

namespace Qoms.MonitoringService

/-! ## Calls and signals -/

/-- A call of `ingestEvent` at the time `now`, whose send ends with `outcome`. -/
structure IngestCall where
  dto : CreateOccupancyEventDto
  outcome : CallOutcome
  now : ℤ

/-- What a call leaves; an invalid date changes nothing. -/
def ingest (s : MonitoringDb × Topic) (call : IngestCall) : MonitoringDb × Topic :=
  match ingestEvent s.1 s.2 call.dto call.outcome call.now with
  | none => s
  | some (_, db, topic) => (db, topic)

/-- An ingested signal of a zone. -/
structure Signal where
  occupancy : ℤ
  observedAt : ℤ
  deriving DecidableEq, Repr

/-- The signal of a call, if it is one of the zone. -/
def IngestCall.signal (zone : String) (call : IngestCall) : Option Signal :=
  if call.dto.zoneId = zone then
    (call.dto.observedDate call.now).map fun observedAt => ⟨call.dto.occupancy, observedAt⟩
  else none

/-- The signals of the zone, as they were received. -/
def signals (zone : String) (calls : List IngestCall) : List Signal :=
  calls.filterMap (·.signal zone)

/-- What a snapshot says of its zone. -/
def TelemetrySnapshot.signal (snapshot : TelemetrySnapshot) : Signal :=
  ⟨snapshot.occupancy, snapshot.observedAt⟩

/-- The snapshot is one of the signals, and none was observed after it. -/
structure IsLatest (signals : List Signal) (snapshot : Option TelemetrySnapshot) : Prop where
  signal_mem : ∀ s, snapshot = some s → s.signal ∈ signals
  le_observedAt : ∀ x ∈ signals, ∃ s, snapshot = some s ∧ x.observedAt ≤ s.observedAt

/-- The service before its first call. -/
def noSignals : MonitoringDb × Topic :=
  (⟨[], [], 0⟩, [])

section

variable {zone : String} {calls : List IngestCall} {call : IngestCall}

theorem signals_concat (zone : String) (calls : List IngestCall) (call : IngestCall) :
    signals zone (calls ++ [call]) = signals zone calls ++ (call.signal zone).toList := by
  rw [signals, List.filterMap_append, ← signals]
  cases h : call.signal zone with
  | none => rw [List.filterMap_cons_none h, List.filterMap_nil, Option.toList_none]
  | some s => rw [List.filterMap_cons_some h, List.filterMap_nil, Option.toList_some]

/-! ## The snapshot of a zone -/

theorem latestOf_upsertSnapshot_of_ne {snapshot : TelemetrySnapshot} (hne : snapshot.zoneId ≠ zone)
    (snapshots : List TelemetrySnapshot) :
    latestOf (upsertSnapshot snapshots snapshot) zone = latestOf snapshots zone := by
  unfold latestOf upsertSnapshot
  split_ifs with hany
  · have hsame : ((fun s : TelemetrySnapshot => s.zoneId == zone) ∘
        fun old => if old.zoneId = snapshot.zoneId then snapshot else old) =
        fun s => s.zoneId == zone := by
      funext s
      rw [Function.comp_apply]
      split_ifs with hs
      · rw [hs]
      · rfl
    rw [List.find?_map, hsame]
    cases hfind : snapshots.find? (·.zoneId == zone) with
    | none => rfl
    | some found =>
      have hfound : found.zoneId = zone := by simpa using List.find?_some hfind
      rw [Option.map_some, if_neg (hfound.trans_ne hne.symm)]
  · rw [List.find?_append, List.find?_singleton]
    simp [hne]

/-- One call : its signal is the zone's snapshot from then on, if it is one of the zone. -/
theorem latestOf_ingest (s : MonitoringDb × Topic) (call : IngestCall) :
    (latestOf (ingest s call).1.snapshots zone).map (·.signal) =
      (call.signal zone).or ((latestOf s.1.snapshots zone).map (·.signal)) := by
  unfold ingest ingestEvent IngestCall.signal
  cases hdate : call.dto.observedDate call.now with
  | none => simp
  | some observedAt =>
    dsimp only [Option.bind_eq_bind, Option.bind_some, Option.pure_def]
    split_ifs with hzone
    · rw [← hzone]
      have hlatest := latestOf_upsertSnapshot s.1.snapshots
        (call.dto.event s.1.uuids observedAt call.now).snapshot
      have hid : (call.dto.event s.1.uuids observedAt call.now).snapshot.zoneId =
          call.dto.zoneId := rfl
      rw [hid] at hlatest
      rw [hlatest]
      rfl
    · rw [latestOf_upsertSnapshot_of_ne hzone, Option.none_or]

/-- The snapshot of a zone is the signal that was received last. -/
theorem latestOf_run (zone : String) (calls : List IngestCall) :
    (latestOf (run ingest noSignals calls).1.snapshots zone).map (·.signal) =
      (signals zone calls).getLast? := by
  induction calls using List.reverseRecOn with
  | nil => rfl
  | append_singleton calls call ih =>
    rw [run_append, run_cons, run_nil, latestOf_ingest, ih, signals_concat]
    cases call.signal zone with
    | none => rw [Option.none_or, Option.toList_none, List.append_nil]
    | some s => rw [Option.some_or, Option.toList_some, List.getLast?_concat]

/-- The last signal is the latest just when none was observed after it. -/
theorem isLatest_iff {snapshot : Option TelemetrySnapshot} {xs : List Signal}
    (h : snapshot.map (·.signal) = xs.getLast?) :
    IsLatest xs snapshot ↔ ∀ last, xs.getLast? = some last → ∀ x ∈ xs,
      x.observedAt ≤ last.observedAt := by
  constructor
  · rintro hlatest last hlast x hx
    obtain ⟨s, rfl, hle⟩ := hlatest.le_observedAt x hx
    rw [hlast, Option.map_some, Option.some_inj] at h
    rwa [← h]
  · intro hle
    refine ⟨fun s hs => ?_, fun x hx => ?_⟩
    · rw [hs, Option.map_some] at h
      exact List.mem_of_getLast? h.symm
    · have hne : xs ≠ [] := List.ne_nil_of_mem hx
      rw [List.getLast?_eq_some_getLast hne] at h hle
      obtain ⟨s, hs, hsignal⟩ := Option.map_eq_some_iff.mp h
      refine ⟨s, hs, ?_⟩
      have := hle _ rfl x hx
      rwa [← hsignal] at this

end

/-- Of signals in the order of their `observedAt`, the last is the latest. -/
theorem le_getLast?_of_inOrder {xs : List Signal}
    (h : xs.Pairwise fun x y => x.observedAt ≤ y.observedAt) {last : Signal}
    (hlast : xs.getLast? = some last) : ∀ x ∈ xs, x.observedAt ≤ last.observedAt := by
  obtain ⟨before, rfl⟩ := List.getLast?_eq_some_iff.mp hlast
  intro x hx
  rcases List.mem_append.mp hx with hx | hx
  · exact (List.pairwise_append.mp h).2.2 x hx last (List.mem_singleton_self last)
  · exact (congrArg Signal.observedAt (List.mem_singleton.mp hx)).le

/-- For any calls of `ingestEvent`, one after another : at every moment the snapshot of a zone,
which `getLatest` returns, is one of its signals with the greatest `observedAt` so far, exactly
when the signals of the zone come in the order of their `observedAt`. -/
theorem latest_iff_inOrder (zone : String) (calls : List IngestCall) :
    (∀ pre, pre <+: calls →
      IsLatest (signals zone pre) (latestOf (run ingest noSignals pre).1.snapshots zone)) ↔
    (signals zone calls).Pairwise fun x y => x.observedAt ≤ y.observedAt := by
  induction calls using List.reverseRecOn with
  | nil =>
    refine iff_of_true (fun pre hpre => ?_) List.Pairwise.nil
    rw [List.prefix_nil.mp hpre, isLatest_iff (latestOf_run zone [])]
    exact fun last hlast => absurd hlast (by simp [signals])
  | append_singleton calls call ih =>
    have hpres : (∀ pre, pre <+: calls ++ [call] →
        IsLatest (signals zone pre) (latestOf (run ingest noSignals pre).1.snapshots zone)) ↔
        (∀ pre, pre <+: calls →
          IsLatest (signals zone pre) (latestOf (run ingest noSignals pre).1.snapshots zone)) ∧
        IsLatest (signals zone (calls ++ [call]))
          (latestOf (run ingest noSignals (calls ++ [call])).1.snapshots zone) := by
      simp only [List.prefix_concat_iff, or_imp, forall_and, forall_eq]
      exact and_comm
    rw [hpres, ih, isLatest_iff (latestOf_run zone _), signals_concat]
    cases call.signal zone with
    | none =>
      -- the snapshot stays, and the signals
      rw [Option.toList_none, List.append_nil]
      exact and_iff_left_of_imp fun hsorted last hlast => le_getLast?_of_inOrder hsorted hlast
    | some s =>
      rw [Option.toList_some, List.pairwise_append]
      constructor
      · rintro ⟨hsorted, hle⟩
        refine ⟨hsorted, List.pairwise_singleton _ s, fun x hx y hy => ?_⟩
        rw [List.mem_singleton.mp hy]
        exact hle s List.getLast?_concat x (List.mem_append_left [s] hx)
      · rintro ⟨hsorted, hsingle, hle⟩
        exact ⟨hsorted, fun last hlast => le_getLast?_of_inOrder
          (List.pairwise_append.mpr ⟨hsorted, hsingle, hle⟩) hlast⟩

/-- A signal observed at 2000 ms, and one observed at 1000 ms that comes after it. -/
def backDated : List IngestCall :=
  [⟨⟨uuidOne, 110, none, some (some 2000)⟩, .acknowledged, 2001⟩,
    ⟨⟨uuidOne, 110, none, some (some 1000)⟩, .acknowledged, 2002⟩]

/-- The snapshot goes back from 2000 ms to 1000 ms. -/
theorem backDated_goesBack :
    (latestOf (run ingest noSignals backDated).1.snapshots uuidOne).map (·.observedAt) =
      some 1000 ∧
    ¬∀ pre, pre <+: backDated → IsLatest (signals uuidOne pre)
      (latestOf (run ingest noSignals pre).1.snapshots uuidOne) := by
  refine ⟨by decide +kernel, fun h => ?_⟩
  obtain ⟨s, hs, hle⟩ := (h backDated (List.prefix_refl _)).le_observedAt ⟨110, 2000⟩
    (by decide +kernel)
  obtain rfl : s = ⟨uuidOne, 110, "admin_web", 1000, ⟨uuidOne, 110, "admin_web", 1000⟩⟩ :=
    Option.some_inj.mp (hs.symm.trans (by decide +kernel))
  exact absurd hle (by decide)

end Qoms.MonitoringService
