import Qoms.Cache
import Qoms.Run
import Qoms.ZoneAdmin

/-!
# The zone service's cache

`ZoneService` answers `listZones`, `getZone` and `getZoneStatus` through Redis, under the
keys `zones:list`, `zone:summary:<id>` and `zone:status:<id>`; each of its four writes
deletes the list and the two keys of its zone, spelled as the request spells the id
(`invalidateZoneCache`). `createZone` and `updateZone` end with a `getZone`, which reads
through the cache again.

A write changes what the list shows and what is shown of its own zone, nothing else
(`ZoneDb.Frame`). If every id is spelled as the database writes it, the zone has no other
summary and no other status in the cache than those deleted, so every entry stays what the
tables would give (`Fresh`), and the service answers as one without a cache does
(`cached_refines_plain`). Entries may expire at any moment.
-/

set_option autoImplicit false

namespace Qoms.ZoneService

/-! ## Responses -/

/-- The rules in a response. -/
structure RulesResponse where
  queueEnabled : Bool
  reservationEnabled : Bool
  overloadThresholdPct : ℤ
  estimatedServiceMinutesPerPerson : ℤ
  reservationSlotMinutes : ℤ
  reservationWindowDays : ℤ
  maxQueueSize : ℤ
  deriving DecidableEq, Repr

/-- What `toZoneResponse` returns; the dates are in milliseconds. -/
structure ZoneResponse where
  id : Uuid
  name : String
  type : ZoneType
  status : ZoneStatus
  capacity : ℤ
  currentOccupancy : ℤ
  occupancyPct : ℤ
  rules : Option RulesResponse
  createdAt : ℤ
  updatedAt : ℤ
  deriving DecidableEq, Repr

/-- What `getZoneStatus` returns. -/
structure ZoneStatusResponse where
  zoneId : Uuid
  status : ZoneStatus
  currentOccupancy : ℤ
  capacity : ℤ
  occupancyPct : ℤ
  deriving DecidableEq, Repr

def ZoneRuleEntity.response (rules : ZoneRuleEntity) : RulesResponse where
  queueEnabled := rules.queueEnabled
  reservationEnabled := rules.reservationEnabled
  overloadThresholdPct := rules.overloadThresholdPct
  estimatedServiceMinutesPerPerson := rules.estimatedServiceMinutesPerPerson
  reservationSlotMinutes := rules.reservationSlotMinutes
  reservationWindowDays := rules.reservationWindowDays
  maxQueueSize := rules.maxQueueSize

/-- `toZoneResponse`. -/
def toZoneResponse (zone : ZoneEntity) (rules : Option ZoneRuleEntity) : ZoneResponse where
  id := zone.id
  name := zone.name
  type := zone.type
  status := zone.status
  capacity := zone.capacity
  currentOccupancy := zone.currentOccupancy
  occupancyPct := occupancyPct zone.currentOccupancy zone.capacity
  rules := rules.map (·.response)
  createdAt := zone.createdAt / 1000
  updatedAt := zone.updatedAt / 1000

/-! ## Reading the tables -/

/-- `getZoneEntity`. -/
def getZoneEntity (db : ZoneDb) (id : String) : Except HttpError ZoneEntity := do
  let .ok found := findZone db.zones id | throw .database
  let some zone := found | throw (.notFound "Zone not found")
  return zone

/-- What `listZones` computes; zones created at the same time come in the order of a rank. -/
def readZones (db : ZoneDb) (rank : ZoneEntity → ℕ) : List ZoneResponse :=
  (db.zones.insertionSort (CreatedBefore (·.createdAt) rank)).map fun zone =>
    toZoneResponse zone (rulesOf db.rules zone.id)

/-- What `getZone` computes. -/
def readSummary (db : ZoneDb) (id : String) : Except HttpError ZoneResponse := do
  let zone ← getZoneEntity db id
  let .ok rules := findRules db.rules id | throw .database
  return toZoneResponse zone rules

/-- What `getZoneStatus` computes. -/
def readStatus (db : ZoneDb) (id : String) : Except HttpError ZoneStatusResponse := do
  let zone ← getZoneEntity db id
  return {
    zoneId := zone.id
    status := zone.status
    currentOccupancy := zone.currentOccupancy
    capacity := zone.capacity
    occupancyPct := occupancyPct zone.currentOccupancy zone.capacity }

/-! ## The cache -/

/-- The keys of the service in Redis. -/
inductive ZoneKey
  | list
  | summary (id : String)
  | status (id : String)
  deriving DecidableEq, Repr

/-- The key as Redis has it. -/
def ZoneKey.text : ZoneKey → String
  | .list => "zones:list"
  | .summary id => "zone:summary:" ++ id
  | .status id => "zone:status:" ++ id

/-- No two keys are the same text. -/
theorem ZoneKey.text_injective : Function.Injective ZoneKey.text := by
  intro a b h
  have hchars : a.text.toList = b.text.toList := congrArg String.toList h
  cases a <;> cases b <;> simp [ZoneKey.text, String.ext_iff] at hchars ⊢
  all_goals exact hchars

/-- What is stored under a key. -/
def ZoneKey.Value : ZoneKey → Type
  | .list => List ZoneResponse
  | .summary _ => ZoneResponse
  | .status _ => ZoneStatusResponse

/-- The tables and the cache. -/
structure Service where
  db : ZoneDb
  cache : Cache ZoneKey ZoneKey.Value

/-- `listZones`. -/
def Service.listZones (s : Service) (rank : ZoneEntity → ℕ) :
    Except HttpError (List ZoneResponse) × Service :=
  let read := s.cache.fetch .list (.ok (readZones s.db rank))
  (read.1, { s with cache := read.2 })

/-- `getZone`. -/
def Service.getZone (s : Service) (id : String) : Except HttpError ZoneResponse × Service :=
  let read := s.cache.fetch (.summary id) (readSummary s.db id)
  (read.1, { s with cache := read.2 })

/-- `getZoneStatus`. -/
def Service.getZoneStatus (s : Service) (id : String) :
    Except HttpError ZoneStatusResponse × Service :=
  let read := s.cache.fetch (.status id) (readStatus s.db id)
  (read.1, { s with cache := read.2 })

/-- `invalidateZoneCache`. -/
def invalidateZoneCache (cache : Cache ZoneKey ZoneKey.Value) (zoneId : String) :
    Cache ZoneKey ZoneKey.Value :=
  cache.del [.list, .summary zoneId, .status zoneId]

/-- `createZone`. -/
def Service.createZone (s : Service) (dto : CreateZoneDto) (actorId : String) (clock : Clock) :
    Except HttpError ZoneResponse × Service :=
  let zoneId := uuidText s.db.nextZone
  match ZoneService.createZone s.db dto actorId clock with
  | .error e => (.error e, s)
  | .ok db => Service.getZone ⟨db, invalidateZoneCache s.cache zoneId⟩ zoneId

/-- `updateZone`. -/
def Service.updateZone (s : Service) (id : String) (dto : UpdateZoneDto) (actorId : String)
    (clock : Clock) : Except HttpError ZoneResponse × Service :=
  match ZoneService.updateZone s.db id dto actorId clock with
  | .error e => (.error e, s)
  | .ok db => Service.getZone ⟨db, invalidateZoneCache s.cache id⟩ id

/-- `updateZoneRules`, but for the response, which is the saved entity. -/
def Service.updateZoneRules (s : Service) (id : String) (dto : UpdateZoneRulesDto)
    (actorId : String) (clock : Clock) : Service :=
  match ZoneService.updateZoneRules s.db id dto actorId clock with
  | .error _ => s
  | .ok db => ⟨db, invalidateZoneCache s.cache id⟩

/-- `handleOccupancyUpdated`; an event that was processed before returns early. -/
def Service.handleOccupancyUpdated (s : Service) (event : OccupancyEnvelope) (clock : Clock) :
    Service :=
  if isProcessed s.db.processed event.eventId then s
  else
    match ZoneService.handleOccupancyUpdated s.db event clock with
    | .error _ => s
    | .ok db => ⟨db, invalidateZoneCache s.cache (zoneIdOf event)⟩

/-! ## One request after another -/

/-- A request, an event, or the expiry of an entry. -/
inductive ServiceOp
  | listZones (rank : ZoneEntity → ℕ)
  | getZone (id : String)
  | getZoneStatus (id : String)
  | write (op : ZoneOp)
  | expire (key : ZoneKey)

/-- What a request reads of the zones : nothing, the list, a zone, or its status. -/
inductive Reading
  | nothing
  | zones (response : Except HttpError (List ZoneResponse))
  | zone (response : Except HttpError ZoneResponse)
  | status (response : Except HttpError ZoneStatusResponse)

/-- One request, with what it read. -/
def Service.serve (s : Service) : ServiceOp → Reading × Service
  | .listZones rank => (.zones (s.listZones rank).1, (s.listZones rank).2)
  | .getZone id => (.zone (s.getZone id).1, (s.getZone id).2)
  | .getZoneStatus id => (.status (s.getZoneStatus id).1, (s.getZoneStatus id).2)
  | .write (.createZone dto actorId clock) =>
    (.zone (s.createZone dto actorId clock).1, (s.createZone dto actorId clock).2)
  | .write (.updateZone id dto actorId clock) =>
    (.zone (s.updateZone id dto actorId clock).1, (s.updateZone id dto actorId clock).2)
  | .write (.updateZoneRules id dto actorId clock) =>
    (.nothing, s.updateZoneRules id dto actorId clock)
  | .write (.handleOccupancyUpdated event clock) =>
    (.nothing, s.handleOccupancyUpdated event clock)
  | .expire key => (.nothing, { s with cache := s.cache.del [key] })

/-- The service after a request. -/
def Service.next (s : Service) (op : ServiceOp) : Service :=
  (s.serve op).2

/-- What a service without a cache can read from its tables. -/
def Plain (db : ZoneDb) : ServiceOp → Reading → Prop
  | .listZones _, r => ∃ rank, r = .zones (.ok (readZones db rank))
  | .getZone id, r => r = .zone (readSummary db id)
  | .getZoneStatus id, r => r = .status (readStatus db id)
  | .write (.createZone dto actorId clock), r =>
    r = .zone (createZone db dto actorId clock >>= fun db' =>
      readSummary db' (uuidText db.nextZone))
  | .write (.updateZone id dto actorId clock), r =>
    r = .zone (updateZone db id dto actorId clock >>= fun db' => readSummary db' id)
  | _, r => r = .nothing

/-- What the request makes of the tables. -/
def ServiceOp.tables (db : ZoneDb) : ServiceOp → ZoneDb
  | .write op => perform db op
  | _ => db

/-- The ids of the request are spelled as the database writes them. -/
def ServiceOp.Spelled : ServiceOp → Prop
  | .getZone id => Canonical id
  | .getZoneStatus id => Canonical id
  | .write (.updateZone id _ _ _) => Canonical id
  | .write (.updateZoneRules id _ _ _) => Canonical id
  | .write (.handleOccupancyUpdated event _) => Canonical (zoneIdOf event)
  | _ => True

/-! ## Coherence -/

/-- What the tables would give for a key now. The list may come in any order of the zones
created at the same time. -/
def Fresh (db : ZoneDb) : (k : ZoneKey) → k.Value → Prop
  | .list, zones => ∃ rank, readZones db rank = zones
  | .summary id, zone => Canonical id ∧ readSummary db id = .ok zone
  | .status id, status => Canonical id ∧ readStatus db id = .ok status

/-- Every entry of the cache is what the tables would give. -/
def Service.Coherent (s : Service) : Prop :=
  s.cache.Coherent (Fresh s.db)

section

variable {db db' : ZoneDb} {zoneId : Uuid} {id : String}

theorem ZoneDb.Frame.findZone_eq (h : ZoneDb.Frame zoneId db db') (hne : uuidIn id ≠ some zoneId) :
    findZone db'.zones id = findZone db.zones id := by
  unfold findZone
  cases hid : uuidIn id with
  | none => rfl
  | some other =>
    have hother : other ≠ zoneId := fun heq => hne (heq ▸ hid)
    exact congrArg Except.ok (h.zone other hother)

theorem ZoneDb.Frame.findRules_eq (h : ZoneDb.Frame zoneId db db')
    (hne : uuidIn id ≠ some zoneId) : findRules db'.rules id = findRules db.rules id := by
  unfold findRules
  cases hid : uuidIn id with
  | none => rfl
  | some other =>
    have hother : other ≠ zoneId := fun heq => hne (heq ▸ hid)
    exact congrArg Except.ok (h.rules other hother)

theorem ZoneDb.Frame.readSummary_eq (h : ZoneDb.Frame zoneId db db')
    (hne : uuidIn id ≠ some zoneId) : readSummary db' id = readSummary db id := by
  rw [readSummary, readSummary, getZoneEntity, getZoneEntity, h.findZone_eq hne,
    h.findRules_eq hne]

theorem ZoneDb.Frame.readStatus_eq (h : ZoneDb.Frame zoneId db db')
    (hne : uuidIn id ≠ some zoneId) : readStatus db' id = readStatus db id := by
  rw [readStatus, readStatus, getZoneEntity, getZoneEntity, h.findZone_eq hne]

/-- A write of one zone keeps what is under the keys it does not delete, if it spells the
id as the readers do. -/
theorem Fresh.frame (hframe : ZoneDb.Frame zoneId db db')
    (hspell : ∀ other, Canonical other → uuidIn other = some zoneId → other = id) {k : ZoneKey}
    (hk : k ∉ [.list, .summary id, .status id]) {v : k.Value} (h : Fresh db k v) :
    Fresh db' k v := by
  cases k with
  | list => exact absurd List.mem_cons_self hk
  | summary other =>
    obtain ⟨hother, hread⟩ := h
    have hne : uuidIn other ≠ some zoneId := fun heq => hk (by simp [hspell other hother heq])
    exact ⟨hother, (hframe.readSummary_eq hne).trans hread⟩
  | status other =>
    obtain ⟨hother, hread⟩ := h
    have hne : uuidIn other ≠ some zoneId := fun heq => hk (by simp [hspell other hother heq])
    exact ⟨hother, (hframe.readStatus_eq hne).trans hread⟩

theorem invalidateZoneCache_coherent {cache : Cache ZoneKey ZoneKey.Value}
    (h : cache.Coherent (Fresh db)) (hframe : ZoneDb.Frame zoneId db db')
    (hspell : ∀ other, Canonical other → uuidIn other = some zoneId → other = id) :
    Service.Coherent ⟨db', invalidateZoneCache cache id⟩ :=
  h.del fun _ hk _ hv => hv.frame hframe hspell hk

/-- Dropping entries keeps the others. -/
theorem Service.Coherent.drop {s : Service} (h : s.Coherent) (keys : List ZoneKey) :
    Service.Coherent ⟨s.db, s.cache.del keys⟩ :=
  Cache.Coherent.del h fun _ _ _ hv => hv

end

section

variable {s : Service} {id : String}

theorem Service.listZones_coherent (h : s.Coherent) (rank : ZoneEntity → ℕ) :
    (∃ rank', (s.listZones rank).1 = .ok (readZones s.db rank')) ∧
      (s.listZones rank).2.Coherent := by
  have hcompute : ∀ v : ZoneKey.list.Value,
      (Except.ok (readZones s.db rank) : Except HttpError ZoneKey.list.Value) = .ok v →
        Fresh s.db .list v := fun v hv => ⟨rank, Except.ok.inj hv⟩
  refine ⟨?_, Cache.Coherent.fetch_snd h hcompute⟩
  rcases Cache.fetch_fst s.cache .list
    (.ok (readZones s.db rank) : Except HttpError ZoneKey.list.Value) with ⟨v, hget, heq⟩ | heq
  · obtain ⟨rank', rfl⟩ := h .list v hget
    exact ⟨rank', heq⟩
  · exact ⟨rank, heq⟩

theorem Service.getZone_coherent (h : s.Coherent) (hid : Canonical id) :
    (s.getZone id).1 = readSummary s.db id ∧ (s.getZone id).2.Coherent := by
  have hfresh : ∀ v : (ZoneKey.summary id).Value, Fresh s.db (.summary id) v ↔
      readSummary s.db id = .ok v := fun v => and_iff_right hid
  exact ⟨Cache.Coherent.fetch_eq h hfresh, Cache.Coherent.fetch_snd h fun v => (hfresh v).mpr⟩

theorem Service.getZoneStatus_coherent (h : s.Coherent) (hid : Canonical id) :
    (s.getZoneStatus id).1 = readStatus s.db id ∧ (s.getZoneStatus id).2.Coherent := by
  have hfresh : ∀ v : (ZoneKey.status id).Value, Fresh s.db (.status id) v ↔
      readStatus s.db id = .ok v := fun v => and_iff_right hid
  exact ⟨Cache.Coherent.fetch_eq h hfresh, Cache.Coherent.fetch_snd h fun v => (hfresh v).mpr⟩

/-- A committed write that deletes the keys of its zone and reads it again. -/
theorem Service.getZone_written {db' : ZoneDb} {zoneId : Uuid} (h : s.Coherent)
    (hframe : ZoneDb.Frame zoneId s.db db')
    (hspell : ∀ other, Canonical other → uuidIn other = some zoneId → other = id)
    (hid : Canonical id) :
    (Service.getZone ⟨db', invalidateZoneCache s.cache id⟩ id).1 = readSummary db' id ∧
      (Service.getZone ⟨db', invalidateZoneCache s.cache id⟩ id).2.Coherent :=
  Service.getZone_coherent (invalidateZoneCache_coherent h hframe hspell) hid

theorem Service.createZone_coherent (h : s.Coherent) (dto : CreateZoneDto) (actorId : String)
    (clock : Clock) :
    Plain s.db (.write (.createZone dto actorId clock))
        (.zone (s.createZone dto actorId clock).1) ∧
      (s.createZone dto actorId clock).2.db = perform s.db (.createZone dto actorId clock) ∧
      (s.createZone dto actorId clock).2.Coherent := by
  simp only [Plain, perform, ZoneOp.result, Service.createZone]
  cases hcreate : ZoneService.createZone s.db dto actorId clock with
  | error e => exact ⟨rfl, rfl, h⟩
  | ok db' =>
    obtain ⟨hread, hcoherent⟩ := Service.getZone_written h (createZone_frame hcreate)
      (fun _ hother => hother _) (canonical_uuidText s.db.nextZone)
    exact ⟨congrArg Reading.zone hread, rfl, hcoherent⟩

theorem Service.updateZone_coherent (h : s.Coherent) (hid : Canonical id) (dto : UpdateZoneDto)
    (actorId : String) (clock : Clock) :
    Plain s.db (.write (.updateZone id dto actorId clock))
        (.zone (s.updateZone id dto actorId clock).1) ∧
      (s.updateZone id dto actorId clock).2.db = perform s.db (.updateZone id dto actorId clock) ∧
      (s.updateZone id dto actorId clock).2.Coherent := by
  simp only [Plain, perform, ZoneOp.result, Service.updateZone]
  cases hupdate : ZoneService.updateZone s.db id dto actorId clock with
  | error e => exact ⟨rfl, rfl, h⟩
  | ok db' =>
    obtain ⟨zoneId, zone, huuid, -, rfl, hsave⟩ := updateZone_ok hupdate
    have hframe : ZoneDb.Frame (zone.assign dto).id s.db db' := saveEdit_frame hsave
    obtain ⟨hread, hcoherent⟩ := Service.getZone_written h hframe
      (fun _ hother hspelled => hother.eq hid hspelled huuid) hid
    exact ⟨congrArg Reading.zone hread, rfl, hcoherent⟩

theorem Service.updateZoneRules_coherent (h : s.Coherent) (hid : Canonical id)
    (dto : UpdateZoneRulesDto) (actorId : String) (clock : Clock) :
    (s.updateZoneRules id dto actorId clock).db =
        perform s.db (.updateZoneRules id dto actorId clock) ∧
      (s.updateZoneRules id dto actorId clock).Coherent := by
  simp only [perform, ZoneOp.result, Service.updateZoneRules]
  cases hupdate : ZoneService.updateZoneRules s.db id dto actorId clock with
  | error e => exact ⟨rfl, h⟩
  | ok db' =>
    obtain ⟨zoneId, old, huuid, -, hframe, -⟩ := updateZoneRules_ok hupdate
    exact ⟨rfl, invalidateZoneCache_coherent h hframe
      fun _ hother hspelled => hother.eq hid hspelled huuid⟩

theorem Service.handleOccupancyUpdated_coherent (h : s.Coherent) {event : OccupancyEnvelope}
    (hid : Canonical (zoneIdOf event)) (clock : Clock) :
    (s.handleOccupancyUpdated event clock).db =
        perform s.db (.handleOccupancyUpdated event clock) ∧
      (s.handleOccupancyUpdated event clock).Coherent := by
  simp only [perform, ZoneOp.result, Service.handleOccupancyUpdated]
  cases hdone : isProcessed s.db.processed event.eventId with
  | true =>
    have hsame : ZoneService.handleOccupancyUpdated s.db event clock = .ok s.db := by
      simp [ZoneService.handleOccupancyUpdated, hdone]
    rw [hsame]
    exact ⟨rfl, h⟩
  | false =>
    cases hhandle : ZoneService.handleOccupancyUpdated s.db event clock with
    | error e => exact ⟨rfl, h⟩
    | ok db' =>
      refine ⟨rfl, ?_⟩
      rcases handleOccupancyUpdated_cases hhandle with rfl | ⟨zoneId, zone, huuid, -, rfl, hsave⟩
      · exact h.drop _
      · exact invalidateZoneCache_coherent h (saveOccupancy_frame hsave)
          fun _ hother hspelled => hother.eq hid hspelled huuid

/-- A request reads what a service without a cache would, changes the tables alike, and
leaves the cache coherent. -/
theorem Service.serve_plain (h : s.Coherent) {op : ServiceOp} (hop : op.Spelled) :
    Plain s.db op (s.serve op).1 ∧ (s.next op).db = op.tables s.db ∧ (s.next op).Coherent := by
  cases op with
  | listZones rank =>
    obtain ⟨⟨rank', hread⟩, hcoherent⟩ := s.listZones_coherent h rank
    exact ⟨⟨rank', congrArg Reading.zones hread⟩, rfl, hcoherent⟩
  | getZone id =>
    obtain ⟨hread, hcoherent⟩ := Service.getZone_coherent h hop
    exact ⟨congrArg Reading.zone hread, rfl, hcoherent⟩
  | getZoneStatus id =>
    obtain ⟨hread, hcoherent⟩ := Service.getZoneStatus_coherent h hop
    exact ⟨congrArg Reading.status hread, rfl, hcoherent⟩
  | expire key => exact ⟨rfl, rfl, h.drop [key]⟩
  | write op =>
    cases op with
    | createZone dto actorId clock => exact Service.createZone_coherent h dto actorId clock
    | updateZone id dto actorId clock => exact Service.updateZone_coherent h hop dto actorId clock
    | updateZoneRules id dto actorId clock =>
      exact ⟨rfl, Service.updateZoneRules_coherent h hop dto actorId clock⟩
    | handleOccupancyUpdated event clock =>
      exact ⟨rfl, Service.handleOccupancyUpdated_coherent h hop clock⟩

end

/-- From an empty cache, every request of a run on canonical ids reads what a service
without a cache would read at that moment, and changes the tables as it would. -/
theorem cached_refines_plain (db : ZoneDb) {ops : List ServiceOp} (h : ∀ op ∈ ops, op.Spelled) :
    EachStep Service.next ⟨db, Cache.empty⟩ ops fun s op =>
      Plain s.db op (s.serve op).1 ∧ (s.next op).db = op.tables s.db := by
  have hempty : Service.Coherent ⟨db, Cache.empty⟩ := Cache.Coherent.empty _
  have hinv : ∀ s op, op.Spelled → Service.Coherent s → (Service.next s op).Coherent :=
    fun s op hop hs => (Service.serve_plain hs hop).2.2
  refine eachStep_of_invariant ServiceOp.Spelled hinv (fun s op hop hs => ?_) hempty h
  obtain ⟨hread, htables, -⟩ := Service.serve_plain hs hop
  exact ⟨hread, htables⟩

/-- A zone is created, listed, filled and closed, with reads in between and the list
expiring once. -/
def canteenDay : List ServiceOp :=
  [.write (.createZone tenSeats "admin" ⟨0, 0⟩), .listZones fun _ => 0,
    .getZoneStatus (uuidText 1),
    .write (.handleOccupancyUpdated (occupancyEvent (uuidText 1) 50 9) ⟨1, 1⟩), .expire .list,
    .write (.updateZone (uuidText 1) closing "admin" ⟨2, 2⟩), .getZone (uuidText 1)]

theorem canteenDay_refines : (∀ op ∈ canteenDay, op.Spelled) ∧
    EachStep Service.next ⟨.empty, Cache.empty⟩ canteenDay fun s op =>
      Plain s.db op (s.serve op).1 ∧ (s.next op).db = op.tables s.db := by
  have hid : Canonical (uuidText 1) := canonical_uuidText 1
  have hspelled : ∀ op ∈ canteenDay, op.Spelled := by
    simp [canteenDay, ServiceOp.Spelled, zoneIdOf, occupancyEvent, hid]
  exact ⟨hspelled, cached_refines_plain .empty hspelled⟩

end Qoms.ZoneService
