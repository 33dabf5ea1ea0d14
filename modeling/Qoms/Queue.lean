import Qoms.Guards
import Qoms.Outbox
import Qoms.Table

/-!
# The queue service

`QueueService` of `services/queue-service`. `joinQueue` counts the zone's active entries
(`checkCapacity`), looks for an active entry of the user (`findActiveEntry`), and inserts
an entry in a transaction (`insertEntry`); `leaveQueue` finds the entry, counts, and saves
it as left in a transaction (`saveLeft`). The counts are kept for the
`queue_status_changed` event and the response.

`joined_at` is filled in by the database with the start of the transaction, in
microseconds; the driver reads it as a date in milliseconds (`joinedDate`), which is what
`buildQueueState` compares the column with.
-/

set_option autoImplicit false

namespace Qoms.QueueService

/-! ## Data -/

/-- `QueueEntryEntity.status`. -/
inductive EntryStatus
  | active
  | left
  deriving DecidableEq, Repr

/-- `QueueEntryEntity`. -/
structure QueueEntryEntity where
  id : Uuid
  zoneId : Uuid
  userId : Uuid
  status : EntryStatus
  joinedAt : ℤ
  leftAt : Option ℤ
  deriving DecidableEq, Repr

/-- The payloads of the service's events. -/
inductive QueuePayload
  | joined (zoneId queueEntryId userId : Uuid)
  | left (zoneId queueEntryId userId : Uuid)
  | statusChanged (zoneId : Uuid) (queueLength : ℕ)
  deriving DecidableEq, Repr

/-- The service's schema, and how many UUIDs were drawn. -/
structure QueueDb where
  entries : List QueueEntryEntity
  outbox : List (OutboxEvent Uuid QueuePayload)
  uuids : ℕ
  deriving Repr

/-- The empty tables. -/
def QueueDb.empty : QueueDb :=
  ⟨[], [], 0⟩

/-- The rules the service reads of a zone, within the bounds of the rules' DTOs. -/
structure QueueRules where
  queueEnabled : Bool
  maxQueueSize : ℕ
  estimatedServiceMinutesPerPerson : ℕ
  maxQueueSize_pos : 1 ≤ maxQueueSize
  serviceMinutes_pos : 1 ≤ estimatedServiceMinutesPerPerson

/-- `ZoneSummary` : what `fetchZone` returns. -/
structure ZoneSummary where
  id : Uuid
  type : ZoneType
  status : ZoneStatus
  capacity : ℤ
  rules : Option QueueRules

/-- The answers of the other services to a request. -/
structure RequestEnv where
  zone : Option ZoneSummary
  userFound : Bool

/-- A join that passed the checks of the zone and the user. -/
structure Join where
  zone : ZoneSummary
  zoneId : Uuid
  userId : Uuid

/-- What `buildQueueState` returns. -/
structure QueueState where
  zoneId : Uuid
  queueEntryId : Uuid
  userId : Uuid
  inQueue : Bool
  position : ℕ
  queueLength : ℕ
  estimatedWaitMinutes : ℕ
  joinedAt : ℤ
  deriving DecidableEq, Repr

/-! ## Queries -/

/-- `where: { zoneId, status: "active" }`. -/
def activeIn (zoneId : Uuid) (e : QueueEntryEntity) : Bool :=
  e.status == .active && e.zoneId == zoneId

/-- `where: { zoneId, userId, status: "active" }`. -/
def activeFor (zoneId userId : Uuid) (e : QueueEntryEntity) : Bool :=
  e.status == .active && e.zoneId == zoneId && e.userId == userId

/-- The count of a zone's active entries. -/
def activeCount (entries : List QueueEntryEntity) (zoneId : Uuid) : ℕ :=
  entries.countP (activeIn zoneId)

/-- The lookup of a user's active entry in a zone; the database may return any of several. -/
def findActiveEntry (entries : List QueueEntryEntity) (zoneId userId hint : Uuid) :
    Option QueueEntryEntity :=
  findOne (activeFor zoneId userId) (·.id == hint) entries

/-- `zone.rules?.maxQueueSize ?? 100`. -/
def maxQueueSize (zone : ZoneSummary) : ℕ :=
  (zone.rules.map (·.maxQueueSize)).getD 100

/-- `zone.rules?.estimatedServiceMinutesPerPerson ?? 3`. -/
def serviceMinutes (zone : ZoneSummary) : ℕ :=
  (zone.rules.map (·.estimatedServiceMinutesPerPerson)).getD 3

/-- `entry.joinedAt` as the driver returns it, in milliseconds. -/
def QueueEntryEntity.joinedDate (e : QueueEntryEntity) : ℤ :=
  e.joinedAt / 1000

/-- `buildQueueState`; the date goes back to the database in microseconds. -/
def buildQueueState (entries : List QueueEntryEntity) (zone : ZoneSummary)
    (entry : QueueEntryEntity) (knownQueueLength : Option ℕ) : QueueState :=
  let position := entries.countP fun e =>
    e.zoneId == entry.zoneId && e.status == .active && e.joinedAt ≤ entry.joinedDate * 1000
  { zoneId := entry.zoneId
    queueEntryId := entry.id
    userId := entry.userId
    inQueue := true
    position := position
    queueLength := knownQueueLength.getD (activeCount entries entry.zoneId)
    estimatedWaitMinutes := (position - 1) * serviceMinutes zone
    joinedAt := entry.joinedDate }

/-! ## Joining the queue -/

/-- The checks of `joinQueue` before its first query. -/
def checkJoin (zoneId : Uuid) (user : Option RequestUserContext) (env : RequestEnv) :
    Except HttpError Join := do
  let some user := user | throw (.badRequest "Missing user context")
  let some zone := env.zone | throw .upstream
  unless env.userFound do throw .upstream
  if zone.type ≠ .diningZone then
    throw (.badRequest "Queue is available only for dining_zone")
  if zone.status = .closed then throw (.badRequest "Zone is closed")
  unless (zone.rules.map (·.queueEnabled)).getD false do
    throw (.badRequest "Queue is disabled for this zone")
  return ⟨zone, zoneId, user.userId⟩

/-- The count query of `joinQueue` and its check. -/
def checkCapacity (entries : List QueueEntryEntity) (join : Join) : Except HttpError ℕ := do
  let count := activeCount entries join.zoneId
  if count ≥ maxQueueSize join.zone then throw (.badRequest "Queue is full")
  return count

/-- The entry of a join whose transaction started at `joinedAt`. -/
def Join.entry (join : Join) (id : Uuid) (joinedAt : ℤ) : QueueEntryEntity where
  id := id
  zoneId := join.zoneId
  userId := join.userId
  status := .active
  joinedAt := joinedAt
  leftAt := none

/-- The insert transaction : the entry, its `queue_joined` event, and a
`queue_status_changed` event with the count read before, plus one. -/
def insertEntry (db : QueueDb) (join : Join) (activeCount : ℕ) (clock : Clock) :
    QueueEntryEntity × QueueDb :=
  let correlationId := db.uuids
  let entry := join.entry (db.uuids + 1) clock.dbNow
  (entry,
    { entries := db.entries ++ [entry]
      outbox := db.outbox ++
        [createOutbox "queue-service" clock (db.uuids + 2) .queueJoined join.zoneId correlationId
            (.joined join.zoneId entry.id join.userId),
          createOutbox "queue-service" clock (db.uuids + 4) .queueStatusChanged join.zoneId
            correlationId (.statusChanged join.zoneId (activeCount + 1))]
      uuids := db.uuids + 6 })

@[simp] theorem insertEntry_entries (db : QueueDb) (join : Join) (activeCount : ℕ)
    (clock : Clock) : (insertEntry db join activeCount clock).2.entries =
      db.entries ++ [join.entry (db.uuids + 1) clock.dbNow] :=
  rfl

/-- `joinQueue`, with no other request between its queries and its transaction. -/
def joinQueue (db : QueueDb) (zoneId : Uuid) (user : Option RequestUserContext)
    (env : RequestEnv) (hint : Uuid) (clock : Clock) : Except HttpError QueueState × QueueDb :=
  match checkJoin zoneId user env with
  | .error e => (.error e, db)
  | .ok join =>
    match checkCapacity db.entries join with
    | .error e => (.error e, db)
    | .ok count =>
      match findActiveEntry db.entries zoneId join.userId hint with
      | some existing => (.ok (buildQueueState db.entries join.zone existing (some count)), db)
      | none =>
        let (entry, db') := insertEntry db join count clock
        (.ok (buildQueueState db'.entries join.zone entry (some (count + 1))), db')

theorem checkJoin_ok {zoneId : Uuid} {user : Option RequestUserContext} {env : RequestEnv}
    {join : Join} (h : checkJoin zoneId user env = .ok join) :
    join.zoneId = zoneId ∧ env.zone = some join.zone ∧ user.map (·.userId) = some join.userId := by
  unfold checkJoin at h
  cases user with
  | none => simp at h
  | some user =>
    cases hzone : env.zone with
    | none => simp [hzone] at h
    | some zone =>
      simp only [hzone] at h
      obtain ⟨-, -, -, -, rfl⟩ : env.userFound = true ∧ _ ∧ _ ∧ _ ∧ _ = join := by simpa using h
      exact ⟨rfl, rfl, rfl⟩

/-- A join passes the checks of an open zone only. -/
theorem checkJoin_open {zoneId : Uuid} {user : Option RequestUserContext} {env : RequestEnv}
    {join : Join} (h : checkJoin zoneId user env = .ok join) :
    ∃ zone, env.zone = some zone ∧ zone.status ≠ .closed := by
  unfold checkJoin at h
  cases user with
  | none => simp at h
  | some user =>
    cases hzone : env.zone with
    | none => simp [hzone] at h
    | some zone =>
      simp only [hzone] at h
      obtain ⟨-, -, hopen, -⟩ : env.userFound = true ∧ _ ∧ zone.status ≠ .closed ∧ _ := by
        simpa using h
      exact ⟨zone, rfl, hopen⟩

theorem checkCapacity_ok {entries : List QueueEntryEntity} {join : Join} {count : ℕ}
    (h : checkCapacity entries join = .ok count) :
    count = activeCount entries join.zoneId ∧ count < maxQueueSize join.zone := by
  unfold checkCapacity at h
  obtain ⟨hlt, rfl⟩ : _ ∧ activeCount entries join.zoneId = count := by simpa using h
  exact ⟨rfl, hlt⟩

/-! ## Leaving the queue -/

/-- The fetch of the zone and the lookup of `leaveQueue`. -/
def findLeaving (entries : List QueueEntryEntity) (zoneId : Uuid)
    (user : Option RequestUserContext) (env : RequestEnv) (hint : Uuid) :
    Except HttpError QueueEntryEntity := do
  let some user := user | throw (.badRequest "Missing user context")
  let some _ := env.zone | throw .upstream
  let some entry := findActiveEntry entries zoneId user.userId hint |
    throw (.notFound "Active queue entry not found")
  return entry

/-- `Math.max(0, count - 1)`. -/
def nextCount (entries : List QueueEntryEntity) (zoneId : Uuid) : ℕ :=
  activeCount entries zoneId - 1

/-- The entity as `leaveQueue` changes it in memory. -/
def QueueEntryEntity.leave (entry : QueueEntryEntity) (now : ℤ) : QueueEntryEntity :=
  { entry with status := .left, leftAt := some now }

/-- The leave transaction : the row becomes the entity in memory, a `queue_left` event,
and a `queue_status_changed` event with the count read before. -/
def saveLeft (db : QueueDb) (entry : QueueEntryEntity) (nextCount : ℕ) (clock : Clock) :
    QueueDb where
  entries := saveRow (·.id) (entry.leave clock.now) db.entries
  outbox := db.outbox ++
    [createOutbox "queue-service" clock (db.uuids + 1) .queueLeft entry.zoneId db.uuids
        (.left entry.zoneId entry.id entry.userId),
      createOutbox "queue-service" clock (db.uuids + 3) .queueStatusChanged entry.zoneId db.uuids
        (.statusChanged entry.zoneId nextCount)]
  uuids := db.uuids + 5

@[simp] theorem saveLeft_entries (db : QueueDb) (entry : QueueEntryEntity) (nextCount : ℕ)
    (clock : Clock) : (saveLeft db entry nextCount clock).entries =
      saveRow (·.id) (entry.leave clock.now) db.entries :=
  rfl

/-- `leaveQueue`, with no other request between its queries and its transaction; it
returns the entry it left. -/
def leaveQueue (db : QueueDb) (zoneId : Uuid) (user : Option RequestUserContext)
    (env : RequestEnv) (hint : Uuid) (clock : Clock) :
    Except HttpError QueueEntryEntity × QueueDb :=
  match findLeaving db.entries zoneId user env hint with
  | .error e => (.error e, db)
  | .ok entry =>
    (.ok (entry.leave clock.now), saveLeft db entry (nextCount db.entries zoneId) clock)

theorem findLeaving_ok {entries : List QueueEntryEntity} {zoneId hint : Uuid}
    {user : Option RequestUserContext} {env : RequestEnv} {entry : QueueEntryEntity}
    (h : findLeaving entries zoneId user env hint = .ok entry) :
    entry ∈ entries ∧ entry.status = .active ∧ entry.zoneId = zoneId := by
  unfold findLeaving at h
  cases user with
  | none => simp at h
  | some user =>
    cases hzone : env.zone with
    | none => simp [hzone] at h
    | some zone =>
      cases hfind : findActiveEntry entries zoneId user.userId hint with
      | none => simp [hzone, hfind] at h
      | some e =>
        obtain rfl : e = entry := by simpa [hzone, hfind] using h
        obtain ⟨hmem, hactive⟩ := findOne_eq_some hfind
        simp only [activeFor, Bool.and_eq_true, beq_iff_eq] at hactive
        exact ⟨hmem, hactive.1.1, hactive.1.2⟩

end Qoms.QueueService
