import Qoms.Guards
import Qoms.Database
import Qoms.Domain
import Mathlib.Data.List.Forall2

/-!
# The notification service

`NotificationService` and its consumer, of `services/notification-service`. `handleEvent`
looks the event up among the processed ones, builds its notifications
(`buildNotifications`, which asks the user service for the admins when a zone is
overloaded), and saves them and the processed event in one transaction. Each call of one
delivery can fail (`Faults`).

`eachMessage` catches every error of the handler and logs it, so it completes on every
message. `saveEvent_ok_iff` says when the transaction goes through, and what it saved.
-/

set_option autoImplicit false

namespace Qoms.NotificationService

/-! ## Data -/

/-- The payload of a domain event : a JSON record, of which the notifications read these
fields. -/
structure NotificationPayload where
  userId : Option String
  zoneId : Option String
  seatNumber : Option ℤ
  reservationId : Option String
  currentOccupancy : Option ℤ
  deriving DecidableEq, Repr

/-- A domain event. -/
abbrev DomainEvent := EventEnvelope String NotificationPayload

/-- `RemoteUser`, but for the fields that nothing reads. -/
structure RemoteUser where
  id : String
  role : String
  deriving DecidableEq, Repr

/-- `Partial<NotificationEntity>`, unread. -/
structure Draft where
  userId : Option String
  eventId : Uuid
  zoneId : Option String
  title : String
  body : String
  deriving DecidableEq, Repr

/-- `NotificationEntity`. -/
structure NotificationEntity where
  id : Uuid
  userId : Uuid
  eventId : Uuid
  title : String
  body : String
  zoneId : Option Uuid
  createdAt : ℤ
  readAt : Option ℤ
  deriving DecidableEq, Repr

/-- `ProcessedEventEntity`. -/
structure ProcessedEvent where
  id : Uuid
  eventId : Uuid
  eventType : KafkaEventType
  entityId : String
  processedAt : ℤ
  deriving DecidableEq, Repr

/-- The service's schema, and how many UUIDs were drawn. -/
structure NotificationDb where
  notifications : List NotificationEntity
  processed : List ProcessedEvent
  uuids : ℕ
  deriving DecidableEq, Repr

/-- What `handleEvent` throws : no answer of the user service, no answer of the database, or
a failed statement; `json` is the parser's error. -/
inductive HandlerError
  | json
  | upstream
  | connection
  | database (error : DbError)
  deriving DecidableEq, Repr

/-- What becomes of the calls of one delivery : whether the lookup fails, the answer of
`/users`, whether the insert of the `i`-th notification and that of the processed event
fail, and how the transaction is committed. -/
structure Faults where
  lookup : Bool
  users : Option (List RemoteUser)
  insert : ℕ → Bool
  mark : Bool
  commit : CallOutcome

/-! ## Building the notifications -/

/-- A field in a template literal. -/
def literal (field : Option String) : String :=
  field.getD "undefined"

/-- The notification of the user an event names. -/
def draftFor (event : DomainEvent) (userId : Option String) (title body : String) : Draft :=
  ⟨userId, event.eventId, event.payload.zoneId, title, body⟩

/-- The admins among the users. -/
def adminsOf (users : List RemoteUser) : List RemoteUser :=
  users.filter fun user => ["dining_admin", "coworking_admin", "system_admin"].contains user.role

/-- `fetchAdminUsers`, of what `/users` answers. -/
def fetchAdminUsers (users : Option (List RemoteUser)) : Except HandlerError (List RemoteUser) :=
  match users with
  | none => .error .upstream
  | some data => .ok (adminsOf data)

/-- `buildNotifications`. -/
def buildNotifications (event : DomainEvent) (users : Option (List RemoteUser)) :
    Except HandlerError (List Draft) :=
  let payload := event.payload
  let zone := literal payload.zoneId
  match event.eventType with
  | .queueJoined =>
    return [draftFor event payload.userId "Queue joined"
      s!"You joined the dining queue for zone {zone}."]
  | .queueLeft =>
    return [draftFor event payload.userId "Queue left"
      s!"You left the dining queue for zone {zone}."]
  | .reservationCreated =>
    let seat := literal (payload.seatNumber.map toString)
    return [draftFor event payload.userId "Reservation created"
      s!"Reservation created for zone {zone}, seat {seat}."]
  | .reservationCancelled =>
    let reservation := literal payload.reservationId
    return [draftFor event payload.userId "Reservation cancelled"
      s!"Reservation {reservation} was cancelled."]
  | .zoneOverloaded => do
    let admins ← fetchAdminUsers users
    let occupancy := literal (payload.currentOccupancy.map toString)
    return admins.map fun admin => draftFor event (some admin.id) "Zone overloaded"
      s!"Zone {zone} is overloaded with occupancy {occupancy}."
  | .occupancyUpdated | .zoneStatusChanged | .queueStatusChanged => return []

/-! ## Saving them -/

/-- A text written to a `uuid` column, or nothing. -/
def uuidColumn : Option String → Except DbError (Option Uuid)
  | none => .ok none
  | some text =>
    match uuidIn text with
    | none => .error .invalidUuid
    | some value => .ok (some value)

/-- The row that a draft makes. -/
def Draft.row (draft : Draft) (id : Uuid) (now : ℤ) : Except DbError NotificationEntity := do
  let userId ← uuidColumn draft.userId
  let zoneId ← uuidColumn draft.zoneId
  let some userId := userId | throw .notNullViolation
  return ⟨id, userId, draft.eventId, draft.title, draft.body, zoneId, now, none⟩

/-- The inserts of the notifications, in order; the `i`-th fails if `failing i`. -/
def saveNotifications (db : NotificationDb) (failing : ℕ → Bool) (now : ℤ) :
    List Draft → Except HandlerError NotificationDb
  | [] => return db
  | draft :: drafts => do
    if failing 0 then throw .connection
    let row ← (draft.row db.uuids now).mapError .database
    saveNotifications
      { db with notifications := db.notifications ++ [row], uuids := db.uuids + 1 }
      (fun i => failing (i + 1)) now drafts

/-- The lookup of an event among the processed ones. -/
def isProcessed (db : NotificationDb) (eventId : Uuid) : Bool :=
  db.processed.any (·.eventId == eventId)

/-- The statements of the transaction. -/
def saveEvent (db : NotificationDb) (event : DomainEvent) (drafts : List Draft)
    (faults : Faults) (now : ℤ) : Except HandlerError NotificationDb := do
  let db ← saveNotifications db faults.insert now drafts
  if faults.mark then throw .connection
  if 128 < event.entityId.length then throw (.database .outOfRange)
  if isProcessed db event.eventId then throw (.database .uniqueViolation)
  return { db with
    processed := db.processed ++
      [⟨db.uuids, event.eventId, event.eventType, event.entityId, now⟩]
    uuids := db.uuids + 1 }

/-- `dataSource.transaction` of statements that end with `saved` : the tables after it, and
whether it throws. -/
def transaction (db : NotificationDb) (saved : Except HandlerError NotificationDb)
    (commit : CallOutcome) : NotificationDb × Except HandlerError Unit :=
  match saved, commit with
  | .error e, _ => (db, .error e)
  | .ok db', .acknowledged => (db', .ok ())
  | .ok _, .failed _ => (db, .error .connection)
  | .ok db', .unacknowledged _ => (db', .error .connection)

/-- `handleEvent`. -/
def handleEvent (db : NotificationDb) (event : DomainEvent) (faults : Faults) (now : ℤ) :
    NotificationDb × Except HandlerError Unit :=
  if faults.lookup then (db, .error .connection)
  else if isProcessed db event.eventId then (db, .ok ())
  else match buildNotifications event faults.users with
    | .error e => (db, .error e)
    | .ok drafts => transaction db (saveEvent db event drafts faults now) faults.commit

/-- `eachMessage` : the tables after it, and the errors it logs if it completes. -/
def eachMessage (db : NotificationDb) (value : MessageValue String NotificationPayload)
    (faults : Faults) (now : ℤ) : NotificationDb × Except HandlerError (List HandlerError) :=
  match value with
  | .absent => (db, .ok [])
  | .malformed => (db, .ok [.json])
  | .unlisted => (db, .ok [])
  | .envelope event =>
    match handleEvent db event faults now with
    | (db, .ok ()) => (db, .ok [])
    | (db, .error e) => (db, .ok [e])

theorem eachMessage_envelope (db : NotificationDb) (event : DomainEvent) (faults : Faults)
    (now : ℤ) : (eachMessage db (.envelope event) faults now).1 =
      (handleEvent db event faults now).1 := by
  rw [eachMessage]
  rcases handleEvent db event faults now with ⟨db', e | u⟩ <;> rfl

/-- `eachMessage` completes on every message. -/
theorem eachMessage_completes (db : NotificationDb)
    (value : MessageValue String NotificationPayload) (faults : Faults) (now : ℤ) :
    ∃ log, (eachMessage db value faults now).2 = .ok log := by
  cases value with
  | absent => exact ⟨_, rfl⟩
  | malformed => exact ⟨_, rfl⟩
  | unlisted => exact ⟨_, rfl⟩
  | envelope event =>
    rw [eachMessage]
    rcases handleEvent db event faults now with ⟨db', e | u⟩ <;> exact ⟨_, rfl⟩

/-! ## What the admins get -/

/-- An overloaded zone gives one draft for each admin of the answer. -/
theorem buildNotifications_overloaded {event : DomainEvent} {users : Option (List RemoteUser)}
    {drafts : List Draft} (htype : event.eventType = .zoneOverloaded)
    (h : buildNotifications event users = .ok drafts) :
    ∃ data body, users = some data ∧ drafts = (adminsOf data).map fun admin =>
      draftFor event (some admin.id) "Zone overloaded" body := by
  cases users with
  | none => simp [buildNotifications, htype, fetchAdminUsers] at h
  | some data =>
    simp only [buildNotifications, htype, fetchAdminUsers, bind_eq_ok, Except.ok.injEq,
      exists_eq_left', pure_eq_ok] at h
    exact ⟨data, _, rfl, h.symm⟩

/-! ## When the transaction goes through -/

theorem uuidColumn_eq_some {text : Option String} {value : Uuid} :
    uuidColumn text = .ok (some value) ↔ ∃ t ∈ text, uuidIn t = some value := by
  cases text with
  | none => simp [uuidColumn]
  | some t =>
    cases h : uuidIn t with
    | none => simp [uuidColumn, h]
    | some v => simp [uuidColumn, h]

theorem uuidColumn_ok_iff {text : Option String} :
    (∃ value, uuidColumn text = .ok value) ↔ ∀ t ∈ text, (uuidIn t).isSome = true := by
  cases text with
  | none => simp [uuidColumn]
  | some t =>
    cases h : uuidIn t with
    | none => simp [uuidColumn, h]
    | some v => simp [uuidColumn, h]

theorem Draft.row_eq_ok {draft : Draft} {id : Uuid} {now : ℤ} {row : NotificationEntity} :
    draft.row id now = .ok row ↔ ∃ userId zoneId,
      uuidColumn draft.userId = .ok (some userId) ∧ uuidColumn draft.zoneId = .ok zoneId ∧
        row = ⟨id, userId, draft.eventId, draft.title, draft.body, zoneId, now, none⟩ := by
  simp only [Draft.row, bind_eq_ok]
  constructor
  · rintro ⟨user, huser, zoneId, hzone, h⟩
    cases user with
    | none => exact absurd h (by simp)
    | some userId => exact ⟨userId, zoneId, huser, hzone, (pure_eq_ok.mp h).symm⟩
  · rintro ⟨userId, zoneId, huser, hzone, rfl⟩
    exact ⟨some userId, huser, zoneId, hzone, rfl⟩

/-- The columns take a draft. -/
structure Draft.Fits (draft : Draft) : Prop where
  userId : ∃ user ∈ draft.userId, (uuidIn user).isSome = true
  zoneId : ∀ zone ∈ draft.zoneId, (uuidIn zone).isSome = true

theorem Draft.row_ok_iff {draft : Draft} {id : Uuid} {now : ℤ} :
    (∃ row, draft.row id now = .ok row) ↔ draft.Fits := by
  constructor
  · rintro ⟨row, h⟩
    obtain ⟨userId, zoneId, huser, hzone, -⟩ := Draft.row_eq_ok.mp h
    obtain ⟨user, hmem, hread⟩ := uuidColumn_eq_some.mp huser
    exact ⟨⟨user, hmem, by simp [hread]⟩, uuidColumn_ok_iff.mp ⟨zoneId, hzone⟩⟩
  · rintro ⟨⟨user, hmem, hspelled⟩, hzone⟩
    obtain ⟨userId, hread⟩ := Option.isSome_iff_exists.mp hspelled
    obtain ⟨zoneId, hzoneId⟩ := uuidColumn_ok_iff.mpr hzone
    exact ⟨_, Draft.row_eq_ok.mpr
      ⟨userId, zoneId, uuidColumn_eq_some.mpr ⟨user, hmem, hread⟩, hzoneId, rfl⟩⟩

/-- The row is one that the draft makes. -/
def Draft.IsRow (draft : Draft) (row : NotificationEntity) : Prop :=
  draft.row row.id row.createdAt = .ok row

theorem Draft.isRow {draft : Draft} {id : Uuid} {now : ℤ} {row : NotificationEntity}
    (h : draft.row id now = .ok row) : draft.IsRow row := by
  obtain ⟨userId, zoneId, huser, hzone, rfl⟩ := Draft.row_eq_ok.mp h
  exact Draft.row_eq_ok.mpr ⟨userId, zoneId, huser, hzone, rfl⟩

/-- The inserts go through when none fails and the columns take every draft. -/
theorem saveNotifications_ok_iff (db : NotificationDb) (now : ℤ) {failing : ℕ → Bool}
    {drafts : List Draft} : (∃ db', saveNotifications db failing now drafts = .ok db') ↔
      (∀ i < drafts.length, failing i = false) ∧ ∀ draft ∈ drafts, draft.Fits := by
  induction drafts generalizing db failing with
  | nil => simp [saveNotifications]
  | cons draft drafts ih =>
    simp only [saveNotifications, throw_bind, throw_if_eq_ok, bind_eq_ok, mapError_eq_ok]
    constructor
    · rintro ⟨db', hnow, row, hrow, h⟩
      obtain ⟨hfailing, hfits⟩ := (ih _).mp ⟨db', h⟩
      refine ⟨fun i hi => ?_, ?_⟩
      · cases i with
        | zero => simpa using hnow
        | succ i => exact hfailing i (by simpa using hi)
      · exact List.forall_mem_cons.mpr ⟨Draft.row_ok_iff.mp ⟨row, hrow⟩, hfits⟩
    · rintro ⟨hfailing, hfits⟩
      obtain ⟨hdraft, hdrafts⟩ := List.forall_mem_cons.mp hfits
      obtain ⟨row, hrow⟩ := Draft.row_ok_iff.mpr hdraft
      obtain ⟨db', h⟩ := (ih _).mpr ⟨fun i hi => hfailing (i + 1) (by simpa using hi), hdrafts⟩
      exact ⟨db', by simp [hfailing 0 (by simp)], row, hrow, h⟩

/-- The inserts append one row for each draft. -/
theorem saveNotifications_ok {failing : ℕ → Bool} {now : ℤ} {drafts : List Draft}
    {db db' : NotificationDb} (h : saveNotifications db failing now drafts = .ok db') :
    ∃ rows, db'.notifications = db.notifications ++ rows ∧
      List.Forall₂ Draft.IsRow drafts rows ∧ db'.processed = db.processed := by
  induction drafts generalizing db failing with
  | nil =>
    obtain rfl : db = db' := by simpa [saveNotifications] using h
    exact ⟨[], by simp, .nil, rfl⟩
  | cons draft drafts ih =>
    simp only [saveNotifications, throw_bind, throw_if_eq_ok, bind_eq_ok, mapError_eq_ok] at h
    obtain ⟨-, row, hrow, h⟩ := h
    obtain ⟨rows, hrows, hforall, hprocessed⟩ := ih h
    exact ⟨row :: rows, by simp [hrows], .cons (Draft.isRow hrow) hforall, hprocessed⟩

/-- The transaction's statements go through when the inserts do, the processed event is not
refused, and it is the first one of its id. -/
theorem saveEvent_ok_iff {db : NotificationDb} {event : DomainEvent} {drafts : List Draft}
    {faults : Faults} (now : ℤ) (hnew : isProcessed db event.eventId = false) :
    (∃ db', saveEvent db event drafts faults now = .ok db') ↔
      ((∀ i < drafts.length, faults.insert i = false) ∧ ∀ draft ∈ drafts, draft.Fits) ∧
        faults.mark = false ∧ event.entityId.length ≤ 128 := by
  rw [← saveNotifications_ok_iff db now]
  simp only [saveEvent, throw_bind, throw_if_eq_ok, bind_eq_ok, pure_eq_ok]
  constructor
  · rintro ⟨db', saved, hsaved, hmark, hlength, -⟩
    exact ⟨⟨saved, hsaved⟩, by simpa using hmark, by omega⟩
  · rintro ⟨⟨saved, hsaved⟩, hmark, hlength⟩
    obtain ⟨-, -, -, hprocessed⟩ := saveNotifications_ok hsaved
    have hnew' : isProcessed saved event.eventId = false := by
      rw [isProcessed, hprocessed]
      exact hnew
    exact ⟨_, saved, hsaved, by simp [hmark], by omega, by simp [hnew'], rfl⟩

/-- They append the rows of the drafts and the processed event. -/
theorem saveEvent_ok {db db' : NotificationDb} {event : DomainEvent} {drafts : List Draft}
    {faults : Faults} {now : ℤ} (h : saveEvent db event drafts faults now = .ok db') :
    ∃ rows, db'.notifications = db.notifications ++ rows ∧
      List.Forall₂ Draft.IsRow drafts rows ∧
        db'.processed.map (·.eventId) = db.processed.map (·.eventId) ++ [event.eventId] := by
  simp only [saveEvent, throw_bind, throw_if_eq_ok, bind_eq_ok, pure_eq_ok] at h
  obtain ⟨saved, hsaved, -, -, -, rfl⟩ := h
  obtain ⟨rows, hrows, hforall, hprocessed⟩ := saveNotifications_ok hsaved
  exact ⟨rows, hrows, hforall, by simp [hprocessed]⟩

end Qoms.NotificationService
