import Qoms.Outbox
import Qoms.Guards
import Qoms.Table

/-!
# The reservation service

`ReservationService` of `services/reservation-service`. `createReservation` is cut where
the code waits for the database : the checks that only read the request and the answers
of the other services (`checkRequest`), the conflict query (`findConflict`), and the
insert transaction (`insertReservation`); `cancelReservation` likewise into its read
(`findActive`) and its transaction (`saveCancelled`). Fresh UUIDs are drawn in order
(`uuids`), so none is drawn twice.

A zone's rules reach the service from `zone_rules`, whose rows are only written through
`ZoneRulesDto` and `UpdateZoneRulesDto`; `ReservationRules` carries their bounds. Days are
24 hours.
-/

set_option autoImplicit false

namespace Qoms.ReservationService

/-! ## Data -/

/-- `ReservationEntity.status`. -/
inductive ReservationStatus
  | active
  | cancelled
  deriving DecidableEq, Repr

/-- `ReservationEntity`. -/
structure ReservationEntity where
  id : Uuid
  zoneId : Uuid
  userId : Uuid
  seatNumber : ℤ
  slotStart : ℤ
  slotEnd : ℤ
  status : ReservationStatus
  createdAt : ℤ
  cancelledAt : Option ℤ
  deriving DecidableEq, Repr

/-- The payloads of the service's events. -/
inductive ReservationPayload
  | created (reservationId zoneId userId : Uuid) (seatNumber : ℤ) (slotStart slotEnd : ℤ)
  | cancelled (reservationId zoneId userId : Uuid) (seatNumber : ℤ)
  deriving DecidableEq, Repr

/-- The service's schema, and how many UUIDs were drawn. -/
structure ReservationDb where
  reservations : List ReservationEntity
  outbox : List (OutboxEvent Uuid ReservationPayload)
  uuids : ℕ
  deriving Repr

/-- The empty tables. -/
def ReservationDb.empty : ReservationDb :=
  ⟨[], [], 0⟩

/-- The rules the service reads of a zone, within the bounds of the rules' DTOs. -/
structure ReservationRules where
  reservationEnabled : Bool
  reservationSlotMinutes : ℕ
  reservationWindowDays : ℕ
  slotMinutes_ge : 15 ≤ reservationSlotMinutes
  windowDays_ge : 1 ≤ reservationWindowDays

/-- `ZoneSummary` : what `fetchZone` returns. -/
structure ZoneSummary where
  id : Uuid
  type : ZoneType
  status : ZoneStatus
  capacity : ℤ
  rules : Option ReservationRules

/-- A coworking zone of ten seats with slots of an hour, bookable a week ahead. -/
def hourZone : ZoneSummary where
  id := 1
  type := .coworkingZone
  status := .open
  capacity := 10
  rules := some ⟨true, 60, 7, by decide, by decide⟩

/-- `CreateReservationDto`; `slotStart` is the date its text denotes. `createReservation` does not
check `@Min(1)` of the seat again. -/
structure CreateReservationDto where
  zoneId : Uuid
  slotStart : JsDate
  seatNumber : ℤ

/-- The answers of the other services to a request, and the time it reads. -/
structure CreateEnv where
  userFound : Bool
  zone : Option ZoneSummary
  now : ℤ

/-- A checked request : the row that is to be inserted. -/
structure Slot where
  zoneId : Uuid
  userId : Uuid
  seatNumber : ℤ
  slotStart : ℤ
  slotEnd : ℤ
  start_lt_end : slotStart < slotEnd

/-! ## Creating a reservation -/

/-- `zone.rules?.reservationSlotMinutes ?? 60`. -/
def slotMinutes (zone : ZoneSummary) : ℕ :=
  (zone.rules.map (·.reservationSlotMinutes)).getD 60

/-- `new Date(slotStart.getTime() + slotMinutes * 60 * 1000)`, as a number. -/
def slotEndOf (zone : ZoneSummary) (slotStart : ℤ) : ℤ :=
  slotStart + slotMinutes zone * 60 * 1000

theorem slotMinutes_ge (zone : ZoneSummary) : 15 ≤ slotMinutes zone := by
  unfold slotMinutes
  cases zone.rules with
  | none => simp
  | some rules => exact rules.slotMinutes_ge

theorem lt_slotEndOf (zone : ZoneSummary) (slotStart : ℤ) :
    slotStart < slotEndOf zone slotStart := by
  have := slotMinutes_ge zone
  unfold slotEndOf
  omega

/-- `latestAllowed.setDate(latestAllowed.getDate() + (… ?? 7))`. -/
def latestAllowed (zone : ZoneSummary) (now : ℤ) : JsDate :=
  JsDate.ofTime (now + (zone.rules.map (·.reservationWindowDays)).getD 7 * 24 * 60 * 60 * 1000)

/-- The checks of `createReservation` before its conflict query. -/
def checkRequest (dto : CreateReservationDto) (user : Option RequestUserContext)
    (env : CreateEnv) : Except HttpError Slot := do
  let some user := user | throw (.badRequest "Missing user context")
  unless env.userFound do throw .upstream
  let some zone := env.zone | throw .upstream
  if zone.type ≠ .coworkingZone then
    throw (.badRequest "Reservation is available only for coworking_zone")
  if zone.status = .closed then throw (.badRequest "Zone is closed")
  unless (zone.rules.map (·.reservationEnabled)).getD false do
    throw (.badRequest "Reservations are disabled for this zone")
  if dto.seatNumber > zone.capacity then
    throw (.badRequest "Seat number exceeds zone capacity")
  let some slotStart := dto.slotStart | throw (.badRequest "Invalid slotStart")
  if JsDate.gt (some slotStart) (latestAllowed zone env.now) then
    throw (.badRequest "Reservation exceeds allowed booking window")
  -- An invalid end date reaches the conflict query, which the database refuses.
  if JsDate.ofTime (slotEndOf zone slotStart) = none then throw .database
  return {
    zoneId := dto.zoneId
    userId := user.userId
    seatNumber := dto.seatNumber
    slotStart := slotStart
    slotEnd := slotEndOf zone slotStart
    start_lt_end := lt_slotEndOf zone slotStart }

/-- What a request that passes the checks satisfies, and its slot. -/
theorem checkRequest_eq_ok {dto : CreateReservationDto} {user : Option RequestUserContext}
    {env : CreateEnv} {slot : Slot} (h : checkRequest dto user env = .ok slot) :
    ∃ zone rules, env.zone = some zone ∧ zone.rules = some rules ∧ zone.status ≠ .closed ∧
      dto.slotStart = some slot.slotStart ∧
      JsDate.gt (some slot.slotStart) (latestAllowed zone env.now) = false ∧
      slot.zoneId = dto.zoneId ∧ slot.seatNumber = dto.seatNumber ∧
      slot.seatNumber ≤ zone.capacity ∧ slot.slotEnd = slotEndOf zone slot.slotStart ∧
      JsDate.ofTime slot.slotEnd ≠ none := by
  unfold checkRequest at h
  cases user with
  | none => simp at h
  | some user =>
    cases hzone : env.zone with
    | none => simp [hzone] at h
    | some zone =>
      cases hrules : zone.rules with
      | none => simp [hzone, hrules] at h
      | some rules =>
        cases hstart : dto.slotStart with
        | none => simp [hzone, hrules, hstart] at h
        | some slotStart =>
          simp only [hzone, hstart] at h
          obtain ⟨-, -, hopen, -, hseat, hwindow, hend, rfl⟩ : env.userFound = true ∧ _ ∧
              zone.status ≠ .closed ∧ _ ∧ dto.seatNumber ≤ zone.capacity ∧
              JsDate.gt (some slotStart) (latestAllowed zone env.now) = false ∧
              JsDate.ofTime (slotEndOf zone slotStart) ≠ none ∧ _ = slot := by
            simpa using h
          exact ⟨zone, rules, rfl, hrules, hopen, rfl, hwindow, rfl, rfl, hseat, rfl, hend⟩

/-- A request passes the checks of an open zone only. -/
theorem checkRequest_open {dto : CreateReservationDto} {user : Option RequestUserContext}
    {env : CreateEnv} {slot : Slot} (h : checkRequest dto user env = .ok slot) :
    ∃ zone, env.zone = some zone ∧ zone.status ≠ .closed := by
  obtain ⟨zone, -, hzone, -, hopen, -⟩ := checkRequest_eq_ok h
  exact ⟨zone, hzone, hopen⟩

/-- The slot is for the user of the request. -/
theorem checkRequest_user {dto : CreateReservationDto} {user : Option RequestUserContext}
    {env : CreateEnv} {slot : Slot} (h : checkRequest dto user env = .ok slot) :
    ∃ u ∈ user, u.userId = slot.userId := by
  unfold checkRequest at h
  cases user with
  | none => simp at h
  | some user =>
    cases hzone : env.zone with
    | none => simp [hzone] at h
    | some zone =>
      cases hstart : dto.slotStart with
      | none => simp [hzone, hstart] at h
      | some slotStart =>
        simp only [hzone, hstart] at h
        obtain ⟨-, -, -, -, -, -, -, rfl⟩ : env.userFound = true ∧ _ ∧ _ ∧ _ ∧ _ ∧ _ ∧ _ ∧
            _ = slot := by
          simpa using h
        exact ⟨user, rfl, rfl⟩

/-- The `where` of the conflict query : `Between` is inclusive at both ends. -/
def conflicts (slot : Slot) (r : ReservationEntity) : Bool :=
  r.zoneId == slot.zoneId && r.seatNumber == slot.seatNumber && r.status == .active &&
    (slot.slotStart ≤ r.slotStart && r.slotStart ≤ slot.slotEnd)

/-- The conflict query. -/
def findConflict (slot : Slot) (rows : List ReservationEntity) : Option ReservationEntity :=
  rows.find? (conflicts slot)

/-- The row of a checked request. -/
def Slot.row (slot : Slot) (id : Uuid) (clock : Clock) : ReservationEntity where
  id := id
  zoneId := slot.zoneId
  userId := slot.userId
  seatNumber := slot.seatNumber
  slotStart := slot.slotStart
  slotEnd := slot.slotEnd
  status := .active
  createdAt := clock.dbNow
  cancelledAt := none

/-- The insert transaction : the row and its `reservation_created` event. -/
def insertReservation (db : ReservationDb) (slot : Slot) (clock : Clock) :
    ReservationEntity × ReservationDb :=
  let correlationId := db.uuids
  let reservation := slot.row (db.uuids + 1) clock
  (reservation,
    { reservations := db.reservations ++ [reservation]
      outbox := db.outbox ++ [createOutbox "reservation-service" clock (db.uuids + 2)
        .reservationCreated slot.zoneId correlationId
        (.created reservation.id slot.zoneId slot.userId slot.seatNumber reservation.slotStart
          reservation.slotEnd)]
      uuids := db.uuids + 4 })

@[simp] theorem insertReservation_reservations (db : ReservationDb) (slot : Slot)
    (clock : Clock) : (insertReservation db slot clock).2.reservations =
      db.reservations ++ [slot.row (db.uuids + 1) clock] :=
  rfl

/-- The id of an inserted row is newly drawn. -/
theorem row_drawn (db : ReservationDb) (slot : Slot) (clock : Clock) :
    db.uuids ≤ (slot.row (db.uuids + 1) clock).id ∧
      (slot.row (db.uuids + 1) clock).id < (insertReservation db slot clock).2.uuids :=
  ⟨Nat.le_succ _, Nat.lt_add_of_pos_right (n := db.uuids + 1) (k := 3) (by decide)⟩

/-- `createReservation`, with nothing between its query and its transaction. -/
def createReservation (db : ReservationDb) (dto : CreateReservationDto)
    (user : Option RequestUserContext) (env : CreateEnv) (clock : Clock) :
    Except HttpError ReservationEntity × ReservationDb :=
  match checkRequest dto user env with
  | .error e => (.error e, db)
  | .ok slot =>
    match findConflict slot db.reservations with
    | some _ => (.error (.badRequest "Selected seat is already reserved for this slot"), db)
    | none =>
      let (reservation, db') := insertReservation db slot clock
      (.ok reservation, db')

/-- A request that passes the checks and meets no conflict is inserted; any other changes
nothing. -/
theorem createReservation_cases (db : ReservationDb) (dto : CreateReservationDto)
    (user : Option RequestUserContext) (env : CreateEnv) (clock : Clock) :
    (∃ slot, checkRequest dto user env = .ok slot ∧ findConflict slot db.reservations = none ∧
      (createReservation db dto user env clock).2 = (insertReservation db slot clock).2) ∨
    ((∀ slot, checkRequest dto user env = .ok slot →
      findConflict slot db.reservations ≠ none) ∧
      (createReservation db dto user env clock).2 = db) := by
  unfold createReservation
  cases hcheck : checkRequest dto user env with
  | error e => exact Or.inr ⟨by simp, rfl⟩
  | ok slot =>
    cases hconflict : findConflict slot db.reservations with
    | some r => exact Or.inr ⟨by simp [hconflict], by simp [hconflict]⟩
    | none => exact Or.inl ⟨slot, rfl, hconflict, by simp [hconflict]⟩

/-! ## Cancelling a reservation -/

/-- The read of `cancelReservation` and its checks. -/
def findActive (rows : List ReservationEntity) (id : Uuid) (user : Option RequestUserContext) :
    Except HttpError ReservationEntity := do
  let some user := user | throw (.badRequest "Missing user context")
  let some reservation := rows.find? (·.id == id) |
    throw (.notFound "Active reservation not found")
  if reservation.status ≠ .active then throw (.notFound "Active reservation not found")
  if reservation.userId ≠ user.userId ∧ user.role ≠ .systemAdmin then
    throw (.badRequest "Reservation belongs to another user")
  return reservation

theorem findActive_ok {rows : List ReservationEntity} {id : Uuid}
    {user : Option RequestUserContext} {r : ReservationEntity}
    (h : findActive rows id user = .ok r) : r ∈ rows ∧ r.id = id ∧ r.status = .active := by
  unfold findActive at h
  cases user with
  | none => simp at h
  | some user =>
    cases hfind : rows.find? (·.id == id) with
    | none => simp [hfind] at h
    | some r' =>
      simp only [hfind] at h
      obtain ⟨hactive, -, rfl⟩ : r'.status = .active ∧ _ ∧ r' = r := by simpa using h
      exact ⟨List.mem_of_find?_eq_some hfind, by simpa using List.find?_some hfind, hactive⟩

/-- The entity as `cancelReservation` changes it in memory. -/
def ReservationEntity.cancel (reservation : ReservationEntity) (now : ℤ) :
    ReservationEntity :=
  { reservation with status := .cancelled, cancelledAt := some now }

/-- The cancel transaction : the row becomes the entity in memory (`save` writes each
column that differs), and a `reservation_cancelled` event is added. -/
def saveCancelled (db : ReservationDb) (reservation : ReservationEntity) (clock : Clock) :
    ReservationDb where
  reservations := saveRow (·.id) (reservation.cancel clock.now) db.reservations
  outbox := db.outbox ++ [createOutbox "reservation-service" clock (db.uuids + 1)
    .reservationCancelled reservation.zoneId db.uuids
    (.cancelled reservation.id reservation.zoneId reservation.userId reservation.seatNumber)]
  uuids := db.uuids + 3

@[simp] theorem saveCancelled_reservations (db : ReservationDb) (r : ReservationEntity)
    (clock : Clock) : (saveCancelled db r clock).reservations =
      saveRow (·.id) (r.cancel clock.now) db.reservations :=
  rfl

/-- `cancelReservation`, with nothing between its read and its transaction. -/
def cancelReservation (db : ReservationDb) (id : Uuid) (user : Option RequestUserContext)
    (clock : Clock) : Except HttpError ReservationEntity × ReservationDb :=
  match findActive db.reservations id user with
  | .error e => (.error e, db)
  | .ok reservation => (.ok (reservation.cancel clock.now), saveCancelled db reservation clock)

/-- A cancellation that fails a check changes nothing; one that passes saves an active
row as cancelled. -/
theorem cancelReservation_cases (db : ReservationDb) (id : Uuid)
    (user : Option RequestUserContext) (clock : Clock) :
    (cancelReservation db id user clock).2 = db ∨
      ∃ r ∈ db.reservations, r.status = .active ∧
        (cancelReservation db id user clock).2 = saveCancelled db r clock := by
  unfold cancelReservation
  cases h : findActive db.reservations id user with
  | error e => exact Or.inl rfl
  | ok r =>
    obtain ⟨hmem, -, hactive⟩ := findActive_ok h
    exact Or.inr ⟨r, hmem, hactive, rfl⟩

end Qoms.ReservationService
