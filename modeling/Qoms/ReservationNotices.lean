import Qoms.QueueNotices
import Qoms.ReservationRace

/-!
# What users are told of their reservations

The reservation service in the system of its outbox, the topic and the notification service,
as the queue service is in `QueueNotices` : a user is told of each reservation once, but for
those whose record is awaited still (`reservations_announced`). The notification service
takes the messages of both services (`messages_processed`).
-/

set_option autoImplicit false

namespace Qoms

open NotificationService (NotificationPayload)

namespace ReservationService

/-- What is sent of a payload. -/
def ReservationPayload.json (spelling : Spelling) : ReservationPayload → NotificationPayload
  | .created reservationId zoneId userId seatNumber _ _
  | .cancelled reservationId zoneId userId seatNumber =>
    ⟨some (spelling.text userId), some (spelling.text zoneId), some seatNumber,
      some (spelling.text reservationId), none⟩

/-- The events of the reservation service in the topic. -/
def wire (spelling : Uuid → Spelling) (draw : ℕ ↪ Uuid) : Wire Uuid ReservationPayload where
  draw := draw
  types := [.reservationCreated, .reservationCancelled]
  event := Spelling.envelope spelling draw ReservationPayload.json
  Answers _ := True
  eventId_eq _ := rfl

def ReservationPayload.eventType : ReservationPayload → KafkaEventType
  | .created _ _ _ _ _ _ => .reservationCreated
  | .cancelled _ _ _ _ => .reservationCancelled

def ReservationPayload.zoneId : ReservationPayload → Uuid
  | .created _ zoneId _ _ _ _ | .cancelled _ zoneId _ _ => zoneId

def ReservationPayload.userId : ReservationPayload → Uuid
  | .created _ _ userId _ _ _ | .cancelled _ _ userId _ => userId

/-- The id, the zone and the user of a reservation. -/
def ReservationEntity.owner (r : ReservationEntity) : Uuid × Uuid × Uuid :=
  (r.id, r.zoneId, r.userId)

/-- Those of the reservation that was created. -/
def ReservationPayload.owner : ReservationPayload → Option (Uuid × Uuid × Uuid)
  | .created reservationId zoneId userId _ _ _ => some (reservationId, zoneId, userId)
  | _ => none

/-- An event as the service makes it : of the payload's type, with the zone as its key; the
ids are UUIDs. -/
structure Composed (e : EventEnvelope Uuid ReservationPayload) : Prop where
  eventType : e.eventType = e.payload.eventType
  entityId : e.entityId = e.payload.zoneId
  zoneId : e.payload.zoneId < 256 ^ 16
  userId : e.payload.userId < 256 ^ 16

/-- The events name the reservations, each in its order. -/
structure ReservationDb.Recorded (db : ReservationDb) : Prop where
  keyed : db.Keyed
  created : (db.outbox.map (·.payload)).filterMap (·.payload.owner) =
    db.reservations.map (·.owner)
  composed : ∀ e ∈ db.outbox.map (·.payload), Composed e

/-- The ids a request brings are UUIDs. -/
def Action.Spelled : Action → Prop
  | .create dto user _ => dto.zoneId < 256 ^ 16 ∧ ∀ u ∈ user, u.userId < 256 ^ 16
  | _ => True

/-- The ids a checked request holds are UUIDs, and the entity a cancellation holds is one of
the table. -/
def Request.Recorded (db : ReservationDb) : Request → Prop
  | .checked slot _ => slot.zoneId < 256 ^ 16 ∧ slot.userId < 256 ^ 16
  | .cancelling reservation => reservation.owner ∈ db.reservations.map (·.owner)
  | _ => True

/-- The tables grow, and no reservation changes hands. -/
structure ReservationDb.Keeps (db db' : ReservationDb) : Prop where
  grows : db.Grows db'
  owners : db.reservations.map (·.owner) ⊆ db'.reservations.map (·.owner)

theorem ReservationDb.Keeps.refl (db : ReservationDb) : db.Keeps db :=
  ⟨Grows.refl Ages.refl _ _, List.Subset.refl _⟩

theorem Request.Recorded.keeps {db db' : ReservationDb} {r : Request} (h : r.Recorded db)
    (hkeeps : db.Keeps db') : r.Recorded db' := by
  cases r with
  | cancelling reservation => exact hkeeps.owners h
  | checked => exact h
  | _ => trivial

/-- An owner of a reservation is a user, and its zone is one : both ids are UUIDs. -/
theorem ReservationDb.Recorded.spelled {db : ReservationDb} (h : db.Recorded)
    {id zoneId userId : Uuid} (howner : (id, zoneId, userId) ∈ db.reservations.map (·.owner)) :
    zoneId < 256 ^ 16 ∧ userId < 256 ^ 16 := by
  rw [← h.created] at howner
  obtain ⟨e, he, heq⟩ := List.mem_filterMap.mp howner
  have hzone := (h.composed e he).zoneId
  have huser := (h.composed e he).userId
  cases hpayload : e.payload with
  | created reservation zone user =>
    simp only [hpayload, ReservationPayload.owner, Option.some.injEq, Prod.mk.injEq] at heq
    obtain ⟨-, rfl, rfl⟩ := heq
    rw [hpayload] at hzone huser
    exact ⟨hzone, huser⟩
  | cancelled => simp [hpayload, ReservationPayload.owner] at heq

/-- An insert records the reservation. -/
theorem ReservationDb.Recorded.insert {db : ReservationDb} (h : db.Recorded) {slot : Slot}
    (hspelled : slot.zoneId < 256 ^ 16 ∧ slot.userId < 256 ^ 16) (clock : Clock)
    (hkeyed : (insertReservation db slot clock).2.Keyed) :
    (insertReservation db slot clock).2.Recorded where
  keyed := hkeyed
  created := by
    rw [insertReservation_reservations, List.map_append, ← h.created]
    simp [insertReservation, createOutbox, createEventEnvelope, ReservationPayload.owner,
      ReservationEntity.owner, Slot.row]
  composed e he := by
    simp only [insertReservation, List.map_append, List.mem_append, List.map_cons, List.map_nil,
      List.mem_singleton] at he
    rcases he with he | rfl
    · exact h.composed e he
    · exact ⟨rfl, rfl, hspelled.1, hspelled.2⟩

/-- A save leaves the reservations their owners. -/
theorem ReservationDb.Recorded.owners_save {db : ReservationDb} (h : db.Recorded)
    {reservation : ReservationEntity}
    (howner : reservation.owner ∈ db.reservations.map (·.owner)) (clock : Clock) :
    (saveCancelled db reservation clock).reservations.map (·.owner) =
      db.reservations.map (·.owner) := by
  rw [saveCancelled_reservations]
  refine map_saveRow_of_mem (fun a b hab => ?_) h.keyed.nodup howner
  exact congrArg Prod.fst hab

/-- A save records the end. -/
theorem ReservationDb.Recorded.save {db : ReservationDb} (h : db.Recorded)
    {reservation : ReservationEntity}
    (howner : reservation.owner ∈ db.reservations.map (·.owner)) (clock : Clock)
    (hkeyed : (saveCancelled db reservation clock).Keyed) :
    (saveCancelled db reservation clock).Recorded where
  keyed := hkeyed
  created := by
    rw [h.owners_save howner, ← h.created]
    simp [saveCancelled, createOutbox, createEventEnvelope, ReservationPayload.owner]
  composed e he := by
    simp only [saveCancelled, List.map_append, List.mem_append, List.map_cons, List.map_nil,
      List.mem_singleton] at he
    rcases he with he | rfl
    · exact h.composed e he
    · exact ⟨rfl, rfl, (h.spelled howner).1, (h.spelled howner).2⟩

theorem checkRequest_spelled {dto : CreateReservationDto} {user : Option RequestUserContext}
    {env : CreateEnv} {slot : Slot} (h : checkRequest dto user env = .ok slot)
    (hspelled : (Action.create dto user env).Spelled) :
    slot.zoneId < 256 ^ 16 ∧ slot.userId < 256 ^ 16 := by
  obtain ⟨-, -, -, -, -, -, -, hzone, -⟩ := checkRequest_eq_ok h
  obtain ⟨u, hu, huserId⟩ := checkRequest_user h
  exact ⟨hzone ▸ hspelled.1, huserId ▸ hspelled.2 u hu⟩

/-- What a step owes, with the records and the owners. -/
theorem Moves.records {db db' : ReservationDb} {a : Action} {r r' : Request}
    (h : Moves db a r db' r') (ha : a.Spelled) (hdb : db.Recorded) (hsound : r.Sound db)
    (hr : r.Recorded db) : Shared.Guarantees ReservationDb.Recorded
      (fun db r => r.Sound db ∧ r.Recorded db) ReservationDb.Keeps db (db', r') := by
  obtain ⟨hkeyed, hgrows, hsound'⟩ := h.guarantees hdb.keyed hsound
  have hsame : ∀ r'' : Request, r''.Sound db → r''.Recorded db → Shared.Guarantees
      ReservationDb.Recorded (fun db r => r.Sound db ∧ r.Recorded db) ReservationDb.Keeps db
        (db, r'') :=
    fun r'' hs hrec => ⟨hdb, ReservationDb.Keeps.refl db, hs, hrec⟩
  cases h with
  | stay => exact hsame _ hsound hr
  | refuse | abort => exact hsame _ trivial trivial
  | checked hslot => exact hsame _ hsound' (checkRequest_spelled hslot ha)
  | insert clock slot seen =>
    refine ⟨hdb.insert hr clock hkeyed, ⟨hgrows, ?_⟩, trivial, trivial⟩
    rw [insertReservation_reservations, List.map_append]
    exact List.subset_append_left _ _
  | cancelling hfind =>
    exact hsame _ hsound' (List.mem_map_of_mem (findActive_ok hfind).1)
  | save clock reservation =>
    refine ⟨hdb.save hr clock hkeyed, ⟨hgrows, ?_⟩, trivial, trivial⟩
    rw [hdb.owners_save hr]
    exact List.Subset.refl _

/-- An insert and a save append one record each. -/
theorem Moves.appends {db db' : ReservationDb} {a : Action} {r r' : Request}
    (h : Moves db a r db' r') :
    ∃ new, db'.outbox = db.outbox ++ new ∧ Drawn db.uuids db'.uuids new := by
  have hnone : ∃ new, db.outbox = db.outbox ++ new ∧ Drawn db.uuids db.uuids new :=
    ⟨[], by simp, le_rfl, by simp, by simp, by simp, by simp⟩
  cases h with
  | insert clock slot seen =>
    refine ⟨_, rfl, Nat.le_add_right _ 4, ?_, ?_, ?_, ?_⟩
    · simp
    · simp [createOutbox, createEventEnvelope, insertReservation]
    · simp [createOutbox, createEventEnvelope]
    · simp [createOutbox]
  | save clock reservation =>
    refine ⟨_, rfl, Nat.le_add_right _ 3, ?_, ?_, ?_, ?_⟩
    · simp
    · simp [createOutbox, createEventEnvelope, saveCancelled]
    · simp [createOutbox, createEventEnvelope]
    · simp [createOutbox]
  | _ => exact hnone

/-- The reservation service as one with an outbox. -/
def outboxService : OutboxService ReservationDb Action Request Uuid ReservationPayload where
  act := act
  outbox := (·.outbox)
  setOutbox rows db := { db with outbox := rows }
  uuids := (·.uuids)
  Allowed := Action.Spelled
  Inv := ReservationDb.Recorded
  Sound db r := r.Sound db ∧ r.Recorded db
  Rely := ReservationDb.Keeps
  outbox_setOutbox _ _ := rfl
  uuids_setOutbox _ _ := rfl
  guarantees {a db r} ha hdb hr := (act_moves a db r).records ha hdb hr.1 hr.2
  grows hkeeps hr := ⟨hr.1.grows hkeeps.grows, hr.2.keeps hkeeps⟩
  inv_setOutbox {rows db} hrows hdb :=
    ⟨hdb.keyed, by rw [hrows]; exact hdb.created, by rw [hrows]; exact hdb.composed⟩
  rely_setOutbox {rows db} _ := ⟨Grows.refl Ages.refl _ _, List.Subset.refl _⟩
  rely_refl := ReservationDb.Keeps.refl
  appends a db r := (act_moves a db r).appends

theorem starts_outboxService : outboxService.Starts .empty .idle :=
  ⟨⟨Keyed.nil, rfl, by simp [ReservationDb.empty]⟩, rfl, trivial, trivial⟩

/-- The notification service reads the zones and the users of the reservation service's
events. -/
def addressed (spelling : Uuid → Spelling) (draw : ℕ ↪ Uuid) :
    Addressed outboxService (wire spelling draw) where
  zoneOf e := e.payload.zoneId
  userOf e := some e.payload.userId
  eventType _ := rfl
  zone {d e} hd he := by
    have hzone := (spelling e.eventId).reads _ (hd.composed e he).zoneId
    change (e.payload.json (spelling e.eventId)).zoneId.bind uuidIn = _
    cases hpayload : e.payload with
    | created | cancelled =>
      rw [hpayload] at hzone
      exact hzone
  user {d e} hd he := by
    have huser := (spelling e.eventId).reads _ (hd.composed e he).userId
    change (e.payload.json (spelling e.eventId)).userId.bind uuidIn = _
    cases hpayload : e.payload with
    | created | cancelled =>
      rw [hpayload] at huser
      exact huser
  named _ _ _ := rfl
  entityId {d e} hd he := by
    have hcomposed := hd.composed e he
    have hzone := hcomposed.zoneId
    rw [← hcomposed.entityId] at hzone
    exact (spelling e.eventId).short _ hzone
  types {d e} hd he := by
    rw [(hd.composed e he).eventType]
    cases e.payload <;> simp [ReservationPayload.eventType, wire]
  notOverloaded := by simp [wire]

/-- The reservations of a user in a zone, the cancelled ones too. -/
def ReservationDb.reservationsOf (db : ReservationDb) (zoneId userId : Uuid) : ℕ :=
  db.reservations.countP fun r => r.zoneId == zoneId && r.userId == userId

/-- The `reservation_created` events for the user are as many as the user's reservations. -/
theorem countP_isFor_created {db : ReservationDb} (h : db.Recorded)
    (spelling : Uuid → Spelling) (draw : ℕ ↪ Uuid) (zoneId userId : Uuid) :
    (outboxService.events db).countP
      ((addressed spelling draw).isFor .reservationCreated zoneId userId) =
        db.reservationsOf zoneId userId := by
  have howners : (db.reservations.map (·.owner)).countP
      (fun o => o.2.1 == zoneId && o.2.2 == userId) = db.reservationsOf zoneId userId := by
    rw [List.countP_map]
    rfl
  rw [← howners, ← h.created, List.countP_filterMap]
  refine List.countP_congr fun e he => ?_
  have htype := (h.composed e he).eventType
  cases hpayload : e.payload with
  | created reservation zone user =>
    rw [hpayload] at htype
    simp [Addressed.isFor, addressed, htype, hpayload, ReservationPayload.eventType,
      ReservationPayload.owner, ReservationPayload.zoneId, ReservationPayload.userId]
  | cancelled =>
    rw [hpayload] at htype
    simp [Addressed.isFor, htype, ReservationPayload.eventType, ReservationPayload.owner]

/-- The tables after a run of the system. -/
abbrev pipeline (spelling : Uuid → Spelling) (draw : ℕ ↪ Uuid)
    (as : List (ℕ × PipelineAction Action)) : Pipeline ReservationDb Uuid ReservationPayload :=
  (run (Shared.step (Pipeline.act outboxService (wire spelling draw)))
    (Pipeline.start .empty .idle) as).db

end ReservationService

/-- After any run of requests, publishers and deliveries, a user has one notification for each
reservation but for those whose record is awaited, and one for each record of a cancellation
but for the awaited ones. -/
theorem reservations_announced (spelling : Uuid → Spelling) (draw : ℕ ↪ Uuid)
    {as : List (ℕ × PipelineAction ReservationService.Action)}
    (has : ∀ pa ∈ as,
      pa.2.Allowed ReservationService.outboxService (ReservationService.wire spelling draw))
    (zoneId userId : Uuid) :
    let s := ReservationService.pipeline spelling draw as
    let h := ReservationService.addressed spelling draw
    s.notices .reservationCreated zoneId userId + h.waiting s .reservationCreated zoneId userId =
        s.service.reservationsOf zoneId userId ∧
      s.notices .reservationCancelled zoneId userId +
          h.waiting s .reservationCancelled zoneId userId =
        h.records s .reservationCancelled zoneId userId := by
  intro s h
  have hrecorded := (safe_pipeline_run ReservationService.starts_outboxService has).store.service
  constructor
  · rw [← ReservationService.countP_isFor_created hrecorded spelling draw]
    exact h.announced (t := .reservationCreated) ReservationService.starts_outboxService has trivial
      (by simp [ReservationService.wire]) zoneId userId
  · exact h.announced (t := .reservationCancelled) ReservationService.starts_outboxService has
      trivial (by simp [ReservationService.wire]) zoneId userId

/-- A student reserves a seat and cancels; the first record is delivered and the second is
awaited. -/
def ReservationService.createdAndCancelled :
    List (ℕ × PipelineAction ReservationService.Action) :=
  let user : Option RequestUserContext := some ⟨1, .student⟩
  let faults : NotificationService.Faults := ⟨false, none, fun _ => false, false, .acknowledged⟩
  [(0, .request (.create ReservationService.seatTwo user
      ⟨true, some ReservationService.hourZone, 0⟩)), (0, .request (.insert ⟨1, 1⟩)),
    (0, .flush (.poll id)), (0, .flush (.send .acknowledged)), (0, .deliver 0),
    (1, .request (.cancel 1 user)), (1, .request (.save ⟨2, 2⟩)), (0, .inbox (.build none)),
    (0, .inbox (.save faults 5))]

theorem createdAndCancelled_allowed (spelling : Uuid → Spelling) (draw : ℕ ↪ Uuid) :
    ∀ pa ∈ ReservationService.createdAndCancelled,
      pa.2.Allowed ReservationService.outboxService
        (ReservationService.wire spelling draw) := by
  simp [ReservationService.createdAndCancelled, PipelineAction.Allowed,
    ReservationService.outboxService, ReservationService.Action.Spelled,
    ReservationService.seatTwo]

theorem createdAndCancelled_announced :
    let s := ReservationService.pipeline (fun _ => .canonical) (.refl _)
      ReservationService.createdAndCancelled
    let h := ReservationService.addressed (fun _ => .canonical) (.refl _)
    (s.notices .reservationCreated 1 1 + h.waiting s .reservationCreated 1 1 =
        s.service.reservationsOf 1 1 ∧
      s.notices .reservationCancelled 1 1 + h.waiting s .reservationCancelled 1 1 =
        h.records s .reservationCancelled 1 1) ∧
    s.notices .reservationCreated 1 1 = 1 ∧ h.waiting s .reservationCancelled 1 1 = 1 :=
  ⟨reservations_announced (fun _ => .canonical) (.refl _) (createdAndCancelled_allowed _ _) 1 1,
    by decide, by decide⟩

/-- The notification service takes every message of both services : a delivery that meets no
fault leaves the record awaited no more, for good. -/
theorem messages_processed (spelling : Uuid → Spelling) (draw : ℕ ↪ Uuid) :
    Deliverable QueueService.outboxService (QueueService.wire spelling draw) .empty .idle ∧
      Deliverable ReservationService.outboxService (ReservationService.wire spelling draw) .empty
        .idle :=
  ⟨(QueueService.addressed spelling draw).deliverable QueueService.starts_outboxService,
    (ReservationService.addressed spelling draw).deliverable
      ReservationService.starts_outboxService⟩

end Qoms
