import Qoms.Notices
import Qoms.QueueRace

/-!
# What users are told of their queues

The queue service in the system of its outbox, the topic and the notification service. Its
`queue_joined` records name the entries of its table, each in its order (`Recorded`) : an
insert is recorded in its transaction, and a save changes no entry's zone or user. So a user
is told of each entry once, but for those whose record is awaited still
(`entries_announced`).
-/

set_option autoImplicit false

namespace Qoms

open NotificationService (NotificationPayload)

namespace QueueService

/-- What is sent of a payload. -/
def QueuePayload.json (spelling : Spelling) : QueuePayload → NotificationPayload
  | .joined zoneId _ userId | .left zoneId _ userId =>
    ⟨some (spelling.text userId), some (spelling.text zoneId), none, none, none⟩
  | .statusChanged zoneId _ => ⟨none, some (spelling.text zoneId), none, none, none⟩

/-- The events of the queue service in the topic. -/
def wire (spelling : Uuid → Spelling) (draw : ℕ ↪ Uuid) : Wire Uuid QueuePayload where
  draw := draw
  types := [.queueJoined, .queueLeft, .queueStatusChanged]
  event := Spelling.envelope spelling draw QueuePayload.json
  Answers _ := True
  eventId_eq _ := rfl

def QueuePayload.eventType : QueuePayload → KafkaEventType
  | .joined _ _ _ => .queueJoined
  | .left _ _ _ => .queueLeft
  | .statusChanged _ _ => .queueStatusChanged

def QueuePayload.zoneId : QueuePayload → Uuid
  | .joined zoneId _ _ | .left zoneId _ _ | .statusChanged zoneId _ => zoneId

def QueuePayload.userId : QueuePayload → Option Uuid
  | .joined _ _ userId | .left _ _ userId => some userId
  | .statusChanged _ _ => none

/-- The id, the zone and the user of an entry. -/
def QueueEntryEntity.owner (e : QueueEntryEntity) : Uuid × Uuid × Uuid :=
  (e.id, e.zoneId, e.userId)

/-- Those of the entry that joined. -/
def QueuePayload.owner : QueuePayload → Option (Uuid × Uuid × Uuid)
  | .joined zoneId queueEntryId userId => some (queueEntryId, zoneId, userId)
  | _ => none

/-- An event as the service makes it : of the payload's type, with the zone as its key; the
ids are UUIDs. -/
structure Composed (e : EventEnvelope Uuid QueuePayload) : Prop where
  eventType : e.eventType = e.payload.eventType
  entityId : e.entityId = e.payload.zoneId
  zoneId : e.payload.zoneId < 256 ^ 16
  userId : ∀ user ∈ e.payload.userId, user < 256 ^ 16

/-- The events name the entries, each in its order. -/
structure QueueDb.Recorded (db : QueueDb) : Prop where
  keyed : db.Keyed
  joined : (db.outbox.map (·.payload)).filterMap (·.payload.owner) = db.entries.map (·.owner)
  composed : ∀ e ∈ db.outbox.map (·.payload), Composed e

/-- The ids a request brings are UUIDs. -/
def Action.Spelled : Action → Prop
  | .join zoneId user _ => zoneId < 256 ^ 16 ∧ ∀ u ∈ user, u.userId < 256 ^ 16
  | _ => True

/-- The ids a join holds are UUIDs, and the entity a leave holds is one of the table. -/
def Request.Recorded (db : QueueDb) : Request → Prop
  | .counted join _ _ | .vacant join _ _ _ | .begun join _ _ _ _ =>
    join.zoneId < 256 ^ 16 ∧ join.userId < 256 ^ 16
  | .leaving entry | .ready entry _ _ => entry.owner ∈ db.entries.map (·.owner)
  | _ => True

/-- The tables grow, and no entry changes hands. -/
structure QueueDb.Keeps (db db' : QueueDb) : Prop where
  grows : db.Grows db'
  owners : db.entries.map (·.owner) ⊆ db'.entries.map (·.owner)

theorem Request.Recorded.keeps {db db' : QueueDb} {r : Request} (h : r.Recorded db)
    (hkeeps : db.Keeps db') : r.Recorded db' := by
  cases r with
  | leaving entry | ready entry _ => exact hkeeps.owners h
  | counted | vacant | begun => exact h
  | _ => trivial

/-- An owner of an entry is a user, and its zone is one : both ids are UUIDs. -/
theorem QueueDb.Recorded.spelled {db : QueueDb} (h : db.Recorded) {id zoneId userId : Uuid}
    (howner : (id, zoneId, userId) ∈ db.entries.map (·.owner)) :
    zoneId < 256 ^ 16 ∧ userId < 256 ^ 16 := by
  rw [← h.joined] at howner
  obtain ⟨e, he, heq⟩ := List.mem_filterMap.mp howner
  have hcomposed := h.composed e he
  have hzone := hcomposed.zoneId
  have huser := hcomposed.userId
  cases hpayload : e.payload with
  | joined zone entry user =>
    simp only [hpayload, QueuePayload.owner, Option.some.injEq, Prod.mk.injEq] at heq
    obtain ⟨-, rfl, rfl⟩ := heq
    rw [hpayload] at hzone huser
    exact ⟨hzone, huser _ rfl⟩
  | left | statusChanged => simp [hpayload, QueuePayload.owner] at heq

theorem QueueDb.Keeps.refl (db : QueueDb) : db.Keeps db :=
  ⟨Grows.refl Ages.refl _ _, List.Subset.refl _⟩

/-- A commit records the entry. -/
theorem QueueDb.Recorded.commit {db : QueueDb} (h : db.Recorded) {join : Join}
    (hspelled : join.zoneId < 256 ^ 16 ∧ join.userId < 256 ^ 16) (count : ℕ) (clock : Clock)
    (hkeyed : (insertEntry db join count clock).2.Keyed) :
    (insertEntry db join count clock).2.Recorded where
  keyed := hkeyed
  joined := by
    rw [insertEntry_entries, List.map_append, ← h.joined]
    simp [insertEntry, createOutbox, createEventEnvelope, QueuePayload.owner,
      QueueEntryEntity.owner, Join.entry]
  composed e he := by
    simp only [insertEntry, List.map_append, List.mem_append, List.map_cons, List.map_nil,
      List.mem_cons, List.not_mem_nil, or_false] at he
    rcases he with he | rfl | rfl
    · exact h.composed e he
    · exact ⟨rfl, rfl, hspelled.1, fun user huser => Option.some.inj huser ▸ hspelled.2⟩
    · exact ⟨rfl, rfl, hspelled.1, fun user huser => absurd huser (by simp [QueuePayload.userId,
        createOutbox, createEventEnvelope])⟩

/-- A save leaves the entries their owners. -/
theorem QueueDb.Recorded.owners_save {db : QueueDb} (h : db.Recorded) {entry : QueueEntryEntity}
    (howner : entry.owner ∈ db.entries.map (·.owner)) (nextCount : ℕ) (clock : Clock) :
    (saveLeft db entry nextCount clock).entries.map (·.owner) = db.entries.map (·.owner) := by
  rw [saveLeft_entries]
  refine map_saveRow_of_mem (fun a b hab => ?_) h.keyed.nodup howner
  exact congrArg Prod.fst hab

/-- A save records the end. -/
theorem QueueDb.Recorded.save {db : QueueDb} (h : db.Recorded) {entry : QueueEntryEntity}
    (howner : entry.owner ∈ db.entries.map (·.owner)) (nextCount : ℕ) (clock : Clock)
    (hkeyed : (saveLeft db entry nextCount clock).Keyed) :
    (saveLeft db entry nextCount clock).Recorded where
  keyed := hkeyed
  joined := by
    rw [h.owners_save howner, ← h.joined]
    simp [saveLeft, createOutbox, createEventEnvelope, QueuePayload.owner]
  composed e he := by
    obtain ⟨hzone, huser⟩ := h.spelled howner
    simp only [saveLeft, List.map_append, List.mem_append, List.map_cons, List.map_nil,
      List.mem_cons, List.not_mem_nil, or_false] at he
    rcases he with he | rfl | rfl
    · exact h.composed e he
    · exact ⟨rfl, rfl, hzone, fun user heq => Option.some.inj heq ▸ huser⟩
    · exact ⟨rfl, rfl, hzone, fun user heq => absurd heq (by simp [QueuePayload.userId,
        createOutbox, createEventEnvelope])⟩

theorem owners_commit (db : QueueDb) (join : Join) (count : ℕ) (clock : Clock) :
    db.entries.map (·.owner) ⊆
      (insertEntry db join count clock).2.entries.map (·.owner) := by
  rw [insertEntry_entries, List.map_append]
  exact List.subset_append_left _ _

theorem checkJoin_spelled {zoneId : Uuid} {user : Option RequestUserContext} {env : RequestEnv}
    {join : Join} (h : checkJoin zoneId user env = .ok join)
    (hspelled : (Action.join zoneId user env).Spelled) :
    join.zoneId < 256 ^ 16 ∧ join.userId < 256 ^ 16 := by
  obtain ⟨hzone, -, huser⟩ := checkJoin_ok h
  obtain ⟨u, hu, huserId⟩ := Option.map_eq_some_iff.mp huser
  exact ⟨hzone ▸ hspelled.1, huserId ▸ hspelled.2 u hu⟩

/-- What a step owes, with the records and the owners. -/
theorem Moves.records {db db' : QueueDb} {a : Action} {r r' : Request} (h : Moves db a r db' r')
    (ha : a.Spelled) (hdb : db.Recorded) (hsound : r.Sound db) (hr : r.Recorded db) :
    Shared.Guarantees QueueDb.Recorded (fun db r => r.Sound db ∧ r.Recorded db) QueueDb.Keeps db
      (db', r') := by
  obtain ⟨hkeyed, hgrows, hsound'⟩ := h.guarantees hdb.keyed hsound
  have hsame : ∀ r'' : Request, r''.Sound db → r''.Recorded db → Shared.Guarantees
      QueueDb.Recorded (fun db r => r.Sound db ∧ r.Recorded db) QueueDb.Keeps db (db, r'') :=
    fun r'' hs hrec => ⟨hdb, QueueDb.Keeps.refl db, hs, hrec⟩
  cases h with
  | stay => exact hsame _ hsound hr
  | refuse | abort | existing => exact hsame _ trivial trivial
  | counted hjoin => exact hsame _ hsound' (checkJoin_spelled hjoin ha)
  | vacant | begin => exact hsame _ hsound' hr
  | commit now join count countSeen lookupSeen joinedAt =>
    exact ⟨hdb.commit hr count _ hkeyed, ⟨hgrows, owners_commit db join count _⟩, trivial, trivial⟩
  | leaving hfind =>
    exact hsame _ hsound' (List.mem_map_of_mem (findLeaving_ok hfind).1)
  | count => exact hsame _ hsound' hr
  | save clock entry nextCount =>
    refine ⟨hdb.save hr nextCount clock hkeyed, ⟨hgrows, ?_⟩, trivial, trivial⟩
    rw [hdb.owners_save hr]
    exact List.Subset.refl _

/-- A commit and a save append two records each. -/
theorem Moves.appends {db db' : QueueDb} {a : Action} {r r' : Request} (h : Moves db a r db' r') :
    ∃ new, db'.outbox = db.outbox ++ new ∧ Drawn db.uuids db'.uuids new := by
  have hnone : ∃ new, db.outbox = db.outbox ++ new ∧ Drawn db.uuids db.uuids new :=
    ⟨[], by simp, le_rfl, by simp, by simp, by simp, by simp⟩
  cases h with
  | commit now join count countSeen lookupSeen joinedAt =>
    refine ⟨_, rfl, Nat.le_add_right _ 6, ?_, ?_, ?_, ?_⟩
    · simp [createOutbox, createEventEnvelope]
    · simp [createOutbox, createEventEnvelope, insertEntry]
    · simp [createOutbox, createEventEnvelope]
    · simp [createOutbox]
  | save clock entry nextCount =>
    refine ⟨_, rfl, Nat.le_add_right _ 5, ?_, ?_, ?_, ?_⟩
    · simp [createOutbox, createEventEnvelope]
    · simp [createOutbox, createEventEnvelope, saveLeft]
    · simp [createOutbox, createEventEnvelope]
    · simp [createOutbox]
  | _ => exact hnone

/-- The queue service as one with an outbox. -/
def outboxService : OutboxService QueueDb Action Request Uuid QueuePayload where
  act := act
  outbox := (·.outbox)
  setOutbox rows db := { db with outbox := rows }
  uuids := (·.uuids)
  Allowed := Action.Spelled
  Inv := QueueDb.Recorded
  Sound db r := r.Sound db ∧ r.Recorded db
  Rely := QueueDb.Keeps
  outbox_setOutbox _ _ := rfl
  uuids_setOutbox _ _ := rfl
  guarantees {a db r} ha hdb hr := (act_moves a db r).records ha hdb hr.1 hr.2
  grows hkeeps hr := ⟨hr.1.grows hkeeps.grows, hr.2.keeps hkeeps⟩
  inv_setOutbox {rows db} hrows hdb :=
    ⟨hdb.keyed, by rw [hrows]; exact hdb.joined, by rw [hrows]; exact hdb.composed⟩
  rely_setOutbox {rows db} _ := ⟨Grows.refl Ages.refl _ _, List.Subset.refl _⟩
  rely_refl := QueueDb.Keeps.refl
  appends a db r := (act_moves a db r).appends

theorem starts_outboxService : outboxService.Starts .empty .idle :=
  ⟨⟨Keyed.nil, rfl, by simp [QueueDb.empty]⟩, rfl, trivial, trivial⟩

/-- The notification service reads the zones and the users of the queue service's events. -/
def addressed (spelling : Uuid → Spelling) (draw : ℕ ↪ Uuid) :
    Addressed outboxService (wire spelling draw) where
  zoneOf e := e.payload.zoneId
  userOf e := e.payload.userId
  eventType _ := rfl
  zone {d e} hd he := by
    have hzone := (spelling e.eventId).reads _ (hd.composed e he).zoneId
    change (e.payload.json (spelling e.eventId)).zoneId.bind uuidIn = _
    cases hpayload : e.payload with
    | joined | left | statusChanged =>
      rw [hpayload] at hzone
      exact hzone
  user {d e} hd he := by
    have huser := (hd.composed e he).userId
    change (e.payload.json (spelling e.eventId)).userId.bind uuidIn = _
    cases hpayload : e.payload with
    | joined | left =>
      rw [hpayload] at huser
      exact (spelling e.eventId).reads _ (huser _ rfl)
    | statusChanged => rfl
  named {d e} hd he hpersonal := by
    rw [(hd.composed e he).eventType] at hpersonal
    cases hpayload : e.payload with
    | joined | left => rfl
    | statusChanged =>
      rw [hpayload] at hpersonal
      exact absurd hpersonal id
  entityId {d e} hd he := by
    have hcomposed := hd.composed e he
    have hzone := hcomposed.zoneId
    rw [← hcomposed.entityId] at hzone
    exact (spelling e.eventId).short _ hzone
  types {d e} hd he := by
    rw [(hd.composed e he).eventType]
    cases e.payload <;> simp [QueuePayload.eventType, wire]
  notOverloaded := by simp [wire]

/-- The entries of a user in a zone, those that left too. -/
def QueueDb.entriesOf (db : QueueDb) (zoneId userId : Uuid) : ℕ :=
  db.entries.countP fun e => e.zoneId == zoneId && e.userId == userId

/-- The `queue_joined` events for the user are as many as the user's entries. -/
theorem countP_isFor_joined {db : QueueDb} (h : db.Recorded)
    (spelling : Uuid → Spelling) (draw : ℕ ↪ Uuid) (zoneId userId : Uuid) :
    (outboxService.events db).countP
      ((addressed spelling draw).isFor .queueJoined zoneId userId) =
        db.entriesOf zoneId userId := by
  have howners : (db.entries.map (·.owner)).countP (fun o => o.2.1 == zoneId && o.2.2 == userId) =
      db.entriesOf zoneId userId := by
    rw [List.countP_map]
    rfl
  rw [← howners, ← h.joined, List.countP_filterMap]
  refine List.countP_congr fun e he => ?_
  have htype := (h.composed e he).eventType
  cases hpayload : e.payload with
  | joined zone entry user =>
    rw [hpayload] at htype
    simp [Addressed.isFor, addressed, htype, hpayload, QueuePayload.eventType, QueuePayload.owner,
      QueuePayload.zoneId, QueuePayload.userId]
  | left | statusChanged =>
    rw [hpayload] at htype
    simp [Addressed.isFor, htype, QueuePayload.eventType, QueuePayload.owner]

/-- The tables after a run of the system. -/
abbrev pipeline (spelling : Uuid → Spelling) (draw : ℕ ↪ Uuid)
    (as : List (ℕ × PipelineAction Action)) : Pipeline QueueDb Uuid QueuePayload :=
  (run (Shared.step (Pipeline.act outboxService (wire spelling draw)))
    (Pipeline.start .empty .idle) as).db

end QueueService

/-- After any run of requests, publishers and deliveries, a user has one notification for each
entry in a queue but for those whose record is awaited, and one for each record of an end but
for the awaited ones. -/
theorem entries_announced (spelling : Uuid → Spelling) (draw : ℕ ↪ Uuid)
    {as : List (ℕ × PipelineAction QueueService.Action)}
    (has : ∀ pa ∈ as, pa.2.Allowed QueueService.outboxService (QueueService.wire spelling draw))
    (zoneId userId : Uuid) :
    let s := QueueService.pipeline spelling draw as
    let h := QueueService.addressed spelling draw
    s.notices .queueJoined zoneId userId + h.waiting s .queueJoined zoneId userId =
        s.service.entriesOf zoneId userId ∧
      s.notices .queueLeft zoneId userId + h.waiting s .queueLeft zoneId userId =
        h.records s .queueLeft zoneId userId := by
  intro s h
  have hrecorded := (safe_pipeline_run QueueService.starts_outboxService has).store.service
  constructor
  · rw [← QueueService.countP_isFor_joined hrecorded spelling draw]
    exact h.announced (t := .queueJoined) QueueService.starts_outboxService has trivial
      (by simp [QueueService.wire]) zoneId userId
  · exact h.announced (t := .queueLeft) QueueService.starts_outboxService has trivial
      (by simp [QueueService.wire]) zoneId userId

/-- A user joins; the acknowledgement of the first send is lost, so the record is sent twice,
and both messages are delivered at once. -/
def QueueService.joinedTwice : List (ℕ × PipelineAction QueueService.Action) :=
  let user : Option RequestUserContext := some ⟨7, .student⟩
  let faults : NotificationService.Faults := ⟨false, none, fun _ => false, false, .acknowledged⟩
  [(0, .request (.join 1 user QueueService.diningEnv)), (0, .request (.lookup 0)),
    (0, .request (.begin 1)), (0, .request (.commit 1)), (0, .flush (.poll id)),
    (0, .flush (.send (.unacknowledged "lost"))), (0, .flush .stop), (0, .flush (.poll id)),
    (0, .flush (.send .acknowledged)), (1, .deliver 0), (2, .deliver 1),
    (1, .inbox (.build none)), (2, .inbox (.build none)), (2, .inbox (.save faults 5)),
    (1, .inbox (.save faults 6))]

theorem joinedTwice_allowed (spelling : Uuid → Spelling) (draw : ℕ ↪ Uuid) :
    ∀ pa ∈ QueueService.joinedTwice,
      pa.2.Allowed QueueService.outboxService (QueueService.wire spelling draw) := by
  simp [QueueService.joinedTwice, PipelineAction.Allowed, QueueService.outboxService,
    QueueService.Action.Spelled]

/-- The user has one notification. -/
theorem joinedTwice_announced :
    let s := QueueService.pipeline (fun _ => .canonical) (.refl _) QueueService.joinedTwice
    let h := QueueService.addressed (fun _ => .canonical) (.refl _)
    (s.notices .queueJoined 1 7 + h.waiting s .queueJoined 1 7 = s.service.entriesOf 1 7 ∧
      s.notices .queueLeft 1 7 + h.waiting s .queueLeft 1 7 = h.records s .queueLeft 1 7) ∧
    s.topic.length = 2 ∧ s.notices .queueJoined 1 7 = 1 :=
  ⟨entries_announced (fun _ => .canonical) (.refl _) (joinedTwice_allowed _ _) 1 7, by decide,
    by decide⟩

end Qoms
