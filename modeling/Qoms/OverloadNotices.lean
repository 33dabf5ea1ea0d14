import Qoms.EventualNotices
import Qoms.ZoneControl

/-!
# What admins are told of overloads

The zone service, with all its requests and deliveries in any order (`controlAct`), in the system
of its outbox, the topic and the notification service. An overload goes to every admin that
`/users` lists at the time of the delivery. So an admin whom each list has once is told of every
overload once, but for those whose record is awaited still (`overloads_announced`); and whatever
happened, the publisher and the consumer can still tell of those that were not given up
(`overloads_announced_eventually`).
-/

set_option autoImplicit false

namespace Qoms

open NotificationService (NotificationPayload NotificationEntity RemoteUser Draft adminsOf
  buildNotifications)

namespace ZoneService

/-! ## Transactions -/

/-- A record of the zone. -/
structure Noted (zoneId : Uuid) (e : EventEnvelope Uuid ZonePayload) : Prop where
  eventType : e.eventType = .zoneStatusChanged ∨ e.eventType = .zoneOverloaded
  entityId : e.entityId = zoneId
  zoneId : e.payload.zoneId = zoneId

/-- A transaction writes the row, the rules and the records of one zone. -/
structure Touches (zoneId : Uuid) (db db' : ZoneDb) : Prop where
  zones : ∀ zone ∈ db'.zones, zone ∈ db.zones ∨ zone.id = zoneId
  rules : ∀ rules ∈ db'.rules, rules ∈ db.rules ∨ rules.zoneId = zoneId
  records : ∃ new, db'.outbox = db.outbox ++ new ∧ Drawn db.uuids db'.uuids new ∧
    ∀ row ∈ new, Noted zoneId row.payload

section

variable {db db' : ZoneDb} {zone : ZoneEntity} {actorId : String} {clock : Clock}

theorem mem_saveZone {zones zones' : List ZoneEntity} {now : ℤ}
    (h : saveZone zones zone now = .ok zones') {row : ZoneEntity} (hrow : row ∈ zones') :
    row ∈ zones ∨ row.id = zone.id := by
  unfold saveZone at h
  split at h
  · split_ifs at h
    obtain rfl := Except.ok.inj h
    rcases List.mem_append.mp hrow with hrow | hrow
    · exact Or.inl hrow
    · exact Or.inr (by rw [List.mem_singleton.mp hrow])
  · split_ifs at h
    · exact Or.inl (Except.ok.inj h ▸ hrow)
    · obtain rfl := Except.ok.inj h
      exact (mem_saveRow hrow).symm.imp_right fun heq => by rw [heq.1]; rfl

theorem touches_createZone {dto : CreateZoneDto}
    (h : createZone db dto actorId clock = .ok db') : Touches db.nextZone db db' := by
  obtain ⟨zones, rules, hzones, hrules, rfl⟩ := createZone_eq_ok h
  refine ⟨fun row hrow => mem_saveZone hzones hrow, fun row hrow => ?_, _, rfl, ?_, ?_⟩
  · exact (mem_saveRules hrules hrow).imp_right fun heq => by rw [heq]; rfl
  · refine ⟨Nat.le_add_right _ 4, ?_, ?_, ?_, ?_⟩ <;> simp [createOutbox, createEventEnvelope]
  · simp only [List.forall_mem_singleton]
    exact ⟨Or.inl rfl, rfl, rfl⟩

theorem touches_saveEdit (h : saveEdit db zone actorId clock = .ok db') :
    Touches zone.id db db' := by
  obtain ⟨zones, hzones, rfl⟩ := saveEdit_eq_ok h
  refine ⟨fun row hrow => mem_saveZone hzones hrow, fun row hrow => Or.inl hrow, _, rfl, ?_, ?_⟩
  · refine ⟨Nat.le_add_right _ 3, ?_, ?_, ?_, ?_⟩ <;> simp [createOutbox, createEventEnvelope]
  · simp only [List.forall_mem_singleton]
    exact ⟨Or.inl rfl, rfl, rfl⟩

theorem touches_saveRulesEdit {edited : ZoneRuleEntity}
    (h : saveRulesEdit db edited actorId clock = .ok db') : Touches edited.zoneId db db' := by
  unfold saveRulesEdit at h
  cases hrules : saveRules db.rules edited with
  | error e => simp [hrules] at h
  | ok rules =>
    simp only [hrules, pure_eq_ok] at h
    subst h
    refine ⟨fun row hrow => Or.inl hrow, fun row hrow => ?_, _, rfl, ?_, ?_⟩
    · exact (mem_saveRules hrules hrow).imp_right fun heq => by rw [heq]
    · refine ⟨Nat.le_add_right _ 3, ?_, ?_, ?_, ?_⟩ <;> simp [createOutbox, createEventEnvelope]
    · simp only [List.forall_mem_singleton]
      exact ⟨Or.inl rfl, rfl, rfl⟩

theorem touches_saveOccupancy {event : OccupancyEnvelope} {rules : Option ZoneRuleEntity}
    (h : saveOccupancy db event zone rules clock = .ok db') : Touches zone.id db db' := by
  simp only [saveOccupancy, bind_eq_ok, throw_bind, throw_if_eq_ok, pure_eq_ok] at h
  obtain ⟨zones, hzones, -, rfl⟩ := h
  refine ⟨fun row hrow => mem_saveZone hzones hrow, fun row hrow => Or.inl hrow, _, rfl, ?_, ?_⟩
  · refine ⟨Nat.le_add_right _ 5, ?_, ?_, ?_, ?_⟩ <;> split_ifs <;>
      simp [createOutbox, createEventEnvelope]
  · intro row hrow
    rcases List.mem_cons.mp hrow with rfl | hrow
    · exact ⟨Or.inl rfl, rfl, rfl⟩
    · split_ifs at hrow
      · obtain rfl := List.mem_singleton.mp hrow
        exact ⟨Or.inr rfl, rfl, rfl⟩
      · exact absurd hrow List.not_mem_nil

end

/-! ## Drawn ids -/

/-- The ids of zones were drawn. -/
structure Numbered (db : ZoneDb) : Prop where
  zones : ∀ zone ∈ db.zones, zone.id < db.uuids
  rules : ∀ rules ∈ db.rules, rules.zoneId < db.uuids
  events : ∀ e ∈ db.outbox.map (·.payload), ∃ zoneId < db.uuids, Noted zoneId e

/-- So was that of a zone, or of rules, that a request holds. -/
def Call.Numbered (n : ℕ) : Call → Prop
  | .zone (.editing held _) => held.id < n
  | .zone (.handling _ held _) => held.id < n
  | .rules held _ => held.zoneId < n
  | _ => True

theorem Call.Numbered.mono {n m : ℕ} {call : Call} (h : call.Numbered n) (hle : n ≤ m) :
    call.Numbered m := by
  cases call with
  | zone request =>
    cases request with
    | editing zone actorId => exact Nat.lt_of_lt_of_le h hle
    | handling event zone rules => exact Nat.lt_of_lt_of_le h hle
    | _ => trivial
  | rules rules actorId => exact Nat.lt_of_lt_of_le h hle
  | _ => trivial

theorem numbered_empty : Numbered ZoneDb.empty := by
  constructor <;> simp [ZoneDb.empty]

theorem Numbered.touches {db db' : ZoneDb} {zoneId : Uuid} (h : Numbered db)
    (ht : Touches zoneId db db') (hzone : zoneId < db'.uuids) : Numbered db' := by
  obtain ⟨new, hnew, hdrawn, hnoted⟩ := ht.records
  refine ⟨fun zone hmem => ?_, fun rules hmem => ?_, fun e he => ?_⟩
  · rcases ht.zones zone hmem with hmem | rfl
    · exact (h.zones zone hmem).trans_le hdrawn.le
    · exact hzone
  · rcases ht.rules rules hmem with hmem | rfl
    · exact (h.rules rules hmem).trans_le hdrawn.le
    · exact hzone
  · rw [hnew, List.map_append, List.mem_append] at he
    rcases he with he | he
    · obtain ⟨id, hid, hnotedId⟩ := h.events e he
      exact ⟨id, hid.trans_le hdrawn.le, hnotedId⟩
    · obtain ⟨row, hrow, rfl⟩ := List.mem_map.mp he
      exact ⟨zoneId, hzone, hnoted row hrow⟩

section

variable {expected : Option String} {db db' : ControlDb} {a : ControlAction} {call call' : Call}

/-- A step writes one zone at most; its id is that of what the request holds, or new. -/
theorem ControlMoves.touches (h : ControlMoves expected db a call db' call') :
    db'.tables = db.tables ∨ ∃ zoneId, Touches zoneId db.tables db'.tables ∧
      (call.Numbered db.tables.uuids → zoneId < db'.tables.uuids) := by
  cases h with
  | create hpermits hcreate =>
    have ht := touches_createZone hcreate
    obtain ⟨zones, rules, -, -, rfl⟩ := createZone_eq_ok hcreate
    exact Or.inr ⟨_, ht, fun _ => by simp [ZoneDb.nextZone]⟩
  | zone a request =>
    rcases act_db_cases a db.tables request with
      hsame | ⟨zone, actorId, clock, rfl, hsave⟩ | ⟨event, zone, rules, clock, rfl, hsave⟩
    · exact Or.inl hsame
    · have ht := touches_saveEdit hsave
      obtain ⟨new, -, hdrawn, -⟩ := ht.records
      exact Or.inr ⟨_, ht, fun hid => Nat.lt_of_lt_of_le hid hdrawn.le⟩
    · have ht := touches_saveOccupancy hsave
      obtain ⟨new, -, hdrawn, -⟩ := ht.records
      exact Or.inr ⟨_, ht, fun hid => Nat.lt_of_lt_of_le hid hdrawn.le⟩
  | saveRules hsave =>
    have ht := touches_saveRulesEdit hsave
    obtain ⟨new, -, hdrawn, -⟩ := ht.records
    exact Or.inr ⟨_, ht, fun hid => Nat.lt_of_lt_of_le hid hdrawn.le⟩
  | _ => exact Or.inl rfl

theorem numbered_settle (n : ℕ) (id : String) (patch : Option (Patch × RequestHeaders))
    (payload : ZoneResponse) : (settle id patch payload).Numbered n := by
  unfold settle
  split
  · trivial
  · split <;> trivial

/-- An edit or a delivery holds a zone of the table. -/
theorem numbered_act {tables : ZoneDb} (h : Numbered tables) (a : Action) {request : Request}
    (hrequest : (Call.zone request).Numbered tables.uuids) :
    (Call.zone (act a tables request).2).Numbered tables.uuids := by
  rcases act_request_cases a tables request with heq | heq | heq | ⟨event, heq⟩ |
    ⟨id, dto, actorId, zone, -, hedit, heq⟩ | ⟨event, zone, rules, hread, heq⟩
  · rwa [heq]
  · rw [heq]
    trivial
  · rw [heq]
    trivial
  · rw [heq]
    trivial
  · rw [heq]
    obtain ⟨stored, hstored, -, rfl⟩ := editZone_eq_ok hedit
    exact h.zones stored hstored
  · rw [heq]
    exact h.zones zone (readZone_eq_ok hread)

theorem ControlMoves.numbered (h : ControlMoves expected db a call db' call')
    (hdb : Numbered db.tables) (hcall : call.Numbered db.tables.uuids) :
    Shared.Guarantees (fun db : ControlDb => Numbered db.tables)
      (fun db call => call.Numbered db.tables.uuids)
      (fun db db' => db.tables.uuids ≤ db'.tables.uuids) db (db', call') := by
  have htables : Numbered db'.tables ∧ db.tables.uuids ≤ db'.tables.uuids := by
    rcases h.touches with hsame | ⟨zoneId, ht, hid⟩
    · rw [hsame]
      exact ⟨hdb, le_rfl⟩
    · obtain ⟨new, -, hdrawn, -⟩ := ht.records
      exact ⟨hdb.touches ht (hid hcall), hdrawn.le⟩
  refine ⟨htables.1, htables.2, ?_⟩
  cases h with
  | stay => exact hcall
  | deliver event => exact numbered_act hdb _ trivial
  | hit | fill => exact numbered_settle _ _ _ _
  | beginZone => exact numbered_act hdb _ trivial
  | beginRules actorId hedit =>
    obtain ⟨old, hold, -, rfl⟩ := editRules_eq_ok hedit
    exact hdb.rules old hold
  | zone a request => exact (numbered_act hdb a hcall).mono htables.2
  | drop => exact hcall
  | _ => trivial

theorem ControlMoves.appends (h : ControlMoves expected db a call db' call') :
    ∃ new, db'.tables.outbox = db.tables.outbox ++ new ∧
      Drawn db.tables.uuids db'.tables.uuids new := by
  rcases h.touches with hsame | ⟨zoneId, ht, -⟩
  · rw [hsame]
    exact ⟨[], by simp, le_rfl, by simp, by simp, by simp, by simp⟩
  · obtain ⟨new, hnew, hdrawn, -⟩ := ht.records
    exact ⟨new, hnew, hdrawn⟩

end

/-- The zone service as one with an outbox. -/
def outboxService (expected : Option String) :
    OutboxService ControlDb ControlAction Call Uuid ZonePayload where
  act := controlAct expected
  outbox db := db.tables.outbox
  setOutbox rows db := { db with tables := { db.tables with outbox := rows } }
  uuids db := db.tables.uuids
  Allowed _ := True
  Inv db := Numbered db.tables
  Sound db call := call.Numbered db.tables.uuids
  Rely db db' := db.tables.uuids ≤ db'.tables.uuids
  outbox_setOutbox _ _ := rfl
  uuids_setOutbox _ _ := rfl
  guarantees {a db call} _ hdb hcall := (controlAct_moves expected a db call).numbered hdb hcall
  grows hle hcall := hcall.mono hle
  inv_setOutbox hrows hdb := ⟨hdb.zones, hdb.rules, by rw [hrows]; exact hdb.events⟩
  rely_setOutbox _ := le_rfl
  rely_refl _ := le_rfl
  appends a db call := (controlAct_moves expected a db call).appends

theorem starts_outboxService (expected : Option String) :
    (outboxService expected).Starts ⟨.empty, fun _ => none⟩ .idle :=
  ⟨numbered_empty, rfl, trivial⟩

/-! ## The admin's notifications -/

/-- What is sent of a payload. -/
def ZonePayload.json (payload : ZonePayload) : NotificationPayload :=
  ⟨none, some (uuidText payload.zoneId), none, none, payload.currentOccupancy⟩

/-- The list has the user as an admin, once. -/
def ListsOnce (admin : Uuid) (data : List RemoteUser) : Prop :=
  (adminsOf data).countP (fun user => uuidIn user.id == some admin) = 1

instance (admin : Uuid) (data : List RemoteUser) : Decidable (ListsOnce admin data) :=
  inferInstanceAs (Decidable (_ = _))

/-- The events of the zone service in the topic, where the user is an admin throughout. -/
def wire (draw : ℕ ↪ Uuid) (admin : Uuid) : Wire Uuid ZonePayload where
  draw := draw
  types := [.zoneStatusChanged, .zoneOverloaded]
  event := Spelling.envelope (fun _ => .canonical) draw fun _ => ZonePayload.json
  Answers := ListsOnce admin
  eventId_eq _ := rfl

/-- An overload of the zone. -/
def isOverload (zoneId : Uuid) (e : EventEnvelope Uuid ZonePayload) : Bool :=
  e.eventType == .zoneOverloaded && e.payload.zoneId % 256 ^ 16 == zoneId

section

variable {event : NotificationService.DomainEvent} {users : Option (List RemoteUser)}
  {drafts : List Draft} {rows : List NotificationEntity}

/-- An overload gives a notification for each time the list has the admin. -/
theorem countP_overloaded (htype : event.eventType = .zoneOverloaded)
    (h : buildNotifications event users = .ok drafts)
    (hrows : List.Forall₂ Draft.IsRow drafts rows) (zoneId admin : Uuid) :
    ∃ data, users = some data ∧ rows.countP (isNotice .zoneOverloaded zoneId admin) =
      if event.payload.zoneId.bind uuidIn = some zoneId then
        (adminsOf data).countP fun user => uuidIn user.id == some admin else 0 := by
  obtain ⟨data, body, rfl, rfl⟩ := NotificationService.buildNotifications_overloaded htype h
  refine ⟨data, rfl, ?_⟩
  clear h
  rw [List.forall₂_map_left_iff] at hrows
  generalize adminsOf data = admins at hrows ⊢
  induction hrows with
  | nil => simp
  | @cons user row users rows hrow _ ih =>
    have huser : uuidIn user.id = some row.userId := hrow.userId_eq
    have hzone : event.payload.zoneId.bind uuidIn = row.zoneId := zoneId_of_isRow hrow
    have htitle : row.title = "Zone overloaded" := title_of_isRow hrow
    rw [List.countP_cons, List.countP_cons, ih]
    by_cases heq : row.zoneId = some zoneId
    · simp [isNotice, noticeTitle, htitle, hzone, huser, heq]
    · simp [isNotice, hzone, heq]

end

variable {expected : Option String}

/-- The admin's notifications of overloads of the zone are a kind. -/
def overloadKind (expected : Option String) (draw : ℕ ↪ Uuid) (admin zoneId : Uuid) :
    Kind (outboxService expected) (wire draw admin) where
  notice := isNotice .zoneOverloaded zoneId admin
  source := isOverload zoneId
  builds {d e users drafts rows} hd he husers hbuilt hrows := by
    by_cases htype : e.eventType = .zoneOverloaded
    · have hoverloaded : ((wire draw admin).event e).eventType = .zoneOverloaded := htype
      obtain ⟨data, rfl, hcount⟩ := countP_overloaded hoverloaded hbuilt hrows zoneId admin
      have honce : ListsOnce admin data := husers data rfl
      rw [hcount, honce]
      have hzone : ((wire draw admin).event e).payload.zoneId.bind uuidIn =
          some (e.payload.zoneId % 256 ^ 16) := uuidIn_uuidText e.payload.zoneId
      simp [hzone, isOverload, htype]
    · rw [countP_isNotice_of_ne rfl htype (title_rows hbuilt hrows)]
      simp [isOverload, htype]
  other {event users drafts rows} hforeign hbuilt hrows :=
    countP_isNotice_of_ne rfl
      (fun heq : event.eventType = .zoneOverloaded => hforeign (by simp [wire, heq]))
      (title_rows hbuilt hrows) zoneId admin

/-- The records of overloads of a zone. -/
def ControlDb.overloads (db : ControlDb) (zoneId : Uuid) : ℕ :=
  (db.tables.outbox.map (·.payload)).countP fun e =>
    e.eventType == .zoneOverloaded && e.payload.zoneId == zoneId

/-- Where fewer UUIDs were drawn than there are, zones are told apart. -/
theorem Numbered.countP_isOverload {db : ControlDb} (h : Numbered db.tables)
    (hfew : db.tables.uuids ≤ 256 ^ 16) (zoneId : Uuid) :
    (db.tables.outbox.map (·.payload)).countP (isOverload zoneId) = db.overloads zoneId := by
  refine List.countP_congr fun e he => ?_
  obtain ⟨id, hid, hnoted⟩ := h.events e he
  rw [isOverload, hnoted.zoneId, Nat.mod_eq_of_lt (hid.trans_le hfew)]

/-- The tables after a run of the system. -/
abbrev pipeline (expected : Option String) (draw : ℕ ↪ Uuid) (admin : Uuid)
    (as : List (ℕ × PipelineAction ControlAction)) : Pipeline ControlDb Uuid ZonePayload :=
  (run (Shared.step (Pipeline.act (outboxService expected) (wire draw admin)))
    (Pipeline.start ⟨.empty, fun _ => none⟩ .idle) as).db

/-- The overloads of a zone that wait for a delivery that goes through. -/
def waitingOverloads (draw : ℕ ↪ Uuid) (admin : Uuid) (s : Pipeline ControlDb Uuid ZonePayload)
    (zoneId : Uuid) : ℕ :=
  (s.service.tables.outbox.map (·.payload)).countP fun e =>
    isOverload zoneId e && s.awaited (wire draw admin) e

/-- The columns of the notification service take every event of the zone service, and the admins
of a list whose ids are UUIDs. -/
theorem faultless_overload (draw : ℕ ↪ Uuid) (admin : Uuid) {data : List RemoteUser}
    (hdata : ∀ user ∈ adminsOf data, (uuidIn user.id).isSome = true)
    {e : EventEnvelope Uuid ZonePayload} {zoneId : Uuid} (he : Noted zoneId e) :
    NotificationService.Faultless ((wire draw admin).event e) (noFaults (some data)) := by
  refine ⟨rfl, fun _ => rfl, fun _ _ => rfl, fun user huser => ?_, fun _ zone hzone => ?_, rfl,
    length_uuidText_le e.entityId, rfl⟩
  · have htype : ((wire draw admin).event e).eventType = e.eventType := rfl
    rcases he.eventType with heq | heq
    · simp [NotificationService.recipients, htype, heq] at huser
    · simp only [NotificationService.recipients, htype, heq, List.mem_map] at huser
      obtain ⟨listed, hlisted, rfl⟩ := huser
      exact ⟨listed.id, rfl, hdata listed hlisted⟩
  · obtain rfl : uuidText e.payload.zoneId = zone := Option.some.inj hzone
    rw [uuidIn_uuidText]
    rfl

end ZoneService

/-- After any run of requests, occupancy events, publishers and deliveries, an admin whom each
list of `/users` has once has one notification for each overload of a zone, but for those whose
record is awaited. -/
theorem overloads_announced (expected : Option String) (draw : ℕ ↪ Uuid) (admin : Uuid)
    {as : List (ℕ × PipelineAction ZoneService.ControlAction)}
    (has : ∀ pa ∈ as,
      pa.2.Allowed (ZoneService.outboxService expected) (ZoneService.wire draw admin))
    (hfew : (ZoneService.pipeline expected draw admin as).service.tables.uuids ≤ 256 ^ 16)
    (zoneId : Uuid) :
    let s := ZoneService.pipeline expected draw admin as
    s.notices .zoneOverloaded zoneId admin + ZoneService.waitingOverloads draw admin s zoneId =
      s.service.overloads zoneId := by
  intro s
  have hnumbered : ZoneService.Numbered s.service.tables :=
    (safe_pipeline_run (ZoneService.starts_outboxService expected) has).store.service
  rw [← hnumbered.countP_isOverload hfew]
  exact balanced_run (ZoneService.starts_outboxService expected)
    (ZoneService.overloadKind expected draw admin zoneId) has

/-- And after any run the publisher and the consumer can still do their part, where `/users`
lists the admin : no zone changes, and the admin has one notification for each overload, but for
those whose record was given up, or passed over with no delivery of it gone through. -/
theorem overloads_announced_eventually (expected : Option String) (draw : ℕ ↪ Uuid) (admin : Uuid)
    {data : List RemoteUser} (honce : ZoneService.ListsOnce admin data)
    (hdata : ∀ user ∈ adminsOf data, (uuidIn user.id).isSome = true)
    {as : List (ℕ × PipelineAction ZoneService.ControlAction)}
    (has : ∀ pa ∈ as,
      pa.2.Allowed (ZoneService.outboxService expected) (ZoneService.wire draw admin))
    (hfew : (ZoneService.pipeline expected draw admin as).service.tables.uuids ≤ 256 ^ 16) :
    ∃ bs : List (ℕ × PipelineAction ZoneService.ControlAction),
      (∀ pa ∈ bs, pa.2.Internal (ZoneService.wire draw admin)) ∧
      let s := ZoneService.pipeline expected draw admin as
      let s' := ZoneService.pipeline expected draw admin (as ++ bs)
      s'.service.tables.zones = s.service.tables.zones ∧ ∀ zoneId,
        s'.notices .zoneOverloaded zoneId admin ≤ s.service.overloads zoneId ∧
          s.service.overloads zoneId ≤ s'.notices .zoneOverloaded zoneId admin +
            s.lost (ZoneService.outboxService expected) (ZoneService.wire draw admin)
              (ZoneService.isOverload zoneId) := by
  have hstarts := ZoneService.starts_outboxService expected
  have hnumbered : ZoneService.Numbered (ZoneService.pipeline expected draw admin
      as).service.tables := (safe_pipeline_run hstarts has).store.service
  obtain ⟨bs, hbs, hserved⟩ := exists_served hstarts has
    (fun data' hdata' => Option.some.inj hdata' ▸ honce) fun hd he => by
      obtain ⟨id, -, hnoted⟩ := hd.events _ he
      exact ZoneService.faultless_overload draw admin hdata hnoted
  refine ⟨bs, hbs, ?_, fun zoneId => ?_⟩
  · rw [ZoneService.pipeline, run_append]
    exact run_internal (S := ZoneService.outboxService expected) (·.tables.zones)
      (fun _ _ => rfl) hbs
  · rw [← hnumbered.countP_isOverload hfew]
    exact (ZoneService.overloadKind expected draw admin zoneId).announced_eventually hstarts has
      hbs hserved

/-- A zone is created and overloaded; the record is delivered twice at once. -/
def ZoneService.overloadedTwice : List (ℕ × PipelineAction ZoneService.ControlAction) :=
  let headers : ZoneService.RequestHeaders := ⟨some "token", some "7", some "system_admin"⟩
  let users : List RemoteUser :=
    [⟨uuidText 7, "system_admin"⟩, ⟨uuidText 8, "student"⟩, ⟨uuidText 9, "dining_admin"⟩]
  let faults : NotificationService.Faults := noFaults none
  [(0, .request (.create ZoneService.tenSeats headers ⟨0, 0⟩)),
    (1, .request (.deliver (ZoneService.occupancyEvent (uuidText 1) 5 9))),
    (1, .request (.zone .read)), (1, .request (.zone (.save ⟨1, 1⟩))),
    (0, .flush (.poll id)), (0, .flush (.send .acknowledged)),
    (0, .flush (.markPublished .acknowledged 2)), (0, .flush (.send .acknowledged)),
    (0, .flush (.markPublished .acknowledged 2)), (0, .flush (.send .acknowledged)),
    (1, .deliver 2), (2, .deliver 2), (1, .inbox (.build (some users))),
    (2, .inbox (.build (some users))), (2, .inbox (.save faults 5)), (1, .inbox (.save faults 6))]

theorem overloadedTwice_allowed (draw : ℕ ↪ Uuid) : ∀ pa ∈ ZoneService.overloadedTwice,
    pa.2.Allowed (ZoneService.outboxService (some "token")) (ZoneService.wire draw 7) := by
  have honce : ZoneService.ListsOnce 7 [⟨uuidText 7, "system_admin"⟩, ⟨uuidText 8, "student"⟩,
      ⟨uuidText 9, "dining_admin"⟩] := by decide
  simp [ZoneService.overloadedTwice, PipelineAction.Allowed, ZoneService.outboxService,
    ZoneService.wire, honce]

/-- The admin has one notification. -/
theorem overloads_announced_twice :
    let s := ZoneService.pipeline (some "token") (.refl _) 7 ZoneService.overloadedTwice
    (s.notices .zoneOverloaded 1 7 + ZoneService.waitingOverloads (.refl _) 7 s 1 =
        s.service.overloads 1) ∧ s.notices .zoneOverloaded 1 7 = 1 :=
  ⟨overloads_announced (some "token") (.refl _) 7 (overloadedTwice_allowed _) (by decide) 1,
    by decide⟩

/-- Before it is sent, it can still be told. -/
theorem overloads_announced_eventually_sent : ∃ bs,
    (∀ pa ∈ bs, pa.2.Internal (ZoneService.wire (.refl _) 7)) ∧
    (ZoneService.pipeline (some "token") (.refl _) 7
      (ZoneService.overloadedTwice.take 4 ++ bs)).notices .zoneOverloaded 1 7 = 1 := by
  obtain ⟨bs, hbs, -, hannounced⟩ := overloads_announced_eventually (some "token") (.refl _) 7
    (show ZoneService.ListsOnce 7 [⟨uuidText 7, "system_admin"⟩] by decide) (by decide)
    (fun pa hpa => overloadedTwice_allowed (.refl _) pa (List.mem_of_mem_take (i := 4) hpa))
    (by decide)
  obtain ⟨hle, hge⟩ := hannounced 1
  have hoverloads : (ZoneService.pipeline (some "token") (.refl _) 7
      (ZoneService.overloadedTwice.take 4)).service.overloads 1 = 1 := by decide
  have hlost : (ZoneService.pipeline (some "token") (.refl _) 7
      (ZoneService.overloadedTwice.take 4)).lost (ZoneService.outboxService (some "token"))
      (ZoneService.wire (.refl _) 7) (ZoneService.isOverload 1) = 0 := by decide
  exact ⟨bs, hbs, by omega⟩

end Qoms
