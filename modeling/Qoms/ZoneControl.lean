import Qoms.ZoneCache
import Qoms.ZoneDelivery

/-!
# Who manages a zone

`ZonesController` lets a request edit a zone, or its rules, if the guards let it through and
the user's role goes with the zone's type (`assertAdminCanManageZone`). It takes the type from
`getZone`, which answers through the cache, in calls of their own before the transaction : by
then the summary can be outdated, and other edits and occupancy events can be under way.

The type never changes, so an outdated summary still has it right. Whatever the order, every
name, capacity and rule that a zone has, and every close, comes from the request that created
it or from an edit by an admin who manages zones of its type (`zones_managed`). Only a request
that names no user, as a service can send it, passes with the role of any admin (`permits_iff`).
-/

set_option autoImplicit false

namespace Qoms.ZoneService

/-! ## Guards -/

/-- The headers of a request that the guards and `CurrentUser` read. -/
structure RequestHeaders where
  serviceToken : Option String
  userId : Option String
  userRole : Option String

/-- A header that is neither missing nor empty. -/
def present (header : Option String) : Option String :=
  header.filter (· ≠ "")

/-- `ServiceAuthGuard.canActivate`; `expected` is `INTERNAL_SERVICE_TOKEN`. -/
def serviceAuthGuard (expected : Option String) (headers : RequestHeaders) : Bool :=
  match present headers.serviceToken, present expected with
  | some token, some expected => token == expected
  | _, _ => false

/-- `RolesGuard.canActivate`. -/
def rolesGuard (requiredRoles : List String) (headers : RequestHeaders) : Bool :=
  requiredRoles.isEmpty || (present headers.userRole).any requiredRoles.contains

/-- The `@Roles` of the three writes. -/
def adminRoles : List String :=
  ["dining_admin", "coworking_admin", "system_admin"]

/-- What `CurrentUser` gives to a handler, but for the address, which none reads. -/
structure CurrentUser where
  userId : String
  role : String

/-- `CurrentUser`. -/
def currentUser (headers : RequestHeaders) : Option CurrentUser := do
  let userId ← present headers.userId
  let role ← present headers.userRole
  return ⟨userId, role⟩

/-- `user?.userId ?? "system"`. -/
def actorOf (user : Option CurrentUser) : String :=
  (user.map (·.userId)).getD "system"

/-- `assertAdminCanManageZone`; the error is the message of its `ForbiddenException`. -/
def assertAdminCanManageZone (user : Option CurrentUser) (zoneType : ZoneType) :
    Except String Unit := do
  let some user := user | return
  if user.role = "system_admin" then return
  if user.role = "dining_admin" ∧ zoneType = .diningZone then return
  if user.role = "coworking_admin" ∧ zoneType = .coworkingZone then return
  throw "Admin role does not match zone type"

/-- What an admin of the role manages : all zones, the dining zones, or the coworking zones. -/
def Manages (role : String) (type : ZoneType) : Prop :=
  role = "system_admin" ∨ (role = "dining_admin" ∧ type = .diningZone) ∨
    (role = "coworking_admin" ∧ type = .coworkingZone)

/-- A request with the service's token and the role of some admin, who manages zones of the type.
Where the request names no user, an admin of any role will do. -/
structure Permits (expected : Option String) (headers : RequestHeaders) (type : ZoneType) :
    Prop where
  service : ∃ token, token ≠ "" ∧ expected = some token ∧ headers.serviceToken = some token
  admin : ∃ role, headers.userRole = some role ∧
    (role = "system_admin" ∨ role = "dining_admin" ∨ role = "coworking_admin")
  manages : (∃ userId, userId ≠ "" ∧ headers.userId = some userId) →
    ∃ role, headers.userRole = some role ∧ Manages role type

theorem present_eq_some {header : Option String} {value : String} :
    present header = some value ↔ value ≠ "" ∧ header = some value := by
  rw [present, Option.filter_eq_some_iff, and_comm]
  simp

theorem serviceAuthGuard_iff {expected : Option String} {headers : RequestHeaders} :
    serviceAuthGuard expected headers = true ↔
      ∃ token, token ≠ "" ∧ expected = some token ∧ headers.serviceToken = some token := by
  unfold serviceAuthGuard
  constructor
  · intro h
    split at h
    · rename_i token other htoken hother
      obtain rfl : token = other := by simpa using h
      obtain ⟨hne, htoken⟩ := present_eq_some.mp htoken
      exact ⟨token, hne, (present_eq_some.mp hother).2, htoken⟩
    · cases h
  · rintro ⟨token, hne, hexpected, htoken⟩
    rw [present_eq_some.mpr ⟨hne, htoken⟩, present_eq_some.mpr ⟨hne, hexpected⟩]
    simp

theorem rolesGuard_iff {headers : RequestHeaders} : rolesGuard adminRoles headers = true ↔
    ∃ role, headers.userRole = some role ∧
      (role = "system_admin" ∨ role = "dining_admin" ∨ role = "coworking_admin") := by
  simp only [rolesGuard, adminRoles, List.isEmpty_cons, Bool.false_or, Option.any_eq_true,
    present_eq_some, List.contains_iff_mem, List.mem_cons, List.not_mem_nil, or_false]
  constructor
  · rintro ⟨role, ⟨-, hrole⟩, hadmin⟩
    exact ⟨role, hrole, by tauto⟩
  · rintro ⟨role, hrole, hadmin⟩
    refine ⟨role, ⟨?_, hrole⟩, by tauto⟩
    rcases hadmin with rfl | rfl | rfl <;> decide

/-- The assertion passes without a user, and for a user who manages the type. -/
theorem assertAdminCanManageZone_iff {user : Option CurrentUser} {type : ZoneType} :
    assertAdminCanManageZone user type = .ok () ↔ ∀ u, user = some u → Manages u.role type := by
  cases user with
  | none => simp [assertAdminCanManageZone]
  | some user =>
    simp only [assertAdminCanManageZone, Manages, Option.some.injEq, forall_eq']
    split_ifs with hsystem hdining hcoworking
    · simp [hsystem]
    · simp [hdining]
    · simp [hcoworking]
    · simp [hsystem, hdining, hcoworking]

/-- The guards and the assertion let through exactly the permitted requests. -/
theorem permits_iff {expected : Option String} {headers : RequestHeaders} {type : ZoneType} :
    Permits expected headers type ↔ serviceAuthGuard expected headers = true ∧
      rolesGuard adminRoles headers = true ∧
        assertAdminCanManageZone (currentUser headers) type = .ok () := by
  rw [serviceAuthGuard_iff, rolesGuard_iff, assertAdminCanManageZone_iff]
  have huser : ∀ u, currentUser headers = some u ↔
      (u.userId ≠ "" ∧ headers.userId = some u.userId) ∧
        u.role ≠ "" ∧ headers.userRole = some u.role := by
    rintro ⟨userId, role⟩
    simp only [currentUser, Option.bind_eq_bind, Option.bind_eq_some_iff, present_eq_some,
      Option.pure_def, Option.some.injEq, CurrentUser.mk.injEq]
    constructor
    · rintro ⟨_, huserId, _, hrole, rfl, rfl⟩
      exact ⟨huserId, hrole⟩
    · rintro ⟨huserId, hrole⟩
      exact ⟨_, huserId, _, hrole, rfl, rfl⟩
  constructor
  · rintro ⟨hservice, hadmin, hmanages⟩
    refine ⟨hservice, hadmin, fun u hu => ?_⟩
    obtain ⟨huserId, -, hrole⟩ := (huser u).mp hu
    obtain ⟨role, hrole', hmanage⟩ := hmanages ⟨u.userId, huserId⟩
    obtain rfl : role = u.role := Option.some.inj (hrole'.symm.trans hrole)
    exact hmanage
  · rintro ⟨hservice, ⟨role, hrole, hadmin⟩, hassert⟩
    refine ⟨hservice, ⟨role, hrole, hadmin⟩, ?_⟩
    rintro ⟨userId, huserId⟩
    have hne : role ≠ "" := by rcases hadmin with rfl | rfl | rfl <;> decide
    exact ⟨role, hrole, hassert ⟨userId, role⟩ ((huser _).mpr ⟨huserId, hne, hrole⟩)⟩

/-- A service that names no user patches a coworking zone as a dining admin. -/
example : Permits (some "token") ⟨some "token", none, some "dining_admin"⟩ .coworkingZone :=
  permits_iff.mpr ⟨rfl, rfl, rfl⟩

example : assertAdminCanManageZone (some ⟨"7", "coworking_admin"⟩) .diningZone =
    .error "Admin role does not match zone type" := by
  rfl

/-! ## Requests in flight -/

/-- The tables, and the summaries in the cache. -/
structure ControlDb where
  tables : ZoneDb
  summaries : String → Option ZoneResponse

/-- The body of `PATCH zones/:id`, or of `PATCH zones/:id/rules`. -/
inductive Patch
  | zone (dto : UpdateZoneDto)
  | rules (dto : UpdateZoneRulesDto)

/-- Where a `getZone` stands. -/
inductive Fetch
  | asked
  | missed
  | found (zone : ZoneEntity)
  | filling (payload : ZoneResponse)

/-- Where a request or a delivery stands. -/
inductive Call
  | idle
  | getting (id : String) (patch : Option (Patch × RequestHeaders)) (stage : Fetch)
  | admitted (id : String) (patch : Patch) (actorId : String)
  | zone (request : Request)
  | rules (rules : ZoneRuleEntity) (actorId : String)
  | finished

/-- The steps : a request or an event arrives; `createZone` commits; `getZone` asks the cache,
reads the zone and its rules, and fills the cache; a transaction reads, and saves; or an entry
of the cache expires or is deleted. -/
inductive ControlAction
  | getZone (id : String)
  | patch (id : String) (patch : Patch) (headers : RequestHeaders)
  | create (dto : CreateZoneDto) (headers : RequestHeaders) (clock : Clock)
  | deliver (event : OccupancyEnvelope)
  | readCache
  | readZone
  | readRules
  | fill
  | begin
  | zone (a : Action)
  | saveRules (clock : Clock)
  | drop (id : String)

/-- The controller with the answer of `getZone`. -/
def settle (id : String) (patch : Option (Patch × RequestHeaders)) (payload : ZoneResponse) :
    Call :=
  match patch with
  | none => .finished
  | some (patch, headers) =>
    match assertAdminCanManageZone (currentUser headers) payload.type with
    | .error _ => .finished
    | .ok () => .admitted id patch (actorOf (currentUser headers))

/-- The read of `updateZoneRules` and its assignment. -/
def editRules (rules : List ZoneRuleEntity) (id : String) (dto : UpdateZoneRulesDto) :
    Except HttpError ZoneRuleEntity := do
  let .ok found := findRules rules id | throw .database
  let some old := found | throw (.notFound "Zone rules not found")
  return old.assign dto

/-- The save of `updateZoneRules` : the rules and their `zone_status_changed` event. -/
def saveRulesEdit (db : ZoneDb) (edited : ZoneRuleEntity) (actorId : String) (clock : Clock) :
    Except HttpError ZoneDb := do
  let .ok rules := saveRules db.rules edited | throw .database
  let payload : ZonePayload := ⟨edited.zoneId, none, none, some actorId, none, some true⟩
  return { db with
    rules := rules
    outbox := db.outbox ++ [createOutbox "zone-management-service" clock (db.uuids + 1)
      .zoneStatusChanged edited.zoneId db.uuids payload]
    uuids := db.uuids + 3 }

theorem updateZoneRules_eq (db : ZoneDb) (id : String) (dto : UpdateZoneRulesDto)
    (actorId : String) (clock : Clock) : updateZoneRules db id dto actorId clock =
      editRules db.rules id dto >>= fun edited => saveRulesEdit db edited actorId clock := by
  unfold updateZoneRules editRules saveRulesEdit
  cases findRules db.rules id with
  | error e => rfl
  | ok found =>
    cases found with
    | none => rfl
    | some old => rfl

section

variable (expected : Option String)

/-- What a step does; a step that is not the next one does nothing. The `getZone` that ends a
write is a request of its own. -/
def controlAct : ControlAction → ControlDb → Call → ControlDb × Call
  | .getZone id, db, .idle => (db, .getting id none .asked)
  | .patch id patch headers, db, .idle =>
    if serviceAuthGuard expected headers && rolesGuard adminRoles headers then
      (db, .getting id (some (patch, headers)) .asked)
    else (db, .finished)
  | .create dto headers clock, db, .idle =>
    if serviceAuthGuard expected headers && rolesGuard adminRoles headers then
      match assertAdminCanManageZone (currentUser headers) dto.type,
        createZone db.tables dto (actorOf (currentUser headers)) clock with
      | .ok (), .ok tables => ({ db with tables := tables }, .finished)
      | _, _ => (db, .finished)
    else (db, .finished)
  | .deliver event, db, .idle => (db, .zone (act (.lookup event) db.tables .idle).2)
  | .readCache, db, .getting id patch .asked =>
    match db.summaries id with
    | some payload => (db, settle id patch payload)
    | none => (db, .getting id patch .missed)
  | .readZone, db, .getting id patch .missed =>
    match getZoneEntity db.tables id with
    | .error _ => (db, .finished)
    | .ok zone => (db, .getting id patch (.found zone))
  | .readRules, db, .getting id patch (.found zone) =>
    match findRules db.tables.rules id with
    | .error _ => (db, .finished)
    | .ok rules => (db, .getting id patch (.filling (toZoneResponse zone rules)))
  | .fill, db, .getting id patch (.filling payload) =>
    ({ db with summaries := Function.update db.summaries id (some payload) },
      settle id patch payload)
  | .begin, db, .admitted id (.zone dto) actorId =>
    (db, .zone (act (.edit id dto actorId) db.tables .idle).2)
  | .begin, db, .admitted id (.rules dto) actorId =>
    match editRules db.tables.rules id dto with
    | .error _ => (db, .finished)
    | .ok edited => (db, .rules edited actorId)
  | .zone a, db, .zone request =>
    ({ db with tables := (act a db.tables request).1 }, .zone (act a db.tables request).2)
  | .saveRules clock, db, .rules edited actorId =>
    match saveRulesEdit db.tables edited actorId clock with
    | .error _ => (db, .finished)
    | .ok tables => ({ db with tables := tables }, .finished)
  | .drop id, db, call => ({ db with summaries := Function.update db.summaries id none }, call)
  | _, db, call => (db, call)

end

/-- Empty tables, an empty cache, and nothing in flight. -/
def controlInit : Shared ControlDb Call :=
  ⟨⟨.empty, fun _ => none⟩, fun _ => .idle⟩

/-! ## Fields -/

/-- A column of a zone, with the fields of the bodies that set it; an event leaves it alone. -/
structure ZoneField (α : Type) where
  stored : ZoneRow → α
  created : CreateZoneDto → α
  updated : UpdateZoneDto → Option α
  of_create : ∀ dto id now, stored (dto.zone id now).row = created dto
  of_assign : ∀ row dto, stored (row.assign dto) = (updated dto).getD (stored row)
  of_occupancy : ∀ row rules occupancy, stored (row.applyOccupancy rules occupancy) = stored row

def ZoneField.name : ZoneField String :=
  ⟨(·.name), (·.name), (·.name), fun _ _ _ => rfl, fun _ _ => rfl, fun _ _ _ => rfl⟩

def ZoneField.capacity : ZoneField ℤ :=
  ⟨(·.capacity), (·.capacity), (·.capacity), fun _ _ _ => rfl, fun _ _ => rfl, fun _ _ _ => rfl⟩

/-- A column of a zone's rules, with the fields of the bodies that set it. -/
structure RuleField (α : Type) where
  stored : ZoneRuleEntity → α
  created : ZoneRulesDto → α
  updated : UpdateZoneRulesDto → Option α
  of_create : ∀ dto zoneId, stored (dto.entity zoneId) = created dto
  of_assign : ∀ rules dto, stored (rules.assign dto) = (updated dto).getD (stored rules)

namespace RuleField

def queueEnabled : RuleField Bool :=
  ⟨(·.queueEnabled), (·.queueEnabled), (·.queueEnabled), fun _ _ => rfl, fun _ _ => rfl⟩

def reservationEnabled : RuleField Bool :=
  ⟨(·.reservationEnabled), (·.reservationEnabled), (·.reservationEnabled), fun _ _ => rfl,
    fun _ _ => rfl⟩

def overloadThresholdPct : RuleField ℤ :=
  ⟨(·.overloadThresholdPct), (·.overloadThresholdPct), (·.overloadThresholdPct), fun _ _ => rfl,
    fun _ _ => rfl⟩

def estimatedServiceMinutesPerPerson : RuleField ℤ :=
  ⟨(·.estimatedServiceMinutesPerPerson), (·.estimatedServiceMinutesPerPerson),
    (·.estimatedServiceMinutesPerPerson), fun _ _ => rfl, fun _ _ => rfl⟩

def reservationSlotMinutes : RuleField ℤ :=
  ⟨(·.reservationSlotMinutes), (·.reservationSlotMinutes), (·.reservationSlotMinutes),
    fun _ _ => rfl, fun _ _ => rfl⟩

def reservationWindowDays : RuleField ℤ :=
  ⟨(·.reservationWindowDays), (·.reservationWindowDays), (·.reservationWindowDays),
    fun _ _ => rfl, fun _ _ => rfl⟩

def maxQueueSize : RuleField ℤ :=
  ⟨(·.maxQueueSize), (·.maxQueueSize), (·.maxQueueSize), fun _ _ => rfl, fun _ _ => rfl⟩

end RuleField

/-! ## Where values come from -/

section

variable (expected : Option String) (all : List (ℕ × ControlAction))

/-- A request of the run created the zone, and was permitted to. -/
def CreatedBy (zoneId : Uuid) (dto : CreateZoneDto) : Prop :=
  ∃ pre p headers clock db', pre ++ [(p, .create dto headers clock)] <+: all ∧
    Permits expected headers dto.type ∧
      let db := (run (Shared.step (controlAct expected)) controlInit pre).db.tables
      db.nextZone = zoneId ∧
        createZone db dto (actorOf (currentUser headers)) clock = .ok db'

/-- A request of the run to patch the zone is permitted for its type. -/
def PatchedBy (zoneId : Uuid) (type : ZoneType) (patch : Patch) : Prop :=
  ∃ p id headers, (p, .patch id patch headers) ∈ all ∧ uuidIn id = some zoneId ∧
    Permits expected headers type

/-- The values of a zone come from the request that created it, or from permitted ones. -/
def Legit (zoneId : Uuid) (type : ZoneType) (row : ZoneRow) : Prop :=
  ∃ dto, CreatedBy expected all zoneId dto ∧ dto.type = type ∧
    (∀ (α : Type) (f : ZoneField α), f.stored row = f.created dto ∨
      ∃ dto', PatchedBy expected all zoneId type (.zone dto') ∧
        f.updated dto' = some (f.stored row)) ∧
    (row.status = .closed → dto.status = some .closed ∨
      ∃ dto', PatchedBy expected all zoneId type (.zone dto') ∧ dto'.status = some .closed)

/-- Likewise the values of its rules. -/
def LegitRules (type : ZoneType) (rules : ZoneRuleEntity) : Prop :=
  ∃ dto, CreatedBy expected all rules.zoneId dto ∧ dto.type = type ∧
    ∀ (α : Type) (f : RuleField α), f.stored rules = f.created dto.rules ∨
      ∃ dto', PatchedBy expected all rules.zoneId type (.rules dto') ∧
        f.updated dto' = some (f.stored rules)

variable {expected all} {zoneId : Uuid} {type : ZoneType} {row : ZoneRow}
  {rules : ZoneRuleEntity}

theorem Legit.of_create {dto : CreateZoneDto} (id : Uuid) (now : ℤ)
    (h : CreatedBy expected all zoneId dto) :
    Legit expected all zoneId dto.type (dto.zone id now).row := by
  refine ⟨dto, h, rfl, fun α f => Or.inl (f.of_create dto id now), fun hclosed => Or.inl ?_⟩
  cases hstatus : dto.status with
  | none => simp [CreateZoneDto.zone, ZoneEntity.row, hstatus] at hclosed
  | some status =>
    obtain rfl : status = .closed := by
      simpa [CreateZoneDto.zone, ZoneEntity.row, hstatus] using hclosed
    rfl

/-- A permitted edit keeps the zone legitimate. -/
theorem Legit.assign {dto : UpdateZoneDto} (h : Legit expected all zoneId type row)
    (hpatch : PatchedBy expected all zoneId type (.zone dto)) :
    Legit expected all zoneId type (row.assign dto) := by
  obtain ⟨created, hcreated, htype, hfields, hclosed⟩ := h
  refine ⟨created, hcreated, htype, fun α f => ?_, fun hstatus => ?_⟩
  · rw [f.of_assign]
    cases hupdated : f.updated dto with
    | none => simpa using hfields α f
    | some value => exact Or.inr ⟨dto, hpatch, by simpa using hupdated⟩
  · cases hupdated : dto.status with
    | none => exact hclosed (by simpa [ZoneRow.assign, hupdated] using hstatus)
    | some status =>
      obtain rfl : status = .closed := by simpa [ZoneRow.assign, hupdated] using hstatus
      exact Or.inr ⟨dto, hpatch, hupdated⟩

/-- An event closes no zone. -/
theorem status_of_applyOccupancy {occupancy : ℤ} {found : Option ZoneRuleEntity}
    (h : (row.applyOccupancy found occupancy).status = .closed) : row.status = .closed := by
  simp only [ZoneRow.applyOccupancy, nextStatus] at h
  split_ifs at h <;> assumption

theorem Legit.applyOccupancy (found : Option ZoneRuleEntity) (occupancy : ℤ)
    (h : Legit expected all zoneId type row) :
    Legit expected all zoneId type (row.applyOccupancy found occupancy) := by
  obtain ⟨created, hcreated, htype, hfields, hclosed⟩ := h
  refine ⟨created, hcreated, htype, fun α f => ?_, fun hstatus => ?_⟩
  · rw [f.of_occupancy]
    exact hfields α f
  · exact hclosed (status_of_applyOccupancy hstatus)

theorem LegitRules.of_create {dto : CreateZoneDto} (h : CreatedBy expected all zoneId dto) :
    LegitRules expected all dto.type (dto.rules.entity zoneId) :=
  ⟨dto, h, rfl, fun _ f => Or.inl (f.of_create dto.rules zoneId)⟩

theorem LegitRules.assign {dto : UpdateZoneRulesDto} (h : LegitRules expected all type rules)
    (hpatch : PatchedBy expected all rules.zoneId type (.rules dto)) :
    LegitRules expected all type (rules.assign dto) := by
  obtain ⟨created, hcreated, htype, hfields⟩ := h
  refine ⟨created, hcreated, htype, fun α f => ?_⟩
  rw [f.of_assign]
  cases hupdated : f.updated dto with
  | none =>
    rw [Option.getD_none]
    exact hfields α f
  | some value => exact Or.inr ⟨dto, hpatch, by simpa using hupdated⟩

end

/-! ## What a step can do -/

/-- What becomes of an edit or a delivery. -/
theorem act_request_cases (a : Action) (db : ZoneDb) (r : Request) :
    (act a db r).2 = r ∨ (act a db r).2 = .finished ∨ (act a db r).2 = .committed ∨
      (∃ event, (act a db r).2 = .unprocessed event) ∨
      (∃ id dto actorId zone, a = .edit id dto actorId ∧ editZone db.zones id dto = .ok zone ∧
        (act a db r).2 = .editing zone actorId) ∨
      ∃ event zone rules, readZone db event = .ok (some (zone, rules)) ∧
        (act a db r).2 = .handling event zone rules := by
  unfold act
  split
  · split
    · simp
    · rename_i id dto actorId _ zone hedit
      exact Or.inr (Or.inr (Or.inr (Or.inr (Or.inl ⟨id, dto, actorId, zone, rfl, hedit, rfl⟩))))
  · split <;> simp
  · split
    · simp
    · exact Or.inr (Or.inr (Or.inr (Or.inl ⟨_, rfl⟩)))
  · split
    · simp
    · simp
    · rename_i event _ zone rules hread
      exact Or.inr (Or.inr (Or.inr (Or.inr (Or.inr ⟨event, zone, rules, hread, rfl⟩))))
  · split <;> simp
  · simp
  · simp
  · simp

/-- What a step of the controller can do. -/
inductive ControlMoves (expected : Option String) (db : ControlDb) :
    ControlAction → Call → ControlDb → Call → Prop
  | stay (a : ControlAction) (call : Call) : ControlMoves expected db a call db call
  | finish (a : ControlAction) (call : Call) : ControlMoves expected db a call db .finished
  | getZone (id : String) :
      ControlMoves expected db (.getZone id) .idle db (.getting id none .asked)
  | patch (id : String) (patch : Patch) {headers : RequestHeaders}
      (hservice : serviceAuthGuard expected headers = true)
      (hroles : rolesGuard adminRoles headers = true) :
      ControlMoves expected db (.patch id patch headers) .idle db
        (.getting id (some (patch, headers)) .asked)
  | create {dto : CreateZoneDto} {headers : RequestHeaders} {clock : Clock} {tables : ZoneDb}
      (hpermits : Permits expected headers dto.type)
      (hcreate : createZone db.tables dto (actorOf (currentUser headers)) clock = .ok tables) :
      ControlMoves expected db (.create dto headers clock) .idle { db with tables := tables }
        .finished
  | deliver (event : OccupancyEnvelope) :
      ControlMoves expected db (.deliver event) .idle db
        (.zone (act (.lookup event) db.tables .idle).2)
  | hit {id : String} {payload : ZoneResponse} (patch : Option (Patch × RequestHeaders))
      (h : db.summaries id = some payload) :
      ControlMoves expected db .readCache (.getting id patch .asked) db (settle id patch payload)
  | miss (id : String) (patch : Option (Patch × RequestHeaders)) :
      ControlMoves expected db .readCache (.getting id patch .asked) db (.getting id patch .missed)
  | found {id : String} {zone : ZoneEntity} (patch : Option (Patch × RequestHeaders))
      (h : getZoneEntity db.tables id = .ok zone) :
      ControlMoves expected db .readZone (.getting id patch .missed) db
        (.getting id patch (.found zone))
  | filling (id : String) (zone : ZoneEntity) (rules : Option ZoneRuleEntity)
      (patch : Option (Patch × RequestHeaders)) :
      ControlMoves expected db .readRules (.getting id patch (.found zone)) db
        (.getting id patch (.filling (toZoneResponse zone rules)))
  | fill (id : String) (payload : ZoneResponse) (patch : Option (Patch × RequestHeaders)) :
      ControlMoves expected db .fill (.getting id patch (.filling payload))
        { db with summaries := Function.update db.summaries id (some payload) }
        (settle id patch payload)
  | beginZone (id : String) (dto : UpdateZoneDto) (actorId : String) :
      ControlMoves expected db .begin (.admitted id (.zone dto) actorId) db
        (.zone (act (.edit id dto actorId) db.tables .idle).2)
  | beginRules {id : String} {dto : UpdateZoneRulesDto} {edited : ZoneRuleEntity}
      (actorId : String) (h : editRules db.tables.rules id dto = .ok edited) :
      ControlMoves expected db .begin (.admitted id (.rules dto) actorId) db
        (.rules edited actorId)
  | zone (a : Action) (request : Request) :
      ControlMoves expected db (.zone a) (.zone request)
        { db with tables := (act a db.tables request).1 } (.zone (act a db.tables request).2)
  | saveRules {clock : Clock} {edited : ZoneRuleEntity} {actorId : String} {tables : ZoneDb}
      (h : saveRulesEdit db.tables edited actorId clock = .ok tables) :
      ControlMoves expected db (.saveRules clock) (.rules edited actorId)
        { db with tables := tables } .finished
  | drop (id : String) (call : Call) :
      ControlMoves expected db (.drop id) call
        { db with summaries := Function.update db.summaries id none } call

theorem controlAct_moves (expected : Option String) (a : ControlAction) (db : ControlDb)
    (call : Call) :
    ControlMoves expected db a call (controlAct expected a db call).1
      (controlAct expected a db call).2 := by
  unfold controlAct
  split
  · exact .getZone _
  · split_ifs with hguards
    · simp only [Bool.and_eq_true] at hguards
      exact .patch _ _ hguards.1 hguards.2
    · exact .finish _ _
  · split_ifs with hguards
    · simp only [Bool.and_eq_true] at hguards
      split
      · rename_i hmanages hcreate
        exact .create (permits_iff.mpr ⟨hguards.1, hguards.2, hmanages⟩) hcreate
      · exact .finish _ _
    · exact .finish _ _
  · exact .deliver _
  · split
    · rename_i hcached
      exact .hit _ hcached
    · exact .miss _ _
  · split
    · exact .finish _ _
    · rename_i hfound
      exact .found _ hfound
  · split
    · exact .finish _ _
    · exact .filling _ _ _ _
  · exact .fill _ _ _
  · exact .beginZone _ _ _
  · split
    · exact .finish _ _
    · rename_i hedit
      exact .beginRules _ hedit
  · exact .zone _ _
  · split
    · exact .finish _ _
    · rename_i hsave
      exact .saveRules hsave
  · exact .drop _ _
  · exact .stay _ _

/-! ## The tables -/

/-- The zones of `db` are still there, with their types. -/
def KeepsTypes (db db' : ZoneDb) : Prop :=
  ∀ zone ∈ db.zones, ∃ zone' ∈ db'.zones, zone'.id = zone.id ∧ zone'.type = zone.type

theorem KeepsTypes.refl (db : ZoneDb) : KeepsTypes db db := fun zone hzone =>
  ⟨zone, hzone, rfl, rfl⟩

theorem KeepsTypes.trans {db db' db'' : ZoneDb} (h : KeepsTypes db db')
    (h' : KeepsTypes db' db'') : KeepsTypes db db'' := by
  intro zone hzone
  obtain ⟨zone', hzone', hid, htype⟩ := h zone hzone
  obtain ⟨zone'', hzone'', hid', htype'⟩ := h' zone' hzone'
  exact ⟨zone'', hzone'', hid'.trans hid, htype'.trans htype⟩

/-- The text spells the id of a zone of the type. -/
def Known (db : ZoneDb) (id : String) (type : ZoneType) : Prop :=
  ∃ zone ∈ db.zones, uuidIn id = some zone.id ∧ zone.type = type

theorem Known.keeps {db db' : ZoneDb} {id : String} {type : ZoneType} (h : Known db id type)
    (hkeeps : KeepsTypes db db') : Known db' id type := by
  obtain ⟨zone, hzone, hid, htype⟩ := h
  obtain ⟨zone', hzone', hid', htype'⟩ := hkeeps zone hzone
  exact ⟨zone', hzone', by rw [hid, hid'], htype'.trans htype⟩

section

variable (expected : Option String) (all : List (ℕ × ControlAction))

/-- A zone that was read, as edited since. -/
def HeldZone (db : ZoneDb) (zone : ZoneEntity) : Prop :=
  ∃ stored ∈ db.zones, stored.id = zone.id ∧ stored.type = zone.type ∧
    Legit expected all zone.id zone.type zone.row

/-- Rules of a zone that were read, as edited since, or stored. -/
def HeldRules (db : ZoneDb) (rules : ZoneRuleEntity) : Prop :=
  ∃ zone ∈ db.zones, zone.id = rules.zoneId ∧ LegitRules expected all zone.type rules

/-- Zones have ids of their own, and all that is stored is legitimate. -/
structure TablesInv (db : ZoneDb) : Prop where
  keyed : Keyed (·.id) db.zones db.uuids
  zones : ∀ zone ∈ db.zones, Legit expected all zone.id zone.type zone.row
  rules : ∀ rules ∈ db.rules, HeldRules expected all db rules

variable {expected all} {db db' : ZoneDb} {zone : ZoneEntity} {rules : ZoneRuleEntity} {now : ℤ}

theorem HeldZone.keeps (h : HeldZone expected all db zone) (hkeeps : KeepsTypes db db') :
    HeldZone expected all db' zone := by
  obtain ⟨stored, hstored, hid, htype, hlegit⟩ := h
  obtain ⟨stored', hstored', hid', htype'⟩ := hkeeps stored hstored
  exact ⟨stored', hstored', hid'.trans hid, htype'.trans htype, hlegit⟩

theorem HeldRules.keeps (h : HeldRules expected all db rules) (hkeeps : KeepsTypes db db') :
    HeldRules expected all db' rules := by
  obtain ⟨stored, hstored, hid, hlegit⟩ := h
  obtain ⟨stored', hstored', hid', htype'⟩ := hkeeps stored hstored
  exact ⟨stored', hstored', hid'.trans hid, by rwa [htype']⟩

/-- What a save leaves in the table. -/
theorem saveZone_cases {zones zones' : List ZoneEntity}
    (hstored : ∃ stored ∈ zones, stored.id = zone.id)
    (h : saveZone zones zone now = .ok zones') :
    zones' = zones ∨ zones' = saveRow (·.id) (zone.touch now) zones := by
  obtain ⟨stored, hmem, hid⟩ := hstored
  cases hfind : zones.find? (·.id == zone.id) with
  | none => exact absurd hid (by simpa using List.find?_eq_none.mp hfind stored hmem)
  | some old =>
    simp only [saveZone, hfind] at h
    split_ifs at h
    · exact Or.inl (Except.ok.inj h).symm
    · exact Or.inr (Except.ok.inj h).symm

/-- A save of a held zone keeps the invariant, and every zone's type. -/
theorem TablesInv.saveZone (h : TablesInv expected all db) (hheld : HeldZone expected all db zone)
    (hsave : saveZone db.zones zone now = .ok db'.zones) (hrules : db'.rules = db.rules)
    (huuids : db.uuids ≤ db'.uuids) : TablesInv expected all db' ∧ KeepsTypes db db' := by
  obtain ⟨stored, hmem, hid, htype, hlegit⟩ := hheld
  have hmemSaved : ∀ row ∈ db'.zones, row ∈ db.zones ∨ row = zone.touch now := by
    intro row hrow
    rcases saveZone_cases ⟨stored, hmem, hid⟩ hsave with heq | heq
    · exact Or.inl (heq ▸ hrow)
    · rw [heq] at hrow
      exact (mem_saveRow hrow).symm.imp_right And.left
  have hkeeps : KeepsTypes db db' := by
    intro row hrow
    rcases saveZone_cases ⟨stored, hmem, hid⟩ hsave with heq | heq
    · exact ⟨row, heq ▸ hrow, rfl, rfl⟩
    · rw [heq]
      refine ⟨_, List.mem_map_of_mem hrow, ?_⟩
      split_ifs with hrowId
      · obtain rfl := h.keyed.eq_of_id_eq hmem hrow (hid.trans hrowId.symm)
        exact ⟨hid.symm, htype.symm⟩
      · exact ⟨rfl, rfl⟩
  refine ⟨⟨?_, fun row hrow => ?_, fun row hrow => ?_⟩, hkeeps⟩
  · rcases saveZone_cases ⟨stored, hmem, hid⟩ hsave with heq | heq
    · rw [heq]
      exact ⟨h.keyed.nodup, fun r hr => (h.keyed.fresh r hr).trans_le huuids⟩
    · rw [heq]
      exact h.keyed.saveRow (hid ▸ h.keyed.fresh stored hmem : zone.id < db.uuids) huuids
  · rcases hmemSaved row hrow with hrow | rfl
    · exact h.zones row hrow
    · exact hlegit
  · exact (h.rules row (hrules ▸ hrow)).keeps hkeeps

/-- A save of rules leaves the others as they are. -/
theorem mem_saveRules {stored stored' : List ZoneRuleEntity}
    (h : saveRules stored rules = .ok stored') {row : ZoneRuleEntity} (hrow : row ∈ stored') :
    row ∈ stored ∨ row = rules := by
  unfold saveRules at h
  split at h
  · split_ifs at h
    obtain rfl := Except.ok.inj h
    simpa using hrow
  · split_ifs at h
    obtain rfl := Except.ok.inj h
    exact (mem_saveRow hrow).symm.imp_right And.left

end

/-! ## The invariant -/

section

variable (expected : Option String) (all : List (ℕ × ControlAction))

/-- The tables are legitimate, and a cached summary has the type of its zone. -/
structure ControlDb.Inv (db : ControlDb) : Prop where
  tables : TablesInv expected all db.tables
  summaries : ∀ id payload, db.summaries id = some payload → Known db.tables id payload.type

/-- The run has the request, and the guards let it through. -/
def Asked (id : String) (patch : Patch) (headers : RequestHeaders) : Prop :=
  ∃ p, (p, .patch id patch headers) ∈ all ∧ serviceAuthGuard expected headers = true ∧
    rolesGuard adminRoles headers = true

/-- What a `getZone` found has the type of the zone. -/
def Fetch.Sound (db : ControlDb) (id : String) : Fetch → Prop
  | .found zone => Known db.tables id zone.type
  | .filling payload => Known db.tables id payload.type
  | _ => True

/-- What a request relies on. -/
def Call.Sound (db : ControlDb) : Call → Prop
  | .getting id patch stage => stage.Sound db id ∧
    ∀ edit headers, patch = some (edit, headers) → Asked expected all id edit headers
  | .admitted id patch _ => ∃ row ∈ db.tables.zones, uuidIn id = some row.id ∧
    PatchedBy expected all row.id row.type patch
  | .zone .idle => False
  | .zone (.editing held _) => HeldZone expected all db.tables held
  | .zone (.handling _ held _) => HeldZone expected all db.tables held
  | .rules held _ => HeldRules expected all db.tables held
  | _ => True

variable {expected all} {db db' : ControlDb} {call call' : Call} {a : ControlAction} {p : ℕ}

theorem Call.Sound.keeps (h : call.Sound expected all db)
    (hkeeps : KeepsTypes db.tables db'.tables) : call.Sound expected all db' := by
  cases call with
  | getting id patch stage =>
    refine ⟨?_, h.2⟩
    cases stage with
    | found zone => exact Known.keeps h.1 hkeeps
    | filling payload => exact Known.keeps h.1 hkeeps
    | _ => trivial
  | admitted id patch actorId =>
    obtain ⟨zone, hzone, hid, hpatch⟩ := h
    obtain ⟨zone', hzone', hid', htype'⟩ := hkeeps zone hzone
    exact ⟨zone', hzone', by rw [hid, hid'], by rwa [hid', htype']⟩
  | zone request =>
    cases request with
    | idle => exact h.elim
    | editing zone actorId => exact HeldZone.keeps h hkeeps
    | handling event zone rules => exact HeldZone.keeps h hkeeps
    | _ => trivial
  | rules rules actorId => exact HeldRules.keeps h hkeeps
  | _ => trivial

/-- The assertion admits a request with the type of its zone. -/
theorem settle_sound {id : String} {payload : ZoneResponse}
    {patch : Option (Patch × RequestHeaders)} (hknown : Known db.tables id payload.type)
    (hasked : ∀ edit headers, patch = some (edit, headers) → Asked expected all id edit headers) :
    (settle id patch payload).Sound expected all db := by
  cases patch with
  | none => trivial
  | some asked =>
    obtain ⟨edit, headers⟩ := asked
    obtain ⟨p, hmem, hservice, hroles⟩ := hasked edit headers rfl
    obtain ⟨zone, hzone, hid, htype⟩ := hknown
    cases hassert : assertAdminCanManageZone (currentUser headers) payload.type with
    | error e =>
      simp only [settle, hassert]
      trivial
    | ok u =>
      simp only [settle, hassert]
      have hpermits : Permits expected headers zone.type :=
        permits_iff.mpr ⟨hservice, hroles, by rw [htype, hassert]⟩
      exact ⟨zone, hzone, hid, p, id, headers, hmem, hid, hpermits⟩

theorem getZoneEntity_ok {tables : ZoneDb} {id : String} {zone : ZoneEntity}
    (h : getZoneEntity tables id = .ok zone) : zone ∈ tables.zones ∧ uuidIn id = some zone.id := by
  simp only [getZoneEntity, findZone] at h
  cases hid : uuidIn id with
  | none => simp [hid] at h
  | some zoneId =>
    cases hfind : tables.zones.find? (·.id == zoneId) with
    | none => simp [hid, hfind] at h
    | some found =>
      obtain rfl : found = zone := by simpa [hid, hfind] using h
      exact ⟨List.mem_of_find?_eq_some hfind, by rw [find?_id hfind]⟩

theorem editZone_eq_ok {zones : List ZoneEntity} {id : String} {dto : UpdateZoneDto}
    {edited : ZoneEntity} (h : editZone zones id dto = .ok edited) :
    ∃ zone ∈ zones, uuidIn id = some zone.id ∧ edited = zone.assign dto := by
  simp only [editZone, findZone] at h
  cases hid : uuidIn id with
  | none => simp [hid] at h
  | some zoneId =>
    cases hfind : zones.find? (·.id == zoneId) with
    | none => simp [hid, hfind] at h
    | some zone =>
      obtain rfl : zone.assign dto = edited := by simpa [hid, hfind] using h
      exact ⟨zone, List.mem_of_find?_eq_some hfind, by rw [find?_id hfind], rfl⟩

theorem editRules_eq_ok {rules : List ZoneRuleEntity} {id : String} {dto : UpdateZoneRulesDto}
    {edited : ZoneRuleEntity} (h : editRules rules id dto = .ok edited) :
    ∃ old ∈ rules, uuidIn id = some old.zoneId ∧ edited = old.assign dto := by
  simp only [editRules, findRules] at h
  cases hid : uuidIn id with
  | none => simp [hid] at h
  | some zoneId =>
    cases hfind : rulesOf rules zoneId with
    | none => simp [hid, hfind] at h
    | some old =>
      obtain rfl : old.assign dto = edited := by simpa [hid, hfind] using h
      obtain rfl : old.zoneId = zoneId := by simpa using List.find?_some hfind
      exact ⟨old, List.mem_of_find?_eq_some hfind, rfl, rfl⟩

theorem readZone_eq_ok {tables : ZoneDb} {event : OccupancyEnvelope} {zone : ZoneEntity}
    {rules : Option ZoneRuleEntity} (h : readZone tables event = .ok (some (zone, rules))) :
    zone ∈ tables.zones := by
  simp only [readZone, findZone] at h
  cases hid : uuidIn (zoneIdOf event) with
  | none => simp [hid, bind, Except.bind] at h
  | some zoneId =>
    cases hfind : tables.zones.find? (·.id == zoneId) with
    | none => simp [hid, hfind] at h
    | some found =>
      obtain ⟨rfl, -⟩ : found = zone ∧ rulesOf tables.rules found.id = rules := by
        simpa [hid, hfind] using h
      exact List.mem_of_find?_eq_some hfind

/-- A zone that is created. -/
theorem TablesInv.createZone {tables tables' : ZoneDb} {dto : CreateZoneDto} {actorId : String}
    {clock : Clock} (h : TablesInv expected all tables)
    (hcreated : CreatedBy expected all tables.nextZone dto)
    (hcreate : ZoneService.createZone tables dto actorId clock = .ok tables') :
    TablesInv expected all tables' ∧ KeepsTypes tables tables' := by
  obtain ⟨zones, rules, hzones, hrules, rfl⟩ := createZone_eq_ok hcreate
  have hnew : tables.zones.find? (·.id == (dto.zone tables.nextZone clock.dbNow).id) = none := by
    rw [List.find?_eq_none]
    intro zone hzone
    have hlt : zone.id < tables.uuids := h.keyed.fresh zone hzone
    simpa [ZoneDb.nextZone] using (hlt.trans (Nat.lt_succ_self _)).ne
  obtain rfl := saveZone_of_new hnew hzones
  have hkeeps : ∀ zone ∈ tables.zones, zone ∈ tables.zones ++
      [{ dto.zone tables.nextZone clock.dbNow with
        createdAt := clock.dbNow, updatedAt := clock.dbNow }] :=
    fun _ hzone => List.mem_append_left _ hzone
  refine ⟨⟨?_, fun zone hzone => ?_, fun rule hrule => ?_⟩, fun zone hzone =>
    ⟨zone, hkeeps zone hzone, rfl, rfl⟩⟩
  · have hlt : tables.uuids + 1 < tables.uuids + 4 := by omega
    exact h.keyed.insert (Nat.le_succ _) hlt
  · rcases List.mem_append.mp hzone with hzone | hzone
    · exact h.zones zone hzone
    · obtain rfl := List.mem_singleton.mp hzone
      exact Legit.of_create tables.nextZone clock.dbNow hcreated
  · rcases mem_saveRules hrules hrule with hrule | rfl
    · exact (h.rules rule hrule).keeps fun zone hzone => ⟨zone, hkeeps zone hzone, rfl, rfl⟩
    · exact ⟨_, List.mem_append_right _ (List.mem_singleton_self _), rfl,
        LegitRules.of_create hcreated⟩

/-- Rules that are saved. -/
theorem TablesInv.saveRulesEdit {tables tables' : ZoneDb} {edited : ZoneRuleEntity}
    {actorId : String} {clock : Clock} (h : TablesInv expected all tables)
    (hheld : HeldRules expected all tables edited)
    (hsave : ZoneService.saveRulesEdit tables edited actorId clock = .ok tables') :
    TablesInv expected all tables' ∧ KeepsTypes tables tables' := by
  unfold ZoneService.saveRulesEdit at hsave
  cases hrules : saveRules tables.rules edited with
  | error e => simp [hrules] at hsave
  | ok rules =>
    simp only [hrules, pure_eq_ok] at hsave
    subst hsave
    have hle : tables.uuids ≤ tables.uuids + 3 := Nat.le_add_right _ 3
    refine ⟨⟨⟨h.keyed.nodup, fun r hr => (h.keyed.fresh r hr).trans_le hle⟩, h.zones,
      fun rule hrule => ?_⟩, KeepsTypes.refl tables⟩
    rcases mem_saveRules hrules hrule with hrule | rfl
    · exact h.rules rule hrule
    · exact hheld

/-- The tables after a step of an edit or a delivery. -/
theorem TablesInv.act {request : Request} (b : Action)
    (h : TablesInv expected all db.tables)
    (hsound : (Call.zone request).Sound expected all db) :
    TablesInv expected all (ZoneService.act b db.tables request).1 ∧
      KeepsTypes db.tables (ZoneService.act b db.tables request).1 := by
  rcases act_db_cases b db.tables request with heq | ⟨zone, actorId, clock, rfl, hsave⟩ |
    ⟨event, zone, rules, clock, rfl, hsave⟩
  · rw [heq]
    exact ⟨h, KeepsTypes.refl db.tables⟩
  · obtain ⟨hzones, hrules, -⟩ := saveEdit_ok hsave
    have huuids := saveEdit_uuids hsave
    exact h.saveZone hsound hzones hrules (by omega)
  · obtain ⟨hzones, hrules, -⟩ := saveOccupancy_ok hsave
    have huuids := saveOccupancy_uuids hsave
    obtain ⟨stored, hstored, hid, htype, hlegit⟩ := hsound
    have hheld : HeldZone expected all db.tables (zone.applyOccupancy rules (occupancyOf event)) :=
      ⟨stored, hstored, hid, htype, hlegit.applyOccupancy rules (occupancyOf event)⟩
    exact h.saveZone hheld hzones hrules (by omega)

/-- What an edit or a delivery holds after a step. -/
theorem Call.Sound.act {request : Request} (b : Action)
    (hinv : TablesInv expected all db.tables)
    (hsound : (Call.zone request).Sound expected all db) :
    (Call.zone (ZoneService.act b db.tables request).2).Sound expected all db := by
  rcases act_request_cases b db.tables request with
    heq | heq | heq | ⟨event, heq⟩ | ⟨id, dto, actorId, zone, rfl, -, heq⟩ |
      ⟨event, zone, rules, hread, heq⟩
  · rw [heq]
    exact hsound
  · rw [heq]
    trivial
  · rw [heq]
    trivial
  · rw [heq]
    trivial
  · -- No edit begins here : it would have found the request idle.
    cases request with
    | idle => exact hsound.elim
    | _ => exact hsound
  · rw [heq]
    have hmem := readZone_eq_ok hread
    exact ⟨zone, hmem, rfl, rfl, hinv.zones zone hmem⟩

/-- A step of the run keeps the invariant and the types, and leaves its request sound. -/
theorem ControlMoves.guarantees (h : ControlMoves expected db a call db' call')
    (hmem : (p, a) ∈ all)
    (hcreated : ∀ dto headers clock tables, a = .create dto headers clock →
      Permits expected headers dto.type →
        createZone db.tables dto (actorOf (currentUser headers)) clock = .ok tables →
          CreatedBy expected all db.tables.nextZone dto)
    (hinv : db.Inv expected all) (hsound : call.Sound expected all db) :
    Shared.Guarantees (ControlDb.Inv expected all) (fun db call => call.Sound expected all db)
      (fun db db' => KeepsTypes db.tables db'.tables) db (db', call') := by
  have hsame := KeepsTypes.refl db.tables
  cases h with
  | stay => exact ⟨hinv, hsame, hsound⟩
  | finish => exact ⟨hinv, hsame, trivial⟩
  | getZone id =>
    refine ⟨hinv, hsame, trivial, fun edit headers heq => ?_⟩
    cases heq
  | patch id patch hservice hroles =>
    refine ⟨hinv, hsame, trivial, fun edit headers heq => ?_⟩
    obtain ⟨rfl, rfl⟩ := Prod.mk.inj (Option.some.inj heq)
    exact ⟨p, hmem, hservice, hroles⟩
  | create hpermits hcreate =>
    obtain ⟨htables, hkeeps⟩ :=
      hinv.tables.createZone (hcreated _ _ _ _ rfl hpermits hcreate) hcreate
    exact ⟨⟨htables, fun id payload hcached => (hinv.summaries id payload hcached).keeps hkeeps⟩,
      hkeeps, trivial⟩
  | deliver event =>
    refine ⟨hinv, hsame, ?_⟩
    simp only [act]
    split <;> trivial
  | @hit id payload patch hcached =>
    exact ⟨hinv, hsame, settle_sound (hinv.summaries id payload hcached) hsound.2⟩
  | miss id patch => exact ⟨hinv, hsame, trivial, hsound.2⟩
  | found patch hfound =>
    obtain ⟨hzone, hid⟩ := getZoneEntity_ok hfound
    exact ⟨hinv, hsame, ⟨_, hzone, hid, rfl⟩, hsound.2⟩
  | filling id zone rules patch => exact ⟨hinv, hsame, hsound.1, hsound.2⟩
  | fill id payload patch =>
    refine ⟨⟨hinv.tables, fun other cached hcached => ?_⟩, hsame,
      settle_sound hsound.1 hsound.2⟩
    rcases eq_or_ne other id with rfl | hne
    · obtain rfl : payload = cached := by simpa using hcached
      exact hsound.1
    · exact hinv.summaries other cached (by simpa [hne] using hcached)
  | beginZone id dto actorId =>
    refine ⟨hinv, hsame, ?_⟩
    obtain ⟨row, hrow, hid, hpatch⟩ := hsound
    simp only [act]
    split
    · trivial
    · rename_i zone hedit
      obtain ⟨old, hold, hid', rfl⟩ := editZone_eq_ok hedit
      obtain rfl := hinv.tables.keyed.eq_of_id_eq hrow hold (Option.some.inj (hid.symm.trans hid'))
      exact ⟨row, hrow, rfl, rfl, (hinv.tables.zones row hrow).assign hpatch⟩
  | beginRules actorId hedit =>
    obtain ⟨row, hrow, hid, hpatch⟩ := hsound
    obtain ⟨old, hold, hid', rfl⟩ := editRules_eq_ok hedit
    obtain ⟨zone, hzone, hzoneId, hlegit⟩ := hinv.tables.rules old hold
    have hsameId : row.id = old.zoneId := Option.some.inj (hid.symm.trans hid')
    obtain rfl := hinv.tables.keyed.eq_of_id_eq hrow hzone (hsameId.trans hzoneId.symm)
    exact ⟨hinv, hsame, row, hrow, hzoneId, hlegit.assign (hsameId ▸ hpatch)⟩
  | zone b request =>
    obtain ⟨htables, hkeeps⟩ := hinv.tables.act b hsound
    refine ⟨⟨htables, fun id payload hcached => (hinv.summaries id payload hcached).keeps hkeeps⟩,
      hkeeps, ?_⟩
    exact Call.Sound.keeps (Call.Sound.act b hinv.tables hsound) hkeeps
  | saveRules hsave =>
    obtain ⟨htables, hkeeps⟩ := hinv.tables.saveRulesEdit hsound hsave
    exact ⟨⟨htables, fun id payload hcached => (hinv.summaries id payload hcached).keeps hkeeps⟩,
      hkeeps, trivial⟩
  | drop id call =>
    refine ⟨⟨hinv.tables, fun other cached hcached => ?_⟩, hsame, ?_⟩
    · rcases eq_or_ne other id with rfl | hne
      · simp at hcached
      · exact hinv.summaries other cached (by simpa [hne] using hcached)
    · exact Call.Sound.keeps hsound hsame

end

/-! ## Runs -/

section

variable (expected : Option String)

/-- The next step of the run, where all before it is legitimate. -/
theorem control_guarantees {all pre : List (ℕ × ControlAction)} {pa : ℕ × ControlAction}
    (hpre : pre ++ [pa] <+: all)
    (hsafe : (run (Shared.step (controlAct expected)) controlInit pre).Safe
      (ControlDb.Inv expected all) fun db call => call.Sound expected all db) :
    let s := run (Shared.step (controlAct expected)) controlInit pre
    Shared.Guarantees (ControlDb.Inv expected all) (fun db call => call.Sound expected all db)
      (fun db db' => KeepsTypes db.tables db'.tables) s.db
        (controlAct expected pa.2 s.db (s.requests pa.1)) := by
  intro s
  have hmem : pa ∈ all := hpre.subset (by simp)
  obtain ⟨p, a⟩ := pa
  refine (controlAct_moves expected a _ _).guarantees hmem ?_ hsafe.store (hsafe.sound p)
  rintro dto headers clock tables rfl hpermits hcreate
  exact ⟨pre, p, headers, clock, tables, hpre, hpermits, rfl, hcreate⟩

theorem safe_control {all as : List (ℕ × ControlAction)} (has : as <+: all) :
    (run (Shared.step (controlAct expected)) controlInit as).Safe (ControlDb.Inv expected all)
      fun db call => call.Sound expected all db := by
  refine run_invariant_of_prefixes ⟨⟨⟨Keyed.nil, ?_, ?_⟩, ?_⟩, fun _ => trivial⟩ ?_
  · exact fun _ h => absurd h (List.not_mem_nil)
  · exact fun _ h => absurd h (List.not_mem_nil)
  · intro id payload h
    cases h
  · exact fun pre pa hpre hsafe =>
      hsafe.step (control_guarantees expected (hpre.trans has) hsafe)
        fun _ _ _ hkeeps hsound => hsound.keeps hkeeps

/-- No zone goes away or changes its type. -/
theorem keepsTypes_run (as bs : List (ℕ × ControlAction)) :
    KeepsTypes (run (Shared.step (controlAct expected)) controlInit as).db.tables
      (run (Shared.step (controlAct expected)) controlInit (as ++ bs)).db.tables := by
  induction bs using List.reverseRecOn with
  | nil =>
    rw [List.append_nil]
    exact KeepsTypes.refl _
  | append_singleton bs pa ih =>
    refine ih.trans ?_
    have hsafe := safe_control expected (List.prefix_append (as ++ bs) [pa])
    have hstep := (control_guarantees expected List.prefix_rfl hsafe).rely
    rwa [← List.append_assoc, run_append _ _ (as ++ bs), run_cons, run_nil]

/-- At every moment of every run, with cached summaries outdated and other requests and
deliveries under way : the name and the capacity of a zone, that it is closed, and each of its
rules come from the request that created it, or from one to patch it, that had the service's
token and the role of an admin, one who manages zones of its type if the request named a user. And
no zone goes away or changes its type. -/
theorem zones_managed (as bs : List (ℕ × ControlAction)) :
    let db := (run (Shared.step (controlAct expected)) controlInit as).db.tables
    KeepsTypes db (run (Shared.step (controlAct expected)) controlInit (as ++ bs)).db.tables ∧
      ∀ zone ∈ db.zones, Legit expected as zone.id zone.type zone.row ∧
        ∀ rules ∈ db.rules, rules.zoneId = zone.id → LegitRules expected as zone.type rules := by
  intro db
  refine ⟨keepsTypes_run expected as bs, fun zone hzone => ?_⟩
  have hinv := (safe_control expected (List.prefix_refl as)).store.tables
  refine ⟨hinv.zones zone hzone, fun rules hrules hid => ?_⟩
  obtain ⟨zone', hzone', hid', hlegit⟩ := hinv.rules rules hrules
  obtain rfl := hinv.keyed.eq_of_id_eq hzone' hzone (hid'.trans hid)
  exact hlegit

end

end Qoms.ZoneService
