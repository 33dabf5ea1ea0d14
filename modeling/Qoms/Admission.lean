import Qoms.QueueRace
import Qoms.ReservationCache
import Qoms.ZoneCache

/-!
# Admission to a closed zone

`joinQueue` and `createReservation` decide on the zone's status as `getZone` of the zone
service returns it, which may come from its cache. A `getZone` reads the cache; if there is
no entry it reads the zone, then its rules, and then puts the summary into the cache for ten
seconds. An `updateZone` reads the zone and saves it, and when its transaction is committed it
deletes the zone's keys; then it reads the zone as any other `getZone`. These are steps of their
own (`act`), and any number of requests interleave; the steps of one `getZone` with nothing
between them return what the service does (`run_getZone`).

So after a close has returned, a summary that shows the zone open can still come into the
cache, from a reader that read the row before the close; it can be there under another
spelling of the id; and an update that was under way can save over the close. If none
of this happens (`Orderly`), the row stays closed from the close's commit on, and every summary
the cache answers with shows it from the deletion on (`shut_iff_orderly`), so no request that
begins after the close is admitted (`rejected_of_orderly`).
-/

set_option autoImplicit false

namespace Qoms.Admission

open ZoneService (ZoneDb ZoneEntity ZoneResponse UpdateZoneDto closing)
open ReservationService (CreateReservationBody)

/-! ## What the other services make of a response -/

/-- `ZoneSummary` of the queue service. The rules are written through their DTOs, so they are
within their bounds and `max` changes nothing. -/
def queueSummary (zone : ZoneResponse) : QueueService.ZoneSummary where
  id := zone.id
  type := zone.type
  status := zone.status
  capacity := zone.capacity
  rules := zone.rules.map fun r =>
    ⟨r.queueEnabled, max 1 r.maxQueueSize.toNat, max 1 r.estimatedServiceMinutesPerPerson.toNat,
      le_max_left _ _, le_max_left _ _⟩

/-- `ZoneSummary` of the reservation service, likewise. -/
def reservationSummary (zone : ZoneResponse) : ReservationService.ZoneSummary where
  id := zone.id
  type := zone.type
  status := zone.status
  capacity := zone.capacity
  rules := zone.rules.map fun r =>
    ⟨r.reservationEnabled, max 15 r.reservationSlotMinutes.toNat,
      max 1 r.reservationWindowDays.toNat, le_max_left _ _, le_max_left _ _⟩

/-! ## Requests in flight -/

/-- What a `getZone` is part of. -/
inductive Caller
  | getZone
  | updateZone (dto : UpdateZoneDto)
  | joinQueue (user : RequestUserContext) (userFound : Bool)
  | createReservation (body : CreateReservationBody) (user : RequestUserContext)

/-- Where a `getZone` stands : begun, not found in the cache, with the zone read, with the
summary computed, and returned. -/
inductive Read
  | asked
  | missed
  | found (zone : ZoneEntity)
  | computed (zone : ZoneResponse)
  | returned (response : Except HttpError ZoneResponse)

/-- Where a request stands. -/
inductive Request
  | idle
  | reading (id : String) (caller : Caller) (read : Read)
  | editing (id : String) (dto : UpdateZoneDto) (zone : ZoneEntity) (actorId : String)
  | saved (id : String) (dto : UpdateZoneDto)
  | queue (r : QueueService.Request)
  | reservation (r : ReservationService.Request)
  | rejected (error : HttpError)

/-- The tables of the three services, and of the zone service's cache the summaries, by the id
in their key, each with the time it expires; the clock of Redis is in seconds. -/
structure Store where
  zones : ZoneDb
  cache : Cache String fun _ => ZoneResponse × ℤ
  now : ℤ
  queue : QueueService.QueueDb
  reservations : ReservationService.ReservationDb

/-- The tables and the requests. -/
abbrev System := Shared Store Request

/-- The summary that Redis has under an id. -/
def Store.cached (s : Store) (id : String) : Option ZoneResponse :=
  match s.cache id with
  | some (zone, expires) => if s.now ≤ expires then some zone else none
  | none => none

theorem Store.cached_eq_some {s : Store} {id : String} {zone : ZoneResponse} :
    s.cached id = some zone ↔ ∃ expires, s.cache id = some (zone, expires) ∧ s.now ≤ expires := by
  unfold Store.cached
  cases s.cache id with
  | none => simp
  | some entry =>
    obtain ⟨zone', expires⟩ := entry
    simp only [Option.some.injEq, Prod.mk.injEq]
    constructor
    · intro h
      split_ifs at h with hlive
      exact ⟨expires, ⟨Option.some.inj h, rfl⟩, hlive⟩
    · rintro ⟨_, ⟨rfl, rfl⟩, hlive⟩
      rw [if_pos hlive]

theorem Store.cached_del (s : Store) (id : String) {other : String} {zone : ZoneResponse} :
    Store.cached { s with cache := s.cache.del [id] } other = some zone ↔
      other ≠ id ∧ s.cached other = some zone := by
  simp only [Store.cached_eq_some]
  by_cases hother : other = id
  · simp [hother, Cache.del_of_mem]
  · have hmem : other ∉ [id] := by simpa using hother
    simp [hother, Cache.del_of_not_mem s.cache hmem]

theorem Store.cached_fill (s : Store) (id : String) (zone : ZoneResponse) :
    Store.cached { s with cache := s.cache.set id (zone, s.now + 10) } id = some zone := by
  rw [Store.cached_eq_some]
  exact ⟨s.now + 10, Cache.set_self _ _ _, by simp⟩

theorem Store.cached_fill_of_ne (s : Store) {id other : String} (zone : ZoneResponse)
    (h : other ≠ id) :
    Store.cached { s with cache := s.cache.set id (zone, s.now + 10) } other = s.cached other := by
  simp only [Store.cached, Cache.set_of_ne s.cache _ h]

/-- One step of a request, or seconds that pass. -/
inductive Action
  | getZone (id : String)
  | updateZone (id : String) (dto : UpdateZoneDto) (actorId : String)
  | joinQueue (zoneId : String) (user : Option RequestUserContext) (userFound : Bool)
  | createReservation (body : CreateReservationBody) (user : Option RequestUserContext)
      (userFound : Bool)
  | readCache
  | readZone
  | readRules
  | fill
  | save (clock : Clock)
  | abort
  | invalidate
  | check (now : ℤ)
  | queue (a : QueueService.Action)
  | reservation (a : ReservationService.Action)
  | pass (seconds : ℕ)

/-- `joinQueue` with the zone it fetched : its checks and the count. -/
def join (s : Store) (id : String) (user : RequestUserContext) (userFound : Bool)
    (response : Except HttpError ZoneResponse) : Store × Request :=
  match uuidIn id with
  | none => (s, .rejected .upstream)
  | some zoneId =>
    let env : QueueService.RequestEnv := ⟨response.toOption.map queueSummary, userFound⟩
    match QueueService.checkJoin zoneId (some user) env with
    | .error e => (s, .rejected e)
    | .ok _ =>
      let counted := QueueService.act (.join zoneId (some user) env) s.queue .idle
      ({ s with queue := counted.1 }, .queue counted.2)

/-- `createReservation` with the zone it fetched : its checks and the conflict query. -/
def reserve (s : Store) (body : CreateReservationBody) (user : RequestUserContext) (now : ℤ)
    (response : Except HttpError ZoneResponse) : Store × Request :=
  match uuidIn body.zoneId with
  | none => (s, .rejected .upstream)
  | some zoneId =>
    let env : ReservationService.CreateEnv :=
      ⟨true, response.toOption.map reservationSummary, now⟩
    match ReservationService.checkRequest (body.dto zoneId) (some user) env with
    | .error e => (s, .rejected e)
    | .ok _ =>
      let checked := ReservationService.act (.create (body.dto zoneId) (some user) env)
        s.reservations .idle
      ({ s with reservations := checked.1 }, .reservation checked.2)

/-- What a step does; a step that is not the request's next one does nothing. -/
def act : Action → Store → Request → Store × Request
  | .getZone id, s, .idle => (s, .reading id .getZone .asked)
  | .updateZone id dto actorId, s, .idle =>
    match ZoneService.editZone s.zones.zones id dto with
    | .error e => (s, .rejected e)
    | .ok zone => (s, .editing id dto zone actorId)
  | .joinQueue zoneId user userFound, s, .idle =>
    match user with
    | none => (s, .rejected (.badRequest "Missing user context"))
    | some user => (s, .reading zoneId (.joinQueue user userFound) .asked)
  | .createReservation body user userFound, s, .idle =>
    match user with
    | none => (s, .rejected (.badRequest "Missing user context"))
    | some user =>
      if userFound then (s, .reading body.zoneId (.createReservation body user) .asked)
      else (s, .rejected .upstream)
  | .readCache, s, .reading id caller .asked =>
    match s.cached id with
    | some zone => (s, .reading id caller (.returned (.ok zone)))
    | none => (s, .reading id caller .missed)
  | .readZone, s, .reading id caller .missed =>
    match ZoneService.getZoneEntity s.zones id with
    | .error e => (s, .reading id caller (.returned (.error e)))
    | .ok zone => (s, .reading id caller (.found zone))
  | .readRules, s, .reading id caller (.found zone) =>
    match ZoneService.findRules s.zones.rules id with
    | .error _ => (s, .reading id caller (.returned (.error .database)))
    | .ok rules => (s, .reading id caller (.computed (ZoneService.toZoneResponse zone rules)))
  | .fill, s, .reading id caller (.computed zone) =>
    ({ s with cache := s.cache.set id (zone, s.now + 10) },
      .reading id caller (.returned (.ok zone)))
  | .save clock, s, .editing id dto zone actorId =>
    match ZoneService.saveEdit s.zones zone actorId clock with
    | .error e => (s, .rejected e)
    | .ok zones => ({ s with zones := zones }, .saved id dto)
  | .abort, s, .editing _ _ _ _ => (s, .rejected .database)
  | .invalidate, s, .saved id dto =>
    ({ s with cache := s.cache.del [id] }, .reading id (.updateZone dto) .asked)
  | .check _, s, .reading id (.joinQueue user userFound) (.returned response) =>
    join s id user userFound response
  | .check now, s, .reading _ (.createReservation body user) (.returned response) =>
    reserve s body user now response
  | .queue a, s, .queue r =>
    let moved := QueueService.act a s.queue r
    ({ s with queue := moved.1 }, .queue moved.2)
  | .reservation a, s, .reservation r =>
    let moved := ReservationService.act a s.reservations r
    ({ s with reservations := moved.1 }, .reservation moved.2)
  | .pass seconds, s, r => ({ s with now := s.now + seconds }, r)
  | _, s, r => (s, r)

/-- The steps of a `getZone` with nothing between them return what the service does whose
cache has the live entries. -/
theorem run_getZone (s : System) (p : ℕ) {id : String} {caller : Caller}
    (hp : s.requests p = .reading id caller .asked) {service : ZoneService.Service}
    (hdb : service.db = s.db.zones) (hcache : service.cache (.summary id) = s.db.cached id) :
    (run (Shared.step act) s [(p, .readCache), (p, .readZone), (p, .readRules),
      (p, .fill)]).requests p = .reading id caller (.returned (service.getZone id).1) := by
  simp only [run_cons, run_nil, Shared.step_db, Shared.step_requests_self, hp, act]
  cases hcached : s.db.cached id with
  | some zone =>
    have hread : (service.getZone id).1 = .ok zone := Cache.fetch_hit (hcache.trans hcached) _
    rw [hread]
  | none =>
    have hread : (service.getZone id).1 = ZoneService.readSummary service.db id :=
      Cache.fetch_miss (hcache.trans hcached) _
    rw [hread, hdb, ZoneService.readSummary]
    cases hzone : ZoneService.getZoneEntity s.db.zones id with
    | error e =>
      simp only [hzone]
      rfl
    | ok zone =>
      cases hrules : ZoneService.findRules s.db.zones.rules id with
      | error e =>
        simp only [hzone, hrules]
        rfl
      | ok rules =>
        simp only [hzone, hrules]
        rfl

/-! ## What a step does to the zone and its cache -/

/-- The update closes the zone. -/
def Closes (z : Uuid) (id : String) (dto : UpdateZoneDto) : Prop :=
  uuidIn id = some z ∧ dto.status = some .closed

/-- A close of the zone whose transaction is committed. -/
def Request.Saved (z : Uuid) : Request → Prop
  | .saved id dto => Closes z id dto
  | .reading id (.updateZone dto) _ => Closes z id dto
  | _ => False

/-- A close of the zone that has deleted its keys. -/
def Request.Deleted (z : Uuid) : Request → Prop
  | .reading id (.updateZone dto) _ => Closes z id dto
  | _ => False

/-- A close of the zone that has returned. -/
def Request.Returned (z : Uuid) : Request → Prop
  | .reading id (.updateZone dto) (.returned _) => Closes z id dto
  | _ => False

/-- The entity that an update is about to save is the one its request asks for. -/
def Request.Sound : Request → Prop
  | .editing id dto zone _ => uuidIn id = some zone.id ∧ ∀ status ∈ dto.status, zone.status = status
  | _ => True

/-- The step touches the zones or the cache : a save that succeeds, a fill, a deletion. -/
def Touches (s : Store) : Action → Request → Prop
  | .save clock, .editing _ _ zone actorId =>
    ∃ db, ZoneService.saveEdit s.zones zone actorId clock = .ok db
  | .fill, .reading _ _ (.computed _) => True
  | .invalidate, .saved _ _ => True
  | _, _ => False

/-- A step that touches neither lets time pass at most, and no close comes further by it. -/
structure Quiet (s s' : Store) (r r' : Request) : Prop where
  zones : s'.zones = s.zones
  cache : s'.cache = s.cache
  now : s.now ≤ s'.now
  saved : ∀ z, r'.Saved z ↔ r.Saved z
  deleted : ∀ z, r'.Deleted z ↔ r.Deleted z
  sound : r.Sound → r'.Sound

/-- The entity that `updateZone` assigns in memory. -/
theorem editZone_sound {zones : List ZoneEntity} {id actorId : String} {dto : UpdateZoneDto}
    {zone : ZoneEntity} (h : ZoneService.editZone zones id dto = .ok zone) :
    (Request.editing id dto zone actorId).Sound := by
  unfold ZoneService.editZone ZoneService.findZone at h
  cases hid : uuidIn id with
  | none => simp [hid] at h
  | some zoneId =>
    cases hfind : zones.find? (·.id == zoneId) with
    | none => simp [hid, hfind] at h
    | some old =>
      obtain rfl : old.assign dto = zone := by simpa [hid, hfind] using h
      have hold : old.id = zoneId := ZoneService.find?_id hfind
      refine ⟨hid.trans (congrArg some hold.symm), fun status hstatus => ?_⟩
      simp [ZoneEntity.assign, Option.mem_def.mp hstatus]

/-- A request that is no update, or an update that has not read its zone. -/
def Request.Aside : Request → Prop
  | .reading _ (.updateZone _) _ => False
  | .editing _ _ _ _ => False
  | .saved _ _ => False
  | _ => True

theorem Request.Aside.unclosing {r : Request} (h : r.Aside) :
    (∀ z, ¬r.Saved z ∧ ¬r.Deleted z) ∧ r.Sound := by
  cases r with
  | reading id caller read =>
    cases caller with
    | updateZone dto => exact h.elim
    | _ => exact ⟨fun _ => ⟨fun hc => hc, fun hc => hc⟩, trivial⟩
  | editing id dto zone actorId => exact h.elim
  | saved id dto => exact h.elim
  | _ => exact ⟨fun _ => ⟨fun hc => hc, fun hc => hc⟩, trivial⟩

theorem Quiet.aside {s s' : Store} {r r' : Request} (hzones : s'.zones = s.zones)
    (hcache : s'.cache = s.cache) (hnow : s.now ≤ s'.now) (hr : r.Aside) (hr' : r'.Aside) :
    Quiet s s' r r' := by
  obtain ⟨hz, -⟩ := hr.unclosing
  obtain ⟨hz', hsound'⟩ := hr'.unclosing
  exact ⟨hzones, hcache, hnow, fun z => iff_of_false (hz' z).1 (hz z).1,
    fun z => iff_of_false (hz' z).2 (hz z).2, fun _ => hsound'⟩

/-- A `getZone` that comes further. -/
theorem Quiet.read (s : Store) (id : String) (caller : Caller) (read read' : Read) :
    Quiet s s (.reading id caller read) (.reading id caller read') := by
  cases caller with
  | updateZone dto => exact ⟨rfl, rfl, le_rfl, fun _ => Iff.rfl, fun _ => Iff.rfl, fun h => h⟩
  | _ => exact .aside rfl rfl le_rfl trivial trivial

theorem join_quiet (s : Store) (zoneId : String) (user : RequestUserContext) (userFound : Bool)
    (response : Except HttpError ZoneResponse) :
    Quiet s (join s zoneId user userFound response).1
      (.reading zoneId (.joinQueue user userFound) (.returned response))
      (join s zoneId user userFound response).2 := by
  unfold join
  split
  · exact .aside rfl rfl le_rfl trivial trivial
  · dsimp only
    split
    · exact .aside rfl rfl le_rfl trivial trivial
    · exact .aside rfl rfl le_rfl trivial trivial

theorem reserve_quiet (s : Store) (zoneId : String) (body : CreateReservationBody)
    (user : RequestUserContext) (now : ℤ) (response : Except HttpError ZoneResponse) :
    Quiet s (reserve s body user now response).1
      (.reading zoneId (.createReservation body user) (.returned response))
      (reserve s body user now response).2 := by
  unfold reserve
  split
  · exact .aside rfl rfl le_rfl trivial trivial
  · dsimp only
    split
    · exact .aside rfl rfl le_rfl trivial trivial
    · exact .aside rfl rfl le_rfl trivial trivial

theorem act_quiet {a : Action} {s : Store} {r : Request} (h : ¬Touches s a r) :
    Quiet s (act a s r).1 r (act a s r).2 := by
  unfold act
  split
  · exact .aside rfl rfl le_rfl trivial trivial
  · split
    · exact .aside rfl rfl le_rfl trivial trivial
    · rename_i hedit
      exact ⟨rfl, rfl, le_rfl, fun _ => Iff.rfl, fun _ => Iff.rfl, fun _ => editZone_sound hedit⟩
  · split
    · exact .aside rfl rfl le_rfl trivial trivial
    · exact .aside rfl rfl le_rfl trivial trivial
  · split
    · exact .aside rfl rfl le_rfl trivial trivial
    · split_ifs
      · exact .aside rfl rfl le_rfl trivial trivial
      · exact .aside rfl rfl le_rfl trivial trivial
  · split
    · exact .read _ _ _ _ _
    · exact .read _ _ _ _ _
  · split
    · exact .read _ _ _ _ _
    · exact .read _ _ _ _ _
  · split
    · exact .read _ _ _ _ _
    · exact .read _ _ _ _ _
  · exact absurd trivial h
  · split
    · exact ⟨rfl, rfl, le_rfl, fun _ => Iff.rfl, fun _ => Iff.rfl, fun _ => trivial⟩
    · rename_i hsave
      exact absurd ⟨_, hsave⟩ h
  · exact ⟨rfl, rfl, le_rfl, fun _ => Iff.rfl, fun _ => Iff.rfl, fun _ => trivial⟩
  · exact absurd trivial h
  · exact join_quiet _ _ _ _ _
  · exact reserve_quiet _ _ _ _ _ _
  · exact .aside rfl rfl le_rfl trivial trivial
  · exact .aside rfl rfl le_rfl trivial trivial
  · exact ⟨rfl, rfl, by simp, fun _ => Iff.rfl, fun _ => Iff.rfl, id⟩
  · exact ⟨rfl, rfl, le_rfl, fun _ => Iff.rfl, fun _ => Iff.rfl, id⟩

/-! ## The condition -/

/-- The step does not undo what the close `c` of the zone has done so far. Once the close is
committed, no other update saves the zone with another status; once it has deleted its keys, no
summary with another status is put into the cache; and when it deletes them, no other
spelling of the id has such a summary there. -/
def Orderly (z : Uuid) (c : ℕ) (s : System) (pa : ℕ × Action) : Prop :=
  match pa.2, s.requests pa.1 with
  | .save clock, .editing _ _ zone actorId =>
    (s.requests c).Saved z → zone.id = z →
      (∃ db, ZoneService.saveEdit s.db.zones zone actorId clock = .ok db) → zone.status = .closed
  | .fill, .reading id _ (.computed zone) =>
    (s.requests c).Deleted z → uuidIn id = some z → zone.status = .closed
  | .invalidate, .saved id dto =>
    pa.1 = c → Closes z id dto → ∀ other zone, other ≠ id → uuidIn other = some z →
      s.db.cached other = some zone → zone.status = .closed
  | _, _ => True

/-- From the commit of the close `c` on the row is closed, and from its deletion on every
summary of the zone that the cache answers with is. -/
structure Shut (z : Uuid) (c : ℕ) (s : System) : Prop where
  row : (s.requests c).Saved z → ∀ zone, s.db.zones.zone z = some zone → zone.status = .closed
  cache : (s.requests c).Deleted z → ∀ id zone, uuidIn id = some z →
    s.db.cached id = some zone → zone.status = .closed

/-- Every update under way holds the entity it is to save. -/
def Inv (s : System) : Prop :=
  ∀ p, (s.requests p).Sound

section

variable {s : System} {z : Uuid} {c p : ℕ} {a : Action}

theorem orderly_of_not_touches (h : ¬Touches s.db a (s.requests p)) : Orderly z c s (p, a) := by
  unfold Orderly
  split
  · rename_i ha hr
    obtain rfl := ha
    rw [hr] at h
    exact fun _ _ hsave => absurd hsave h
  · rename_i ha hr
    obtain rfl := ha
    rw [hr] at h
    exact absurd trivial h
  · rename_i ha hr
    obtain rfl := ha
    rw [hr] at h
    exact absurd trivial h
  · trivial

theorem Quiet.saved_update {s' : Store} {r' : Request} (h : Quiet s.db s' (s.requests p) r')
    (z : Uuid) (c : ℕ) :
    (Function.update s.requests p r' c).Saved z ↔ (s.requests c).Saved z := by
  rcases eq_or_ne c p with rfl | hne
  · rw [Function.update_self]
    exact h.saved z
  · rw [Function.update_of_ne hne]

theorem Quiet.deleted_update {s' : Store} {r' : Request} (h : Quiet s.db s' (s.requests p) r')
    (z : Uuid) (c : ℕ) :
    (Function.update s.requests p r' c).Deleted z ↔ (s.requests c).Deleted z := by
  rcases eq_or_ne c p with rfl | hne
  · rw [Function.update_self]
    exact h.deleted z
  · rw [Function.update_of_ne hne]

/-- A quiet step leaves `Shut` as it is. -/
theorem Quiet.shut {s' : Store} {r' : Request} (h : Quiet s.db s' (s.requests p) r')
    (hshut : Shut z c s) : Shut z c ⟨s', Function.update s.requests p r'⟩ := by
  refine ⟨fun hc => ?_, fun hc id zone hid hcached => ?_⟩
  · rw [h.zones]
    exact hshut.row ((h.saved_update z c).mp hc)
  · obtain ⟨expires, hget, hlive⟩ := Store.cached_eq_some.mp hcached
    rw [h.cache] at hget
    exact hshut.cache ((h.deleted_update z c).mp hc) id zone hid
      (Store.cached_eq_some.mpr ⟨expires, hget, h.now.trans hlive⟩)

/-- A save leaves `Shut` just when it is orderly. -/
theorem shut_saved_iff (hshut : Shut z c s) {id actorId : String} {dto : UpdateZoneDto}
    {zone : ZoneEntity} {clock : Clock} {db : ZoneDb}
    (hsound : (Request.editing id dto zone actorId).Sound)
    (hr : s.requests p = .editing id dto zone actorId)
    (h : ZoneService.saveEdit s.db.zones zone actorId clock = .ok db) :
    Shut z c ⟨{ s.db with zones := db }, Function.update s.requests p (.saved id dto)⟩ ↔
      Orderly z c s (p, .save clock) := by
  have horderly : Orderly z c s (p, .save clock) ↔
      ((s.requests c).Saved z → zone.id = z → zone.status = .closed) := by
    simp only [Orderly, hr]
    exact ⟨fun ho hc hz => ho hc hz ⟨db, h⟩, fun ho hc hz _ => ho hc hz⟩
  have hframe : ZoneDb.Frame zone.id s.db.zones db := ZoneService.saveEdit_frame h
  obtain ⟨saved, hsaved, hrow⟩ := ZoneService.saveEdit_self h
  have hstatus : saved.status = zone.status := congrArg ZoneService.ZoneRow.status hrow
  rw [horderly]
  rcases eq_or_ne c p with rfl | hne
  · -- the close itself : what it saves is closed
    refine iff_of_true ⟨fun hc row hget => ?_, fun hc => ?_⟩ fun hc => ?_
    · simp only [Function.update_self, Request.Saved] at hc
      obtain ⟨hid, hcloses⟩ := hc
      obtain rfl : zone.id = z := Option.some.inj (hsound.1.symm.trans hid)
      obtain rfl := Option.some.inj (hsaved.symm.trans hget)
      exact hstatus.trans (hsound.2 .closed hcloses)
    · simp [Request.Deleted] at hc
    · simp [hr, Request.Saved] at hc
  · have hsame : Function.update s.requests p (.saved id dto) c = s.requests c :=
      Function.update_of_ne hne _ _
    constructor
    · rintro hshut' hc rfl
      have hc' : (Function.update s.requests p (.saved id dto) c).Saved zone.id := hsame ▸ hc
      exact hstatus.symm.trans (hshut'.row hc' saved hsaved)
    · intro ho
      refine ⟨fun hc row hget => ?_, fun hc => hshut.cache (hsame ▸ hc)⟩
      have hc' : (s.requests c).Saved z := hsame ▸ hc
      by_cases hz : zone.id = z
      · subst hz
        obtain rfl := Option.some.inj (hsaved.symm.trans hget)
        exact hstatus.trans (ho hc' rfl)
      · have hget' : s.db.zones.zone z = some row := (hframe.zone z (Ne.symm hz)).symm.trans hget
        exact hshut.row hc' row hget'

/-- A deletion leaves `Shut` just when it is orderly. -/
theorem shut_invalidated_iff (hshut : Shut z c s) {id : String} {dto : UpdateZoneDto}
    (hr : s.requests p = .saved id dto) :
    Shut z c ⟨{ s.db with cache := s.db.cache.del [id] },
        Function.update s.requests p (.reading id (.updateZone dto) .asked)⟩ ↔
      Orderly z c s (p, .invalidate) := by
  have horderly : Orderly z c s (p, .invalidate) ↔ (p = c → Closes z id dto → ∀ other zone,
      other ≠ id → uuidIn other = some z → s.db.cached other = some zone →
        zone.status = .closed) := by
    simp only [Orderly, hr]
  rw [horderly]
  rcases eq_or_ne c p with rfl | hne
  · constructor
    · intro hshut' _ hcloses other zone hother hid hget
      refine hshut'.cache ?_ other zone hid ((s.db.cached_del id).mpr ⟨hother, hget⟩)
      simp only [Function.update_self]
      exact hcloses
    · refine fun ho => ⟨fun hc => ?_, fun hc other zone hid hget => ?_⟩
      · simp only [Function.update_self] at hc
        exact hshut.row (by rw [hr]; exact hc)
      · simp only [Function.update_self] at hc
        obtain ⟨hother, hget⟩ := (s.db.cached_del id).mp hget
        exact ho rfl hc other zone hother hid hget
  · have hsame : Function.update s.requests p (.reading id (.updateZone dto) .asked) c =
        s.requests c := Function.update_of_ne hne _ _
    refine iff_of_true ⟨fun hc => hshut.row (hsame ▸ hc), fun hc other zone hid hget => ?_⟩
      fun hpc => absurd hpc.symm hne
    exact hshut.cache (hsame ▸ hc) other zone hid ((s.db.cached_del id).mp hget).2

/-- A fill leaves `Shut` just when it is orderly. -/
theorem shut_filled_iff (hshut : Shut z c s) {id : String} {caller : Caller} {zone : ZoneResponse}
    (hr : s.requests p = .reading id caller (.computed zone)) :
    Shut z c ⟨{ s.db with cache := s.db.cache.set id (zone, s.db.now + 10) },
        Function.update s.requests p (.reading id caller (.returned (.ok zone)))⟩ ↔
      Orderly z c s (p, .fill) := by
  have horderly : Orderly z c s (p, .fill) ↔
      ((s.requests c).Deleted z → uuidIn id = some z → zone.status = .closed) := by
    simp only [Orderly, hr]
  have hread : Quiet s.db s.db (s.requests p) (.reading id caller (.returned (.ok zone))) := by
    rw [hr]
    exact .read s.db id caller _ _
  have hdeleted : (Function.update s.requests p
      (.reading id caller (.returned (.ok zone))) c).Deleted z ↔ (s.requests c).Deleted z :=
    hread.deleted_update z c
  rw [horderly]
  constructor
  · intro hshut' hc hid
    exact hshut'.cache (hdeleted.mpr hc) id zone hid (s.db.cached_fill id zone)
  · refine fun ho => ⟨(hread.shut hshut).row, fun hc other zone' hid hget => ?_⟩
    have hc' : (s.requests c).Deleted z := hdeleted.mp hc
    rcases eq_or_ne other id with rfl | hne
    · obtain rfl := Option.some.inj ((s.db.cached_fill other zone).symm.trans hget)
      exact ho hc' hid
    · exact hshut.cache hc' other zone' hid ((s.db.cached_fill_of_ne zone hne).symm.trans hget)

/-- A step leaves `Shut` just when it is orderly. -/
theorem shut_step_iff (hinv : Inv s) (hshut : Shut z c s) :
    Shut z c (Shared.step act s (p, a)) ↔ Orderly z c s (p, a) := by
  by_cases h : Touches s.db a (s.requests p)
  · have hsound := hinv p
    unfold Shared.step
    generalize hr : s.requests p = r at h hsound
    unfold Touches at h
    split at h
    · obtain ⟨db, hsave⟩ := h
      simp only [act, hsave]
      exact shut_saved_iff hshut hsound hr hsave
    · exact shut_filled_iff hshut hr
    · exact shut_invalidated_iff hshut hr
    · exact h.elim
  · exact iff_of_true ((act_quiet h).shut hshut) (orderly_of_not_touches h)

theorem Inv.step (hinv : Inv s) : Inv (Shared.step act s (p, a)) := by
  intro q
  rcases eq_or_ne q p with rfl | hne
  · rw [Shared.step_requests_self]
    by_cases h : Touches s.db a (s.requests q)
    · generalize s.requests q = r at h
      unfold Touches at h
      split at h
      · obtain ⟨db, hsave⟩ := h
        simp only [act, hsave]
        trivial
      · trivial
      · trivial
      · exact h.elim
    · exact (act_quiet h).sound (hinv q)
  · rw [Shared.step_requests_of_ne s a hne]
    exact hinv q

end

/-- Tables and a cache, and no request in flight. -/
def start (store : Store) : System :=
  ⟨store, fun _ => .idle⟩

/-- The zone stays shut from the close on if and only if every step is orderly. -/
theorem shut_iff_orderly (store : Store) (z : Uuid) (c : ℕ) (as : List (ℕ × Action)) :
    Throughout (Shared.step act) (start store) as (Shut z c) ↔
      EachStep (Shared.step act) (start store) as (Orderly z c) := by
  have hinv : ∀ (s : System) (pa : ℕ × Action), True → Inv s → Inv (Shared.step act s pa) :=
    fun _ _ _ h => h.step
  have hidle : Inv (start store) := fun _ => trivial
  have hshut : Shut z c (start store) := ⟨fun hc => hc.elim, fun hc => hc.elim⟩
  exact throughout_iff_eachStep (fun _ => True) hinv (fun _ _ _ h hs => shut_step_iff h hs) hidle
    hshut fun _ _ => trivial

/-! ## Requests that are turned away -/

/-- The request asks for a place or a seat in the zone. -/
def Action.Asks (z : Uuid) : Action → Prop
  | .joinQueue zoneId _ _ => uuidIn zoneId = some z
  | .createReservation body _ _ => uuidIn body.zoneId = some z
  | _ => False

/-- The request waits for the zone it asked for, or was rejected. -/
def Request.Turned : Request → Prop
  | .reading _ (.joinQueue _ _) _ => True
  | .reading _ (.createReservation _ _) _ => True
  | .rejected _ => True
  | _ => False

/-- All that a `getZone` has read shows the zone closed. -/
def Read.Closed : Read → Prop
  | .asked => True
  | .missed => True
  | .found zone => zone.status = .closed
  | .computed zone => zone.status = .closed
  | .returned response => ∀ zone, response = .ok zone → zone.status = .closed

/-- A request for the zone that has seen it closed only, or was rejected. -/
def Request.Refused (z : Uuid) : Request → Prop
  | .reading id (.joinQueue _ _) read => uuidIn id = some z ∧ read.Closed
  | .reading id (.createReservation _ _) read => uuidIn id = some z ∧ read.Closed
  | .rejected _ => True
  | _ => False

theorem Request.Refused.turned {z : Uuid} {r : Request} (h : r.Refused z) : r.Turned := by
  unfold Request.Refused at h
  split at h
  · trivial
  · trivial
  · trivial
  · exact h.elim

section

variable {z : Uuid} {id : String} {caller : Caller} {read read' : Read}

theorem uuidIn_of_refused (h : (Request.reading id caller read).Refused z) :
    uuidIn id = some z := by
  cases caller with
  | joinQueue user userFound => exact h.1
  | createReservation body user => exact h.1
  | _ => exact h.elim

theorem closed_of_refused (h : (Request.reading id caller read).Refused z) : read.Closed := by
  cases caller with
  | joinQueue user userFound => exact h.2
  | createReservation body user => exact h.2
  | _ => exact h.elim

theorem refused_read (h : (Request.reading id caller read).Refused z)
    (hread : read'.Closed) : (Request.reading id caller read').Refused z := by
  cases caller with
  | joinQueue user userFound => exact ⟨h.1, hread⟩
  | createReservation body user => exact ⟨h.1, hread⟩
  | _ => exact h.elim

end

section

variable {s : Store} {z : Uuid} {response : Except HttpError ZoneResponse}

/-- `joinQueue` does not pass its checks with a closed zone. -/
theorem join_closed (hclosed : (Read.returned response).Closed) (id : String)
    (user : RequestUserContext) (userFound : Bool) :
    ((join s id user userFound response).2).Refused z := by
  unfold join
  split
  · trivial
  · dsimp only
    split
    · trivial
    · rename_i joined hjoin
      obtain ⟨zone, hzone, hopen⟩ := QueueService.checkJoin_open hjoin
      obtain ⟨payload, hresponse, rfl⟩ := Option.map_eq_some_iff.mp hzone
      exact absurd (hclosed payload (toOption_eq_some.mp hresponse)) hopen

/-- `createReservation` does not pass its checks with a closed zone. -/
theorem reserve_closed (hclosed : (Read.returned response).Closed) (body : CreateReservationBody)
    (user : RequestUserContext) (now : ℤ) : ((reserve s body user now response).2).Refused z := by
  unfold reserve
  split
  · trivial
  · dsimp only
    split
    · trivial
    · rename_i slot hslot
      obtain ⟨zone, hzone, hopen⟩ := ReservationService.checkRequest_open hslot
      obtain ⟨payload, hresponse, rfl⟩ := Option.map_eq_some_iff.mp hzone
      exact absurd (hclosed payload (toOption_eq_some.mp hresponse)) hopen

/-- A zone that is read from a closed row is closed. -/
theorem getZoneEntity_closed (hrow : ∀ zone, s.zones.zone z = some zone → zone.status = .closed)
    {id : String} (hid : uuidIn id = some z) {zone : ZoneEntity}
    (h : ZoneService.getZoneEntity s.zones id = .ok zone) : zone.status = .closed := by
  unfold ZoneService.getZoneEntity ZoneService.findZone at h
  cases hfind : s.zones.zones.find? (·.id == z) with
  | none => simp [hid, hfind] at h
  | some row =>
    obtain rfl : row = zone := by simpa [hid, hfind] using h
    exact hrow row hfind

/-- While the row and the cache show the zone closed, a refused request stays refused. -/
theorem act_refused (hrow : ∀ zone, s.zones.zone z = some zone → zone.status = .closed)
    (hcache : ∀ id zone, uuidIn id = some z → s.cached id = some zone → zone.status = .closed)
    (a : Action) {r : Request} (h : r.Refused z) : (act a s r).2.Refused z := by
  unfold act
  split
  · exact h.elim
  · exact h.elim
  · exact h.elim
  · exact h.elim
  · split
    · rename_i hcached
      refine refused_read h fun zone heq => ?_
      obtain rfl := Except.ok.inj heq
      exact hcache _ _ (uuidIn_of_refused h) hcached
    · exact refused_read h (show Read.missed.Closed from trivial)
  · split
    · exact refused_read h fun zone heq => by cases heq
    · rename_i hzone
      exact refused_read h (getZoneEntity_closed hrow (uuidIn_of_refused h) hzone)
  · split
    · exact refused_read h fun zone heq => by cases heq
    · have hclosed := closed_of_refused h
      exact refused_read h hclosed
  · refine refused_read h fun zone heq => ?_
    obtain rfl := Except.ok.inj heq
    exact closed_of_refused h
  · exact h.elim
  · exact h.elim
  · exact h.elim
  · exact join_closed (closed_of_refused h) _ _ _
  · exact reserve_closed (closed_of_refused h) _ _ _
  · exact h.elim
  · exact h.elim
  · exact h
  · exact h

end

/-- A close that has returned stays as it is. -/
theorem act_returned {z : Uuid} {r : Request} (h : r.Returned z) (a : Action) (s : Store) :
    (act a s r).2 = r := by
  unfold Request.Returned at h
  split at h
  · cases a <;> rfl
  · exact h.elim

theorem Request.Returned.saved {z : Uuid} {r : Request} (h : r.Returned z) :
    r.Saved z ∧ r.Deleted z := by
  unfold Request.Returned at h
  split at h
  · exact ⟨h, h⟩
  · exact h.elim

/-- A request that asks for the zone begins to read it, or is rejected at once. -/
theorem act_asks {z : Uuid} {a : Action} (h : a.Asks z) (s : Store) :
    (act a s .idle).2.Refused z := by
  unfold Action.Asks at h
  split at h
  · simp only [act]
    split
    · trivial
    · exact ⟨h, trivial⟩
  · simp only [act]
    split
    · trivial
    · split_ifs
      · exact ⟨h, trivial⟩
      · trivial
  · exact h.elim

/-- While the zone stays shut after a close, a refused request stays refused. -/
theorem run_refused {s : System} {z : Uuid} {c p : ℕ} {as : List (ℕ × Action)}
    (hshut : Throughout (Shared.step act) s as (Shut z c)) (hc : (s.requests c).Returned z)
    (hp : (s.requests p).Refused z) : ((run (Shared.step act) s as).requests p).Refused z := by
  induction as using List.reverseRecOn with
  | nil => exact hp
  | append_singleton as qa ih =>
    obtain ⟨q, a⟩ := qa
    have hbefore := (throughout_concat.mp hshut).1
    have hrefused := ih hbefore
    have hreturned : ((run (Shared.step act) s as).requests c).Returned z := by
      rw [Shared.run_requests_of_stuck (fun a d => act_returned hc a d) as rfl]
      exact hc
    have hnow := hbefore.last
    rw [run_append, run_cons, run_nil]
    rcases eq_or_ne p q with rfl | hne
    · rw [Shared.step_requests_self]
      exact act_refused (hnow.row hreturned.saved.1) (hnow.cache hreturned.saved.2) a hrefused
    · rw [Shared.step_requests_of_ne _ a hne]
      exact hrefused

/-- If every step is orderly, a request that begins after a close of its zone has returned is
never admitted : it waits for the zone, or was rejected. -/
theorem rejected_of_orderly {store : Store} {z : Uuid} {c p : ℕ} {pre mid post : List (ℕ × Action)}
    {a : Action}
    (hreturned : ((run (Shared.step act) (start store) pre).requests c).Returned z)
    (hidle : (run (Shared.step act) (start store) (pre ++ mid)).requests p = .idle)
    (ha : a.Asks z)
    (horderly : EachStep (Shared.step act) (start store) (pre ++ mid ++ (p, a) :: post)
      (Orderly z c)) :
    ((run (Shared.step act) (start store) (pre ++ mid ++ (p, a) :: post)).requests p).Turned := by
  have hshut := (shut_iff_orderly store z c _).mpr horderly
  have hbegun : Throughout (Shared.step act)
      (run (Shared.step act) (start store) (pre ++ mid ++ [(p, a)])) post (Shut z c) := by
    refine Throughout.rest ?_
    rwa [List.append_assoc, List.singleton_append]
  have hc : ((run (Shared.step act) (start store) (pre ++ mid ++ [(p, a)])).requests c).Returned
      z := by
    rw [List.append_assoc, run_append,
      Shared.run_requests_of_stuck (fun a d => act_returned hreturned a d) _ rfl]
    exact hreturned
  have hp : ((run (Shared.step act) (start store) (pre ++ mid ++ [(p, a)])).requests p).Refused
      z := by
    rw [run_append, run_cons, run_nil, Shared.step_requests_self, hidle]
    exact act_asks ha _
  have hrefused := run_refused hbegun hc hp
  rw [← run_append, List.append_assoc, List.singleton_append] at hrefused
  exact hrefused.turned

/-- The canteen, created open, and an empty cache. -/
def canteen : Store :=
  ⟨ZoneService.perform .empty (.createZone ZoneService.tenSeats "admin" ⟨0, 0⟩), Cache.empty, 0,
    .empty, .empty⟩

/-- The request 1 closes the canteen, with no other step between its own. -/
def close : List (ℕ × Action) :=
  [(1, .updateZone uuidOne closing "admin"), (1, .save ⟨1, 1⟩), (1, .invalidate), (1, .readCache),
    (1, .readZone), (1, .readRules), (1, .fill)]

/-- The request 0 reads the canteen before its close. -/
def slowRead : List (ℕ × Action) :=
  [(0, .getZone uuidOne), (0, .readCache), (0, .readZone), (0, .readRules)]

/-- The request 2 joins the queue. -/
def joinSteps : List (ℕ × Action) :=
  [(2, .joinQueue uuidOne (some ⟨7, .student⟩) true), (2, .readCache), (2, .check 0),
    (2, .queue (.lookup 0)), (2, .queue (.begin 1)), (2, .queue (.commit 1))]

/-- The slow reader fills the cache after the close has returned, and the request that begins
then joins the queue of the closed zone. -/
theorem slowRead_admits :
    ((run (Shared.step act) (start canteen) (slowRead ++ close)).requests 1).Returned 1 ∧
      (run (Shared.step act) (start canteen) (slowRead ++ close ++ [(0, .fill)])).requests 2 =
        .idle ∧
      ¬((run (Shared.step act) (start canteen)
        (slowRead ++ close ++ [(0, .fill)] ++ joinSteps)).requests 2).Turned ∧
      ((run (Shared.step act) (start canteen)
        (slowRead ++ close ++ [(0, .fill)] ++ joinSteps)).db.zones.zone 1).map (·.status) =
          some .closed ∧
      ((run (Shared.step act) (start canteen)
        (slowRead ++ close ++ [(0, .fill)] ++ joinSteps)).db.queue.entries.map
          fun e => (e.zoneId, e.userId)) = [(1, 7)] := by
  have hjoined : (run (Shared.step act) (start canteen)
      (slowRead ++ close ++ [(0, .fill)] ++ joinSteps)).requests 2 = .queue .finished := rfl
  refine ⟨⟨by decide, rfl⟩, rfl, ?_, rfl, rfl⟩
  rw [hjoined]
  exact id

/-- With the close alone, every step is orderly and the join is rejected. -/
theorem close_rejects :
    (((run (Shared.step act) (start canteen) close).requests 1).Returned 1 ∧
      EachStep (Shared.step act) (start canteen) (close ++ [] ++ joinSteps) (Orderly 1 1)) ∧
      ((run (Shared.step act) (start canteen) (close ++ [] ++ joinSteps)).requests 2).Turned := by
  have hreturned : ((run (Shared.step act) (start canteen) close).requests 1).Returned 1 :=
    ⟨by decide, rfl⟩
  have horderly : EachStep (Shared.step act) (start canteen) (close ++ [] ++ joinSteps)
      (Orderly 1 1) := by
    have hjoin : EachStep (Shared.step act) (run (Shared.step act) (start canteen) close) joinSteps
        (Orderly 1 1) := by
      simp only [joinSteps, eachStep_cons]
      exact ⟨trivial, trivial, trivial, trivial, trivial, trivial, eachStep_nil⟩
    refine eachStep_cons.mpr ⟨trivial, eachStep_cons.mpr ⟨fun hc => False.elim hc, ?_⟩⟩
    refine eachStep_cons.mpr ⟨fun _ _ other zone _ _ h => ?_, ?_⟩
    · exact absurd h (Option.some_ne_none zone).symm
    refine eachStep_cons.mpr ⟨trivial, eachStep_cons.mpr ⟨trivial, eachStep_cons.mpr ⟨trivial, ?_⟩⟩⟩
    exact eachStep_cons.mpr ⟨fun _ _ => rfl, hjoin⟩
  have hasks : uuidIn uuidOne = some 1 := by decide
  exact ⟨⟨hreturned, horderly⟩, rejected_of_orderly hreturned rfl hasks horderly⟩

end Qoms.Admission
