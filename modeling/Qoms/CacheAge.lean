import Qoms.QueueRace
import Qoms.ReadThrough
import Qoms.ReservationCache
import Qoms.ZoneCache
import Qoms.ZoneRace

/-!
# How old a cached answer is

The queue, reservation and zone services answer reads through Redis, and delete keys after
their writes. Between a read's queries and its fill a write can come in with its deletion, and
what the read then puts into the cache is outdated from the start : the deletions do not keep
the caches right when requests overlap. What bounds the age of an answer is the time to live
(`answered_run`).

So while the calls of each read follow within a delay, the length of a queue, a place in it,
the reservations of a zone, the zones and their status are those of a moment, or of moments,
not longer ago than the time to live and the delay, whatever the writers do
(`queue_answers_recent`, `reservation_listing_recent`, `zone_answers_recent`).
-/

set_option autoImplicit false

namespace Qoms

/-! ## The queue service -/

namespace QueueService

open ReservationService (append_cons_inj colon_notMem_of_uuidIn)

/-- The keys of the service in Redis. -/
inductive QueueKey
  | summary (zoneId : String)
  | position (zoneId : String) (userId : Uuid)
  deriving DecidableEq, Repr

/-- The key as Redis has it. -/
def QueueKey.text : QueueKey → String
  | .summary zoneId => "queue:summary:" ++ zoneId
  | .position zoneId userId => "queue:position:" ++ (zoneId ++ (":" ++ uuidText userId))

/-- What the two reads return; a query with a zone that is no UUID is refused. -/
inductive QueueAnswer
  | refused
  | summary (zoneId : String) (queueLength : ℕ)
  | away (zoneId : String) (userId : Uuid)
  | state (state : QueueState)
  deriving DecidableEq, Repr

/-- `getQueueState` : one count. -/
def getQueueState (zoneId : String) : Plan QueueDb QueueAnswer :=
  .ask fun db =>
    match uuidIn zoneId with
    | none => .done .refused false
    | some zone => .done (.summary zoneId (activeCount db.entries zone)) true

/-- `getMyQueueState`, with the zone that was fetched : the lookup of the entry, the count of
its place, and the count of the queue. Who is not in the queue is not cached. -/
def getMyQueueState (zoneId : String) (userId : Uuid) (zone : ZoneSummary) (hint : Uuid) :
    Plan QueueDb QueueAnswer :=
  .ask fun db =>
    match uuidIn zoneId with
    | none => .done .refused false
    | some id =>
      match findActiveEntry db.entries id userId hint with
      | none => .done (.away zoneId userId) false
      | some entry => .ask fun counted => .ask fun measured =>
        .done (.state (buildQueueState counted.entries zone entry
          (some (activeCount measured.entries entry.zoneId)))) true

/-- What a read of a key asks. -/
def QueueKey.Asks : QueueKey → Plan QueueDb QueueAnswer → Prop
  | .summary zoneId, plan => plan = getQueueState zoneId
  | .position zoneId userId, plan => ∃ zone hint, plan = getMyQueueState zoneId userId zone hint

/-- The service behind its cache, with some writers. -/
def cached {A Q : Type} (act : A → QueueDb → Q → QueueDb × Q) :
    CachedStore A QueueDb Q QueueKey QueueAnswer where
  act := act
  plans := QueueKey.Asks
  ttl _ := 5000

/-- The users of the keys are UUIDs. -/
def QueueKey.Spelled : QueueKey → Prop
  | .summary _ => True
  | .position _ userId => userId < 256 ^ 16

/-- No two keys are the same text. -/
theorem QueueKey.text_inj {a b : QueueKey} (ha : a.Spelled) (hb : b.Spelled)
    (h : a.text = b.text) : a = b := by
  have hchars : a.text.toList = b.text.toList := congrArg String.toList h
  cases a with
  | summary zoneId =>
    cases b with
    | summary zoneId' =>
      rw [QueueKey.text, QueueKey.text, String.append_right_inj] at h
      rw [h]
    | position => simp [QueueKey.text] at hchars
  | position zoneId userId =>
    cases b with
    | summary => simp [QueueKey.text] at hchars
    | position zoneId' userId' =>
      -- the user's text has no colon, so the last colon ends the zone
      rw [QueueKey.text, QueueKey.text, String.append_right_inj] at h
      have hcolon : ":".toList = [':'] := by decide
      have htexts := congrArg (List.reverse ∘ String.toList) h
      simp only [Function.comp_apply, String.toList_append, hcolon, List.reverse_append,
        List.reverse_cons, List.append_assoc, List.singleton_append] at htexts
      obtain ⟨husers, hzones⟩ := append_cons_inj
        (by simpa using colon_notMem_of_uuidIn (uuidIn_uuidText userId))
        (by simpa using colon_notMem_of_uuidIn (uuidIn_uuidText userId')) htexts
      have huser := uuidIn_uuidText userId
      rw [String.toList_injective (List.reverse_injective husers), uuidIn_uuidText,
        Nat.mod_eq_of_lt ha, Nat.mod_eq_of_lt hb] at huser
      rw [String.toList_injective (List.reverse_injective hzones), Option.some.inj huser]

/-- What an answer says of the states `M`, or, if it was not cached, of the states `N`. -/
def QueueKey.Shows (M N : QueueDb → Prop) : QueueKey → QueueAnswer → Prop
  | .summary zoneId, .summary zoneId' queueLength => zoneId' = zoneId ∧
      ∃ zone db, uuidIn zoneId = some zone ∧ M db ∧ queueLength = activeCount db.entries zone
  | .position zoneId userId, .away zoneId' userId' => zoneId' = zoneId ∧ userId' = userId ∧
      ∃ id db, uuidIn zoneId = some id ∧ N db ∧ ∀ e ∈ db.entries, activeFor id userId e = false
  | .position zoneId userId, .state state => ∃ id found counted measured entry zone,
      uuidIn zoneId = some id ∧ M found ∧ M counted ∧ M measured ∧ entry ∈ found.entries ∧
        activeFor id userId entry = true ∧ state =
          buildQueueState counted.entries zone entry (some (activeCount measured.entries id))
  | _, .refused => True
  | _, _ => False

/-- What a read makes shows the states it met. -/
theorem QueueKey.shows_of_gives {M N : QueueDb → Prop} {key : QueueKey}
    {plan : Plan QueueDb QueueAnswer} (hplan : key.Asks plan) {answer : QueueAnswer} (keep : Bool)
    (h : plan.Gives (if keep then M else N) answer keep) : key.Shows M N answer := by
  cases key with
  | summary zoneId =>
    obtain rfl := hplan
    obtain _ | ⟨db, hdb, h⟩ := h
    cases hzone : uuidIn zoneId with
    | none =>
      simp only [hzone] at h
      cases h
      trivial
    | some zone =>
      simp only [hzone] at h
      cases h
      exact ⟨rfl, zone, db, hzone, hdb, rfl⟩
  | position zoneId userId =>
    obtain ⟨zone, hint, rfl⟩ := hplan
    obtain _ | ⟨found, hfound, h⟩ := h
    cases hzone : uuidIn zoneId with
    | none =>
      simp only [hzone] at h
      cases h
      trivial
    | some id =>
      simp only [hzone] at h
      cases hentry : findActiveEntry found.entries id userId hint with
      | none =>
        simp only [hentry] at h
        cases h
        exact ⟨rfl, rfl, id, found, hzone, hfound, fun e he => by
          simpa using findOne_eq_none.mp hentry e he⟩
      | some entry =>
        simp only [hentry] at h
        obtain _ | ⟨counted, hcounted, h⟩ := h
        obtain _ | ⟨measured, hmeasured, h⟩ := h
        cases h
        obtain ⟨hmem, hactive⟩ := findOne_eq_some hentry
        have hid : entry.zoneId = id := by
          simp only [activeFor, Bool.and_eq_true, beq_iff_eq] at hactive
          exact hactive.1.2
        exact ⟨id, found, counted, measured, entry, zone, hzone, hfound, hcounted, hmeasured, hmem,
          hactive, by rw [hid]⟩

/-- Whatever the writers do, while the calls of each read follow within the delay : an answer
to a read of the queue, or of a user's place in it, shows states at most five seconds and the
delay old, and who is told to be in no queue was in none within the delay. -/
theorem queue_answers_recent {A Q : Type} {act : A → QueueDb → Q → QueueDb × Q} {db : QueueDb}
    {q : Q} {now : ℤ} {delay : ℕ} {as : List (ℕ × CacheAction A QueueDb QueueKey QueueAnswer)}
    (has : ∀ pa ∈ as, pa.2.Allowed (cached act))
    (hprompt : EachStep (Shared.step (cached act).step) (CachedStore.start db q now) as
      fun s pa => Prompt delay pa.2 s.db (s.requests pa.1)) {p : ℕ} {key : QueueKey} {time : ℤ}
    {answer : QueueAnswer}
    (h : ((run (Shared.step (cached act).step) (CachedStore.start db q now) as).requests p).2 =
      .answered key time answer) :
    key.Shows
      (During ((cached act).Moment (CachedStore.start db q now) as) (time - delay - 5000) time)
      (During ((cached act).Moment (CachedStore.start db q now) as) (time - delay) time)
      answer := by
  have hread := (answered_run has hprompt).2 p
  rw [h] at hread
  obtain ⟨-, keep, plan, hplan, hgives⟩ := hread
  refine QueueKey.shows_of_gives hplan keep (hgives.mono fun d hd => ?_)
  cases keep with
  | true => exact hd
  | false => exact hd.mono (fun _ _ h => h) (by simp) le_rfl

/-- A read counts, then a user joins and the keys go, then the read fills; almost five seconds
later the next read finds the entry. -/
def filledLate : List (ℕ × CacheAction Action QueueDb QueueKey QueueAnswer) :=
  let user : Option RequestUserContext := some ⟨7, .student⟩
  [(0, .write (.join 1 user diningEnv)), (0, .write (.lookup 0)), (0, .write (.begin 1)),
    (1, .look (.summary uuidOne) (getQueueState uuidOne)), (1, .query), (0, .write (.commit 1)),
    (0, .drop fun key => key = .summary uuidOne), (1, .pass 50), (1, .fill), (1, .pass 4900),
    (2, .look (.summary uuidOne) (getQueueState uuidOne))]

theorem filledLate_allowed : ∀ pa ∈ filledLate, pa.2.Allowed (cached act) := by
  simp [filledLate, CacheAction.Allowed, cached, QueueKey.Asks]

theorem filledLate_prompt : EachStep (Shared.step (cached act).step)
    (CachedStore.start .empty .idle 0) filledLate
      fun s pa => Prompt 100 pa.2 s.db (s.requests pa.1) := by
  simp only [filledLate, eachStep_cons, eachStep_nil, and_true]
  refine ⟨trivial, trivial, trivial, trivial, ?_, trivial, trivial, trivial, ?_, trivial, trivial⟩
  · exact (by decide : (0 : ℤ) ≤ 0 + 100)
  · exact (by decide : (50 : ℤ) ≤ 0 + 100)

/-- The entry is outdated when it is filled, and is read almost five seconds later. -/
theorem filledLate_recent :
    QueueKey.Shows
      (During ((cached act).Moment (CachedStore.start .empty .idle 0) filledLate)
        (4950 - (100 : ℕ) - 5000) 4950)
      (During ((cached act).Moment (CachedStore.start .empty .idle 0) filledLate)
        (4950 - (100 : ℕ)) 4950)
      (.summary uuidOne) (.summary uuidOne 0) ∧
    activeCount (run (Shared.step (cached act).step) (CachedStore.start .empty .idle 0)
      filledLate).db.store.entries 1 = 1 :=
  ⟨queue_answers_recent (p := 2) filledLate_allowed filledLate_prompt rfl, rfl⟩

end QueueService

/-! ## The reservation service -/

namespace ReservationService

/-- `getReservationsByZone` : one query. -/
def getReservationsByZone (timestamptzIn : String → Option ℤ) (l : Listing)
    (rank : ReservationEntity → ℕ) :
    Plan ReservationDb (Except HttpError (List ReservationResponse)) :=
  .ask fun db =>
    match l.read timestamptzIn db.reservations rank with
    | .error e => .done (.error e) false
    | .ok rows => .done (.ok rows) true

/-- The service behind its cache, with some writers. -/
def cached {A Q : Type} (timestamptzIn : String → Option ℤ)
    (act : A → ReservationDb → Q → ReservationDb × Q) :
    CachedStore A ReservationDb Q String (Except HttpError (List ReservationResponse)) where
  act := act
  plans key plan := ∃ l rank, Listing.cacheKey l = key ∧
    plan = getReservationsByZone timestamptzIn l rank
  ttl _ := 10000

theorem Listing.accepted_of_read {timestamptzIn : String → Option ℤ} {l : Listing}
    {rows : List ReservationEntity} {rank : ReservationEntity → ℕ}
    {listed : List ReservationResponse} (h : l.read timestamptzIn rows rank = .ok listed) :
    l.Accepted timestamptzIn := by
  unfold Listing.read at h
  cases hselects : l.selects timestamptzIn with
  | none => simp [hselects] at h
  | some selected => exact ⟨selected, hselects⟩

/-- Whatever the writers do, while the calls of each read follow within the delay : a listing
that the database accepts is that of a moment at most ten seconds and the delay ago. -/
theorem reservation_listing_recent {A Q : Type}
    {act : A → ReservationDb → Q → ReservationDb × Q} {timestamptzIn : String → Option ℤ}
    (hall : timestamptzIn "all" = none) {db : ReservationDb} {q : Q} {now : ℤ} {delay : ℕ}
    {as : List (ℕ × CacheAction A ReservationDb String
      (Except HttpError (List ReservationResponse)))}
    (has : ∀ pa ∈ as, pa.2.Allowed (cached timestamptzIn act))
    (hprompt : EachStep (Shared.step (cached timestamptzIn act).step)
      (CachedStore.start db q now) as fun s pa => Prompt delay pa.2 s.db (s.requests pa.1))
    {p : ℕ} {l : Listing} (hl : l.Accepted timestamptzIn) {time : ℤ}
    {listed : List ReservationResponse}
    (h : ((run (Shared.step (cached timestamptzIn act).step) (CachedStore.start db q now)
      as).requests p).2 = .answered l.cacheKey time (.ok listed)) :
    ∃ db' rank, During ((cached timestamptzIn act).Moment (CachedStore.start db q now) as)
        (time - delay - 10000) time db' ∧
      l.read timestamptzIn db'.reservations rank = .ok listed := by
  have hread := (answered_run has hprompt).2 p
  rw [h] at hread
  obtain ⟨-, keep, plan, ⟨l', rank, hkey, rfl⟩, hgives⟩ := hread
  obtain _ | ⟨db', hdb', hgives⟩ := hgives
  cases hquery : l'.read timestamptzIn db'.reservations rank with
  | error e =>
    simp only [hquery] at hgives
    cases hgives
  | ok rows =>
    simp only [hquery] at hgives
    cases hgives
    -- the key is that of one accepted listing
    obtain rfl := (Listing.accepted_of_read hquery).eq_of_cacheKey hl hall hkey
    exact ⟨db', rank, hdb', hquery⟩

/-- A listing is read before a student books and filled after the keys went; ten seconds later
the next reader finds it. -/
def listedLate : List (ℕ × CacheAction Action ReservationDb String
    (Except HttpError (List ReservationResponse))) :=
  let l : Listing := ⟨uuidOne, none⟩
  let plan := getReservationsByZone oneOClock l fun _ => 0
  [(0, .write (.create seatTwo (some ⟨1, .student⟩) ⟨true, some hourZone, 0⟩)),
    (1, .look l.cacheKey plan), (1, .query), (0, .write (.insert ⟨1, 1⟩)),
    (0, .drop fun key => key = l.cacheKey), (1, .pass 50), (1, .fill), (1, .pass 9900),
    (2, .look l.cacheKey plan)]

theorem listedLate_allowed : ∀ pa ∈ listedLate, pa.2.Allowed (cached oneOClock act) := by
  have hplan : (cached oneOClock act).plans (Listing.cacheKey ⟨uuidOne, none⟩)
      (getReservationsByZone oneOClock ⟨uuidOne, none⟩ fun _ => 0) := ⟨_, _, rfl, rfl⟩
  simp [listedLate, CacheAction.Allowed, hplan]

theorem listedLate_prompt : EachStep (Shared.step (cached oneOClock act).step)
    (CachedStore.start .empty .idle 0) listedLate
      fun s pa => Prompt 100 pa.2 s.db (s.requests pa.1) := by
  simp only [listedLate, eachStep_cons, eachStep_nil, and_true]
  refine ⟨trivial, trivial, ?_, trivial, trivial, trivial, ?_, trivial, trivial⟩
  · exact (by decide : (0 : ℤ) ≤ 0 + 100)
  · exact (by decide : (50 : ℤ) ≤ 0 + 100)

theorem listedLate_recent :
    (∃ db rank, During ((cached oneOClock act).Moment (CachedStore.start .empty .idle 0)
        listedLate) (9950 - (100 : ℕ) - 10000) 9950 db ∧
      Listing.read oneOClock ⟨uuidOne, none⟩ db.reservations rank = .ok []) ∧
    (run (Shared.step (cached oneOClock act).step) (CachedStore.start .empty .idle 0)
      listedLate).db.store.reservations.length = 1 :=
  ⟨reservation_listing_recent (p := 2) (l := ⟨uuidOne, none⟩) (by decide) listedLate_allowed
    listedLate_prompt ⟨_, rfl⟩ rfl, rfl⟩

end ReservationService

/-! ## The zone service -/

namespace ZoneService

/-- `listZones` : the zones, then the rules. -/
def listZones (rank : ZoneEntity → ℕ) : Plan ZoneDb Reading :=
  .ask fun db => .ask fun db' =>
    .done (.zones (.ok ((db.zones.insertionSort (CreatedBefore (·.createdAt) rank)).map fun zone =>
      toZoneResponse zone (rulesOf db'.rules zone.id)))) true

/-- `getZone` : the zone, then its rules. -/
def getZone (id : String) : Plan ZoneDb Reading :=
  .ask fun db =>
    match getZoneEntity db id with
    | .error e => .done (.zone (.error e)) false
    | .ok zone => .ask fun db' =>
      match findRules db'.rules id with
      | .error _ => .done (.zone (.error .database)) false
      | .ok rules => .done (.zone (.ok (toZoneResponse zone rules))) true

/-- `getZoneStatus` : one query. -/
def getZoneStatus (id : String) : Plan ZoneDb Reading :=
  .ask fun db =>
    match readStatus db id with
    | .error e => .done (.status (.error e)) false
    | .ok status => .done (.status (.ok status)) true

/-- What a read of a key asks. -/
def ZoneKey.Asks : ZoneKey → Plan ZoneDb Reading → Prop
  | .list, plan => ∃ rank, plan = listZones rank
  | .summary id, plan => plan = getZone id
  | .status id, plan => plan = getZoneStatus id

/-- How long the cache keeps a key. -/
def ZoneKey.ttl : ZoneKey → ℕ
  | .list => 10000
  | .summary _ => 10000
  | .status _ => 5000

/-- The service behind its cache, with some writers. -/
def cached {A Q : Type} (act : A → ZoneDb → Q → ZoneDb × Q) :
    CachedStore A ZoneDb Q ZoneKey Reading where
  act := act
  plans := ZoneKey.Asks
  ttl := ZoneKey.ttl

/-- What an answer says of the states `M`, or, if it was not cached, of the states `N`. -/
def ZoneKey.Shows (M N : ZoneDb → Prop) : ZoneKey → Reading → Prop
  | .list, .zones (.ok zones) => ∃ rank db db', M db ∧ M db' ∧
      zones = (db.zones.insertionSort (CreatedBefore (·.createdAt) rank)).map fun zone =>
        toZoneResponse zone (rulesOf db'.rules zone.id)
  | .summary id, .zone (.ok zone) => ∃ db db' entity rules, M db ∧ M db' ∧
      getZoneEntity db id = .ok entity ∧ findRules db'.rules id = .ok rules ∧
        zone = toZoneResponse entity rules
  | .summary id, .zone (.error e) => ∃ db, N db ∧
      (getZoneEntity db id = .error e ∨ ∃ e', findRules db.rules id = .error e')
  | .status id, .status (.ok shown) => ∃ db, M db ∧ readStatus db id = .ok shown
  | .status id, .status (.error e) => ∃ db, N db ∧ readStatus db id = .error e
  | _, _ => False

/-- What a read makes shows the states it met. -/
theorem ZoneKey.shows_of_gives {M N : ZoneDb → Prop} {key : ZoneKey} {plan : Plan ZoneDb Reading}
    (hplan : key.Asks plan) {answer : Reading} (keep : Bool)
    (h : plan.Gives (if keep then M else N) answer keep) : key.Shows M N answer := by
  cases key with
  | list =>
    obtain ⟨rank, rfl⟩ := hplan
    obtain _ | ⟨db, hdb, h⟩ := h
    obtain _ | ⟨db', hdb', h⟩ := h
    cases h
    exact ⟨rank, db, db', hdb, hdb', rfl⟩
  | summary id =>
    obtain rfl := hplan
    obtain _ | ⟨db, hdb, h⟩ := h
    cases hentity : getZoneEntity db id with
    | error e =>
      simp only [hentity] at h
      cases h
      exact ⟨db, hdb, Or.inl hentity⟩
    | ok entity =>
      simp only [hentity] at h
      obtain _ | ⟨db', hdb', h⟩ := h
      cases hrules : findRules db'.rules id with
      | error e =>
        simp only [hrules] at h
        cases h
        exact ⟨db', hdb', Or.inr ⟨e, hrules⟩⟩
      | ok rules =>
        simp only [hrules] at h
        cases h
        exact ⟨db, db', entity, rules, hdb, hdb', hentity, hrules, rfl⟩
  | status id =>
    obtain rfl := hplan
    obtain _ | ⟨db, hdb, h⟩ := h
    cases hstatus : readStatus db id with
    | error e =>
      simp only [hstatus] at h
      cases h
      exact ⟨db, hdb, hstatus⟩
    | ok status =>
      simp only [hstatus] at h
      cases h
      exact ⟨db, hdb, hstatus⟩

/-- Whatever the writers do, while the calls of each read follow within the delay : the list of
the zones, a zone and a status show states at most their time to live and the delay old, and an
error is of the delay. -/
theorem zone_answers_recent {A Q : Type} {act : A → ZoneDb → Q → ZoneDb × Q} {db : ZoneDb}
    {q : Q} {now : ℤ} {delay : ℕ} {as : List (ℕ × CacheAction A ZoneDb ZoneKey Reading)}
    (has : ∀ pa ∈ as, pa.2.Allowed (cached act))
    (hprompt : EachStep (Shared.step (cached act).step) (CachedStore.start db q now) as
      fun s pa => Prompt delay pa.2 s.db (s.requests pa.1)) {p : ℕ} {key : ZoneKey} {time : ℤ}
    {answer : Reading}
    (h : ((run (Shared.step (cached act).step) (CachedStore.start db q now) as).requests p).2 =
      .answered key time answer) :
    key.Shows
      (During ((cached act).Moment (CachedStore.start db q now) as) (time - delay - key.ttl) time)
      (During ((cached act).Moment (CachedStore.start db q now) as) (time - delay) time)
      answer := by
  have hread := (answered_run has hprompt).2 p
  rw [h] at hread
  obtain ⟨-, keep, plan, hplan, hgives⟩ := hread
  refine ZoneKey.shows_of_gives hplan keep (hgives.mono fun d hd => ?_)
  cases keep with
  | true => exact hd
  | false => exact hd.mono (fun _ _ h => h) (by simp) le_rfl

/-- The tables with a zone. -/
def withZone : ZoneDb :=
  perform .empty (.createZone tenSeats "admin" ⟨0, 0⟩)

/-- A status is read before the zone is closed and filled after the keys went; almost five
seconds later the next reader finds it. -/
def shownLate : List (ℕ × CacheAction Action ZoneDb ZoneKey Reading) :=
  let id := uuidText 1
  [(1, .look (.status id) (getZoneStatus id)), (1, .query), (0, .write (.edit id closing "admin")),
    (0, .write (.saveEdit ⟨1, 1⟩)), (0, .drop fun key => key = .status id), (1, .pass 50),
    (1, .fill), (1, .pass 4900), (2, .look (.status id) (getZoneStatus id))]

theorem shownLate_allowed : ∀ pa ∈ shownLate, pa.2.Allowed (cached act) := by
  simp [shownLate, CacheAction.Allowed, cached, ZoneKey.Asks]

theorem shownLate_prompt : EachStep (Shared.step (cached act).step)
    (CachedStore.start withZone .idle 0) shownLate
      fun s pa => Prompt 100 pa.2 s.db (s.requests pa.1) := by
  simp only [shownLate, eachStep_cons, eachStep_nil, and_true]
  refine ⟨trivial, ?_, trivial, trivial, trivial, trivial, ?_, trivial, trivial⟩
  · exact (by decide : (0 : ℤ) ≤ 0 + 100)
  · exact (by decide : (50 : ℤ) ≤ 0 + 100)

/-- The reader is shown an open zone. -/
theorem shownLate_recent :
    ZoneKey.Shows
      (During ((cached act).Moment (CachedStore.start withZone .idle 0) shownLate)
        (4950 - (100 : ℕ) - (5000 : ℕ)) 4950)
      (During ((cached act).Moment (CachedStore.start withZone .idle 0) shownLate)
        (4950 - (100 : ℕ)) 4950)
      (.status (uuidText 1)) (.status (.ok ⟨1, .open, 0, 10, 0⟩)) ∧
    (run (Shared.step (cached act).step) (CachedStore.start withZone .idle 0)
      shownLate).db.store.zones.map (·.status) = [.closed] :=
  ⟨zone_answers_recent (p := 2) shownLate_allowed shownLate_prompt rfl, rfl⟩

end ZoneService

end Qoms
