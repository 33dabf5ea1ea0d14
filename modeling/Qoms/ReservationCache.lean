import Qoms.Cache
import Qoms.ReservationRace

/-!
# The reservation service's cache

`getReservationsByZone` answers through Redis. Its key is made of the texts of the request,
`reservation:availability:<zoneId>:<slotStart>`, with `all` where there is no `slotStart`
(`cacheKey`); its query compares values, the zone and the instant the texts spell, and it
takes an empty `slotStart` for none. `createReservation` and `cancelReservation` delete two
keys : `all`, and the slot's start as `toISOString` writes it (`invalidatedKeys`). So a
write does not delete the key of a listing that selects its reservation but spells the
start, or the zone, another way, or leaves the start empty.

A row is inserted active and only ever becomes cancelled, so the rows a listing selects
never come back to what they were : they come further with every write of one of them
(`stage`). An entry that such a write leaves is outdated until it goes, and a listing is
right if and only if the last write that concerns it left no entry under its key : it found none,
or the listing spells the zone as the write's key does and has no start or its `toISOString` text
(`cacheKey_mem_iff`, `listing_iff_spelled`).

How PostgreSQL reads a `timestamptz` is a parameter.
-/

set_option autoImplicit false

namespace Qoms

/-! ## Writing a date -/

/-- The `n` last decimal digits of a number. -/
def decimal : ℕ → ℕ → List Char
  | 0, _ => []
  | n + 1, k => Nat.digitChar (k / 10 ^ n % 10) :: decimal n k

/-- Year, month and day of a day, counted from 1970-01-01. Years start in March here, so
that the leap day is the last of its year, and 400 of them have 146097 days. -/
def civil (day : ℤ) : ℤ × ℕ × ℕ :=
  let era := (day + 719468) / 146097
  let dayOfEra := ((day + 719468) % 146097).toNat
  let yearOfEra := (dayOfEra - dayOfEra / 1460 + dayOfEra / 36524 - dayOfEra / 146096) / 365
  let dayOfYear := dayOfEra - (365 * yearOfEra + yearOfEra / 4 - yearOfEra / 100)
  let month := (5 * dayOfYear + 2) / 153
  let year := yearOfEra + era * 400
  (if month < 10 then year else year + 1, if month < 10 then month + 3 else month - 9,
    dayOfYear - (153 * month + 2) / 5 + 1)

/-- The year of a date : four digits, or a sign and six. -/
def yearText (year : ℤ) : List Char :=
  if 0 ≤ year ∧ year ≤ 9999 then decimal 4 year.toNat
  else (if year < 0 then '-' else '+') :: decimal 6 year.natAbs

/-- `new Date(t).toISOString()`. -/
def toISOString (t : ℤ) : String :=
  let (year, month, day) := civil (t / 86400000)
  let ms := (t % 86400000).toNat
  String.ofList (yearText year ++ '-' :: decimal 2 month ++ '-' :: decimal 2 day ++
    'T' :: decimal 2 (ms / 3600000) ++ ':' :: decimal 2 (ms / 60000 % 60) ++
    ':' :: decimal 2 (ms / 1000 % 60) ++ '.' :: decimal 3 (ms % 1000) ++ ['Z'])

example : toISOString 1709210096789 = "2024-02-29T12:34:56.789Z" := by
  decide

namespace ReservationService

/-! ## Listing a zone's reservations -/

/-- What `toReservationResponse` returns; `createdAt` is in milliseconds. -/
structure ReservationResponse where
  id : Uuid
  zoneId : Uuid
  userId : Uuid
  seatNumber : ℤ
  slotStart : ℤ
  slotEnd : ℤ
  status : ReservationStatus
  createdAt : ℤ
  cancelledAt : Option ℤ
  deriving DecidableEq, Repr

/-- `toReservationResponse`. -/
def toReservationResponse (reservation : ReservationEntity) : ReservationResponse where
  id := reservation.id
  zoneId := reservation.zoneId
  userId := reservation.userId
  seatNumber := reservation.seatNumber
  slotStart := reservation.slotStart
  slotEnd := reservation.slotEnd
  status := reservation.status
  createdAt := reservation.createdAt / 1000
  cancelledAt := reservation.cancelledAt

/-- The parameters of `getReservationsByZone`, as texts. -/
structure Listing where
  zoneId : String
  slotStart : Option String
  deriving DecidableEq, Repr

/-- `reservation:availability:${zoneId}:${slotStart ?? "all"}`. -/
def Listing.cacheKey (l : Listing) : String :=
  "reservation:availability:" ++ (l.zoneId ++ (":" ++ l.slotStart.getD "all"))

section

variable (timestamptzIn : String → Option ℤ)

/-- The rows that the `where` of the query selects, or `none` where the database refuses a
parameter. An instant is in microseconds. -/
def Listing.selects (l : Listing) : Option (ReservationEntity → Bool) := do
  let zoneId ← uuidIn l.zoneId
  let some slotStart := l.slotStart | return fun r => r.zoneId == zoneId
  if slotStart = "" then return fun r => r.zoneId == zoneId
  let instant ← timestamptzIn slotStart
  return fun r => r.zoneId == zoneId && r.slotStart * 1000 == instant

/-- The query; rows of the same start come in the order of a rank. -/
def Listing.read (l : Listing) (rows : List ReservationEntity) (rank : ReservationEntity → ℕ) :
    Except HttpError (List ReservationResponse) := do
  let some selected := l.selects timestamptzIn | throw .database
  return ((rows.filter selected).insertionSort (CreatedBefore (·.slotStart) rank)).map
    toReservationResponse

/-! ## The service -/

/-- The entries of the cache. -/
abbrev ReservationCache := Cache String fun _ => List ReservationResponse

/-- The tables and the cache. -/
structure Service where
  db : ReservationDb
  cache : ReservationCache

/-- `getReservationsByZone`. -/
def Service.getReservationsByZone (s : Service) (l : Listing) (rank : ReservationEntity → ℕ) :
    Except HttpError (List ReservationResponse) × Service :=
  let read := s.cache.fetch l.cacheKey (l.read timestamptzIn s.db.reservations rank)
  (read.1, { s with cache := read.2 })

/-- The keys that `invalidateReservationCache` deletes, but for the user's own. -/
def invalidatedKeys (zoneId : String) (slotStart : ℤ) : List String :=
  [Listing.cacheKey ⟨zoneId, none⟩, Listing.cacheKey ⟨zoneId, some (toISOString slotStart)⟩]

/-- `CreateReservationDto` as the body has it : the zone is a text. -/
structure CreateReservationBody where
  zoneId : String
  slotStart : JsDate
  seatNumber : ℤ

/-- The request, once its zone is read. -/
def CreateReservationBody.dto (body : CreateReservationBody) (zoneId : Uuid) :
    CreateReservationDto :=
  ⟨zoneId, body.slotStart, body.seatNumber⟩

/-- `createReservation`; a zone that is not a UUID fails in the service it is fetched from,
or in the conflict query. -/
def Service.createReservation (s : Service) (body : CreateReservationBody)
    (user : Option RequestUserContext) (env : CreateEnv) (clock : Clock) : Service :=
  match uuidIn body.zoneId with
  | none => s
  | some zoneId =>
    match ReservationService.createReservation s.db (body.dto zoneId) user env clock with
    | (.error _, db) => { s with db := db }
    | (.ok reservation, db) =>
      ⟨db, s.cache.del (invalidatedKeys body.zoneId reservation.slotStart)⟩

/-- `cancelReservation`. -/
def Service.cancelReservation (s : Service) (id : Uuid) (user : Option RequestUserContext)
    (clock : Clock) : Service :=
  match ReservationService.cancelReservation s.db id user clock with
  | (.error _, db) => { s with db := db }
  | (.ok reservation, db) =>
    ⟨db, s.cache.del (invalidatedKeys (uuidText reservation.zoneId) reservation.slotStart)⟩

/-- A request of the service. -/
inductive ServiceOp
  | create (body : CreateReservationBody) (user : Option RequestUserContext) (env : CreateEnv)
      (clock : Clock)
  | cancel (id : Uuid) (user : Option RequestUserContext) (clock : Clock)
  | list (l : Listing) (rank : ReservationEntity → ℕ)

/-- The service after a request. -/
def Service.next (s : Service) : ServiceOp → Service
  | .create body user env clock => s.createReservation body user env clock
  | .cancel id user clock => s.cancelReservation id user clock
  | .list l rank => (s.getReservationsByZone timestamptzIn l rank).2

end

/-! ## What a request writes -/

/-- A committed write : the zone's text in the keys it deletes, and its reservation. -/
structure Written where
  zoneId : String
  reservation : ReservationEntity

/-- The keys that the write deletes. -/
def Written.keys (w : Written) : List String :=
  invalidatedKeys w.zoneId w.reservation.slotStart

/-- The listing spells the zone as the write does, and has no start or the start of the write's
reservation as `toISOString` spells it. -/
def Listing.SpelledAs (l : Listing) (w : Written) : Prop :=
  l.zoneId = w.zoneId ∧
    (l.slotStart = none ∨ l.slotStart = some (toISOString w.reservation.slotStart))

/-- The write that a request commits. -/
def ServiceOp.written (db : ReservationDb) : ServiceOp → Option Written
  | .create body user env clock => do
    let zoneId ← uuidIn body.zoneId
    let reservation ←
      (ReservationService.createReservation db (body.dto zoneId) user env clock).1.toOption
    return ⟨body.zoneId, reservation⟩
  | .cancel id user clock => do
    let reservation ← (ReservationService.cancelReservation db id user clock).1.toOption
    return ⟨uuidText reservation.zoneId, reservation⟩
  | .list _ _ => none

/-- What a request can do : nothing, a listing, or a write that deletes its keys. -/
inductive Serves (timestamptzIn : String → Option ℤ) (s : Service) : ServiceOp → Service → Prop
  | failed {op : ServiceOp} (h : op.written s.db = none) : Serves timestamptzIn s op s
  | listed (l : Listing) (rank : ReservationEntity → ℕ) :
      Serves timestamptzIn s (.list l rank) (s.getReservationsByZone timestamptzIn l rank).2
  | created {op : ServiceOp} {zoneId : String} {slot : Slot} {clock : Clock}
      (h : op.written s.db = some ⟨zoneId, slot.row (s.db.uuids + 1) clock⟩) :
      Serves timestamptzIn s op
        ⟨(insertReservation s.db slot clock).2, s.cache.del (invalidatedKeys zoneId slot.slotStart)⟩
  | cancelled {op : ServiceOp} {zoneId : String} {r : ReservationEntity} {clock : Clock}
      (hr : r ∈ s.db.reservations) (hactive : r.status = .active)
      (h : op.written s.db = some ⟨zoneId, r.cancel clock.now⟩) :
      Serves timestamptzIn s op
        ⟨saveCancelled s.db r clock, s.cache.del (invalidatedKeys zoneId r.slotStart)⟩

/-- A creation fails or inserts its slot. -/
theorem createReservation_eq (db : ReservationDb) (dto : CreateReservationDto)
    (user : Option RequestUserContext) (env : CreateEnv) (clock : Clock) :
    (∃ e, createReservation db dto user env clock = (.error e, db)) ∨
      ∃ slot, createReservation db dto user env clock =
        (.ok (slot.row (db.uuids + 1) clock), (insertReservation db slot clock).2) := by
  unfold createReservation
  cases checkRequest dto user env with
  | error e => exact Or.inl ⟨e, rfl⟩
  | ok slot =>
    cases hconflict : findConflict slot db.reservations with
    | some r => exact Or.inl ⟨_, by simp only [hconflict]; rfl⟩
    | none => exact Or.inr ⟨slot, by simp only [hconflict]; rfl⟩

/-- A cancellation fails or saves an active row as cancelled. -/
theorem cancelReservation_eq (db : ReservationDb) (id : Uuid) (user : Option RequestUserContext)
    (clock : Clock) :
    (∃ e, cancelReservation db id user clock = (.error e, db)) ∨
      ∃ r ∈ db.reservations, r.status = .active ∧
        cancelReservation db id user clock =
          (.ok (r.cancel clock.now), saveCancelled db r clock) := by
  unfold cancelReservation
  cases hfind : findActive db.reservations id user with
  | error e => exact Or.inl ⟨e, rfl⟩
  | ok r =>
    obtain ⟨hmem, -, hactive⟩ := findActive_ok hfind
    exact Or.inr ⟨r, hmem, hactive, rfl⟩

theorem Service.next_serves (timestamptzIn : String → Option ℤ) (s : Service) (op : ServiceOp) :
    Serves timestamptzIn s op (s.next timestamptzIn op) := by
  cases op with
  | list l rank => exact .listed l rank
  | create body user env clock =>
    simp only [Service.next, Service.createReservation]
    cases hzone : uuidIn body.zoneId with
    | none =>
      have hnone : (ServiceOp.create body user env clock).written s.db = none := by
        simp [ServiceOp.written, hzone]
      exact .failed hnone
    | some zoneId =>
      rcases createReservation_eq s.db (body.dto zoneId) user env clock with
        ⟨e, heq⟩ | ⟨slot, heq⟩
      · have hnone : (ServiceOp.create body user env clock).written s.db = none := by
          simp [ServiceOp.written, hzone, heq, Except.toOption]
        simp only [heq]
        exact .failed hnone
      · have hsome : (ServiceOp.create body user env clock).written s.db =
            some ⟨body.zoneId, slot.row (s.db.uuids + 1) clock⟩ := by
          simp [ServiceOp.written, hzone, heq, Except.toOption]
        simp only [heq]
        exact .created hsome
  | cancel id user clock =>
    simp only [Service.next, Service.cancelReservation]
    rcases cancelReservation_eq s.db id user clock with ⟨e, heq⟩ | ⟨r, hmem, hactive, heq⟩
    · have hnone : (ServiceOp.cancel id user clock).written s.db = none := by
        simp [ServiceOp.written, heq, Except.toOption]
      simp only [heq]
      exact .failed hnone
    · have hsome : (ServiceOp.cancel id user clock).written s.db =
          some ⟨uuidText r.zoneId, r.cancel clock.now⟩ := by
        simp [ServiceOp.written, heq, Except.toOption, ReservationEntity.cancel]
      simp only [heq]
      exact .cancelled hmem hactive hsome

/-! ## Keys -/

/-- Reading bytes stops at a colon. -/
theorem colon_of_readBytes {n acc u : ℕ} {cs rest : List Char}
    (h : readBytes n acc cs = some (u, rest)) (hcolon : ':' ∈ cs) : ':' ∈ rest := by
  induction n generalizing acc cs with
  | zero =>
    obtain ⟨-, rfl⟩ : acc = u ∧ cs = rest := by simpa [readBytes] using h
    exact hcolon
  | succ n ih =>
    rcases cs with _ | ⟨a, _ | ⟨b, cs⟩⟩
    · simp at hcolon
    · simp [readBytes] at h
    · have hnone : hexDigit ':' = none := by decide
      have ha : ':' ≠ a := by
        rintro rfl
        simp [readBytes, hnone] at h
      have hb : ':' ≠ b := by
        rintro rfl
        cases hhi : hexDigit a <;> simp [readBytes, hnone, hhi] at h
      have hrest : ':' ∈ skipHyphen n cs := by
        have hcs : ':' ∈ cs := by simpa [ha, hb] using hcolon
        unfold skipHyphen
        split
        · split_ifs
          · simpa using hcs
          · exact hcs
        · exact hcs
      simp only [readBytes, Option.bind_eq_bind, Option.bind_eq_some_iff] at h
      obtain ⟨hi, -, lo, -, h⟩ := h
      exact ih h hrest

/-- A text that spells a UUID has no colon. -/
theorem colon_notMem_of_uuidIn {text : String} {u : Uuid} (h : uuidIn text = some u) :
    ':' ∉ text.toList := by
  intro hcolon
  unfold uuidIn at h
  split at h
  · rename_i cs heq
    have hcs : ':' ∈ cs := by simpa [heq] using hcolon
    split at h
    · rename_i hread
      simpa using colon_of_readBytes hread hcs
    · cases h
  · split at h
    · rename_i hread
      simpa using colon_of_readBytes hread hcolon
    · cases h

/-- Two texts with a separator after a first part that has none are cut the same way. -/
theorem append_cons_inj {a : Char} {x x' z z' : List Char} (hx : a ∉ x) (hx' : a ∉ x')
    (h : x ++ a :: z = x' ++ a :: z') : x = x' ∧ z = z' := by
  induction x generalizing x' with
  | nil =>
    cases x' with
    | nil => exact ⟨rfl, (List.cons.inj h).2⟩
    | cons b x' =>
      obtain ⟨rfl, -⟩ := List.cons.inj h
      simp at hx'
  | cons b x ih =>
    cases x' with
    | nil =>
      obtain ⟨rfl, -⟩ := List.cons.inj h
      simp at hx
    | cons b' x' =>
      obtain ⟨rfl, htail⟩ := List.cons.inj h
      obtain ⟨rfl, rfl⟩ := ih (fun hmem => hx (List.mem_cons_of_mem _ hmem))
        (fun hmem => hx' (List.mem_cons_of_mem _ hmem)) htail
      exact ⟨rfl, rfl⟩

section

variable {timestamptzIn : String → Option ℤ}

/-- The database reads both parameters of the listing. -/
def Listing.Accepted (timestamptzIn : String → Option ℤ) (l : Listing) : Prop :=
  ∃ selected, l.selects timestamptzIn = some selected

theorem Listing.Accepted.uuidIn {l : Listing} (h : l.Accepted timestamptzIn) :
    ∃ zoneId, Qoms.uuidIn l.zoneId = some zoneId := by
  obtain ⟨selected, h⟩ := h
  simp only [Listing.selects, Option.bind_eq_bind, Option.bind_eq_some_iff] at h
  obtain ⟨zoneId, hzone, -⟩ := h
  exact ⟨zoneId, hzone⟩

/-- The text `all` is no instant, so that a listing with it is refused. -/
theorem Listing.Accepted.ne_all {l : Listing} (h : l.Accepted timestamptzIn)
    (hall : timestamptzIn "all" = none) : l.slotStart ≠ some "all" := by
  intro hslot
  obtain ⟨selected, h⟩ := h
  obtain ⟨zoneId, hzone⟩ := Listing.Accepted.uuidIn ⟨selected, h⟩
  simp [Listing.selects, hzone, hslot, hall] at h

/-- The key gives back the texts of a listing whose zone has no colon. -/
theorem Listing.cacheKey_inj {l l' : Listing} (h : ':' ∉ l.zoneId.toList)
    (h' : ':' ∉ l'.zoneId.toList) : l.cacheKey = l'.cacheKey ↔
      l.zoneId = l'.zoneId ∧ l.slotStart.getD "all" = l'.slotStart.getD "all" := by
  constructor
  · intro hkey
    have hchars : l.zoneId.toList ++ ':' :: (l.slotStart.getD "all").toList =
        l'.zoneId.toList ++ ':' :: (l'.slotStart.getD "all").toList := by
      have hcolon : ":".toList = [':'] := by decide
      have htexts := congrArg String.toList ((String.append_right_inj _).mp hkey)
      rw [String.toList_append, String.toList_append, String.toList_append, String.toList_append,
        hcolon] at htexts
      exact htexts
    obtain ⟨hzones, hslots⟩ := append_cons_inj h h' hchars
    exact ⟨String.toList_injective hzones, String.toList_injective hslots⟩
  · rintro ⟨hzone, hslot⟩
    unfold Listing.cacheKey
    rw [hzone, hslot]

/-- Listings that the database accepts have keys of their own. -/
theorem Listing.Accepted.eq_of_cacheKey {l l' : Listing} (h : l.Accepted timestamptzIn)
    (h' : l'.Accepted timestamptzIn) (hall : timestamptzIn "all" = none)
    (hkey : l.cacheKey = l'.cacheKey) : l = l' := by
  obtain ⟨zoneId, hzone⟩ := h.uuidIn
  obtain ⟨zoneId', hzone'⟩ := h'.uuidIn
  obtain ⟨hzones, hslots'⟩ := (Listing.cacheKey_inj (colon_notMem_of_uuidIn hzone)
    (colon_notMem_of_uuidIn hzone')).mp hkey
  obtain ⟨z, slot⟩ := l
  obtain ⟨z', slot'⟩ := l'
  obtain rfl : z = z' := hzones
  have hne := h.ne_all hall
  have hne' := h'.ne_all hall
  cases slot with
  | none =>
    cases slot' with
    | none => rfl
    | some text' =>
      obtain rfl : "all" = text' := hslots'
      exact absurd rfl hne'
  | some text =>
    cases slot' with
    | none =>
      obtain rfl : text = "all" := hslots'
      exact absurd rfl hne
    | some text' =>
      obtain rfl : text = text' := hslots'
      rfl

/-- A committed write knows its zone by the text of a UUID. -/
theorem ServiceOp.colon_notMem_written {op : ServiceOp} {db : ReservationDb} {w : Written}
    (h : op.written db = some w) : ':' ∉ w.zoneId.toList := by
  cases op with
  | create body user env clock =>
    obtain ⟨zoneId, hzone, h⟩ := Option.bind_eq_some_iff.mp h
    obtain ⟨reservation, -, h⟩ := Option.bind_eq_some_iff.mp h
    obtain rfl : _ = w := Option.some.inj h
    exact colon_notMem_of_uuidIn hzone
  | cancel id user clock =>
    obtain ⟨reservation, -, h⟩ := Option.bind_eq_some_iff.mp h
    obtain rfl : _ = w := Option.some.inj h
    exact colon_notMem_of_uuidIn (uuidIn_uuidText reservation.zoneId)
  | list l rank => cases h

/-- A write deletes the key of a listing just when the listing is spelled as the write is. -/
theorem cacheKey_mem_iff {l : Listing} (hl : l.Accepted timestamptzIn)
    (hall : timestamptzIn "all" = none) {op : ServiceOp} {db : ReservationDb} {w : Written}
    (hw : op.written db = some w) : l.cacheKey ∈ w.keys ↔ l.SpelledAs w := by
  obtain ⟨zoneId, hzone⟩ := hl.uuidIn
  have hcolon := colon_notMem_of_uuidIn hzone
  have hcolon' := ServiceOp.colon_notMem_written hw
  have hne := hl.ne_all hall
  rw [Written.keys, invalidatedKeys, List.mem_cons, List.mem_singleton,
    @Listing.cacheKey_inj l ⟨w.zoneId, none⟩ hcolon hcolon',
    @Listing.cacheKey_inj l ⟨w.zoneId, some _⟩ hcolon hcolon', ← and_or_left, Listing.SpelledAs]
  refine and_congr_right fun _ => ?_
  cases hslot : l.slotStart with
  | none => simp
  | some text =>
    have hall' : text ≠ "all" := fun heq => hne (hslot.trans (congrArg some heq))
    simp [hall']

end

/-! ## How far the rows of a listing have come -/

/-- A listed reservation counts once, and once more when it is cancelled. -/
def stageOf (listed : List ReservationResponse) : ℕ :=
  2 * listed.length - listed.countP (·.status == .active)

/-- Selected and active. -/
def selectedActive (selected : ReservationEntity → Bool) (r : ReservationEntity) : Bool :=
  r.status == .active && selected r

/-- The same for the selected rows of the table. -/
def stage (selected : ReservationEntity → Bool) (rows : List ReservationEntity) : ℕ :=
  2 * rows.countP selected - rows.countP (selectedActive selected)

section

variable {timestamptzIn : String → Option ℤ} {l : Listing} {selected : ReservationEntity → Bool}
  {rows rows' : List ReservationEntity} {r : ReservationEntity}

theorem Listing.read_eq (hsel : l.selects timestamptzIn = some selected)
    (rank : ReservationEntity → ℕ) : l.read timestamptzIn rows rank =
      .ok (((rows.filter selected).insertionSort (CreatedBefore (·.slotStart) rank)).map
        toReservationResponse) := by
  rw [Listing.read, hsel]
  rfl

/-- Whether a row is selected depends on its zone and its start. -/
theorem Listing.selects_congr (hsel : l.selects timestamptzIn = some selected)
    {a b : ReservationEntity} (hzone : a.zoneId = b.zoneId) (hstart : a.slotStart = b.slotStart) :
    selected a = selected b := by
  simp only [Listing.selects, Option.bind_eq_bind, Option.bind_eq_some_iff] at hsel
  obtain ⟨zoneId, -, hsel⟩ := hsel
  split at hsel
  · split_ifs at hsel
    · obtain rfl := Option.some.inj hsel
      simp [hzone]
    · simp only [Option.bind_eq_some_iff] at hsel
      obtain ⟨instant, -, hsel⟩ := hsel
      obtain rfl := Option.some.inj hsel
      simp [hzone, hstart]
  · obtain rfl := Option.some.inj hsel
    simp [hzone]

theorem selectedActive_le (selected : ReservationEntity → Bool) (rows : List ReservationEntity) :
    rows.countP (selectedActive selected) ≤ rows.countP selected := by
  refine List.countP_mono_left fun r _ hr => ?_
  rw [selectedActive, Bool.and_eq_true] at hr
  exact hr.2

/-- What a listing returns has come as far as the rows it was read from. -/
theorem stageOf_read (hsel : l.selects timestamptzIn = some selected)
    {rank : ReservationEntity → ℕ} {v : List ReservationResponse}
    (h : l.read timestamptzIn rows rank = .ok v) : stageOf v = stage selected rows := by
  rw [Listing.read_eq hsel] at h
  obtain rfl := Except.ok.inj h
  have hactive : ((rows.filter selected).insertionSort
      (CreatedBefore (·.slotStart) rank)).countP (fun r => r.status == .active) =
        rows.countP (selectedActive selected) := by
    rw [(List.perm_insertionSort _ _).countP_eq, List.countP_filter]
    rfl
  rw [stageOf, stage, List.length_map, List.length_insertionSort, ← List.countP_eq_length_filter,
    List.countP_map, ← hactive]
  rfl

/-- What a write of the reservation `r` does to the selected rows. -/
structure Advances (selected : ReservationEntity → Bool) (rows rows' : List ReservationEntity)
    (r : ReservationEntity) : Prop where
  le : stage selected rows ≤ stage selected rows'
  lt : selected r = true → stage selected rows < stage selected rows'
  same : selected r = false → rows'.filter selected = rows.filter selected

theorem Advances.insert (hactive : r.status = .active) :
    Advances selected rows (rows ++ [r]) r := by
  have hle := selectedActive_le selected rows
  have hstep : stage selected (rows ++ [r]) =
      stage selected rows + if selected r then 1 else 0 := by
    simp only [stage, List.countP_append, List.countP_singleton, selectedActive, hactive,
      beq_self_eq_true, Bool.true_and]
    split_ifs
    · omega
    · omega
  refine ⟨by omega, fun hr => ?_, fun hr => ?_⟩
  · rw [hstep, if_pos hr]
    omega
  · simp [List.filter_append, hr]

/-- Cancelling a stored reservation. -/
theorem Advances.cancel {n : ℕ} (hsel : l.selects timestamptzIn = some selected)
    (hkeyed : Keyed (·.id) rows n) (hr : r ∈ rows) (hactive : r.status = .active) (now : ℤ) :
    Advances selected rows (saveRow (·.id) (r.cancel now) rows) (r.cancel now) := by
  have hcancel : selected (r.cancel now) = selected r := Listing.selects_congr hsel rfl rfl
  have hrow : ∀ x ∈ rows, x.id = (r.cancel now).id → x = r := fun x hx hid =>
    hkeyed.eq_of_id_eq hx hr hid
  have hselected : ∀ x ∈ rows,
      selected (if x.id = (r.cancel now).id then r.cancel now else x) = selected x := by
    intro x hx
    split_ifs with hid
    · rw [hcancel, hrow x hx hid]
    · rfl
  have hcount : (saveRow (·.id) (r.cancel now) rows).countP selected = rows.countP selected := by
    rw [saveRow, List.countP_map]
    exact List.countP_congr fun x hx => by rw [Function.comp_apply, hselected x hx]
  have hdead : selectedActive selected (r.cancel now) = false := rfl
  have hactives : (saveRow (·.id) (r.cancel now) rows).countP (selectedActive selected) +
      rows.countP (fun x => x.id == (r.cancel now).id && selectedActive selected x) =
        rows.countP (selectedActive selected) := countP_saveRow_add hdead rows
  have hle := selectedActive_le selected rows
  refine ⟨by simp only [stage]; omega, fun hs => ?_, fun hs => ?_⟩
  · have hrsel : selectedActive selected r = true := by
      rw [selectedActive, hactive, ← hcancel, hs]
      rfl
    have hpos : 0 < rows.countP fun x =>
        x.id == (r.cancel now).id && selectedActive selected x :=
      List.countP_pos_iff.mpr ⟨r, hr, by simp [hrsel, ReservationEntity.cancel]⟩
    simp only [stage]
    omega
  · have hkept : ∀ x ∈ rows.filter selected,
        (if x.id = (r.cancel now).id then r.cancel now else x) = x := by
      intro x hx
      obtain ⟨hx, hxsel⟩ := List.mem_filter.mp hx
      refine if_neg fun hid => ?_
      rw [hrow x hx hid, ← hcancel, hs] at hxsel
      exact Bool.false_ne_true hxsel
    have hfilter : rows.filter (selected ∘ fun x =>
        if x.id = (r.cancel now).id then r.cancel now else x) = rows.filter selected :=
      List.filter_congr hselected
    rw [saveRow, List.filter_map, hfilter, List.map_congr_left hkept, List.map_id']

end

/-! ## A listing that is right -/

/-- The query could return this list now. -/
def Listing.Current (timestamptzIn : String → Option ℤ) (l : Listing)
    (rows : List ReservationEntity)
    (listed : Except HttpError (List ReservationResponse)) : Prop :=
  ∃ rank, listed = l.read timestamptzIn rows rank

/-- The query of the listing selects the reservation. -/
def Listing.Selects (timestamptzIn : String → Option ℤ) (l : Listing) (r : ReservationEntity) :
    Prop :=
  ∃ selected, l.selects timestamptzIn = some selected ∧ selected r = true

/-- The request commits a write that concerns the listing : of a reservation it selects, or
one that it is spelled as. -/
def Concerns (timestamptzIn : String → Option ℤ) (l : Listing) (s : Service) (op : ServiceOp) :
    Prop :=
  ∃ w, op.written s.db = some w ∧ (l.Selects timestamptzIn w.reservation ∨ l.SpelledAs w)

/-- There was no entry under the key of the listing, or the listing is spelled as the request's
write. -/
def Spelled (l : Listing) (s : Service) (op : ServiceOp) : Prop :=
  s.cache l.cacheKey = none ∨ ∃ w, op.written s.db = some w ∧ l.SpelledAs w

/-- The entry under the key of the listing, if any, is current. -/
def Right (timestamptzIn : String → Option ℤ) (l : Listing) (s : Service) : Prop :=
  ∀ v, s.cache l.cacheKey = some v → l.Current timestamptzIn s.db.reservations (.ok v)

/-- The rows have distinct ids, and an entry under the key of the listing was read from
rows that have only come further since. -/
structure Inv (l : Listing) (selected : ReservationEntity → Bool) (s : Service) : Prop where
  keyed : s.db.Keyed
  stage_le : ∀ v, s.cache l.cacheKey = some v → stageOf v ≤ stage selected s.db.reservations

section

variable {timestamptzIn : String → Option ℤ} {l l' : Listing}
  {selected : ReservationEntity → Bool} {s : Service} {db' : ReservationDb} {w : Written}

theorem Listing.selects_iff (hsel : l.selects timestamptzIn = some selected)
    {r : ReservationEntity} : l.Selects timestamptzIn r ↔ selected r = true := by
  constructor
  · rintro ⟨f, hf, hr⟩
    obtain rfl := Option.some.inj (hsel.symm.trans hf)
    exact hr
  · exact fun hr => ⟨selected, hsel, hr⟩

/-- A listing is answered right if and only if the entry it finds, if any, is current. -/
theorem current_iff_right (s : Service) (l : Listing) (rank : ReservationEntity → ℕ) :
    l.Current timestamptzIn s.db.reservations
        (s.getReservationsByZone timestamptzIn l rank).1 ↔ Right timestamptzIn l s := by
  unfold Service.getReservationsByZone Cache.fetch Right
  cases s.cache l.cacheKey with
  | some v => simp
  | none =>
    cases hread : l.read timestamptzIn s.db.reservations rank with
    | ok v => simpa using ⟨rank, hread.symm⟩
    | error e => simpa using ⟨rank, hread.symm⟩

/-- A step under way keeps the invariant; one that concerns the listing leaves it right just
when it is spelled as the write, or had no entry, and any other leaves it as it was. -/
structure Keeps (timestamptzIn : String → Option ℤ) (l : Listing)
    (selected : ReservationEntity → Bool) (s : Service) (op : ServiceOp) (s' : Service) : Prop where
  inv : Inv l selected s'
  concerned : Concerns timestamptzIn l s op → (Right timestamptzIn l s' ↔ Spelled l s op)
  unconcerned : ¬Concerns timestamptzIn l s op →
    (Right timestamptzIn l s' ↔ Right timestamptzIn l s)

theorem Keeps.failed (hinv : Inv l selected s) {op : ServiceOp} (h : op.written s.db = none) :
    Keeps timestamptzIn l selected s op s where
  inv := hinv
  concerned := by
    rintro ⟨w, hw, -⟩
    rw [h] at hw
    cases hw
  unconcerned _ := Iff.rfl

/-- A listing fills its own key only, with what it read. -/
theorem Keeps.listed (hsel : l.selects timestamptzIn = some selected)
    (hall : timestamptzIn "all" = none) (hinv : Inv l selected s) (l' : Listing)
    (rank : ReservationEntity → ℕ) : Keeps timestamptzIn l selected s (.list l' rank)
      (s.getReservationsByZone timestamptzIn l' rank).2 := by
  have hnone : ¬Concerns timestamptzIn l s (.list l' rank) := by
    rintro ⟨w, hw, -⟩
    cases hw
  unfold Service.getReservationsByZone
  rcases Cache.fetch_snd s.cache l'.cacheKey (l'.read timestamptzIn s.db.reservations rank) with
    heq | ⟨v, hget, hread, heq⟩
  · simp only [heq]
    exact ⟨hinv, fun h => absurd h hnone, fun _ => Iff.rfl⟩
  · simp only [heq]
    by_cases hkey : l.cacheKey = l'.cacheKey
    · -- the database answered it, so it is the listing itself
      have haccepted : l'.Accepted timestamptzIn := by
        cases hsel' : l'.selects timestamptzIn with
        | none => simp [Listing.read, hsel'] at hread
        | some f => exact ⟨f, hsel'⟩
      obtain rfl := Listing.Accepted.eq_of_cacheKey ⟨selected, hsel⟩ haccepted hall hkey
      refine ⟨⟨hinv.keyed, fun v' hv' => ?_⟩, fun h => absurd h hnone,
        fun _ => iff_of_true (fun v' hv' => ?_) (fun v' hv' => ?_)⟩
      · obtain rfl : v = v' := by simpa using hv'
        exact (stageOf_read hsel hread).le
      · obtain rfl : v = v' := by simpa using hv'
        exact ⟨rank, hread.symm⟩
      · rw [hget] at hv'
        cases hv'
    · have hsame := Cache.set_of_ne s.cache v hkey
      refine ⟨⟨hinv.keyed, fun v' hv' => hinv.stage_le v' (hsame.symm.trans hv')⟩,
        fun h => absurd h hnone, fun _ => ?_⟩
      simp only [Right, hsame]

/-- A write deletes its keys and lets the rows it selects come further. -/
theorem Keeps.written (hsel : l.selects timestamptzIn = some selected)
    (hall : timestamptzIn "all" = none) (hinv : Inv l selected s)
    {op : ServiceOp} (hw : op.written s.db = some w) (hkeyed : db'.Keyed)
    (hadv : Advances selected s.db.reservations db'.reservations w.reservation) :
    Keeps timestamptzIn l selected s op ⟨db', s.cache.del w.keys⟩ := by
  have hwritten : ∀ w', op.written s.db = some w' ↔ w' = w := fun w' => by
    rw [hw]
    exact ⟨fun h => (Option.some.inj h).symm, fun h => congrArg some h.symm⟩
  have hkeys : l.cacheKey ∈ w.keys ↔ l.SpelledAs w := cacheKey_mem_iff ⟨selected, hsel⟩ hall hw
  have hconcerns : Concerns timestamptzIn l s op ↔
      selected w.reservation = true ∨ l.cacheKey ∈ w.keys := by
    simp [Concerns, hwritten, Listing.selects_iff hsel, hkeys]
  have hspelled : Spelled l s op ↔ s.cache l.cacheKey = none ∨ l.cacheKey ∈ w.keys := by
    simp [Spelled, hwritten, hkeys]
  by_cases hkey : l.cacheKey ∈ w.keys
  · have hgone : ∀ v, s.cache.del w.keys l.cacheKey ≠ some v := fun v => by
      rw [Cache.del_of_mem s.cache hkey]
      exact (Option.some_ne_none v).symm
    exact ⟨⟨hkeyed, fun v hv => absurd hv (hgone v)⟩,
      fun _ => iff_of_true (fun v hv => absurd hv (hgone v)) (hspelled.mpr (Or.inr hkey)),
      fun h => absurd (hconcerns.mpr (Or.inr hkey)) h⟩
  · have hsame := Cache.del_of_not_mem s.cache hkey
    refine ⟨⟨hkeyed, fun v hv => (hinv.stage_le v (hsame.symm.trans hv)).trans hadv.le⟩,
      fun h => ?_, fun h => ?_⟩
    · have hselected := (hconcerns.mp h).resolve_right hkey
      rw [hspelled, or_iff_left hkey]
      cases hget : s.cache l.cacheKey with
      | none => exact iff_of_true (fun v hv => by simp [hsame, hget] at hv) rfl
      | some v =>
        -- the entry was read from rows that had not come as far
        refine iff_of_false (fun hright => ?_) (Option.some_ne_none v)
        obtain ⟨rank, hread⟩ := hright v (hsame.trans hget)
        have hnow := stageOf_read hsel hread.symm
        have hthen := hinv.stage_le v hget
        have hlt := hadv.lt hselected
        simp only at hnow
        omega
    · have hunselected : selected w.reservation = false := by
        rw [← Bool.not_eq_true]
        exact fun hselected => h (hconcerns.mpr (Or.inl hselected))
      simp only [Right, hsame, Listing.Current, Listing.read_eq hsel, hadv.same hunselected]

theorem Serves.keeps {op : ServiceOp} {s' : Service} (h : Serves timestamptzIn s op s')
    (hsel : l.selects timestamptzIn = some selected) (hall : timestamptzIn "all" = none)
    (hinv : Inv l selected s) : Keeps timestamptzIn l selected s op s' := by
  cases h with
  | failed h => exact .failed hinv h
  | listed l' rank => exact .listed hsel hall hinv l' rank
  | @created _ zoneId slot clock h =>
    obtain ⟨hle, hlt⟩ := row_drawn s.db slot clock
    exact .written (w := ⟨zoneId, slot.row (s.db.uuids + 1) clock⟩) hsel hall hinv h
      (hinv.keyed.insert hle hlt) (.insert rfl)
  | @cancelled _ zoneId r clock hr hactive h =>
    have hdrawn : (r.cancel clock.now).id < s.db.uuids := hinv.keyed.fresh r hr
    have hle : s.db.uuids ≤ (saveCancelled s.db r clock).uuids := Nat.le_add_right _ 3
    exact .written (w := ⟨zoneId, r.cancel clock.now⟩) hsel hall hinv h
      (hinv.keyed.saveRow hdrawn hle) (.cancel hsel hinv.keyed hr hactive clock.now)

end

/-- After any run from an empty cache, a listing the database accepts returns what the
query returns then if and only if the last write that concerns it found no entry under its key, or
has the zone's text of the listing, which has no start or the `toISOString` text of the write's. -/
theorem listing_iff_spelled (timestamptzIn : String → Option ℤ)
    (hall : timestamptzIn "all" = none) {db : ReservationDb} (hdb : db.Keyed)
    (ops : List ServiceOp) {l : Listing} (hl : l.Accepted timestamptzIn)
    (rank : ReservationEntity → ℕ) :
    l.Current timestamptzIn
        (run (Service.next timestamptzIn) ⟨db, Cache.empty⟩ ops).db.reservations
        ((run (Service.next timestamptzIn) ⟨db, Cache.empty⟩ ops).getReservationsByZone
          timestamptzIn l rank).1 ↔
      LastStep (Service.next timestamptzIn) ⟨db, Cache.empty⟩ ops (Concerns timestamptzIn l)
        (Spelled l) := by
  obtain ⟨selected, hsel⟩ := hl
  rw [current_iff_right]
  have hkeeps : ∀ s op, Inv l selected s →
      Keeps timestamptzIn l selected s op (s.next timestamptzIn op) := fun _ op hinv =>
    (Service.next_serves timestamptzIn _ op).keeps hsel hall hinv
  exact run_iff_lastStep (fun _ => True) (Inv l selected) _ _ _
    (fun s op _ hinv => (hkeeps s op hinv).inv) (fun s op hinv h => (hkeeps s op hinv).concerned h)
    (fun s op hinv h => (hkeeps s op hinv).unconcerned h)
    ⟨hdb, fun _ hv => by cases hv⟩ (fun _ hv => by cases hv) fun _ _ => trivial

/-- Two texts of one o'clock, as PostgreSQL reads them. -/
def oneOClock (text : String) : Option ℤ :=
  if text = "1970-01-01T01:00:00Z" ∨ text = "1970-01-01T01:00:00.000Z" then some 3600000000
  else none

/-- Seat 2 of the zone 1 from one o'clock, as a body. -/
def seatTwoBody : CreateReservationBody :=
  ⟨uuidOne, seatTwo.slotStart, seatTwo.seatNumber⟩

/-- The zone's reservations, with an empty `slotStart`. -/
def emptyStart : Listing :=
  ⟨uuidOne, some ""⟩

/-- Those from one o'clock, without the milliseconds. -/
def shortStart : Listing :=
  ⟨uuidOne, some "1970-01-01T01:00:00Z"⟩

/-- A listing, and a booking after it. -/
def listedThenBooked (l : Listing) : List ServiceOp :=
  [.list l fun _ => 0,
    .create seatTwoBody (some ⟨1, .student⟩) ⟨true, some hourZone, 0⟩ ⟨1, 1⟩]

/-- The service after both. -/
def afterBooking (l : Listing) : Service :=
  run (Service.next oneOClock) ⟨.empty, Cache.empty⟩ (listedThenBooked l)

/-- With an empty `slotStart`, the listing from before the booking is returned after it. -/
theorem emptyStart_outdated : emptyStart.Accepted oneOClock ∧
    ¬emptyStart.Current oneOClock (afterBooking emptyStart).db.reservations
      ((afterBooking emptyStart).getReservationsByZone oneOClock emptyStart fun _ => 0).1 := by
  have hcached : ((afterBooking emptyStart).getReservationsByZone oneOClock emptyStart
      fun _ => 0).1 = .ok [] := rfl
  refine ⟨⟨_, rfl⟩, ?_⟩
  rintro ⟨rank, h⟩
  rw [hcached] at h
  have hread : [] = _ := Except.ok.inj h
  cases hread

/-- The start spelled another way. -/
theorem shortStart_iff : (oneOClock "all" = none ∧ ReservationDb.empty.Keyed ∧
    shortStart.Accepted oneOClock) ∧
    (shortStart.Current oneOClock (afterBooking shortStart).db.reservations
        ((afterBooking shortStart).getReservationsByZone oneOClock shortStart fun _ => 0).1 ↔
      LastStep (Service.next oneOClock) ⟨.empty, Cache.empty⟩ (listedThenBooked shortStart)
        (Concerns oneOClock shortStart) (Spelled shortStart)) := by
  have hall : oneOClock "all" = none := by decide
  have hdb : ReservationDb.empty.Keyed := Keyed.nil
  have haccepted : shortStart.Accepted oneOClock := ⟨_, rfl⟩
  unfold afterBooking
  exact ⟨⟨hall, hdb, haccepted⟩,
    listing_iff_spelled oneOClock hall hdb (listedThenBooked shortStart) haccepted _⟩

end ReservationService

end Qoms
