import Qoms.Database

/-!
# The outbox table

The queue, reservation and zone services write their events to a table of their own in
the transaction of the change itself. The three `OutboxEventEntity` classes and the three
`createOutbox` methods are the same but for the name of the service, and so are the
methods that the publisher calls : `getPendingOutboxEvents`, `markOutboxPublished`, and
`markOutboxFailed`, which reads the row's attempts (`readAttempts`) and then writes the
next number (`writeAttempts`).

Every update of the table is by id and leaves the event as it is (`updateRow`).
-/

set_option autoImplicit false

namespace Qoms

/-- `OutboxEventEntity`. -/
structure OutboxEvent (K P : Type) where
  id : Uuid
  eventId : Uuid
  eventType : KafkaEventType
  entityId : K
  correlationId : Uuid
  payload : EventEnvelope K P
  publishedAt : Option ℤ
  attempts : ℕ
  lastError : Option String
  createdAt : ℤ
  deriving DecidableEq, Repr

/-- `createOutbox` and the insert of its row : the envelope takes the UUID `uuid`, and the
database fills in the row's id, the next one, and its creation time. -/
def createOutbox {K P : Type} (sourceService : String) (clock : Clock) (uuid : Uuid)
    (eventType : KafkaEventType) (entityId : K) (correlationId : Uuid) (payload : P) :
    OutboxEvent K P :=
  let event := createEventEnvelope clock.now uuid eventType sourceService correlationId entityId
    payload
  { id := uuid + 1
    eventId := event.eventId
    eventType := event.eventType
    entityId := event.entityId
    correlationId := event.correlationId
    payload := event
    publishedAt := none
    attempts := 0
    lastError := none
    createdAt := clock.dbNow }

/-! ## The publisher's methods -/

section

variable {K P : Type}

/-- `getPendingOutboxEvents`' `where`. -/
def OutboxEvent.pending (row : OutboxEvent K P) : Bool :=
  row.publishedAt.isNone && row.attempts < 5

/-- `getPendingOutboxEvents`. -/
def getPendingOutboxEvents (rank : Uuid → ℕ) (limit : ℕ) (rows : List (OutboxEvent K P)) :
    List (OutboxEvent K P) :=
  findOldest (·.pending) (·.createdAt) (fun row => rank row.id) limit rows

/-- `outboxRepository.update({ id }, change)`. -/
def updateRow (id : Uuid) (change : OutboxEvent K P → OutboxEvent K P)
    (rows : List (OutboxEvent K P)) : List (OutboxEvent K P) :=
  rows.map fun row => if row.id = id then change row else row

/-- `markOutboxPublished`. -/
def markOutboxPublished (id : Uuid) (now : ℤ) (rows : List (OutboxEvent K P)) :
    List (OutboxEvent K P) :=
  updateRow id (fun row => { row with publishedAt := some now, attempts := 0, lastError := none })
    rows

/-- The read of `markOutboxFailed`; `none` if there is no such row. -/
def readAttempts (id : Uuid) (rows : List (OutboxEvent K P)) : Option ℕ :=
  (rows.find? (·.id == id)).map (·.attempts)

/-- The write of `markOutboxFailed`, of a row that was read with `attempts`. -/
def writeAttempts (id : Uuid) (attempts : ℕ) (message : String) (rows : List (OutboxEvent K P)) :
    List (OutboxEvent K P) :=
  updateRow id (fun row => { row with attempts := attempts + 1, lastError := some message }) rows

/-! ## What an update changes -/

variable {id : Uuid} {change : OutboxEvent K P → OutboxEvent K P} {rows : List (OutboxEvent K P)}
  {row : OutboxEvent K P}

theorem mem_updateRow : row ∈ updateRow id change rows ↔
    (∃ old ∈ rows, old.id = id ∧ change old = row) ∨ (row ∈ rows ∧ row.id ≠ id) := by
  rw [updateRow, List.mem_map]
  constructor
  · rintro ⟨old, hold, rfl⟩
    split_ifs with hid
    · exact Or.inl ⟨old, hold, hid, rfl⟩
    · exact Or.inr ⟨hold, hid⟩
  · rintro (⟨old, hold, hid, rfl⟩ | ⟨hrow, hid⟩)
    · exact ⟨old, hold, if_pos hid⟩
    · exact ⟨row, hrow, if_neg hid⟩

/-- A row after `markOutboxPublished`. -/
theorem mem_markOutboxPublished {now : ℤ} (h : row ∈ markOutboxPublished id now rows) :
    ∃ old ∈ rows, row = old ∨ (old.id = id ∧
      row = { old with publishedAt := some now, attempts := 0, lastError := none }) := by
  rcases mem_updateRow.mp h with ⟨old, hold, hid, rfl⟩ | ⟨hrow, -⟩
  · exact ⟨old, hold, Or.inr ⟨hid, rfl⟩⟩
  · exact ⟨row, hrow, Or.inl rfl⟩

/-- A row after the write of `markOutboxFailed`. -/
theorem mem_writeAttempts {attempts : ℕ} {message : String}
    (h : row ∈ writeAttempts id attempts message rows) :
    ∃ old ∈ rows, row = old ∨ (old.id = id ∧
      row = { old with attempts := attempts + 1, lastError := some message }) := by
  rcases mem_updateRow.mp h with ⟨old, hold, hid, rfl⟩ | ⟨hrow, -⟩
  · exact ⟨old, hold, Or.inr ⟨hid, rfl⟩⟩
  · exact ⟨row, hrow, Or.inl rfl⟩

theorem readAttempts_eq_some {attempts : ℕ} (h : readAttempts id rows = some attempts) :
    ∃ row ∈ rows, row.id = id ∧ row.attempts = attempts := by
  obtain ⟨row, hfind, rfl⟩ := Option.map_eq_some_iff.mp h
  exact ⟨row, List.mem_of_find?_eq_some hfind, by simpa using List.find?_some hfind, rfl⟩

/-- An update that keeps the ids keeps the list of ids. -/
theorem map_id_updateRow (h : ∀ row, (change row).id = row.id) :
    (updateRow id change rows).map (·.id) = rows.map (·.id) := by
  rw [updateRow, List.map_map]
  refine List.map_congr_left fun row _ => ?_
  rw [Function.comp_apply]
  split_ifs
  · exact h row
  · rfl

/-- An update that keeps the events keeps the list of events. -/
theorem map_payload_updateRow (h : ∀ row, (change row).payload = row.payload) :
    (updateRow id change rows).map (·.payload) = rows.map (·.payload) := by
  rw [updateRow, List.map_map]
  refine List.map_congr_left fun row _ => ?_
  rw [Function.comp_apply]
  split_ifs
  · exact h row
  · rfl

theorem map_id_markOutboxPublished (id : Uuid) (now : ℤ) (rows : List (OutboxEvent K P)) :
    (markOutboxPublished id now rows).map (·.id) = rows.map (·.id) :=
  map_id_updateRow fun _ => rfl

theorem map_id_writeAttempts (id : Uuid) (attempts : ℕ) (message : String)
    (rows : List (OutboxEvent K P)) :
    (writeAttempts id attempts message rows).map (·.id) = rows.map (·.id) :=
  map_id_updateRow fun _ => rfl

theorem map_payload_markOutboxPublished (id : Uuid) (now : ℤ) (rows : List (OutboxEvent K P)) :
    (markOutboxPublished id now rows).map (·.payload) = rows.map (·.payload) :=
  map_payload_updateRow fun _ => rfl

theorem map_payload_writeAttempts (id : Uuid) (attempts : ℕ) (message : String)
    (rows : List (OutboxEvent K P)) :
    (writeAttempts id attempts message rows).map (·.payload) = rows.map (·.payload) :=
  map_payload_updateRow fun _ => rfl

end

end Qoms
