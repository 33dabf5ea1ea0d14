import Qoms.ZoneRace

/-!
# Deliveries of the same occupancy event

An occupancy event can be delivered any number of times, and two deliveries of it can be
under way at once. The lookup among the processed events is then of no use : both find
nothing. What stops the second is the unique constraint, since its transaction saves the
zone and the outbox events only together with a row of the event id (`saveOccupancy`).

So a delivery that changes anything leaves its event processed, and where the event is
processed no delivery of it changes anything (`Effect.saves`, `saveOccupancy_new`). The
records of an event are as many as its processed rows (`Once`), which are one at most
(`handledOnce`).
-/

set_option autoImplicit false

namespace Qoms.ZoneService

/-! ## What a delivery leaves behind -/

/-- The rows of an event among the processed ones. -/
def ZoneDb.processedRows (db : ZoneDb) (eventId : Uuid) : ℕ :=
  (db.processed.map (·.eventId)).count eventId

/-- An outbox record of the type, with the event as its source. -/
def isRecord (eventType : KafkaEventType) (eventId : Uuid) (row : OutboxEvent Uuid ZonePayload) :
    Bool :=
  row.eventType == eventType && row.payload.payload.sourceEventId == some eventId

/-- The outbox records of the type with the event as their source. -/
def ZoneDb.records (db : ZoneDb) (eventType : KafkaEventType) (eventId : Uuid) : ℕ :=
  db.outbox.countP (isRecord eventType eventId)

section

variable {db db' : ZoneDb} {zone : ZoneEntity} {actorId : String} {clock : Clock}
  {event : OccupancyEnvelope} {rules : Option ZoneRuleEntity}

/-- The event of an edit has no source. -/
theorem saveEdit_records (h : saveEdit db zone actorId clock = .ok db')
    (eventType : KafkaEventType) (eventId : Uuid) :
    db'.records eventType eventId = db.records eventType eventId := by
  obtain ⟨zones, -, rfl⟩ := saveEdit_eq_ok h
  simp [ZoneDb.records, isRecord, createOutbox, createEventEnvelope]

/-- The outbox of a delivery that saves : one record of the zone's status, and one of its
overload if that is new. -/
theorem saveOccupancy_outbox (h : saveOccupancy db event zone rules clock = .ok db') :
    ∃ statusChanged overloaded, isRecord .zoneStatusChanged event.eventId statusChanged = true ∧
      isRecord .zoneOverloaded event.eventId overloaded = true ∧ overloaded.entityId = zone.id ∧
      db'.outbox = db.outbox ++ statusChanged ::
        if zone.status ≠ .overloaded ∧
            (zone.applyOccupancy rules (occupancyOf event)).status = .overloaded then
          [overloaded] else [] := by
  simp only [saveOccupancy, bind_eq_ok, throw_bind, throw_if_eq_ok, pure_eq_ok] at h
  obtain ⟨zones, -, -, rfl⟩ := h
  refine ⟨_, _, ?_, ?_, rfl, rfl⟩
  · simp [isRecord, createOutbox, createEventEnvelope]
  · simp [isRecord, createOutbox, createEventEnvelope]

/-- A record is of one type and one source. -/
theorem isRecord_of_isRecord {eventType eventType' : KafkaEventType} {eventId eventId' : Uuid}
    {row : OutboxEvent Uuid ZonePayload} (h : isRecord eventType eventId row = true) :
    isRecord eventType' eventId' row = true ↔ eventType = eventType' ∧ eventId = eventId' := by
  simp only [isRecord, Bool.and_eq_true, beq_iff_eq] at h ⊢
  rw [h.1, h.2, Option.some.injEq]

theorem saveOccupancy_statusRecords (h : saveOccupancy db event zone rules clock = .ok db')
    (eventId : Uuid) : db'.records .zoneStatusChanged eventId =
      db.records .zoneStatusChanged eventId + if event.eventId = eventId then 1 else 0 := by
  obtain ⟨statusChanged, overloaded, hs, ho, -, hout⟩ := saveOccupancy_outbox h
  have hnot : isRecord .zoneStatusChanged eventId overloaded = false := by
    rw [Bool.eq_false_iff, ne_eq, isRecord_of_isRecord ho]
    simp
  rw [ZoneDb.records, hout, List.countP_append, List.countP_cons]
  by_cases hedge : zone.status ≠ .overloaded ∧
      (zone.applyOccupancy rules (occupancyOf event)).status = .overloaded
  · simp [hedge, hnot, isRecord_of_isRecord hs, ZoneDb.records]
  · simp [hedge, isRecord_of_isRecord hs, ZoneDb.records]

theorem saveOccupancy_overloadRecords (h : saveOccupancy db event zone rules clock = .ok db')
    (eventId : Uuid) : db'.records .zoneOverloaded eventId =
      db.records .zoneOverloaded eventId +
        if event.eventId = eventId ∧ zone.status ≠ .overloaded ∧
          (zone.applyOccupancy rules (occupancyOf event)).status = .overloaded then 1 else 0 := by
  obtain ⟨statusChanged, overloaded, hs, ho, -, hout⟩ := saveOccupancy_outbox h
  have hnot : isRecord .zoneOverloaded eventId statusChanged = false := by
    rw [Bool.eq_false_iff, ne_eq, isRecord_of_isRecord hs]
    simp
  rw [ZoneDb.records, hout, List.countP_append, List.countP_cons]
  by_cases hedge : zone.status ≠ .overloaded ∧
      (zone.applyOccupancy rules (occupancyOf event)).status = .overloaded
  · simp [hedge, hnot, isRecord_of_isRecord ho, ZoneDb.records, List.countP_singleton]
  · simp [hedge, hnot, ZoneDb.records]

/-- The `zone_overloaded` records of a zone. -/
def ZoneDb.alarms (db : ZoneDb) (zoneId : Uuid) : ℕ :=
  db.outbox.countP fun row => row.eventType == .zoneOverloaded && row.entityId == zoneId

theorem saveEdit_alarms (h : saveEdit db zone actorId clock = .ok db') (zoneId : Uuid) :
    db'.alarms zoneId = db.alarms zoneId := by
  obtain ⟨zones, -, rfl⟩ := saveEdit_eq_ok h
  simp [ZoneDb.alarms, createOutbox, createEventEnvelope]

theorem saveOccupancy_alarms (h : saveOccupancy db event zone rules clock = .ok db')
    (zoneId : Uuid) : db'.alarms zoneId = db.alarms zoneId +
      if zone.id = zoneId ∧ zone.status ≠ .overloaded ∧
        (zone.applyOccupancy rules (occupancyOf event)).status = .overloaded then 1 else 0 := by
  obtain ⟨statusChanged, overloaded, hs, ho, hz, hout⟩ := saveOccupancy_outbox h
  simp only [isRecord, Bool.and_eq_true, beq_iff_eq] at hs ho
  rw [ZoneDb.alarms, hout, List.countP_append, List.countP_cons]
  by_cases hedge : zone.status ≠ .overloaded ∧
      (zone.applyOccupancy rules (occupancyOf event)).status = .overloaded
  · simp [hedge, hs.1, ho.1, hz, ZoneDb.alarms, List.countP_singleton]
  · simp [hedge, hs.1, ZoneDb.alarms]

theorem saveEdit_processedRows (h : saveEdit db zone actorId clock = .ok db') (eventId : Uuid) :
    db'.processedRows eventId = db.processedRows eventId := by
  rw [ZoneDb.processedRows, (saveEdit_ok h).2.2]
  rfl

theorem saveOccupancy_processedRows (h : saveOccupancy db event zone rules clock = .ok db')
    (eventId : Uuid) : db'.processedRows eventId =
      db.processedRows eventId + if event.eventId = eventId then 1 else 0 := by
  rw [ZoneDb.processedRows, (saveOccupancy_ok h).2.2, List.count_append, List.count_singleton]
  simp [ZoneDb.processedRows]

/-- A delivery that saves found no row of its event. -/
theorem saveOccupancy_new (h : saveOccupancy db event zone rules clock = .ok db') :
    db.processedRows event.eventId = 0 := by
  simp only [saveOccupancy, bind_eq_ok, throw_bind, throw_if_eq_ok, pure_eq_ok] at h
  obtain ⟨zones, -, hnew, -⟩ := h
  rw [isProcessed_iff] at hnew
  exact List.count_eq_zero.mpr hnew

end

/-! ## The steps that write -/

/-- A step changes the tables only where it saves an edit or an occupancy. -/
theorem act_db_cases (a : Action) (db : ZoneDb) (r : Request) :
    (act a db r).1 = db ∨
      (∃ zone actorId clock, r = .editing zone actorId ∧
        saveEdit db zone actorId clock = .ok (act a db r).1) ∨
      ∃ event zone rules clock, r = .handling event zone rules ∧
        saveOccupancy db event zone rules clock = .ok (act a db r).1 := by
  unfold act
  split
  · split <;> exact Or.inl rfl
  · split
    · exact Or.inl rfl
    · rename_i hsave
      exact Or.inr (Or.inl ⟨_, _, _, rfl, hsave⟩)
  · split <;> exact Or.inl rfl
  · split <;> exact Or.inl rfl
  · split
    · exact Or.inl rfl
    · rename_i hsave
      exact Or.inr (Or.inr ⟨_, _, _, _, rfl, hsave⟩)
  · exact Or.inl rfl
  · exact Or.inl rfl
  · exact Or.inl rfl

/-- The event that a delivery handles. -/
def Request.event : Request → Option OccupancyEnvelope
  | .unprocessed event => some event
  | .handling event _ _ => some event
  | _ => none

/-- The step is one of a delivery of the event, and changes the tables. -/
def Effect (eventId : Uuid) (s : System) (pa : ℕ × Action) : Prop :=
  (∃ event ∈ (s.requests pa.1).event, event.eventId = eventId) ∧ (Shared.step act s pa).db ≠ s.db

/-- A delivery that changes the tables saves its zone together with its event. -/
theorem Effect.saves {eventId : Uuid} {s : System} {pa : ℕ × Action} (h : Effect eventId s pa) :
    ∃ event zone rules clock, event.eventId = eventId ∧
      saveOccupancy s.db event zone rules clock = .ok (Shared.step act s pa).db := by
  obtain ⟨p, a⟩ := pa
  obtain ⟨⟨event, hevent, hid⟩, hne⟩ := h
  rcases act_db_cases a s.db (s.requests p) with
    hsame | ⟨zone, actorId, clock, hr, -⟩ | ⟨event', zone, rules, clock, hr, hsave⟩
  · exact absurd hsame hne
  · rw [hr] at hevent
    cases hevent
  · rw [hr] at hevent
    obtain rfl : event' = event := Option.some.inj hevent
    exact ⟨event', zone, rules, clock, hid, hsave⟩

/-! ## The invariant -/

/-- Each event has at most one row among the processed ones, as many records of its zone's
status, and no more of its overload. -/
def Once (db : ZoneDb) : Prop :=
  ∀ eventId, db.processedRows eventId ≤ 1 ∧
    db.records .zoneStatusChanged eventId = db.processedRows eventId ∧
    db.records .zoneOverloaded eventId ≤ db.processedRows eventId

theorem Once.saveEdit {db db' : ZoneDb} {zone : ZoneEntity} {actorId : String} {clock : Clock}
    (h : Once db) (hsave : saveEdit db zone actorId clock = .ok db') : Once db' := by
  intro eventId
  rw [saveEdit_processedRows hsave, saveEdit_records hsave, saveEdit_records hsave]
  exact h eventId

theorem Once.saveOccupancy {db db' : ZoneDb} {event : OccupancyEnvelope} {zone : ZoneEntity}
    {rules : Option ZoneRuleEntity} {clock : Clock} (h : Once db)
    (hsave : saveOccupancy db event zone rules clock = .ok db') : Once db' := by
  intro eventId
  obtain ⟨hrows, hstatus, hoverload⟩ := h eventId
  rw [saveOccupancy_processedRows hsave, saveOccupancy_statusRecords hsave,
    saveOccupancy_overloadRecords hsave]
  by_cases heq : event.eventId = eventId
  · have hnew := saveOccupancy_new hsave
    rw [heq] at hnew
    simp only [heq, true_and, if_true]
    split_ifs <;> omega
  · simp only [heq, false_and, if_false]
    omega

theorem Once.step {s : System} {pa : ℕ × Action} (h : Once s.db) :
    Once (Shared.step act s pa).db := by
  obtain ⟨p, a⟩ := pa
  rcases act_db_cases a s.db (s.requests p) with
    hsame | ⟨zone, actorId, clock, -, hsave⟩ | ⟨event, zone, rules, clock, -, hsave⟩
  · rw [Shared.step_db, hsame]
    exact h
  · exact h.saveEdit hsave
  · exact h.saveOccupancy hsave

theorem processedRows_step {s : System} {pa : ℕ × Action} {eventId : Uuid}
    (h : 0 < s.db.processedRows eventId) :
    0 < (Shared.step act s pa).db.processedRows eventId := by
  obtain ⟨p, a⟩ := pa
  rcases act_db_cases a s.db (s.requests p) with
    hsame | ⟨zone, actorId, clock, -, hsave⟩ | ⟨event, zone, rules, clock, -, hsave⟩
  · rw [Shared.step_db, hsame]
    exact h
  · rw [Shared.step_db, saveEdit_processedRows hsave]
    exact h
  · rw [Shared.step_db, saveOccupancy_processedRows hsave]
    exact Nat.add_pos_left h _

/-! ## Runs -/

/-- Zones and their rules, and no event processed. -/
def fresh (zones : List ZoneEntity) (rules : List ZoneRuleEntity) (uuids : ℕ) : System :=
  ⟨⟨zones, rules, [], [], uuids⟩, fun _ => .idle⟩

/-- However often an event is delivered, and however the deliveries and the edits of zones
interleave, at most one step of its deliveries changes the tables; the event has at most
one processed row, one record of its zone's status and one of its overload. -/
theorem handledOnce (zones : List ZoneEntity) (rules : List ZoneRuleEntity) (uuids : ℕ)
    (as : List (ℕ × Action)) (eventId : Uuid) :
    AtMostOnce (Shared.step act) (fresh zones rules uuids) as (Effect eventId) ∧
      (run (Shared.step act) (fresh zones rules uuids) as).db.processedRows eventId ≤ 1 ∧
      (run (Shared.step act) (fresh zones rules uuids) as).db.records .zoneStatusChanged
        eventId ≤ 1 ∧
      (run (Shared.step act) (fresh zones rules uuids) as).db.records .zoneOverloaded
        eventId ≤ 1 := by
  have honce : Once (run (Shared.step act) (fresh zones rules uuids) as).db := by
    refine run_invariant (fun _ => True) (fun (s : System) _ _ (h : Once s.db) => h.step) ?_
      fun _ _ => trivial
    intro eventId
    simp [fresh, ZoneDb.processedRows, ZoneDb.records]
  obtain ⟨hrows, hstatus, hoverload⟩ := honce eventId
  refine ⟨?_, hrows, by omega, by omega⟩
  refine atMostOnce_of_mark (fun s => 0 < s.db.processedRows eventId) ?_
    (fun _ _ h => processedRows_step h) ?_ _ _
  · intro s pa h
    obtain ⟨event, zone, zoneRules, clock, rfl, hsave⟩ := h.saves
    rw [saveOccupancy_processedRows hsave, if_pos rfl]
    omega
  · intro s pa hdone h
    obtain ⟨event, zone, zoneRules, clock, rfl, hsave⟩ := h.saves
    have hnew := saveOccupancy_new hsave
    omega

end Qoms.ZoneService
