import Qoms.Log
import Qoms.Monitoring
import Qoms.Run

/-!
# Telemetry and the zone's occupancy

The same signals reach two stores : the telemetry snapshot at ingestion, and the zone's
row when the zone service consumes the published message. Here `ingestEvent` and the
rounds of `retryPendingPublishes` run one after another, each send ends in any way, and
the consumer goes through the topic in order (`step`).

A retried message comes behind newer ones, and the handler ignores `observedAt`, so the
zone can end with the older occupancy (`retriedLast`). As long as no signal is accepted
by the broker for the first time after a later one (`InOrder`), the first acceptances
follow the ingestions, and in every settled state the zone, its snapshot and the last
signal agree (`agrees_of_inOrder`), where no occupancy is negative : the zone has 0 for one that
is, the snapshot the number itself.
-/

set_option autoImplicit false

namespace Qoms.MonitoringService

open ZoneService

/-! ## The system -/

/-- The collections, the topic, what is left of the running retry round, the zone
service's tables, and the consumer's offset. -/
structure Telemetry where
  db : MonitoringDb
  topic : Topic
  batch : List OccupancyEvent
  zones : ZoneDb
  offset : ℕ

/-- One step : a whole `ingestEvent`, the query of a retry round, the next document of the
round, or the next message of the topic. -/
inductive Action
  | ingest (dto : CreateOccupancyEventDto) (outcome : CallOutcome) (now : ℤ)
  | retry (rank : Uuid → ℕ)
  | publish (outcome : CallOutcome) (now : ℤ)
  | consume (clock : Clock)

/-- What a step does. Calls and rounds run one at a time; a message on which the handler
fails is delivered again. -/
def step (s : Telemetry) : Action → Telemetry
  | .ingest dto outcome now =>
    match s.batch, ingestEvent s.db s.topic dto outcome now with
    | [], some (_, db, topic) => { s with db := db, topic := topic }
    | _, _ => s
  | .retry rank =>
    match s.batch with
    | [] => { s with batch := pendingPublishes rank s.db.events }
    | _ :: _ => s
  | .publish outcome now =>
    match s.batch with
    | [] => s
    | event :: batch =>
      let (events, topic) := tryPublish s.db.events s.topic event outcome now
      { s with db := { s.db with events := events }, topic := topic, batch := batch }
  | .consume clock =>
    match s.topic[s.offset]? with
    | none => s
    | some event =>
      match eachMessage s.zones (.envelope event) clock with
      | .error _ => s
      | .ok zones => { s with zones := zones, offset := s.offset + 1 }

/-- The steps of what is left of a round, with nothing between them. -/
theorem run_publish (outcomes : List (CallOutcome × ℤ)) (s : Telemetry) :
    let r := (s.batch.zip outcomes).foldl
      (fun (events, topic) (event, outcome, now) => tryPublish events topic event outcome now)
      (s.db.events, s.topic)
    let t := run step s (outcomes.map fun o => .publish o.1 o.2)
    (t.db, t.topic) = ({ s.db with events := r.1 }, r.2) := by
  induction outcomes generalizing s with
  | nil => simp
  | cons o outcomes ih =>
    cases hbatch : s.batch with
    | nil =>
      have hstep : step s (.publish o.1 o.2) = s := by simp [step, hbatch]
      have := ih s
      simp only [hbatch, List.zip_nil_left, List.foldl_nil] at this
      simp only [List.map_cons, run_cons, hstep, List.zip_nil_left, List.foldl_nil]
      exact this
    | cons event batch =>
      have := ih (step s (.publish o.1 o.2))
      simpa [step, hbatch] using this

/-- The query of a round and its steps with nothing between them are
`retryPendingPublishes`. -/
theorem run_retry (rank : Uuid → ℕ) (outcomes : List (CallOutcome × ℤ)) {s : Telemetry}
    (hs : s.batch = []) :
    let t := run step s (.retry rank :: outcomes.map fun o => .publish o.1 o.2)
    (t.db, t.topic) = retryPendingPublishes s.db s.topic rank outcomes := by
  have := run_publish outcomes (step s (.retry rank))
  simpa [step, hs, retryPendingPublishes] using this

/-! ## Agreement with the last signal -/

/-- The event ids of the topic, in order. -/
def Telemetry.accepted (s : Telemetry) : List Uuid :=
  s.topic.map (·.eventId)

/-- Every stored event is published, and the consumer is at the end of the topic. -/
def Settled (s : Telemetry) : Prop :=
  (∀ event ∈ s.db.events, event.publishStatus = .published) ∧ s.offset = s.topic.length

/-- The zone's row and its snapshot have the occupancy of the last ingested signal. -/
def Agrees (zone : String) (zoneId : Uuid) (s : Telemetry) : Prop :=
  ∀ event, s.db.events.getLast? = some event →
    (latestOf s.db.snapshots zone).map (·.occupancy) = some event.occupancy ∧
      (s.zones.row zoneId).map (·.currentOccupancy) = some event.occupancy

/-- If the step sends a signal of a retry round and the broker accepts it, the broker has
no signal that was ingested after it. -/
def InOrder (s : Telemetry) : Action → Prop
  | .publish outcome _ => outcome.accepted = true → ∀ event batch, s.batch = event :: batch →
    ∀ pre post, s.db.events.map (·.eventId) = pre ++ event.eventId :: post →
      event.eventId ∉ s.accepted → ∀ later ∈ post, later ∉ s.accepted
  | _ => True

/-- If the step ingests a signal, it is one of the zone. -/
def Action.SignalsOf (zone : String) : Action → Prop
  | .ingest dto _ _ => dto.zoneId = zone
  | _ => True

/-- If the step ingests a signal, its occupancy is not negative. -/
def Action.NonNegative : Action → Prop
  | .ingest dto _ _ => 0 ≤ dto.occupancy
  | _ => True

/-! ## The invariant -/

/-- `a` and `b` are versions of one stored signal. -/
def SameSignal (a b : OccupancyEvent) : Prop :=
  a.eventId = b.eventId ∧ a.zoneId = b.zoneId ∧ a.occupancy = b.occupancy

theorem SameSignal.refl (a : OccupancyEvent) : SameSignal a a :=
  ⟨rfl, rfl, rfl⟩

theorem SameSignal.symm {a b : OccupancyEvent} (h : SameSignal a b) : SameSignal b a :=
  ⟨h.1.symm, h.2.1.symm, h.2.2.symm⟩

theorem SameSignal.trans {a b c : OccupancyEvent} (hab : SameSignal a b) (hbc : SameSignal b c) :
    SameSignal a c :=
  ⟨hab.1.trans hbc.1, hab.2.1.trans hbc.2.1, hab.2.2.trans hbc.2.2⟩

theorem SameSignal.settle (event : OccupancyEvent) (outcome : CallOutcome) (now : ℤ) :
    SameSignal event (event.settle outcome now) := by
  cases outcome <;> exact SameSignal.refl _

/-- A message carries a stored signal. -/
def Carries (event : OccupancyEvent) (message : OccupancyEnvelope) : Prop :=
  message.eventId = event.eventId ∧ message.eventType = .occupancyUpdated ∧
    zoneIdOf message = event.zoneId ∧ occupancyOf message = event.occupancy

theorem carries_envelope (event : OccupancyEvent) (now : ℤ) :
    Carries event (event.envelope now) :=
  ⟨rfl, rfl, rfl, rfl⟩

theorem Carries.same {a b : OccupancyEvent} {message : OccupancyEnvelope} (h : Carries a message)
    (hab : SameSignal a b) : Carries b message :=
  ⟨h.1.trans hab.1, h.2.1, h.2.2.1.trans hab.2.1, h.2.2.2.trans hab.2.2⟩

/-- What is known of the stored signals, the topic and the running round. -/
structure Stored (zone : String) (n : ℕ) (db : MonitoringDb) (topic : Topic)
    (batch : List OccupancyEvent) : Prop where
  keyed : Keyed (·.eventId) db.events db.uuids
  base : n ≤ db.uuids
  drawn : ∀ event ∈ db.events, n ≤ event.eventId
  zone_eq : ∀ event ∈ db.events, event.zoneId = zone
  nonneg : ∀ event ∈ db.events, 0 ≤ event.occupancy
  held : ∀ event ∈ batch, ∃ stored ∈ db.events, SameSignal stored event
  carried : ∀ message ∈ topic, ∃ event ∈ db.events, Carries event message
  published : ∀ event ∈ db.events, event.publishStatus = .published →
    event.eventId ∈ topic.map (·.eventId)
  latest : ∀ event, db.events.getLast? = some event →
    (latestOf db.snapshots zone).map (·.occupancy) = some event.occupancy

/-- What the consumer has made of the messages `log` : it has processed their events, and
the zone has the occupancy of the last first delivery. -/
structure Consumed (zoneId : Uuid) (n : ℕ) (log : List OccupancyEnvelope) (zones : ZoneDb) :
    Prop where
  processed : ∀ eventId, n ≤ eventId →
    (eventId ∈ zones.processed.map (·.eventId) ↔ eventId ∈ log.map (·.eventId))
  row : ∃ row, zones.row zoneId = some row ∧ ∀ message ∈ log,
    (log.map (·.eventId)).eraseDups.getLast? = some message.eventId →
      row.currentOccupancy = occupancyOf message

/-- The invariant of the system. -/
structure Inv (zone : String) (zoneId : Uuid) (n : ℕ) (s : Telemetry) : Prop where
  stored : Stored zone n s.db s.topic s.batch
  consumed : Consumed zoneId n (s.topic.take s.offset) s.zones
  offset_le : s.offset ≤ s.topic.length

section

variable {zone : String} {zoneId : Uuid} {n : ℕ} {db : MonitoringDb} {topic : Topic}
  {batch : List OccupancyEvent} {event : OccupancyEvent} {message : OccupancyEnvelope}
  {log : List OccupancyEnvelope} {zones zones' : ZoneDb} {clock : Clock}

/-- Creating a document. -/
theorem Stored.create (h : Stored zone n db topic batch) (event : OccupancyEvent)
    (hid : event.eventId = db.uuids) (hzone : event.zoneId = zone) (hocc : 0 ≤ event.occupancy)
    (hstatus : event.publishStatus = .pending) :
    Stored zone n ⟨db.events ++ [event], upsertSnapshot db.snapshots event.snapshot, db.uuids + 2⟩
      topic batch where
  keyed := h.keyed.insert hid.ge (by rw [hid]; exact Nat.lt_add_of_pos_right (by decide))
  base := h.base.trans (Nat.le_add_right _ 2)
  drawn e he := by
    rcases List.mem_append.mp he with he | he
    · exact h.drawn e he
    · rw [List.mem_singleton.mp he, hid]
      exact h.base
  zone_eq e he := by
    rcases List.mem_append.mp he with he | he
    · exact h.zone_eq e he
    · rw [List.mem_singleton.mp he, hzone]
  nonneg e he := by
    rcases List.mem_append.mp he with he | he
    · exact h.nonneg e he
    · rw [List.mem_singleton.mp he]
      exact hocc
  held e he := by
    obtain ⟨stored, hmem, hsame⟩ := h.held e he
    exact ⟨stored, List.mem_append_left _ hmem, hsame⟩
  carried m hm := by
    obtain ⟨e, hmem, hcarries⟩ := h.carried m hm
    exact ⟨e, List.mem_append_left _ hmem, hcarries⟩
  published e he hpub := by
    rcases List.mem_append.mp he with he | he
    · exact h.published e he hpub
    · rw [List.mem_singleton.mp he, hstatus] at hpub
      exact absurd hpub (by decide)
  latest e he := by
    rw [List.getLast?_concat, Option.some_inj] at he
    have hlatest := latestOf_upsertSnapshot db.snapshots event.snapshot
    rw [show event.snapshot.zoneId = zone from hzone] at hlatest
    rw [hlatest, ← he]
    rfl

/-- A document held by a round is a version of its stored signal. -/
theorem Stored.holds (h : Stored zone n db topic batch)
    (hheld : ∃ stored ∈ db.events, SameSignal stored event) (outcome : CallOutcome) (now : ℤ) :
    Holds (·.eventId) SameSignal (event.settle outcome now) db.events db.uuids := by
  obtain ⟨stored, hmem, hsame⟩ := hheld
  have hages := hsame.trans (SameSignal.settle event outcome now)
  exact Holds.of_mem h.keyed hmem hages.1.symm hages

/-- The message of a document that is settled as published was accepted. -/
theorem accepted_of_published {outcome : CallOutcome} {now : ℤ}
    (h : (event.settle outcome now).publishStatus = .published) : outcome.accepted = true := by
  cases outcome with
  | acknowledged => rfl
  | failed text => exact absurd h (by simp [OccupancyEvent.settle])
  | unacknowledged text => rfl

/-- Publishing a document only adds to the topic. -/
theorem subset_tryPublish (outcome : CallOutcome) (now : ℤ) :
    topic ⊆ (tryPublish db.events topic event outcome now).2 := by
  rw [tryPublish_topic]
  exact List.subset_append_left _ _

/-- A message of the topic was there before, or is the document's. -/
theorem mem_tryPublish {outcome : CallOutcome} {now : ℤ}
    (h : message ∈ (tryPublish db.events topic event outcome now).2) :
    message ∈ topic ∨ message = event.envelope now := by
  rw [tryPublish_topic, List.mem_append] at h
  refine h.imp id fun h => ?_
  split_ifs at h
  · exact List.mem_singleton.mp h
  · exact absurd h List.not_mem_nil

/-- Publishing a document. -/
theorem Stored.tryPublish (h : Stored zone n db topic batch)
    (hheld : ∃ stored ∈ db.events, SameSignal stored event) (outcome : CallOutcome) (now : ℤ) :
    Stored zone n { db with events := (tryPublish db.events topic event outcome now).1 }
      (tryPublish db.events topic event outcome now).2 batch := by
  have hholds := h.holds hheld outcome now
  have hkeep : ∀ e ∈ db.events, ∃ e' ∈ saveRow (·.eventId) (event.settle outcome now) db.events,
      SameSignal e e' := fun e he => hholds.exists_mem_saveRow SameSignal.refl he
  have horigin : ∀ e' ∈ saveRow (·.eventId) (event.settle outcome now) db.events,
      ∃ e ∈ db.events, SameSignal e e' := fun e he => hholds.of_mem_saveRow SameSignal.refl he
  refine ⟨h.keyed.saveRow hholds.drawn le_rfl, h.base, ?_, ?_, ?_, ?_, ?_, ?_, ?_⟩
  · intro e' he'
    obtain ⟨e, he, hsame⟩ := horigin e' he'
    exact (h.drawn e he).trans hsame.1.le
  · intro e' he'
    obtain ⟨e, he, hsame⟩ := horigin e' he'
    exact hsame.2.1.symm.trans (h.zone_eq e he)
  · intro e' he'
    obtain ⟨e, he, hsame⟩ := horigin e' he'
    rw [← hsame.2.2]
    exact h.nonneg e he
  · intro e he
    obtain ⟨stored, hmem, hsame⟩ := h.held e he
    obtain ⟨stored', hmem', hsame'⟩ := hkeep stored hmem
    exact ⟨stored', hmem', hsame'.symm.trans hsame⟩
  · intro m hm
    rcases mem_tryPublish hm with hm' | rfl
    · obtain ⟨e, he, hcarries⟩ := h.carried m hm'
      obtain ⟨e', he', hsame⟩ := hkeep e he
      exact ⟨e', he', hcarries.same hsame⟩
    · obtain ⟨stored, hmem, hsame⟩ := hheld
      obtain ⟨stored', hmem', hsame'⟩ := hkeep stored hmem
      exact ⟨stored', hmem', (carries_envelope event now).same (hsame.symm.trans hsame')⟩
  · intro e' he' hpub
    rcases mem_saveRow he' with ⟨rfl, -⟩ | he
    · have haccepted := accepted_of_published hpub
      have hid : (event.settle outcome now).eventId = event.eventId :=
        (SameSignal.settle event outcome now).1.symm
      simp [MonitoringService.tryPublish, haccepted, hid, OccupancyEvent.envelope,
        createEventEnvelope]
    · exact List.map_subset _ (subset_tryPublish outcome now) (h.published e' he hpub)
  · intro e' he'
    change (saveRow (·.eventId) (event.settle outcome now) db.events).getLast? = some e' at he'
    rw [saveRow, List.getLast?_map, Option.map_eq_some_iff] at he'
    obtain ⟨e, he, rfl⟩ := he'
    have hocc : e.occupancy = (if e.eventId = (event.settle outcome now).eventId
        then event.settle outcome now else e).occupancy := by
      split_ifs with hid
      · exact (hholds.version e (List.mem_of_getLast? he) hid).2.2
      · rfl
    rw [← hocc]
    exact h.latest e he

/-- An ingestion that is not rejected. -/
theorem Stored.ingest {dto : CreateOccupancyEventDto} {outcome : CallOutcome} {now : ℤ}
    {db' : MonitoringDb} {topic' : Topic} (h : Stored zone n db topic [])
    (hzone : dto.zoneId = zone) (hocc : 0 ≤ dto.occupancy)
    (hok : ingestEvent db topic dto outcome now = some (event, db', topic')) :
    Stored zone n db' topic' [] := by
  simp only [ingestEvent, Option.bind_eq_bind, Option.bind_eq_some_iff, Option.pure_def,
    Option.some_inj, Prod.mk.injEq] at hok
  obtain ⟨observedAt, -, -, rfl, rfl⟩ := hok
  have hcreated := h.create (dto.event db.uuids observedAt now) rfl hzone hocc rfl
  exact hcreated.tryPublish ⟨_, List.mem_append_right _ (List.mem_singleton_self _),
    SameSignal.refl _⟩ outcome now

/-- Loading a round. -/
theorem Stored.load (h : Stored zone n db topic []) (rank : Uuid → ℕ) :
    Stored zone n db topic (pendingPublishes rank db.events) where
  keyed := h.keyed
  base := h.base
  drawn := h.drawn
  zone_eq := h.zone_eq
  nonneg := h.nonneg
  held e he := ⟨e, mem_of_mem_pendingPublishes he, SameSignal.refl e⟩
  carried := h.carried
  published := h.published
  latest := h.latest

/-- What is left of a round. -/
theorem Stored.rest (h : Stored zone n db topic (event :: batch)) :
    Stored zone n db topic batch where
  keyed := h.keyed
  base := h.base
  drawn := h.drawn
  zone_eq := h.zone_eq
  nonneg := h.nonneg
  held e he := h.held e (List.mem_cons_of_mem _ he)
  carried := h.carried
  published := h.published
  latest := h.latest

/-- Two messages of one event carry the same occupancy. -/
theorem Stored.occupancyOf_eq (h : Stored zone n db topic batch) {m m' : OccupancyEnvelope}
    (hm : m ∈ topic) (hm' : m' ∈ topic) (hid : m.eventId = m'.eventId) :
    occupancyOf m = occupancyOf m' := by
  obtain ⟨e, he, hcarries⟩ := h.carried m hm
  obtain ⟨e', he', hcarries'⟩ := h.carried m' hm'
  obtain rfl : e = e' :=
    h.keyed.eq_of_id_eq he he' (hcarries.1.symm.trans (hid.trans hcarries'.1))
  exact hcarries.2.2.2.trans hcarries'.2.2.2.symm

/-- Consuming a message. -/
theorem Consumed.consume (hzone : uuidIn zone = some zoneId)
    (hstored : Stored zone n db topic batch) (h : Consumed zoneId n log zones)
    (hlog : log ++ [message] ⊆ topic)
    (hok : eachMessage zones (.envelope message) clock = .ok zones') :
    Consumed zoneId n (log ++ [message]) zones' := by
  have hmem : message ∈ topic := hlog (by simp)
  obtain ⟨event, hevent, hid, htype, hz, hocc⟩ := hstored.carried message hmem
  have hn : n ≤ message.eventId := by
    rw [hid]
    exact hstored.drawn event hevent
  have hhandle := eachMessage_ok htype hok
  obtain ⟨row, hrow, hlast⟩ := h.row
  have huuid : uuidIn (zoneIdOf message) = some zoneId := by
    rw [hz, hstored.zone_eq event hevent, hzone]
  rcases handleOccupancyUpdated_ok huuid hrow hhandle with ⟨hdone, rfl⟩ | ⟨hnew, hrow', hprocessed⟩
  · have hseen : message.eventId ∈ log.map (·.eventId) := (h.processed _ hn).mp hdone
    refine ⟨fun k hk => ?_, row, hrow, fun m hm hm' => ?_⟩
    · rw [h.processed k hk, List.map_append, List.mem_append]
      refine ⟨Or.inl, ?_⟩
      rintro (hk' | hk')
      · exact hk'
      · rw [List.mem_singleton.mp hk']
        exact hseen
    · rw [List.map_append, List.map_singleton, eraseDups_concat_of_mem hseen] at hm'
      rcases List.mem_append.mp hm with hm | hm
      · exact hlast m hm hm'
      · obtain rfl := List.mem_singleton.mp hm
        obtain ⟨first, hfirst, hsame⟩ := List.mem_map.mp hseen
        rw [← hsame] at hm'
        rw [hlast first hfirst hm']
        exact hstored.occupancyOf_eq (hlog (List.mem_append_left _ hfirst)) hmem hsame
  · have hunseen : message.eventId ∉ log.map (·.eventId) := fun h' =>
      hnew ((h.processed _ hn).mpr h')
    refine ⟨fun k hk => ?_, _, hrow', fun m hm hm' => ?_⟩
    · rw [hprocessed, List.mem_append, h.processed k hk, List.map_append, List.mem_append,
        List.map_singleton]
    · rw [List.map_append, List.map_singleton, eraseDups_concat_of_notMem hunseen,
        List.getLast?_concat, Option.some_inj] at hm'
      rcases List.mem_append.mp hm with hm | hm
      · exact absurd (List.mem_map.mpr ⟨m, hm, hm'.symm⟩) hunseen
      · obtain rfl := List.mem_singleton.mp hm
        have hnonneg := hstored.nonneg event hevent
        rw [← hocc] at hnonneg
        exact Int.max_eq_right hnonneg

end

/-! ## Steps and runs -/

section

variable {zone : String} {zoneId : Uuid} {n : ℕ} {s : Telemetry}

/-- The consumer has read no more of a topic that grows. -/
theorem Inv.grow {db : MonitoringDb} {messages : Topic} {batch : List OccupancyEvent}
    (h : Inv zone zoneId n s) (hstored : Stored zone n db (s.topic ++ messages) batch) :
    Inv zone zoneId n { s with db := db, topic := s.topic ++ messages, batch := batch } where
  stored := hstored
  consumed := by
    rw [List.take_append_of_le_length h.offset_le]
    exact h.consumed
  offset_le := by
    rw [List.length_append]
    exact h.offset_le.trans (Nat.le_add_right _ _)

theorem Inv.step (hzone : uuidIn zone = some zoneId) (h : Inv zone zoneId n s) (a : Action)
    (ha : a.SignalsOf zone) (hocc : a.NonNegative) : Inv zone zoneId n (step s a) := by
  cases a with
  | ingest dto outcome now =>
    simp only [MonitoringService.step]
    split
    · rename_i event db topic hbatch hok
      obtain ⟨observedAt, -, rfl⟩ := ingestEvent_ok hok
      have hstored := h.stored
      rw [hbatch] at hstored
      have hingest := hstored.ingest ha hocc hok
      rw [← hbatch] at hingest
      exact h.grow hingest
    · exact h
  | retry rank =>
    simp only [MonitoringService.step]
    split
    · rename_i hbatch
      have hstored := h.stored
      rw [hbatch] at hstored
      exact ⟨hstored.load rank, h.consumed, h.offset_le⟩
    · exact h
  | publish outcome now =>
    simp only [MonitoringService.step]
    split
    · exact h
    · rename_i event batch hbatch
      have hstored := h.stored
      rw [hbatch] at hstored
      have hpublish := hstored.rest.tryPublish (hstored.held event (by simp)) outcome now
      rw [tryPublish_topic] at hpublish ⊢
      exact h.grow hpublish
  | consume clock =>
    simp only [MonitoringService.step]
    split
    · exact h
    · rename_i message hmessage
      split
      · exact h
      · rename_i zones hok
        obtain ⟨hlt, hget⟩ := List.getElem?_eq_some_iff.mp hmessage
        have htake : s.topic.take (s.offset + 1) = s.topic.take s.offset ++ [message] := by
          rw [List.take_add_one, hmessage]
          rfl
        refine ⟨h.stored, ?_, hlt⟩
        rw [htake]
        refine h.consumed.consume hzone h.stored ?_ hok
        rw [← htake]
        exact List.take_subset _ _

/-- One step keeps the order of first acceptances when it meets the condition. -/
theorem follows_step (h : Inv zone zoneId n s)
    (hfollows : Follows (s.db.events.map (·.eventId)) s.accepted) (a : Action)
    (ha : InOrder s a) :
    Follows ((step s a).db.events.map (·.eventId)) (step s a).accepted := by
  cases a with
  | ingest dto outcome now =>
    simp only [MonitoringService.step]
    split
    · rename_i event db topic hbatch hok
      obtain ⟨observedAt, hids, htopic⟩ := ingestEvent_ok hok
      simp only [Telemetry.accepted, hids, htopic, List.map_append]
      split_ifs
      · exact (hfollows.append_key s.db.uuids).concat (by simp)
      · rw [List.map_nil, List.append_nil]
        exact hfollows.append_key s.db.uuids
    · exact hfollows
  | retry rank =>
    simp only [MonitoringService.step]
    split <;> exact hfollows
  | publish outcome now =>
    simp only [MonitoringService.step]
    split
    · exact hfollows
    · rename_i event batch hbatch
      simp only [Telemetry.accepted, tryPublish_eventIds, tryPublish_topic, List.map_append]
      split_ifs with haccepted
      · by_cases hmem : event.eventId ∈ s.accepted
        · exact hfollows.concat_of_mem hmem
        · obtain ⟨stored, hstored, hsame⟩ := h.stored.held event (by simp [hbatch])
          have hids : event.eventId ∈ s.db.events.map (·.eventId) :=
            List.mem_map.mpr ⟨stored, hstored, hsame.1⟩
          obtain ⟨pre, post, heq⟩ := List.append_of_mem hids
          have hlater := ha haccepted event batch hbatch pre post heq hmem
          rw [heq] at hfollows ⊢
          exact hfollows.concat hlater
      · rw [List.map_nil, List.append_nil]
        exact hfollows
  | consume clock =>
    simp only [MonitoringService.step]
    split <;> try exact hfollows
    split <;> exact hfollows

/-- If first acceptances follow the ingestions, a settled state agrees. -/
theorem Inv.agrees (h : Inv zone zoneId n s)
    (hfollows : Follows (s.db.events.map (·.eventId)) s.accepted) (hsettled : Settled s) :
    Agrees zone zoneId s := by
  intro event hevent
  refine ⟨h.stored.latest event hevent, ?_⟩
  obtain ⟨hpublished, hoffset⟩ := hsettled
  have hall : ∀ k ∈ s.db.events.map (·.eventId), k ∈ s.accepted := by
    intro k hk
    obtain ⟨e, he, rfl⟩ := List.mem_map.mp hk
    exact h.stored.published e he (hpublished e he)
  have hfirst : s.accepted.eraseDups = s.db.events.map (·.eventId) :=
    hfollows.eraseDups_eq h.stored.keyed.nodup hall
  have hmem : event ∈ s.db.events := List.mem_of_getLast? hevent
  obtain ⟨message, hmessage, hid⟩ := List.mem_map.mp (hall _ (List.mem_map_of_mem hmem))
  obtain ⟨row, hrow, hlast⟩ := h.consumed.row
  rw [hoffset, List.take_length] at hlast
  have hlast' : (s.topic.map (·.eventId)).eraseDups.getLast? = some message.eventId := by
    rw [show s.topic.map (·.eventId) = s.accepted from rfl, hfirst, List.getLast?_map, hevent, hid]
    rfl
  obtain ⟨e, he, hcarries⟩ := h.stored.carried message hmessage
  obtain rfl : e = event := h.stored.keyed.eq_of_id_eq he hmem (hcarries.1.symm.trans hid)
  rw [hrow, Option.map_some, hlast message hmessage hlast', hcarries.2.2.2]

/-- From empty collections and an empty topic, over a zone whose service processed no event
yet to be drawn. -/
structure Fresh (zone : String) (zoneId : Uuid) (s : Telemetry) : Prop where
  spelled : uuidIn zone = some zoneId
  exists_zone : ∃ row, s.zones.row zoneId = some row
  events : s.db.events = []
  topic : s.topic = []
  batch : s.batch = []
  offset : s.offset = 0
  unprocessed : ∀ k, s.db.uuids ≤ k → k ∉ s.zones.processed.map (·.eventId)

theorem Fresh.inv (h : Fresh zone zoneId s) : Inv zone zoneId s.db.uuids s where
  stored := by
    constructor <;> simp [h.events, h.topic, h.batch, Keyed.nil]
  consumed := by
    obtain ⟨row, hrow⟩ := h.exists_zone
    refine ⟨fun k hk => ?_, row, hrow, ?_⟩
    · simp [h.topic, h.unprocessed k hk]
    · simp [h.topic]
  offset_le := by simp [h.offset]

/-- A run over one zone in which no occupancy is negative and no signal is accepted for the first
time after a later one : in every settled state the zone's row and its snapshot have the occupancy
of the last ingested signal. -/
theorem agrees_of_inOrder {as : List Action} (h0 : Fresh zone zoneId s)
    (hzone : ∀ a ∈ as, a.SignalsOf zone) (hnonneg : ∀ a ∈ as, a.NonNegative)
    (horder : EachStep step s as InOrder) :
    Throughout step s as fun t => Settled t → Agrees zone zoneId t := by
  have hstep : ∀ t a, a.SignalsOf zone ∧ a.NonNegative → Inv zone zoneId s.db.uuids t →
      Inv zone zoneId s.db.uuids (MonitoringService.step t a) := fun t a ha ht =>
    ht.step h0.spelled a ha.1 ha.2
  have has : ∀ a ∈ as, a.SignalsOf zone ∧ a.NonNegative := fun a ha => ⟨hzone a ha, hnonneg a ha⟩
  have hfollows : Throughout step s as fun t =>
      Follows (t.db.events.map (·.eventId)) t.accepted :=
    throughout_of_eachStep (fun a => a.SignalsOf zone ∧ a.NonNegative) hstep
      (fun t a _ ht hf ha => follows_step ht hf a ha) h0.inv
      (by simp [Telemetry.accepted, h0.events, h0.topic, Follows.nil]) has horder
  intro pre hpre hsettled
  have hinv := run_invariant (fun a : Action => a.SignalsOf zone ∧ a.NonNegative) hstep h0.inv
    fun a ha => has a (hpre.subset ha)
  exact hinv.agrees (hfollows pre hpre) hsettled

end

/-- Two signals of the zone 1. -/
def signal (occupancy : ℕ) : CreateOccupancyEventDto :=
  ⟨uuidOne, occupancy, none, none⟩

/-- Nothing ingested yet, over the zone 1. -/
def telemetry : Telemetry :=
  ⟨⟨[], [], 5⟩, [], [], oneZone, 0⟩

theorem telemetry_fresh : Fresh uuidOne 1 telemetry where
  spelled := by decide
  exists_zone := ⟨_, rfl⟩
  events := rfl
  topic := rfl
  batch := rfl
  offset := rfl
  unprocessed k _ := List.not_mem_nil

/-- The send of the first signal fails, the second is published, a retry publishes the
first, and the consumer takes both. -/
def retriedLast : List Action :=
  [.ingest (signal 40) (.failed "broker down") 1, .ingest (signal 50) .acknowledged 2,
    .retry id, .publish .acknowledged 3, .consume ⟨4, 4⟩, .consume ⟨5, 5⟩]

/-- All signals are of the zone and none is negative, the state is settled, and the zone has the
occupancy of the first signal. -/
theorem retriedLast_disagrees : Fresh uuidOne 1 telemetry ∧
    (∀ a ∈ retriedLast, a.SignalsOf uuidOne) ∧ (∀ a ∈ retriedLast, a.NonNegative) ∧
    Settled (run step telemetry retriedLast) ∧
    ¬Agrees uuidOne 1 (run step telemetry retriedLast) := by
  refine ⟨telemetry_fresh, by simp [retriedLast, signal, Action.SignalsOf],
    by simp [retriedLast, signal, Action.NonNegative], ⟨by decide, by decide⟩, fun h => ?_⟩
  have hzone := (h _ rfl).2
  exact absurd hzone (by decide)

/-- The first send fails and the retry comes before the second signal. -/
def retriedFirst : List Action :=
  [.ingest (signal 40) (.failed "broker down") 1, .retry id, .publish .acknowledged 2,
    .ingest (signal 50) .acknowledged 3, .consume ⟨4, 4⟩, .consume ⟨5, 5⟩]

theorem retriedFirst_inOrder : EachStep step telemetry retriedFirst InOrder := by
  refine eachStep_cons.mpr ⟨trivial, eachStep_cons.mpr ⟨trivial, eachStep_cons.mpr ⟨?_, ?_⟩⟩⟩
  · exact fun _ _ _ _ _ _ _ _ _ _ => List.not_mem_nil
  · exact eachStep_cons.mpr ⟨trivial, eachStep_cons.mpr ⟨trivial, eachStep_cons.mpr
      ⟨trivial, eachStep_nil⟩⟩⟩

/-- The zone ends with the occupancy of the second signal. -/
theorem retriedFirst_agrees :
    Agrees uuidOne 1 (run step telemetry retriedFirst) :=
  agrees_of_inOrder telemetry_fresh (by simp [retriedFirst, signal, Action.SignalsOf])
    (by simp [retriedFirst, signal, Action.NonNegative]) retriedFirst_inOrder retriedFirst
    (List.prefix_refl _) ⟨by decide, by decide⟩

end Qoms.MonitoringService
