import Qoms.Monitoring
import Qoms.Shared

/-!
# Overlapping publications of an event

`ingestEvent` creates its document as pending, and the timer of `retryPendingPublishes` does not
wait for the round before it. So an event can be in the hands of several requests at once, each
with a copy of its own. Here any number of them take their steps in any order (`act`); a save
writes the fields that its copy changed, whatever is stored by then.

A copy is loaded as pending or failed (`CopiesUnpublished`), and it changes `publishStatus` with
every save but the one of a failed send of a copy that was loaded as failed. So what is stored as
published stays so just when no send fails, of a copy loaded as pending, and is saved after
another copy's send succeeded (`published_steadily_iff`).
-/

set_option autoImplicit false

namespace Qoms.MonitoringService

/-! ## Copies and their saves -/

/-- A field after a save : as the copy has it if the copy changed it, else as it is stored. -/
def savedField {α : Type*} [DecidableEq α] (loaded changed stored : α) : α :=
  if changed = loaded then stored else changed

theorem savedField_self {α : Type*} [DecidableEq α] (loaded changed : α) :
    savedField loaded changed loaded = changed := by
  unfold savedField
  split_ifs with h
  · exact h.symm
  · rfl

/-- A stored document after the save of a copy that `tryPublish` changed from `loaded`. -/
def OccupancyEvent.saved (stored loaded changed : OccupancyEvent) : OccupancyEvent :=
  { stored with
    publishStatus := savedField loaded.publishStatus changed.publishStatus stored.publishStatus
    retryCount := savedField loaded.retryCount changed.retryCount stored.retryCount
    lastError := savedField loaded.lastError changed.lastError stored.lastError
    publishedAt := savedField loaded.publishedAt changed.publishedAt stored.publishedAt }

/-- `eventDoc.save()`. -/
def saveCopy (loaded changed : OccupancyEvent) (events : List OccupancyEvent) :
    List OccupancyEvent :=
  events.map fun stored =>
    if stored.eventId = loaded.eventId then stored.saved loaded changed else stored

/-- The stored `publishStatus` of an event. -/
def statusOf (events : List OccupancyEvent) (eventId : Uuid) : Option PublishStatus :=
  (events.find? (·.eventId == eventId)).map (·.publishStatus)

/-! ## Requests in flight -/

namespace PublishRace

/-- Where a request stands : `ingestEvent` has created its document; these copies are still to be
published; the send of a copy ended so, and it is to be saved. -/
inductive Request
  | idle
  | created (event : OccupancyEvent)
  | publishing (copies : List OccupancyEvent)
  | sent (copy : OccupancyEvent) (outcome : CallOutcome) (now : ℤ) (copies : List OccupancyEvent)

/-- The collections, the topic, and the requests. -/
abbrev System := Shared (MonitoringDb × Topic) Request

/-- No request is in flight. -/
def start (db : MonitoringDb × Topic) : System :=
  ⟨db, fun _ => .idle⟩

/-- One step of a request : `ingestEvent` creates its document or updates the snapshot, a retry
round starts with its query, a send ends, or its copy is saved. -/
inductive Action
  | create (dto : CreateOccupancyEventDto) (now : ℤ)
  | snapshot
  | retry (rank : Uuid → ℕ)
  | send (outcome : CallOutcome) (now : ℤ)
  | save

/-- What a step does; a step that is not the next one does nothing. -/
def act : Action → MonitoringDb × Topic → Request → (MonitoringDb × Topic) × Request
  | .create dto now, (db, topic), .idle =>
    match dto.observedDate now with
    | none => ((db, topic), .publishing [])
    | some observedAt =>
      let event := dto.event db.uuids observedAt now
      (({ db with events := db.events ++ [event], uuids := db.uuids + 2 }, topic), .created event)
  | .snapshot, (db, topic), .created event =>
    (({ db with snapshots := upsertSnapshot db.snapshots event.snapshot }, topic),
      .publishing [event])
  | .retry rank, (db, topic), .idle =>
    ((db, topic), .publishing (pendingPublishes rank db.events))
  | .send outcome now, (db, topic), .publishing (copy :: copies) =>
    ((db, if outcome.accepted then topic ++ [copy.envelope now] else topic),
      .sent copy outcome now copies)
  | .save, (db, topic), .sent copy outcome now copies =>
    (({ db with events := saveCopy copy (copy.settle outcome now) db.events }, topic),
      .publishing copies)
  | _, db, request => (db, request)

/-! ## Requests that nothing disturbs -/

section

variable {events : List OccupancyEvent} {loaded : OccupancyEvent} {outcome : CallOutcome} {now : ℤ}

/-- The save of a copy that is up to date stores the copy. -/
theorem saveCopy_of_upToDate (h : ∀ e ∈ events, e.eventId = loaded.eventId → e = loaded) :
    saveCopy loaded (loaded.settle outcome now) events =
      saveRow (·.eventId) (loaded.settle outcome now) events := by
  have hid : (loaded.settle outcome now).eventId = loaded.eventId := by cases outcome <;> rfl
  refine List.map_congr_left fun e he => ?_
  by_cases heq : e.eventId = loaded.eventId
  · rw [if_pos heq, if_pos (heq.trans hid.symm), h e he heq]
    cases outcome <;> simp only [OccupancyEvent.saved, OccupancyEvent.settle, savedField_self]
  · rw [if_neg heq, if_neg fun h => heq (h.trans hid)]

variable {copies : List OccupancyEvent} {s : System} {p : ℕ}

/-- A send and the save after it, of a copy that is up to date, are `tryPublish`. -/
theorem run_tryPublish (hp : s.requests p = .publishing (loaded :: copies))
    (h : ∀ e ∈ s.db.1.events, e.eventId = loaded.eventId → e = loaded) :
    let r := tryPublish s.db.1.events s.db.2 loaded outcome now
    let t := run (Shared.step act) s [(p, .send outcome now), (p, .save)]
    t.db = ({ s.db.1 with events := r.1 }, r.2) ∧ t.requests p = .publishing copies := by
  simp only [run_cons, run_nil, Shared.step_db, Shared.step_requests_self, hp, act,
    saveCopy_of_upToDate h, tryPublish]
  exact ⟨trivial, trivial⟩

/-- The steps of `ingestEvent` with nothing between them. -/
theorem run_ingestEvent {dto : CreateOccupancyEventDto}
    (hp : s.requests p = .idle) (hnew : ∀ e ∈ s.db.1.events, e.eventId ≠ s.db.1.uuids)
    {event : OccupancyEvent} {db : MonitoringDb} {topic : Topic}
    (h : ingestEvent s.db.1 s.db.2 dto outcome now = some (event, db, topic)) :
    (run (Shared.step act) s [(p, .create dto now), (p, .snapshot), (p, .send outcome now),
      (p, .save)]).db = (db, topic) := by
  simp only [ingestEvent, Option.bind_eq_bind, Option.bind_eq_some_iff, Option.pure_def,
    Option.some_inj, Prod.mk.injEq] at h
  obtain ⟨observedAt, hdate, -, rfl, rfl⟩ := h
  have hupToDate : ∀ e ∈ s.db.1.events ++ [dto.event s.db.1.uuids observedAt now],
      e.eventId = s.db.1.uuids → e = dto.event s.db.1.uuids observedAt now := by
    intro e he hid
    rcases List.mem_append.mp he with he | he
    · exact absurd hid (hnew e he)
    · exact List.mem_singleton.mp he
  have hfirst : (run (Shared.step act) s [(p, .create dto now), (p, .snapshot)]).db =
      ({ s.db.1 with
        events := s.db.1.events ++ [dto.event s.db.1.uuids observedAt now]
        snapshots := upsertSnapshot s.db.1.snapshots
          (dto.event s.db.1.uuids observedAt now).snapshot
        uuids := s.db.1.uuids + 2 }, s.db.2) ∧
      (run (Shared.step act) s [(p, .create dto now), (p, .snapshot)]).requests p =
        .publishing [dto.event s.db.1.uuids observedAt now] := by
    simp [hp, act, hdate]
  obtain ⟨hdb, hrequest⟩ := hfirst
  obtain ⟨hlast, -⟩ := @run_tryPublish _ outcome now _ _ _ hrequest (by rw [hdb]; exact hupToDate)
  rw [hdb] at hlast
  exact hlast

/-- The steps of a round with nothing between them. -/
theorem run_publishing (outcomes : List (CallOutcome × ℤ)) {copies : List OccupancyEvent}
    {s : System} (hp : s.requests p = .publishing copies)
    (hnodup : (copies.map (·.eventId)).Nodup)
    (h : ∀ copy ∈ copies, ∀ e ∈ s.db.1.events, e.eventId = copy.eventId → e = copy) :
    let r := (copies.zip outcomes).foldl
      (fun (events, topic) (event, outcome, now) => tryPublish events topic event outcome now)
      (s.db.1.events, s.db.2)
    (run (Shared.step act) s (outcomes.flatMap fun o => [(p, .send o.1 o.2), (p, .save)])).db =
      ({ s.db.1 with events := r.1 }, r.2) := by
  induction outcomes generalizing copies s with
  | nil => simp
  | cons o outcomes ih =>
    rw [List.flatMap_cons, run_append]
    cases copies with
    | nil =>
      have hdb : (run (Shared.step act) s [(p, .send o.1 o.2), (p, .save)]).db = s.db := by
        simp [hp, act]
      have hrequest : (run (Shared.step act) s [(p, .send o.1 o.2), (p, .save)]).requests p =
          .publishing [] := by
        simp [hp, act]
      rw [ih hrequest List.nodup_nil (by simp), hdb, List.zip_nil_left, List.zip_nil_left]
    | cons copy copies =>
      obtain ⟨hnotin, hnodup⟩ := List.nodup_cons.mp hnodup
      obtain ⟨hdb, hrequest⟩ := @run_tryPublish _ o.1 o.2 _ _ _ hp (h copy List.mem_cons_self)
      have hrest : ∀ copy' ∈ copies, ∀ e ∈ (tryPublish s.db.1.events s.db.2 copy o.1 o.2).1,
          e.eventId = copy'.eventId → e = copy' := by
        intro copy' hmem e he hid
        rcases mem_saveRow he with ⟨rfl, -⟩ | he
        · have heq : (copy.settle o.1 o.2).eventId = copy.eventId := by cases o.1 <;> rfl
          rw [heq] at hid
          exact absurd (List.mem_map.mpr ⟨copy', hmem, hid.symm⟩) hnotin
        · exact h copy' (List.mem_cons_of_mem _ hmem) e he hid
      rw [ih hrequest hnodup (by rw [hdb]; exact hrest), hdb, List.zip_cons_cons, List.foldl_cons]

/-- The steps of `retryPendingPublishes` with nothing between them. -/
theorem run_retryPendingPublishes (rank : Uuid → ℕ) (outcomes : List (CallOutcome × ℤ))
    {s : System} (hp : s.requests p = .idle)
    (hkeyed : Keyed (·.eventId) s.db.1.events s.db.1.uuids) :
    (run (Shared.step act) s ((p, .retry rank) ::
        outcomes.flatMap fun o => [(p, .send o.1 o.2), (p, .save)])).db =
      retryPendingPublishes s.db.1 s.db.2 rank outcomes := by
  have hload : Shared.step act s (p, .retry rank) =
      ⟨s.db, Function.update s.requests p (.publishing (pendingPublishes rank s.db.1.events))⟩ := by
    simp [Shared.step, hp, act]
  rw [run_cons, hload]
  exact run_publishing outcomes (Function.update_self ..) (nodup_map_findOldest hkeyed.nodup)
    fun copy hcopy e he => hkeyed.eq_of_id_eq he (mem_of_mem_pendingPublishes hcopy)

end

/-! ## The stored status -/

section

variable {events : List OccupancyEvent} {loaded changed : OccupancyEvent} {id : Uuid}

/-- A save writes the status of its own event, if the copy changed it. -/
theorem statusOf_saveCopy (loaded changed : OccupancyEvent) (events : List OccupancyEvent)
    (id : Uuid) : statusOf (saveCopy loaded changed events) id =
      (statusOf events id).map fun stored =>
        if id = loaded.eventId then
          savedField loaded.publishStatus changed.publishStatus stored
        else stored := by
  have hsame : ((fun e : OccupancyEvent => e.eventId == id) ∘ fun stored =>
      if stored.eventId = loaded.eventId then stored.saved loaded changed else stored) =
      fun e => e.eventId == id := by
    funext e
    rw [Function.comp_apply]
    split_ifs <;> rfl
  rw [statusOf, statusOf, saveCopy, List.find?_map, hsame, Option.map_map, Option.map_map]
  refine Option.map_congr fun e he => ?_
  have hid : e.eventId = id := by simpa using List.find?_some he
  rw [Function.comp_apply, Function.comp_apply, hid]
  split_ifs <;> rfl

/-- A document that is created does not change the status of a stored event. -/
theorem statusOf_create {status : PublishStatus} (h : statusOf events id = some status)
    (event : OccupancyEvent) : statusOf (events ++ [event]) id = some status := by
  obtain ⟨e, he, rfl⟩ := Option.map_eq_some_iff.mp h
  rw [statusOf, List.find?_append, he, Option.some_or, Option.map_some]

end

/-- The events that are published in the first store are published in the second. -/
def StillPublished (db db' : MonitoringDb × Topic) : Prop :=
  ∀ id, statusOf db.1.events id = some .published → statusOf db'.1.events id = some .published

/-- The copies that a request holds. -/
def Request.copies : Request → List OccupancyEvent
  | .idle => []
  | .created event => [event]
  | .publishing copies => copies
  | .sent copy _ _ copies => copy :: copies

/-- No request holds a copy that was loaded as published. -/
def CopiesUnpublished (s : System) : Prop :=
  ∀ p, ∀ copy ∈ (s.requests p).copies, copy.publishStatus ≠ .published

/-- The step is no save of a failed send of a copy that was loaded as pending, while the event
is stored as published. -/
def NoLateFailure (s : System) (pa : ℕ × Action) : Prop :=
  ∀ copy outcome now copies, pa.2 = .save → s.requests pa.1 = .sent copy outcome now copies →
    copy.publishStatus = .pending → outcome ≠ .acknowledged →
    statusOf s.db.1.events copy.eventId ≠ some .published

/-- Copies come from the query or are created as pending. -/
theorem act_copies (a : Action) (db : MonitoringDb × Topic) {r : Request}
    (h : ∀ copy ∈ r.copies, copy.publishStatus ≠ .published) :
    ∀ copy ∈ (act a db r).2.copies, copy.publishStatus ≠ .published := by
  unfold act
  split
  · split
    · simp [Request.copies]
    · intro copy hcopy
      rw [List.mem_singleton.mp hcopy]
      simp [CreateOccupancyEventDto.event]
  · exact h
  · intro copy hcopy hpublished
    obtain ⟨-, hcond⟩ := mem_of_mem_findOldest hcopy
    rw [hpublished] at hcond
    exact absurd hcond (by simp)
  · exact h
  · exact fun copy hcopy => h copy (List.mem_cons_of_mem _ hcopy)
  · exact h

theorem CopiesUnpublished.step {s : System} (h : CopiesUnpublished s) (pa : ℕ × Action) :
    CopiesUnpublished (Shared.step act s pa) := by
  intro q
  obtain ⟨p, a⟩ := pa
  rcases eq_or_ne q p with rfl | hne
  · rw [Shared.step_requests_self]
    exact act_copies a s.db (h q)
  · rw [Shared.step_requests_of_ne s a hne]
    exact h q

/-- No step but a save changes the status of a stored event. -/
theorem stillPublished_act {a : Action} (h : a ≠ .save) (db : MonitoringDb × Topic) (r : Request) :
    StillPublished db (act a db r).1 := by
  unfold act
  split
  · split
    · exact fun _ => id
    · exact fun _ hpublished => statusOf_create hpublished _
  · exact fun _ => id
  · exact fun _ => id
  · exact fun _ => id
  · exact absurd rfl h
  · exact fun _ => id

/-- A save keeps what is published just when it is not that of a late failure. -/
theorem stillPublished_save_iff {db : MonitoringDb × Topic} {copy : OccupancyEvent}
    (hcopy : copy.publishStatus ≠ .published) (outcome : CallOutcome) (now : ℤ)
    (copies : List OccupancyEvent) :
    StillPublished db (act .save db (.sent copy outcome now copies)).1 ↔
      (copy.publishStatus = .pending → outcome ≠ .acknowledged →
        statusOf db.1.events copy.eventId ≠ some .published) := by
  constructor
  · intro h hpending houtcome hpublished
    have hafter : statusOf (saveCopy copy (copy.settle outcome now) db.1.events) copy.eventId =
        some .published := h copy.eventId hpublished
    rw [statusOf_saveCopy, hpublished, Option.map_some, if_pos rfl, hpending] at hafter
    cases outcome with
    | acknowledged => exact houtcome rfl
    | failed message => exact absurd hafter (by simp [savedField, OccupancyEvent.settle])
    | unacknowledged message => exact absurd hafter (by simp [savedField, OccupancyEvent.settle])
  · intro h id hpublished
    have hafter := statusOf_saveCopy copy (copy.settle outcome now) db.1.events id
    rw [hpublished, Option.map_some] at hafter
    refine hafter.trans (congrArg some ?_)
    split_ifs with hid
    · subst hid
      cases hstatus : copy.publishStatus with
      | published => exact absurd hstatus hcopy
      | pending =>
        obtain rfl : outcome = .acknowledged := by
          by_contra houtcome
          exact h hstatus houtcome hpublished
        rfl
      | failed => cases outcome <;> rfl
    · rfl

/-- One step : what is published stays so just when the step is no late failure. -/
theorem stillPublished_step_iff {s : System} (h : CopiesUnpublished s) (pa : ℕ × Action) :
    StillPublished s.db (Shared.step act s pa).db ↔ NoLateFailure s pa := by
  obtain ⟨p, a⟩ := pa
  rw [Shared.step_db]
  by_cases ha : a = .save
  · subst ha
    cases hr : s.requests p with
    | sent copy outcome now copies =>
      have hcopy : copy.publishStatus ≠ .published := h p copy (by simp [hr, Request.copies])
      rw [stillPublished_save_iff hcopy]
      constructor
      · rintro hkeeps _ _ _ _ - hsent
        obtain ⟨rfl, rfl, -, -⟩ := Request.sent.inj (hr.symm.trans hsent)
        exact hkeeps
      · exact fun hlate => hlate copy outcome now copies rfl hr
    | _ => exact iff_of_true (fun _ => id) (by simp [NoLateFailure, hr])
  · exact iff_of_true (stillPublished_act ha s.db _) fun _ _ _ _ hsave => absurd hsave ha

/-- In any order of the steps of any number of `ingestEvent` calls and retry rounds, with any
outcomes of the sends : what is stored as published is so at every later moment, exactly when no
failed send of a copy that was loaded as pending is saved while the event is stored as
published. -/
theorem published_steadily_iff (db : MonitoringDb × Topic) (as : List (ℕ × Action)) :
    Steadily (Shared.step act) (start db) as (fun s t => StillPublished s.db t.db) ↔
      EachStep (Shared.step act) (start db) as NoLateFailure := by
  have hstart : CopiesUnpublished (start db) := by simp [CopiesUnpublished, start, Request.copies]
  have hinv : ∀ s pa, True → CopiesUnpublished s → CopiesUnpublished (Shared.step act s pa) :=
    fun _ pa _ h => h.step pa
  exact steadily_iff_eachStep (fun _ => True) hinv (fun _ _ _ => id)
    (fun _ _ _ hst htu id h => htu id (hst id h)) (fun _ pa _ h => stillPublished_step_iff h pa)
    hstart fun _ _ => trivial

/-- The timer loads a new event before its own send ends, publishes it, and is done; then the
send of `ingestEvent` fails. -/
def lateFailure : List (ℕ × Action) :=
  [(0, .create smokeTest 0), (0, .snapshot), (1, .retry id), (1, .send .acknowledged 1), (1, .save),
    (0, .send (.failed "timeout") 2), (0, .save)]

/-- The event was published, and is failed. -/
theorem lateFailure_unpublishes :
    statusOf (run (Shared.step act) (start (⟨[], [], 0⟩, [])) (lateFailure.take 5)).db.1.events 0 =
      some .published ∧
    statusOf (run (Shared.step act) (start (⟨[], [], 0⟩, [])) lateFailure).db.1.events 0 =
      some .failed ∧
    ¬Steadily (Shared.step act) (start (⟨[], [], 0⟩, [])) lateFailure
      fun s t => StillPublished s.db t.db := by
  have hbefore : statusOf (run (Shared.step act) (start (⟨[], [], 0⟩, []))
      (lateFailure.take 5)).db.1.events 0 = some .published := by decide +kernel
  have hafter : statusOf (run (Shared.step act) (start (⟨[], [], 0⟩, []))
      lateFailure).db.1.events 0 = some .failed := by decide +kernel
  refine ⟨hbefore, hafter, fun h => ?_⟩
  have hstill := h _ lateFailure (List.take_prefix 5 lateFailure) (List.prefix_refl _) 0 hbefore
  rw [hafter] at hstill
  exact absurd hstill (by decide)

end PublishRace

end Qoms.MonitoringService
