import Qoms.Notification
import Qoms.Run
import Mathlib.Logic.Function.Basic

/-!
# Deliveries to the notification consumer

The consumer takes one delivery after another, and an event can be delivered again. Each
delivery has its own faults. `built` keeps what the last delivery that got so far built
for an event; an event is accounted for when it is processed and these notifications are
all stored (`Accounted`).

The catch in `eachMessage` makes the broker believe that every delivery succeeded. So a
delivery leaves its event accounted for exactly when an earlier one did, or when none of
its own calls fails (`accounted_iff`); a single failure loses the notifications for good
(`adminsDown_lost`).
-/

set_option autoImplicit false

namespace Qoms.NotificationService

/-! ## Deliveries that go through -/

/-- The users that an event is for; `users` is what the user service answers. -/
def recipients (event : DomainEvent) (users : List RemoteUser) : List (Option String) :=
  match event.eventType with
  | .queueJoined | .queueLeft | .reservationCreated | .reservationCancelled =>
    [event.payload.userId]
  | .zoneOverloaded => (adminsOf users).map fun admin => some admin.id
  | .occupancyUpdated | .zoneStatusChanged | .queueStatusChanged => []

/-- Every call of the delivery takes effect, and the columns take what it writes. -/
structure Faultless (event : DomainEvent) (faults : Faults) : Prop where
  lookup : faults.lookup = false
  users : event.eventType = .zoneOverloaded → faults.users.isSome = true
  insert : ∀ i < (recipients event (faults.users.getD [])).length, faults.insert i = false
  userId : ∀ user ∈ recipients event (faults.users.getD []),
    ∃ text ∈ user, (uuidIn text).isSome = true
  zoneId : recipients event (faults.users.getD []) ≠ [] →
    ∀ zone ∈ event.payload.zoneId, (uuidIn zone).isSome = true
  mark : faults.mark = false
  entityId : event.entityId.length ≤ 128
  commit : faults.commit.accepted = true

section

variable {event : DomainEvent} {users : Option (List RemoteUser)} {drafts : List Draft}

theorem buildNotifications_ok_iff : (∃ drafts, buildNotifications event users = .ok drafts) ↔
    (event.eventType = .zoneOverloaded → users.isSome = true) := by
  cases htype : event.eventType with
  | zoneOverloaded =>
    cases users with
    | none => simp [buildNotifications, htype, fetchAdminUsers]
    | some data => simp [buildNotifications, htype, fetchAdminUsers]
  | _ => simp [buildNotifications, htype]

/-- There is one notification for each recipient, with the zone of the event. -/
theorem buildNotifications_ok (h : buildNotifications event users = .ok drafts) :
    drafts.map (·.userId) = recipients event (users.getD []) ∧
      ∀ draft ∈ drafts, draft.zoneId = event.payload.zoneId := by
  cases htype : event.eventType with
  | zoneOverloaded =>
    obtain ⟨data, body, rfl, rfl⟩ := buildNotifications_overloaded htype h
    simp [recipients, htype, draftFor, Function.comp_def]
  | _ =>
    simp only [buildNotifications, htype, pure_eq_ok] at h
    subst h
    simp [recipients, htype, draftFor]

/-- The columns take the notifications when they take each recipient, and the zone if there
is one. -/
theorem fits_iff (h : buildNotifications event users = .ok drafts) :
    (∀ draft ∈ drafts, draft.Fits) ↔
      (∀ user ∈ recipients event (users.getD []), ∃ text ∈ user, (uuidIn text).isSome = true) ∧
        (recipients event (users.getD []) ≠ [] →
          ∀ zone ∈ event.payload.zoneId, (uuidIn zone).isSome = true) := by
  obtain ⟨hrecipients, hzone⟩ := buildNotifications_ok h
  rw [← hrecipients]
  constructor
  · intro hfits
    refine ⟨?_, fun hne => ?_⟩
    · intro user huser
      obtain ⟨draft, hdraft, rfl⟩ := List.mem_map.mp huser
      exact (hfits draft hdraft).userId
    · obtain ⟨draft, hdraft⟩ := List.exists_mem_of_ne_nil drafts fun hnil => hne (by simp [hnil])
      rw [← hzone draft hdraft]
      exact (hfits draft hdraft).zoneId
  · rintro ⟨husers, hzoneId⟩ draft hdraft
    refine ⟨husers _ (List.mem_map_of_mem hdraft), ?_⟩
    rw [hzone draft hdraft]
    exact hzoneId (List.ne_nil_of_mem (List.mem_map_of_mem hdraft))

end

section

variable {db : NotificationDb} {event : DomainEvent} {faults : Faults} {now : ℤ}

/-- A faultless delivery of a new event builds its notifications and commits them. -/
theorem handleEvent_of_faultless (now : ℤ) (hnew : isProcessed db event.eventId = false)
    (h : Faultless event faults) : ∃ drafts db',
      buildNotifications event faults.users = .ok drafts ∧
      saveEvent db event drafts faults now = .ok db' ∧
        (handleEvent db event faults now).1 = db' := by
  obtain ⟨drafts, hbuilt⟩ := buildNotifications_ok_iff.mpr h.users
  have hlength : drafts.length = (recipients event (faults.users.getD [])).length := by
    rw [← (buildNotifications_ok hbuilt).1, List.length_map]
  have hfits := (fits_iff hbuilt).mpr ⟨h.userId, h.zoneId⟩
  obtain ⟨db', hsaved⟩ := (saveEvent_ok_iff now hnew).mpr
    ⟨⟨by rw [hlength]; exact h.insert, hfits⟩, h.mark, h.entityId⟩
  refine ⟨drafts, db', hbuilt, hsaved, ?_⟩
  have hcommit := h.commit
  simp only [handleEvent, h.lookup, hnew, hbuilt, hsaved, transaction]
  cases hc : faults.commit with
  | acknowledged => rfl
  | failed message => simp [hc, CallOutcome.accepted] at hcommit
  | unacknowledged message => rfl

/-- A delivery of a new event that changes the tables is faultless. -/
theorem faultless_of_changed (hnew : isProcessed db event.eventId = false)
    (h : (handleEvent db event faults now).1 ≠ db) : Faultless event faults := by
  simp only [handleEvent, hnew] at h
  cases hlookup : faults.lookup with
  | true => simp [hlookup] at h
  | false =>
    cases hbuilt : buildNotifications event faults.users with
    | error e => simp [hlookup, hbuilt] at h
    | ok drafts =>
      cases hsaved : saveEvent db event drafts faults now with
      | error e => simp [hlookup, hbuilt, hsaved, transaction] at h
      | ok db' =>
        obtain ⟨⟨hinsert, hfits⟩, hmark, hlength⟩ := (saveEvent_ok_iff now hnew).mp ⟨db', hsaved⟩
        obtain ⟨huser, hzone⟩ := (fits_iff hbuilt).mp hfits
        refine ⟨hlookup, buildNotifications_ok_iff.mp ⟨drafts, hbuilt⟩, ?_, huser, hzone, hmark,
          hlength, ?_⟩
        · rw [← (buildNotifications_ok hbuilt).1, List.length_map]
          exact hinsert
        · cases hc : faults.commit with
          | acknowledged => rfl
          | failed message => simp [hlookup, hbuilt, hsaved, hc, transaction] at h
          | unacknowledged message => rfl

/-- A delivery of a processed event leaves the tables as they are. -/
theorem handleEvent_of_processed (h : isProcessed db event.eventId = true) :
    (handleEvent db event faults now).1 = db := by
  simp only [handleEvent, h]
  split_ifs <;> rfl

end

/-! ## Runs of deliveries -/

/-- A delivery of an event. -/
structure Delivery where
  event : DomainEvent
  faults : Faults
  now : ℤ

/-- The tables, and what was last built for each event. -/
structure Consumer where
  db : NotificationDb
  built : Uuid → List Draft

/-- Nothing is built yet. -/
def Consumer.start (db : NotificationDb) : Consumer :=
  ⟨db, fun _ => []⟩

/-- What a delivery builds : nothing if the lookup fails or finds the event. -/
def Consumer.builds (c : Consumer) (d : Delivery) : Option (List Draft) :=
  if d.faults.lookup ∨ isProcessed c.db d.event.eventId then none
  else (buildNotifications d.event d.faults.users).toOption

/-- One delivery. -/
def deliver (c : Consumer) (d : Delivery) : Consumer where
  db := (eachMessage c.db (.envelope d.event) d.faults d.now).1
  built :=
    match c.builds d with
    | none => c.built
    | some drafts => Function.update c.built d.event.eventId drafts

/-- The event is processed, and the notifications built for it are stored, one row each. -/
structure Accounted (c : Consumer) (eventId : Uuid) : Prop where
  processed : isProcessed c.db eventId = true
  committed : ∃ rows, rows <:+: c.db.notifications ∧
    List.Forall₂ Draft.IsRow (c.built eventId) rows

section

variable {c : Consumer} {d : Delivery}

theorem deliver_of_processed (h : isProcessed c.db d.event.eventId = true) : deliver c d = c := by
  simp [deliver, eachMessage_envelope, handleEvent_of_processed h, Consumer.builds, h]

theorem deliver_db_of_not_faultless (hnew : isProcessed c.db d.event.eventId = false)
    (h : ¬Faultless d.event d.faults) : (deliver c d).db = c.db := by
  rw [deliver, eachMessage_envelope]
  by_contra hchanged
  exact h (faultless_of_changed hnew hchanged)

/-- What a faultless delivery of a new event adds. -/
theorem deliver_of_faultless (hnew : isProcessed c.db d.event.eventId = false)
    (h : Faultless d.event d.faults) : ∃ drafts rows,
      (deliver c d).built = Function.update c.built d.event.eventId drafts ∧
        List.Forall₂ Draft.IsRow drafts rows ∧
          (deliver c d).db.notifications = c.db.notifications ++ rows ∧
            (deliver c d).db.processed.map (·.eventId) =
              c.db.processed.map (·.eventId) ++ [d.event.eventId] := by
  obtain ⟨drafts, db', hbuilt, hsaved, hdb⟩ := handleEvent_of_faultless d.now hnew h
  obtain ⟨rows, hrows, hforall, hprocessed⟩ := saveEvent_ok hsaved
  have hdeliver : (deliver c d).db = db' := by rw [deliver, eachMessage_envelope, hdb]
  refine ⟨drafts, rows, ?_, hforall, by rw [hdeliver, hrows], by rw [hdeliver, hprocessed]⟩
  simp [deliver, Consumer.builds, hnew, h.lookup, hbuilt, Except.toOption]

theorem isProcessed_iff {db : NotificationDb} {eventId : Uuid} :
    isProcessed db eventId = true ↔ eventId ∈ db.processed.map (·.eventId) := by
  simp [isProcessed]

/-- What is built for the other events stays. -/
theorem deliver_built_of_ne {eventId : Uuid} (h : eventId ≠ d.event.eventId) :
    (deliver c d).built eventId = c.built eventId := by
  cases hbuilds : c.builds d with
  | none => simp [deliver, hbuilds]
  | some drafts => simp [deliver, hbuilds, Function.update_of_ne h]

/-- A faultless delivery of a new event accounts for it. -/
theorem Accounted.of_faultless (hnew : isProcessed c.db d.event.eventId = false)
    (h : Faultless d.event d.faults) : Accounted (deliver c d) d.event.eventId := by
  obtain ⟨drafts, rows, hbuilt, hforall, hrows, hprocessed⟩ := deliver_of_faultless hnew h
  refine ⟨?_, rows, ?_, ?_⟩
  · rw [isProcessed_iff, hprocessed]
    simp
  · rw [hrows]
    exact (List.suffix_append _ rows).isInfix
  · rw [hbuilt, Function.update_self]
    exact hforall

/-- Every processed event is accounted for. -/
def Inv (c : Consumer) : Prop :=
  ∀ eventId, isProcessed c.db eventId = true → Accounted c eventId

theorem Inv.start (db : NotificationDb) : Inv (Consumer.start db) := fun _ h =>
  ⟨h, [], List.nil_infix, .nil⟩

theorem Inv.deliver (h : Inv c) (d : Delivery) : Inv (deliver c d) := by
  intro eventId hprocessed
  by_cases hold : isProcessed c.db d.event.eventId = true
  · rw [deliver_of_processed hold] at hprocessed ⊢
    exact h eventId hprocessed
  · have hnew : isProcessed c.db d.event.eventId = false := by simpa using hold
    by_cases hfaultless : Faultless d.event d.faults
    · rcases eq_or_ne eventId d.event.eventId with rfl | hne
      · exact Accounted.of_faultless hnew hfaultless
      · obtain ⟨-, added, -, -, hnotifications, hids⟩ := deliver_of_faultless hnew hfaultless
        have hbefore : isProcessed c.db eventId = true := by
          rw [isProcessed_iff, hids] at hprocessed
          exact isProcessed_iff.mpr (by simpa [hne] using hprocessed)
        obtain ⟨-, rows, hrows, hforall⟩ := h eventId hbefore
        refine ⟨hprocessed, rows, ?_, by rwa [deliver_built_of_ne hne]⟩
        rw [hnotifications]
        exact hrows.trans (List.prefix_append _ added).isInfix
    · have hdb := deliver_db_of_not_faultless hnew hfaultless
      rw [hdb] at hprocessed
      have hne : eventId ≠ d.event.eventId := by
        rintro rfl
        exact hold hprocessed
      obtain ⟨-, rows, hrows, hforall⟩ := h eventId hprocessed
      exact ⟨by rwa [hdb], rows, by rwa [hdb], by rwa [deliver_built_of_ne hne]⟩

/-- A delivery completes with its event accounted for exactly when the event was processed
before, or no call of the delivery fails. -/
theorem accounted_iff (db : NotificationDb) (ds : List Delivery) (d : Delivery) :
    ((∃ log, (eachMessage (run deliver (.start db) ds).db (.envelope d.event) d.faults
        d.now).2 = .ok log) →
      Accounted (deliver (run deliver (.start db) ds) d) d.event.eventId) ↔
      isProcessed (run deliver (.start db) ds).db d.event.eventId = true ∨
        Faultless d.event d.faults := by
  have hinv : Inv (run deliver (.start db) ds) :=
    run_invariant (fun _ => True) (fun _ d _ h => h.deliver d) (Inv.start db) (by simp)
  constructor
  · intro h
    have haccounted := h (eachMessage_completes _ _ _ _)
    by_cases hold : isProcessed (run deliver (.start db) ds).db d.event.eventId = true
    · exact Or.inl hold
    · right
      by_contra hfaulty
      have hdb := deliver_db_of_not_faultless (by simpa using hold) hfaulty
      rw [← hdb] at hold
      exact hold haccounted.processed
  · rintro h -
    by_cases hold : isProcessed (run deliver (.start db) ds).db d.event.eventId = true
    · rw [deliver_of_processed hold]
      exact hinv _ hold
    · exact Accounted.of_faultless (by simpa using hold) (h.resolve_left hold)

end

/-- The zone 1 is overloaded. -/
def overloaded : DomainEvent :=
  createEventEnvelope 0 7 .zoneOverloaded "zone-management-service" 8 "1"
    ⟨none, some uuidOne, none, none, some 95⟩

/-- The user service does not answer; nothing else fails. -/
def adminsDown : Delivery :=
  ⟨overloaded, ⟨false, none, fun _ => false, false, .acknowledged⟩, 0⟩

/-- `eachMessage` completes, and the event is not accounted for. -/
theorem adminsDown_lost :
    (eachMessage ⟨[], [], 0⟩ (.envelope adminsDown.event) adminsDown.faults 0).2 =
        .ok [.upstream] ∧
      ¬Accounted (deliver (.start ⟨[], [], 0⟩) adminsDown) adminsDown.event.eventId :=
  ⟨rfl, fun h => absurd h.processed (by decide)⟩

end Qoms.NotificationService
