import Qoms.NotificationDelivery
import Qoms.NotificationRace
import Qoms.OutboxFlush

/-!
# From a commit to a notification

A service commits a change together with its record in the outbox (`OutboxService`); the
publisher sends the record to the topic, once or more often, and marks it; the notification
service takes each message, once or more often, and stores what it builds together with the
event's id. Here any number of requests, runs of the publisher and deliveries take their steps
in any order, any call can fail, and the topic has messages of other services too (`act`).

`eachMessage` swallows what a delivery throws. So the consumer takes the messages in turn and
commits its offset past each one whose delivery ended, whether it failed or not; a message it
passed comes again only if the offset is lost.

The publisher writes no event, so the records a service committed are those of its own steps
(`FlushMoves.payloads`), every message is one of them (`Inv`), and what the inbox has of a
record was built from it by one delivery. So the notifications of a kind and the records of it
that are not processed are as many as the records of the kind (`balanced_run`).
-/

set_option autoImplicit false

namespace Qoms

/-! ## Services with an outbox -/

/-- Records that a step appended, not published yet, while the drawn UUIDs went from `n` to
`m`. -/
structure Drawn {K P : Type} (n m : ℕ) (new : List (OutboxEvent K P)) : Prop where
  le : n ≤ m
  nodup : (new.map (·.payload.eventId)).Nodup
  fresh : ∀ row ∈ new, n ≤ row.payload.eventId ∧ row.payload.eventId < m
  id_eq : ∀ row ∈ new, row.id = row.payload.eventId + 1
  unpublished : ∀ row ∈ new, row.publishedAt = none

/-- A service that appends records to its outbox, and leaves them to the publisher : its steps,
with their rely and guarantee, keep `Inv`, which sees of a record its event only. -/
structure OutboxService (D A R K P : Type) where
  act : A → D → R → D × R
  outbox : D → List (OutboxEvent K P)
  setOutbox : List (OutboxEvent K P) → D → D
  uuids : D → ℕ
  Allowed : A → Prop
  Inv : D → Prop
  Sound : D → R → Prop
  Rely : D → D → Prop
  outbox_setOutbox : ∀ rows d, outbox (setOutbox rows d) = rows
  uuids_setOutbox : ∀ rows d, uuids (setOutbox rows d) = uuids d
  guarantees : ∀ {a d r}, Allowed a → Inv d → Sound d r →
    Shared.Guarantees Inv Sound Rely d (act a d r)
  grows : ∀ {d d' r}, Rely d d' → Sound d r → Sound d' r
  inv_setOutbox : ∀ {rows d}, rows.map (·.payload) = (outbox d).map (·.payload) → Inv d →
    Inv (setOutbox rows d)
  rely_setOutbox : ∀ {rows d}, rows.map (·.payload) = (outbox d).map (·.payload) →
    Rely d (setOutbox rows d)
  rely_refl : ∀ d, Rely d d
  appends : ∀ a d r, ∃ new, outbox (act a d r).1 = outbox d ++ new ∧
    Drawn (uuids d) (uuids (act a d r).1) new

/-- The events of the records. -/
def OutboxService.events {D A R K P : Type} (S : OutboxService D A R K P) (d : D) :
    List (EventEnvelope K P) :=
  (S.outbox d).map (·.payload)

/-- How the notification service finds an event in the topic. The services draw their UUIDs
independently; `draw` gives the UUID of a service's `n`-th. `types` are the types of its
events. What `/users` answers, where it does, is one of `Answers`. -/
structure Wire (K P : Type) where
  draw : ℕ ↪ Uuid
  types : List KafkaEventType
  event : EventEnvelope K P → NotificationService.DomainEvent
  Answers : List NotificationService.RemoteUser → Prop
  eventId_eq : ∀ e, (event e).eventId = draw e.eventId

/-! ## The publisher -/

/-- The items that a run of the publisher has in hand. -/
def Flush.held {K P : Type} : Flush K P → List (OutboxEvent K P)
  | .items rest => rest
  | .sent item rest | .caught item rest _ | .read item rest _ _ => item :: rest

section

variable {K P : Type} {db : OutboxStore K P} {flush : Flush K P}
  {r : OutboxStore K P × Flush K P}

theorem map_payload_update {rows : List (OutboxEvent K P)}
    (h : rows.map (·.payload) = db.rows.map (·.payload)) (outcome : CallOutcome) :
    (db.update rows outcome).rows.map (·.payload) = db.rows.map (·.payload) := by
  unfold OutboxStore.update
  split_ifs
  · exact h
  · rfl

/-- The publisher changes no event. -/
theorem FlushMoves.payloads (h : FlushMoves db flush r) :
    r.1.rows.map (·.payload) = db.rows.map (·.payload) := by
  cases h with
  | sent => rw [send_rows]
  | sendFailed => rw [log_rows, send_rows]
  | marked item items outcome now =>
    exact map_payload_update (map_payload_markOutboxPublished _ _ _) outcome
  | markFailed item items outcome now message =>
    rw [log_rows]
    exact map_payload_update (map_payload_markOutboxPublished _ _ _) outcome
  | written item items rest message attempts outcome =>
    exact map_payload_update (map_payload_writeAttempts _ _ _ _) outcome
  | _ => rfl

/-- A run has in hand what it had, or rows of the table. -/
theorem FlushMoves.held (h : FlushMoves db flush r) :
    ∀ item ∈ r.2.held, item ∈ flush.held ∨ item ∈ db.rows := by
  cases h with
  | stop => simp [Flush.held]
  | poll rank => exact fun item hitem => Or.inr (mem_of_mem_findOldest hitem).1
  | marked | missing => exact fun item hitem => Or.inl (List.mem_cons_of_mem _ hitem)
  | written item items rest message attempts outcome hrest =>
    intro item' hitem
    rcases hrest with rfl | rfl
    · exact Or.inl (List.mem_cons_of_mem _ hitem)
    · exact absurd hitem List.not_mem_nil
  | _ => exact fun item hitem => Or.inl hitem

theorem mem_topic_send {item : OutboxEvent K P} {outcome : CallOutcome} {m : OutboxMessage K P}
    (h : m ∈ (db.send item outcome).topic) : m ∈ db.topic ∨ m.value = item.payload := by
  unfold OutboxStore.send at h
  split_ifs at h
  · rcases List.mem_append.mp h with h | h
    · exact Or.inl h
    · exact Or.inr (by rw [List.mem_singleton.mp h])
  · exact Or.inl h

theorem topic_update (rows : List (OutboxEvent K P)) (outcome : CallOutcome) :
    (db.update rows outcome).topic = db.topic := by
  unfold OutboxStore.update
  split_ifs <;> rfl

/-- What a step adds to the topic is the event of an item it had in hand. -/
theorem FlushMoves.topic (h : FlushMoves db flush r) {m : OutboxMessage K P}
    (hm : m ∈ r.1.topic) : m ∈ db.topic ∨ ∃ item ∈ flush.held, m.value = item.payload := by
  cases h with
  | sent item items =>
    exact (mem_topic_send hm).imp id fun h => ⟨item, List.mem_cons_self, h⟩
  | sendFailed item items outcome message =>
    exact (mem_topic_send hm).imp id fun h => ⟨item, List.mem_cons_self, h⟩
  | marked | written => exact Or.inl (by rwa [topic_update] at hm)
  | markFailed => exact Or.inl (by rwa [OutboxStore.log, topic_update] at hm)
  | _ => exact Or.inl hm

end

/-! ## The system -/

open NotificationService (DomainEvent NotificationDb NotificationEntity Draft buildNotifications
  isProcessed)

/-- The service's tables, its messages in the topic, the first of them that the consumer did not
commit, its publisher's error log, and the tables of the notification service. -/
structure Pipeline (D K P : Type) where
  service : D
  topic : List (OutboxMessage K P)
  offset : ℕ
  errors : List (Uuid × String)
  inbox : NotificationDb

/-- Where a process stands : with a request, a run of the publisher, and a delivery, of the message
`taken`. -/
structure Roles (R K P : Type) where
  request : R
  flush : Flush K P
  delivery : NotificationService.Request
  taken : Option ℕ

/-- A step of a request, of the publisher, or of a delivery. A delivery begins with the message at
the offset (`next`), with another one, for which the offset goes back if it had passed it
(`deliver`), or with an event of another service; and where it ended, failed or not, the consumer
commits the offset past its message (`commitOffset`). -/
inductive PipelineAction (A : Type)
  | request (a : A)
  | flush (a : FlushStep)
  | next
  | deliver (i : ℕ)
  | commitOffset
  | inbox (a : NotificationService.Action)

section

variable {D A R K P : Type} (S : OutboxService D A R K P) (wire : Wire K P)

/-- What the publisher works on. -/
def Pipeline.store (s : Pipeline D K P) : OutboxStore K P :=
  ⟨S.outbox s.service, s.topic, s.errors, S.uuids s.service⟩

/-- The tables after a step of the publisher. -/
def Pipeline.withStore (s : Pipeline D K P) (db : OutboxStore K P) : Pipeline D K P :=
  { s with service := S.setOutbox db.rows s.service, topic := db.topic, errors := db.errors }

/-- A step of a delivery. -/
def Pipeline.consume (a : NotificationService.Action) (s : Pipeline D K P) (q : Roles R K P) :
    Pipeline D K P × Roles R K P :=
  let r := NotificationService.act a s.inbox q.delivery
  ({ s with inbox := r.1 }, { q with delivery := r.2 })

/-- The first step of a delivery of the message `i`. -/
def Pipeline.take (i : ℕ) (s : Pipeline D K P) (q : Roles R K P) : Pipeline D K P × Roles R K P :=
  match s.topic[i]?, q.delivery with
  | some m, .idle => Pipeline.consume (.lookup (wire.event m.value))
    { s with offset := min i s.offset } { q with taken := some i }
  | _, _ => (s, q)

/-- What a step does. -/
def Pipeline.act : PipelineAction A → Pipeline D K P → Roles R K P →
    Pipeline D K P × Roles R K P
  | .request a, s, q =>
    let r := S.act a s.service q.request
    ({ s with service := r.1 }, { q with request := r.2 })
  | .flush a, s, q =>
    let r := flushAct a (s.store S) q.flush
    (s.withStore S r.1, { q with flush := r.2 })
  | .next, s, q => s.take wire s.offset q
  | .deliver i, s, q => s.take wire i q
  | .commitOffset, s, q =>
    match q.delivery with
    | .finished =>
      if q.taken = some s.offset then ({ s with offset := s.offset + 1 }, q) else (s, q)
    | _ => (s, q)
  | .inbox a, s, q => s.consume a q

/-- A delivery begins with a message of the topic, or not at all. -/
theorem Pipeline.take_cases (i : ℕ) (s : Pipeline D K P) (q : Roles R K P) :
    s.take wire i q = (s, q) ∨ ∃ m, s.topic[i]? = some m ∧ q.delivery = .idle ∧
      s.take wire i q = Pipeline.consume (.lookup (wire.event m.value))
        { s with offset := min i s.offset } { q with taken := some i } := by
  unfold Pipeline.take
  split
  · rename_i m hm hidle
    exact Or.inr ⟨m, hm, hidle, rfl⟩
  · exact Or.inl rfl

theorem Pipeline.take_service (i : ℕ) (s : Pipeline D K P) (q : Roles R K P) :
    (s.take wire i q).1.service = s.service := by
  rcases Pipeline.take_cases wire i s q with heq | ⟨m, -, -, heq⟩
  · rw [heq]
  · rw [heq]
    rfl

/-- The offset goes past a message whose delivery ended, or stays. -/
theorem Pipeline.commitOffset_cases (s : Pipeline D K P) (q : Roles R K P) :
    Pipeline.act S wire .commitOffset s q = (s, q) ∨
      (q.delivery = .finished ∧ q.taken = some s.offset ∧
        Pipeline.act S wire .commitOffset s q = ({ s with offset := s.offset + 1 }, q)) := by
  rw [Pipeline.act]
  split
  · rename_i hfinished
    split_ifs with htaken
    · exact Or.inr ⟨hfinished, htaken, rfl⟩
    · exact Or.inl rfl
  · exact Or.inl rfl

/-- An event of another service. -/
structure Wire.Foreign (event : DomainEvent) : Prop where
  draw : ∀ n, event.eventId ≠ wire.draw n
  type : event.eventType ∉ wire.types

/-- The requests are allowed ones, what comes from elsewhere is from another service, and
`/users` gives one of its answers or none. -/
def PipelineAction.Allowed : PipelineAction A → Prop
  | .request a => S.Allowed a
  | .inbox (.lookup event) => wire.Foreign event
  | .inbox (.build users) => ∀ data ∈ users, wire.Answers data
  | _ => True

/-! ## The invariant -/

/-- The event was committed by the service, or it is another service's. -/
def Pipeline.Known (s : Pipeline D K P) (event : DomainEvent) : Prop :=
  (∃ e ∈ S.events s.service, wire.event e = event) ∨ wire.Foreign event

/-- The events have distinct ids, all drawn; the topic and the inbox know of these only. -/
structure Pipeline.Inv (s : Pipeline D K P) : Prop where
  service : S.Inv s.service
  nodup : ((S.events s.service).map (·.eventId)).Nodup
  drawn : ∀ e ∈ S.events s.service, e.eventId < S.uuids s.service
  topic : ∀ m ∈ s.topic, m.value ∈ S.events s.service
  processed : ∀ n, isProcessed s.inbox (wire.draw n) = true → n < S.uuids s.service

/-- What a delivery holds is of a known event. -/
def Pipeline.Delivering (s : Pipeline D K P) : NotificationService.Request → Prop
  | .unprocessed event => s.Known S wire event
  | .built event drafts =>
    s.Known S wire event ∧ ∃ users : Option (List NotificationService.RemoteUser),
      (∀ data ∈ users, wire.Answers data) ∧ buildNotifications event users = .ok drafts
  | _ => True

/-- What a process relies on. -/
structure Pipeline.Sound (s : Pipeline D K P) (q : Roles R K P) : Prop where
  request : S.Sound s.service q.request
  flush : ∀ item ∈ q.flush.held, item.payload ∈ S.events s.service
  delivery : s.Delivering S wire q.delivery

/-- The service's tables change as its steps change them, and no event goes. -/
structure Pipeline.Rely (s s' : Pipeline D K P) : Prop where
  service : S.Rely s.service s'.service
  events : S.events s.service ⊆ S.events s'.service

variable {S wire} {s s' : Pipeline D K P} {q : Roles R K P}

theorem Pipeline.Known.mono {event : DomainEvent} (h : s.Known S wire event)
    (hevents : S.events s.service ⊆ S.events s'.service) : s'.Known S wire event :=
  h.imp (fun ⟨e, he, heq⟩ => ⟨e, hevents he, heq⟩) id

theorem Pipeline.Delivering.mono {r : NotificationService.Request} (h : s.Delivering S wire r)
    (hevents : S.events s.service ⊆ S.events s'.service) : s'.Delivering S wire r := by
  cases r with
  | unprocessed event => exact Pipeline.Known.mono h hevents
  | built event drafts => exact ⟨h.1.mono hevents, h.2⟩
  | _ => trivial

theorem Pipeline.Rely.refl (s : Pipeline D K P) : s.Rely S s :=
  ⟨S.rely_refl s.service, List.Subset.refl _⟩

theorem Pipeline.Sound.grows (h : s.Sound S wire q) (hrely : s.Rely S s') :
    s'.Sound S wire q where
  request := S.grows hrely.service h.request
  flush item hitem := hrely.events (h.flush item hitem)
  delivery := h.delivery.mono hrely.events

/-- What a step owes to its own process and to the others. -/
abbrev Pipeline.Guarantees (S : OutboxService D A R K P) (wire : Wire K P) :=
  Shared.Guarantees (Pipeline.Inv S wire) (Pipeline.Sound S wire) (Pipeline.Rely S)

/-- A step of a request appends events with new ids. -/
theorem Pipeline.guarantees_request {a : A} (ha : S.Allowed a) (hs : s.Inv S wire)
    (hq : s.Sound S wire q) :
    Pipeline.Guarantees S wire s (Pipeline.act S wire (.request a) s q) := by
  obtain ⟨hservice, hrely, hrequest⟩ := S.guarantees ha hs.service hq.request
  obtain ⟨new, hnew, hle, hnodup, hfresh, -, -⟩ := S.appends a s.service q.request
  set d := (S.act a s.service q.request).1 with hd
  have hevents : S.events d = S.events s.service ++ new.map (·.payload) := by
    rw [OutboxService.events, hnew, List.map_append]
    rfl
  have hsub : S.events s.service ⊆ S.events d := by
    rw [hevents]
    exact List.subset_append_left _ _
  refine ⟨⟨hservice, ?_, ?_, fun m hm => hsub (hs.topic m hm), ?_⟩, ⟨hrely, hsub⟩,
    ⟨hrequest, fun item hitem => hsub (hq.flush item hitem), hq.delivery.mono hsub⟩⟩
  · change ((S.events d).map (·.eventId)).Nodup
    rw [hevents, List.map_append, List.map_map, List.nodup_append]
    refine ⟨hs.nodup, hnodup, ?_⟩
    intro x hx y hy
    obtain ⟨e, he, rfl⟩ := List.mem_map.mp hx
    obtain ⟨row, hrow, rfl⟩ := List.mem_map.mp hy
    exact ((hs.drawn e he).trans_le (hfresh row hrow).1).ne
  · intro e he
    change e ∈ S.events d at he
    rw [hevents] at he
    rcases List.mem_append.mp he with he | he
    · exact (hs.drawn e he).trans_le hle
    · obtain ⟨row, hrow, rfl⟩ := List.mem_map.mp he
      exact (hfresh row hrow).2
  · exact fun n hn => (hs.processed n hn).trans_le hle

/-- A step of the publisher sends events, and keeps them. -/
theorem Pipeline.guarantees_flush (a : FlushStep) (hs : s.Inv S wire) (hq : s.Sound S wire q) :
    Pipeline.Guarantees S wire s (Pipeline.act S wire (.flush a) s q) := by
  have hmoves := flushAct_moves a (s.store S) q.flush
  set r := flushAct a (s.store S) q.flush with hr
  have hpayloads := hmoves.payloads
  have hevents : S.events (S.setOutbox r.1.rows s.service) = S.events s.service := by
    rw [OutboxService.events, S.outbox_setOutbox]
    exact hpayloads
  have huuids := S.uuids_setOutbox r.1.rows s.service
  have hheld : ∀ item ∈ r.2.held, item.payload ∈ S.events s.service := fun item hitem =>
    (hmoves.held item hitem).elim (hq.flush item) fun hrow => List.mem_map_of_mem hrow
  refine ⟨⟨S.inv_setOutbox hpayloads hs.service, ?_, ?_, fun m hm => ?_, ?_⟩,
    ⟨S.rely_setOutbox hpayloads, ?_⟩,
    ⟨S.grows (S.rely_setOutbox hpayloads) hq.request, fun item hitem => ?_, ?_⟩⟩
  · change ((S.events (S.setOutbox r.1.rows s.service)).map (·.eventId)).Nodup
    rw [hevents]
    exact hs.nodup
  · change ∀ e ∈ S.events (S.setOutbox r.1.rows s.service), e.eventId < S.uuids
      (S.setOutbox r.1.rows s.service)
    rw [hevents, huuids]
    exact hs.drawn
  · change m.value ∈ S.events (S.setOutbox r.1.rows s.service)
    rw [hevents]
    rcases hmoves.topic hm with hm | ⟨item, hitem, heq⟩
    · exact hs.topic m hm
    · rw [heq]
      exact hq.flush item hitem
  · change ∀ n, isProcessed s.inbox (wire.draw n) = true → n < S.uuids
      (S.setOutbox r.1.rows s.service)
    rw [huuids]
    exact hs.processed
  · change S.events s.service ⊆ S.events (S.setOutbox r.1.rows s.service)
    rw [hevents]
    exact List.Subset.refl _
  · change item.payload ∈ S.events (S.setOutbox r.1.rows s.service)
    rw [hevents]
    exact hheld item hitem
  · refine hq.delivery.mono ?_
    change S.events s.service ⊆ S.events (S.setOutbox r.1.rows s.service)
    rw [hevents]
    exact List.Subset.refl _

/-- The event that a step looks up is known, and what it gets from `/users` is an answer. -/
def Pipeline.Feeds (S : OutboxService D A R K P) (wire : Wire K P) (s : Pipeline D K P) :
    NotificationService.Action → Prop
  | .lookup event => s.Known S wire event
  | .build users => ∀ data ∈ users, wire.Answers data
  | _ => True

/-- A delivery holds what its lookup found or its lookup's event built. -/
theorem Pipeline.delivering_act {a : NotificationService.Action}
    {r : NotificationService.Request} (ha : s.Feeds S wire a) (hr : s.Delivering S wire r) :
    s.Delivering S wire (NotificationService.act a s.inbox r).2 := by
  unfold NotificationService.act
  split
  · split
    · trivial
    · exact ha
  · split
    · trivial
    · exact ⟨hr, _, ha, ‹_›⟩
  · trivial
  · trivial
  · trivial
  · exact hr

/-- A delivery marks the event it holds, and writes the service's tables nothing. -/
theorem Pipeline.guarantees_consume {a : NotificationService.Action} (ha : s.Feeds S wire a)
    (hs : s.Inv S wire) (hq : s.Sound S wire q) :
    Pipeline.Guarantees S wire s (s.consume a q) := by
  have hprocessed : ∀ n,
      isProcessed (NotificationService.act a s.inbox q.delivery).1 (wire.draw n) = true →
        n < S.uuids s.service := by
    intro n hn
    rcases NotificationService.act_db_cases a s.inbox q.delivery with
      hsame | ⟨faults, now, event, drafts, rfl, hr, hsaved⟩
    · exact hs.processed n (by rwa [hsame] at hn)
    · obtain ⟨-, -, -, hids⟩ := NotificationService.saveEvent_ok hsaved
      rw [NotificationService.isProcessed_iff, hids, List.mem_append, List.mem_singleton] at hn
      rcases hn with hn | hn
      · exact hs.processed n (NotificationService.isProcessed_iff.mpr hn)
      · have hknown := hq.delivery
        rw [hr] at hknown
        rcases hknown.1 with ⟨e, he, rfl⟩ | hforeign
        · rw [wire.eventId_eq] at hn
          rw [wire.draw.injective hn]
          exact hs.drawn e he
        · exact absurd hn.symm (hforeign.draw n)
  exact ⟨⟨hs.service, hs.nodup, hs.drawn, hs.topic, hprocessed⟩,
    ⟨S.rely_refl s.service, List.Subset.refl _⟩,
    ⟨hq.request, hq.flush, Pipeline.delivering_act ha hq.delivery⟩⟩

/-- The invariant looks at no offset. -/
theorem Pipeline.Inv.setOffset (h : s.Inv S wire) (n : ℕ) :
    Pipeline.Inv S wire { s with offset := n } :=
  ⟨h.service, h.nodup, h.drawn, h.topic, h.processed⟩

/-- What a delivery of a message begins with is known. -/
theorem Pipeline.guarantees_take (i : ℕ) (hs : s.Inv S wire) (hq : s.Sound S wire q) :
    Pipeline.Guarantees S wire s (s.take wire i q) := by
  rcases Pipeline.take_cases wire i s q with heq | ⟨m, hm, -, heq⟩
  · rw [heq]
    exact ⟨hs, Pipeline.Rely.refl s, hq⟩
  · have hknown : Pipeline.Known S wire { s with offset := min i s.offset } (wire.event m.value) :=
      Or.inl ⟨m.value, hs.topic m (List.mem_of_getElem? hm), rfl⟩
    have hsound : Pipeline.Sound S wire { s with offset := min i s.offset }
        { q with taken := some i } := by
      refine ⟨hq.request, hq.flush, ?_⟩
      exact Pipeline.Delivering.mono hq.delivery (List.Subset.refl _)
    rw [heq]
    obtain ⟨hinv, hrely, hsound'⟩ :=
      Pipeline.guarantees_consume (a := .lookup (wire.event m.value)) hknown
        (hs.setOffset (min i s.offset)) hsound
    exact ⟨hinv, ⟨hrely.service, hrely.events⟩, hsound'⟩

theorem Pipeline.guarantees_commitOffset (hs : s.Inv S wire) (hq : s.Sound S wire q) :
    Pipeline.Guarantees S wire s (Pipeline.act S wire .commitOffset s q) := by
  rcases Pipeline.commitOffset_cases S wire s q with heq | ⟨-, -, heq⟩
  · rw [heq]
    exact ⟨hs, Pipeline.Rely.refl s, hq⟩
  · rw [heq]
    refine ⟨hs.setOffset _, ⟨S.rely_refl s.service, List.Subset.refl _⟩, ?_⟩
    exact ⟨hq.request, hq.flush, Pipeline.Delivering.mono hq.delivery (List.Subset.refl _)⟩

theorem Pipeline.guarantees {a : PipelineAction A} (ha : a.Allowed S wire) (hs : s.Inv S wire)
    (hq : s.Sound S wire q) : Pipeline.Guarantees S wire s (Pipeline.act S wire a s q) := by
  cases a with
  | request a => exact Pipeline.guarantees_request ha hs hq
  | flush a => exact Pipeline.guarantees_flush a hs hq
  | next => exact Pipeline.guarantees_take s.offset hs hq
  | deliver i => exact Pipeline.guarantees_take i hs hq
  | commitOffset => exact Pipeline.guarantees_commitOffset hs hq
  | inbox a =>
    refine Pipeline.guarantees_consume ?_ hs hq
    cases a with
    | lookup event => exact Or.inr ha
    | build users => exact ha
    | _ => trivial

/-! ## Notifications and records -/

variable (S wire) in
/-- A kind of notifications, and the events that build one of it; the other events of the
service, and all events of the others, build none. -/
structure Kind where
  notice : NotificationEntity → Bool
  source : EventEnvelope K P → Bool
  builds : ∀ {d e} {users : Option (List NotificationService.RemoteUser)} {drafts rows},
    S.Inv d → e ∈ S.events d → (∀ data ∈ users, wire.Answers data) →
    buildNotifications (wire.event e) users = .ok drafts → List.Forall₂ Draft.IsRow drafts rows →
    rows.countP notice = if source e then 1 else 0
  other : ∀ {event : DomainEvent} {users drafts rows}, event.eventType ∉ wire.types →
    buildNotifications event users = .ok drafts → List.Forall₂ Draft.IsRow drafts rows →
    rows.countP notice = 0

variable (wire) in
/-- The event waits for a delivery that goes through. -/
def Pipeline.awaited (s : Pipeline D K P) (e : EventEnvelope K P) : Bool :=
  !isProcessed s.inbox (wire.draw e.eventId)

/-- The records of the kind are in the inbox, or awaited. -/
def Pipeline.Balanced (s : Pipeline D K P) (kind : Kind S wire) : Prop :=
  s.inbox.notifications.countP kind.notice +
      (S.events s.service).countP (fun e => kind.source e && s.awaited wire e) =
    (S.events s.service).countP kind.source

/-- Taking one element of a list out of a count. -/
theorem countP_and_ne {α : Type} {f : α → ℕ} {l : List α} (h : (l.map f).Nodup) {a : α}
    (ha : a ∈ l) (p : α → Bool) :
    (l.countP fun b => p b && !(f b == f a)) + (if p a then 1 else 0) = l.countP p := by
  induction l with
  | nil => exact absurd ha List.not_mem_nil
  | cons b l ih =>
    rw [List.map_cons, List.nodup_cons] at h
    rw [List.countP_cons, List.countP_cons]
    rcases List.mem_cons.mp ha with rfl | ha
    · -- no other element has the key of `a`
      have hrest : (l.countP fun b => p b && !(f b == f a)) = l.countP p := by
        refine List.countP_congr fun b hb => ?_
        have hne : f b ≠ f a := fun heq => h.1 (heq ▸ List.mem_map_of_mem hb)
        simp [hne]
      rw [hrest]
      simp
    · have hne : f b ≠ f a := fun heq => h.1 (heq ▸ List.mem_map_of_mem ha)
      have := ih h.2 ha
      simp only [beq_eq_false_iff_ne.mpr hne, Bool.not_false, Bool.and_true] at this ⊢
      omega

/-- The balance looks at the events and the inbox only. -/
theorem Pipeline.Balanced.of_events {kind : Kind S wire} (h : s.Balanced kind)
    (hevents : S.events s'.service = S.events s.service) (hinbox : s'.inbox = s.inbox) :
    s'.Balanced kind := by
  rw [Pipeline.Balanced] at h ⊢
  unfold Pipeline.awaited at h ⊢
  rw [hevents, hinbox]
  exact h

/-- New records are awaited. -/
theorem Pipeline.Balanced.request {kind : Kind S wire} (h : s.Balanced kind) (a : A)
    (hs : s.Inv S wire) : (Pipeline.act S wire (.request a) s q).1.Balanced kind := by
  obtain ⟨new, hnew, -, -, hfresh, -, -⟩ := S.appends a s.service q.request
  have hevents : S.events (S.act a s.service q.request).1 =
      S.events s.service ++ new.map (·.payload) := by
    rw [OutboxService.events, hnew, List.map_append]
    rfl
  have hawaited : ∀ e ∈ new.map (·.payload), s.awaited wire e = true := by
    intro e he
    obtain ⟨row, hrow, rfl⟩ := List.mem_map.mp he
    rw [Pipeline.awaited, Bool.not_eq_true']
    by_contra hprocessed
    have := hs.processed _ (by simpa using hprocessed)
    have := (hfresh row hrow).1
    omega
  have hcount : ((new.map (·.payload)).countP fun e => kind.source e && s.awaited wire e) =
      (new.map (·.payload)).countP kind.source :=
    List.countP_congr fun e he => by simp [hawaited e he]
  rw [Pipeline.Balanced] at h ⊢
  change s.inbox.notifications.countP kind.notice +
    (S.events (S.act a s.service q.request).1).countP
      (fun e => kind.source e && s.awaited wire e) =
        (S.events (S.act a s.service q.request).1).countP kind.source
  rw [hevents, List.countP_append, List.countP_append, hcount]
  omega

/-- A transaction that goes through puts what its event builds into the inbox, and the event is
awaited no more. -/
theorem Pipeline.Balanced.consume {kind : Kind S wire} (h : s.Balanced kind)
    (a : NotificationService.Action) (hs : s.Inv S wire) (hq : s.Sound S wire q) :
    (s.consume a q).1.Balanced kind := by
  rcases NotificationService.act_db_cases a s.inbox q.delivery with
    hsame | ⟨faults, now, event, drafts, rfl, hr, hsaved⟩
  · exact h.of_events rfl hsame
  have hknown := hq.delivery
  rw [hr] at hknown
  obtain ⟨hknown, users, husers, hbuilt⟩ := hknown
  have hdrafts := NotificationService.buildNotifications_eventId hbuilt
  have hnew := (NotificationService.saveEvent_stores hsaved hdrafts).1
  obtain ⟨rows, hrows, hforall, hids⟩ := NotificationService.saveEvent_ok hsaved
  set db := (NotificationService.act (.save faults now) s.inbox q.delivery).1 with hdb
  have hprocessed : ∀ id, isProcessed db id = (isProcessed s.inbox id || id == event.eventId) := by
    intro id
    rw [Bool.eq_iff_iff, NotificationService.isProcessed_iff, hids, List.mem_append,
      List.mem_singleton, ← NotificationService.isProcessed_iff]
    simp
  rw [Pipeline.Balanced] at h ⊢
  change db.notifications.countP kind.notice +
    (S.events s.service).countP
      (fun e => kind.source e && !isProcessed db (wire.draw e.eventId)) =
        (S.events s.service).countP kind.source
  rw [hrows, List.countP_append]
  simp only [hprocessed]
  rcases hknown with ⟨e, he, rfl⟩ | hforeign
  · -- the event is one of the service's, and was awaited
    have hold : isProcessed s.inbox (wire.draw e.eventId) = false := by
      rw [NotificationService.NotificationDb.processedRows, List.count_eq_zero,
        wire.eventId_eq] at hnew
      exact Bool.eq_false_iff.mpr (mt NotificationService.isProcessed_iff.mp hnew)
    have hone := countP_and_ne hs.nodup he fun e => kind.source e && s.awaited wire e
    have hself : s.awaited wire e = true := by rw [Pipeline.awaited, hold, Bool.not_false]
    have hcount : ((S.events s.service).countP fun b => kind.source b &&
        !(isProcessed s.inbox (wire.draw b.eventId) ||
          wire.draw b.eventId == (wire.event e).eventId)) =
        (S.events s.service).countP fun b =>
          (kind.source b && s.awaited wire b) && !(b.eventId == e.eventId) := by
      refine List.countP_congr fun b _ => ?_
      simp [wire.eventId_eq, Pipeline.awaited, and_assoc]
    rw [hcount, kind.builds hs.service he husers hbuilt hforall]
    simp only [hself, Bool.and_true] at hone
    omega
  · -- the event is another service's
    have hcount : ((S.events s.service).countP fun b => kind.source b &&
        !(isProcessed s.inbox (wire.draw b.eventId) || wire.draw b.eventId == event.eventId)) =
        (S.events s.service).countP fun b => kind.source b && s.awaited wire b := by
      refine List.countP_congr fun b _ => ?_
      simp [Pipeline.awaited, (hforeign.draw b.eventId).symm]
    rw [hcount, kind.other hforeign.type hbuilt hforall]
    exact h

/-- A delivery that begins writes nothing. -/
theorem Pipeline.Balanced.take {kind : Kind S wire} (h : s.Balanced kind) (i : ℕ) :
    (s.take wire i q).1.Balanced kind := by
  rcases Pipeline.take_cases wire i s q with heq | ⟨m, -, hidle, heq⟩
  · rw [heq]
    exact h
  · rw [heq]
    refine h.of_events rfl ?_
    rcases NotificationService.act_db_cases (.lookup (wire.event m.value)) s.inbox q.delivery with
      hsame | ⟨faults, now, event, drafts, hsave, -⟩
    · exact hsame
    · cases hsave

theorem Pipeline.Balanced.act {kind : Kind S wire} (h : s.Balanced kind) (a : PipelineAction A)
    (hs : s.Inv S wire) (hq : s.Sound S wire q) : (Pipeline.act S wire a s q).1.Balanced kind := by
  cases a with
  | request a => exact h.request a hs
  | flush a =>
    refine h.of_events ?_ rfl
    have hpayloads := (flushAct_moves a (s.store S) q.flush).payloads
    change (S.outbox (S.setOutbox _ s.service)).map (·.payload) = _
    rw [S.outbox_setOutbox]
    exact hpayloads
  | next => exact h.take s.offset
  | deliver i => exact h.take i
  | commitOffset =>
    rcases Pipeline.commitOffset_cases S wire s q with heq | ⟨-, -, heq⟩
    · rw [heq]
      exact h
    · rw [heq]
      exact h.of_events rfl rfl
  | inbox a => exact h.consume a hs hq

/-! ## Runs -/

/-- The tables of a service that recorded nothing, nothing sent, and nothing delivered. -/
def Pipeline.start (d : D) (request : R) : Shared (Pipeline D K P) (Roles R K P) :=
  ⟨⟨d, [], 0, [], ⟨[], [], 0⟩⟩, fun _ => ⟨request, .items [], .idle, none⟩⟩

/-- Nothing is recorded yet. -/
structure OutboxService.Starts (S : OutboxService D A R K P) (d : D) (request : R) : Prop where
  inv : S.Inv d
  outbox : S.outbox d = []
  sound : S.Sound d request

theorem OutboxService.Starts.safe {d : D} {request : R} (h : S.Starts d request) :
    (Pipeline.start d request : Shared (Pipeline D K P) (Roles R K P)).Safe
      (Pipeline.Inv S wire) (Pipeline.Sound S wire) := by
  have hevents : S.events d = [] := by rw [OutboxService.events, h.outbox, List.map_nil]
  refine ⟨⟨h.inv, ?_, ?_, ?_, ?_⟩, fun p => ⟨h.sound, ?_, trivial⟩⟩
  · change ((S.events d).map (·.eventId)).Nodup
    rw [hevents]
    exact List.nodup_nil
  · change ∀ e ∈ S.events d, e.eventId < S.uuids d
    simp [hevents]
  · simp [Pipeline.start]
  · simp [Pipeline.start, isProcessed]
  · simp [Pipeline.start, Flush.held]

theorem safe_pipeline_run {d : D} {request : R} (h0 : S.Starts d request)
    {as : List (ℕ × PipelineAction A)} (has : ∀ pa ∈ as, pa.2.Allowed S wire) :
    (run (Shared.step (Pipeline.act S wire)) (Pipeline.start d request) as).Safe
      (Pipeline.Inv S wire) (Pipeline.Sound S wire) :=
  h0.safe.run (PipelineAction.Allowed S wire) (Pipeline.Rely S)
    (fun _ _ _ ha hs hq => Pipeline.guarantees ha hs hq) (fun _ _ _ hrely hq => hq.grows hrely) has

/-- After any run the notifications of a kind and the awaited records of it are as many as the
records of it. -/
theorem balanced_run {d : D} {request : R} (h0 : S.Starts d request) (kind : Kind S wire)
    {as : List (ℕ × PipelineAction A)} (has : ∀ pa ∈ as, pa.2.Allowed S wire) :
    (run (Shared.step (Pipeline.act S wire)) (Pipeline.start d request) as).db.Balanced kind := by
  induction as using List.reverseRecOn with
  | nil =>
    rw [run_nil, Pipeline.Balanced]
    change 0 + (S.events d).countP _ = (S.events d).countP _
    rw [OutboxService.events, h0.outbox]
    rfl
  | append_singleton as pa ih =>
    have has' : ∀ pb ∈ as, pb.2.Allowed S wire := fun pb hpb => has pb (by simp [hpb])
    have hsafe := safe_pipeline_run h0 has'
    rw [run_append, run_cons, run_nil]
    exact (ih has').act pa.2 hsafe.store (hsafe.sound pa.1)

/-- A delivery of a message, with nothing between its steps. -/
def deliverSteps (A : Type) (p i : ℕ) (faults : NotificationService.Faults) (now : ℤ) :
    List (ℕ × PipelineAction A) :=
  [(p, .deliver i), (p, .inbox (.build faults.users)), (p, .inbox (.save faults now))]

/-- The steps of a delivery are `handleEvent`. -/
theorem run_deliverSteps (t : Shared (Pipeline D K P) (Roles R K P)) {p i : ℕ}
    (hp : (t.requests p).delivery = .idle) {m : OutboxMessage K P} (hm : t.db.topic[i]? = some m)
    {faults : NotificationService.Faults} (hlookup : faults.lookup = false) (now : ℤ) :
    (run (Shared.step (Pipeline.act S wire)) t (deliverSteps A p i faults now)).db.inbox =
      (NotificationService.handleEvent t.db.inbox (wire.event m.value) faults now).1 := by
  simp only [deliverSteps, run_cons, run_nil, Shared.step_db, Shared.step_requests_self,
    Pipeline.act, Pipeline.take, hm, Pipeline.consume, hp, NotificationService.act,
    NotificationService.handleEvent, hlookup]
  cases isProcessed t.db.inbox (wire.event m.value).eventId with
  | true => rfl
  | false =>
    cases hbuilt : buildNotifications (wire.event m.value) faults.users with
    | error e => simp [hbuilt]
    | ok drafts => simp [hbuilt]

end

end Qoms
