import Qoms.OutboxBacklog
import Qoms.QueueNotices
import Qoms.ReservationNotices

/-!
# Every commit is announced in the end

What the publisher polls no more is published or given up, and what is published is in the topic
(`Pipeline.Traced`). From any state some runs of the publisher in which no call fails send what is
pending (`outbox_drains`), and the consumer, which takes the messages from its offset on, processes
each by a delivery without a fault. After that every record is processed (`exists_served`) but for
those that were given up, and those that were published and passed over : the consumer had
committed its offset past them, and no delivery of them had gone through (`Pipeline.passed`). If
there are none of either, the users have one notification for each entry and each reservation, and
one for each end (`entries_announced_eventually`, `reservations_announced_eventually`). Nothing is
passed over where the offset only goes past processed messages (`passed_eq_false`).
-/

set_option autoImplicit false

namespace Qoms

open NotificationService (Faults)

/-! ## Published records are in the topic -/

/-- The event was sent. -/
def InTopic {K P : Type} (topic : List (OutboxMessage K P)) (e : EventEnvelope K P) : Prop :=
  ∃ m ∈ topic, m.value = e

section

variable {K P : Type} {db : OutboxStore K P} {flush : Flush K P}
  {r : OutboxStore K P × Flush K P}

/-- An item about to be marked is in the topic. -/
def Flush.SentInTopic (topic : List (OutboxMessage K P)) (flush : Flush K P) : Prop :=
  ∀ item items, flush = .sent item items → InTopic topic item.payload

theorem topic_prefix_send (item : OutboxEvent K P) (outcome : CallOutcome) :
    db.topic <+: (db.send item outcome).topic := by
  unfold OutboxStore.send
  split_ifs
  · exact List.prefix_append _ _
  · exact List.prefix_rfl

/-- Messages are added at the end. -/
theorem FlushMoves.topic_prefix (h : FlushMoves db flush r) : db.topic <+: r.1.topic := by
  cases h with
  | sent item items => exact topic_prefix_send item _
  | sendFailed item items outcome message => exact topic_prefix_send item outcome
  | marked | written => rw [topic_update]
  | markFailed item items outcome now message => rw [OutboxStore.log, topic_update]
  | _ => exact List.prefix_rfl

theorem FlushMoves.sentInTopic (h : FlushMoves db flush r) (hflush : flush.SentInTopic db.topic) :
    r.2.SentInTopic r.1.topic := by
  cases h with
  | stay => exact hflush
  | sent item items =>
    intro item' items' heq
    obtain ⟨rfl, -⟩ := Flush.sent.inj heq
    exact ⟨_, List.mem_append_right _ (List.mem_singleton_self _), rfl⟩
  | _ => exact fun item items heq => by simp at heq

/-- A row after a step, and the one that it was; it is published by a mark only. -/
theorem FlushMoves.rows (h : FlushMoves db flush r) : ∀ row ∈ r.1.rows, ∃ old ∈ db.rows,
    SameEvent old row ∧ (row.publishedAt ≠ none → old.publishedAt ≠ none ∨
      ∃ item items, flush = .sent item items ∧ old.id = item.id) := by
  have hsame : ∀ row ∈ db.rows, ∃ old ∈ db.rows, SameEvent old row ∧
      (row.publishedAt ≠ none → old.publishedAt ≠ none ∨
        ∃ item items, flush = .sent item items ∧ old.id = item.id) :=
    fun row hrow => ⟨row, hrow, ⟨rfl, rfl⟩, Or.inl⟩
  have hmark : ∀ item items outcome now, flush = .sent item items →
      ∀ row ∈ (db.update (markOutboxPublished item.id now db.rows) outcome).rows,
        ∃ old ∈ db.rows, SameEvent old row ∧ (row.publishedAt ≠ none →
          old.publishedAt ≠ none ∨ ∃ item items, flush = .sent item items ∧ old.id = item.id) := by
    intro item items outcome now hflush row hrow
    rcases mem_update db _ outcome hrow with hrow | hrow
    · obtain ⟨old, hold, rfl | ⟨hid, rfl⟩⟩ := mem_markOutboxPublished hrow
      · exact hsame row hold
      · exact ⟨old, hold, ⟨rfl, rfl⟩, fun _ => Or.inr ⟨item, items, hflush, hid⟩⟩
    · exact hsame row hrow
  cases h with
  | sent item items => exact fun row hrow => hsame row (by simpa using hrow)
  | sendFailed item items outcome message => exact fun row hrow => hsame row (by simpa using hrow)
  | marked item items outcome now => exact hmark item items outcome now rfl
  | markFailed item items outcome now message => exact hmark item items outcome now rfl
  | written item items rest message attempts outcome =>
    intro row hrow
    rcases mem_update db _ outcome hrow with hrow | hrow
    · obtain ⟨old, hold, rfl | ⟨-, rfl⟩⟩ := mem_writeAttempts hrow
      · exact hsame row hold
      · exact ⟨old, hold, ⟨rfl, rfl⟩, Or.inl⟩
    · exact hsame row hrow
  | _ => exact hsame

end

section

variable {D A R K P : Type} (S : OutboxService D A R K P) (wire : Wire K P)

/-- Rows have the id after that of their event, a published one is in the topic, and the offset is
in the topic or at its end. -/
structure Pipeline.Traced (s : Pipeline D K P) : Prop where
  ids : ∀ row ∈ S.outbox s.service, row.id = row.payload.eventId + 1
  published : ∀ row ∈ S.outbox s.service, row.publishedAt ≠ none → InTopic s.topic row.payload
  offset : s.offset ≤ s.topic.length

/-- The same of what a run of the publisher, and a delivery, has in hand. -/
structure Roles.Traced (topic : List (OutboxMessage K P)) (q : Roles R K P) : Prop where
  ids : ∀ item ∈ q.flush.held, item.id = item.payload.eventId + 1
  sent : q.flush.SentInTopic topic
  taken : ∀ i ∈ q.taken, i < topic.length

variable {S wire} {s : Pipeline D K P} {q : Roles R K P} {a : PipelineAction A}

theorem Roles.Traced.mono {topic topic' : List (OutboxMessage K P)} (h : q.Traced topic)
    (hpre : topic <+: topic') : q.Traced topic' where
  ids := h.ids
  sent item items heq := by
    obtain ⟨m, hm, hvalue⟩ := h.sent item items heq
    exact ⟨m, hpre.subset hm, hvalue⟩
  taken i hi := (h.taken i hi).trans_le hpre.length_le

/-- A delivery that begins is of a message of the topic. -/
theorem Pipeline.traced_take (i : ℕ) (hs : s.Traced S) (hq : q.Traced s.topic) :
    (s.take wire i q).1.Traced S ∧ s.topic <+: (s.take wire i q).1.topic ∧
      (s.take wire i q).2.Traced (s.take wire i q).1.topic := by
  rcases Pipeline.take_cases wire i s q with heq | ⟨m, hm, -, heq⟩
  · rw [heq]
    exact ⟨hs, List.prefix_rfl, hq⟩
  · rw [heq]
    have htaken : ∀ j ∈ some i, j < s.topic.length := by
      rintro j ⟨⟩
      exact (List.getElem?_eq_some_iff.mp hm).1
    refine ⟨⟨hs.ids, hs.published, ?_⟩, List.prefix_rfl, hq.ids, hq.sent, htaken⟩
    exact (Nat.min_le_right i s.offset).trans hs.offset

/-- A step keeps the tables traced, and its process; no message goes. -/
theorem Pipeline.traced_act (hs : s.Inv S wire) (hq : s.Sound S wire q) (hsTraced : s.Traced S)
    (hqTraced : q.Traced s.topic) :
    (Pipeline.act S wire a s q).1.Traced S ∧ s.topic <+: (Pipeline.act S wire a s q).1.topic ∧
      (Pipeline.act S wire a s q).2.Traced (Pipeline.act S wire a s q).1.topic := by
  cases a with
  | request a =>
    obtain ⟨new, hnew, -, -, -, hid, hunpublished⟩ := S.appends a s.service q.request
    refine ⟨⟨fun row hrow => ?_, fun row hrow hpub => ?_, hsTraced.offset⟩, List.prefix_rfl,
      hqTraced.ids, hqTraced.sent, hqTraced.taken⟩
    · change row ∈ S.outbox (S.act a s.service q.request).1 at hrow
      rw [hnew, List.mem_append] at hrow
      exact hrow.elim (hsTraced.ids row) (hid row)
    · change row ∈ S.outbox (S.act a s.service q.request).1 at hrow
      rw [hnew, List.mem_append] at hrow
      exact hrow.elim (fun hrow => hsTraced.published row hrow hpub)
        fun hrow => absurd (hunpublished row hrow) hpub
  | flush a =>
    have hmoves := flushAct_moves a (s.store S) q.flush
    set r := flushAct a (s.store S) q.flush with hr
    have hrows := hmoves.rows
    have hpre := hmoves.topic_prefix
    have hsub := hpre.subset
    refine ⟨⟨fun row hrow => ?_, fun row hrow hpub => ?_, ?_⟩, hpre, fun item hitem => ?_,
      hmoves.sentInTopic hqTraced.sent, fun i hi => ?_⟩
    · change row ∈ S.outbox (S.setOutbox r.1.rows s.service) at hrow
      rw [S.outbox_setOutbox] at hrow
      obtain ⟨old, hold, hsame, -⟩ := hrows row hrow
      rw [hsame.id, hsame.payload]
      exact hsTraced.ids old hold
    · change row ∈ S.outbox (S.setOutbox r.1.rows s.service) at hrow
      rw [S.outbox_setOutbox] at hrow
      obtain ⟨old, hold, hsame, hcause⟩ := hrows row hrow
      rw [hsame.payload]
      rcases hcause hpub with hpub | ⟨item, items, hflush, hid⟩
      · obtain ⟨m, hm, heq⟩ := hsTraced.published old hold hpub
        exact ⟨m, hsub hm, heq⟩
      · -- the item has the event of the row
        have hheld : item ∈ q.flush.held := by simp [hflush, Flush.held]
        have hevent : old.payload.eventId = item.payload.eventId := Nat.succ.inj
          ((hsTraced.ids old hold).symm.trans (hid.trans (hqTraced.ids item hheld)))
        have heq := List.inj_on_of_nodup_map hs.nodup (List.mem_map_of_mem hold)
          (hq.flush item hheld) hevent
        obtain ⟨m, hm, hvalue⟩ := hqTraced.sent item items hflush
        exact ⟨m, hsub hm, hvalue.trans heq.symm⟩
    · exact hsTraced.offset.trans hpre.length_le
    · rcases hmoves.held item hitem with hitem | hitem
      · exact hqTraced.ids item hitem
      · exact hsTraced.ids item hitem
    · exact (hqTraced.taken i hi).trans_le hpre.length_le
  | next => exact Pipeline.traced_take s.offset hsTraced hqTraced
  | deliver i => exact Pipeline.traced_take i hsTraced hqTraced
  | commitOffset =>
    rcases Pipeline.commitOffset_cases S wire s q with heq | ⟨-, htaken, heq⟩
    · rw [heq]
      exact ⟨hsTraced, List.prefix_rfl, hqTraced⟩
    · rw [heq]
      have hoffset : s.offset < s.topic.length := hqTraced.taken _ htaken
      exact ⟨⟨hsTraced.ids, hsTraced.published, hoffset⟩, List.prefix_rfl, hqTraced⟩
  | inbox a =>
    exact ⟨⟨hsTraced.ids, hsTraced.published, hsTraced.offset⟩, List.prefix_rfl, hqTraced.ids,
      hqTraced.sent, hqTraced.taken⟩

theorem safe_traced_run {d : D} {request : R} (h0 : S.Starts d request)
    {as : List (ℕ × PipelineAction A)} (has : ∀ pa ∈ as, pa.2.Allowed S wire) :
    (run (Shared.step (Pipeline.act S wire)) (Pipeline.start d request) as).Safe
      (Pipeline.Traced S) (fun s q => q.Traced s.topic) := by
  have hsafe : (run (Shared.step (Pipeline.act S wire)) (Pipeline.start d request) as).Safe
      (fun s => s.Inv S wire ∧ s.Traced S)
      (fun s q => s.Sound S wire q ∧ q.Traced s.topic) := by
    have h0Traced : (Pipeline.start d request : Shared (Pipeline D K P) (Roles R K P)).Safe
        (fun s => s.Inv S wire ∧ s.Traced S)
        (fun s q => s.Sound S wire q ∧ q.Traced s.topic) := by
      refine ⟨⟨h0.safe.store, ?_, ?_, le_rfl⟩, fun p => ⟨h0.safe.sound p, ?_, ?_, nofun⟩⟩
      · simp [Pipeline.start, h0.outbox]
      · simp [Pipeline.start, h0.outbox]
      · simp [Pipeline.start, Flush.held]
      · simp [Pipeline.start, Flush.SentInTopic]
    refine h0Traced.run (PipelineAction.Allowed S wire)
      (fun s s' => s.Rely S s' ∧ s.topic <+: s'.topic) (fun a s q ha hs hq => ?_)
      (fun s s' q hrely hq => ⟨hq.1.grows hrely.1, hq.2.mono hrely.2⟩) has
    obtain ⟨hinv, hrely, hsound⟩ := Pipeline.guarantees ha hs.1 hq.1
    obtain ⟨htraced, hpre, hroles⟩ := Pipeline.traced_act hs.1 hq.1 hs.2 hq.2
    exact ⟨⟨hinv, htraced⟩, ⟨hrely, hpre⟩, hsound, hroles⟩
  exact ⟨hsafe.store.2, fun p => (hsafe.sound p).2⟩

/-- After any run what is published is in the topic. -/
theorem traced_run {d : D} {request : R} (h0 : S.Starts d request)
    {as : List (ℕ × PipelineAction A)} (has : ∀ pa ∈ as, pa.2.Allowed S wire) :
    (run (Shared.step (Pipeline.act S wire)) (Pipeline.start d request) as).db.Traced S :=
  (safe_traced_run h0 has).store

/-! ## Steps of the publisher and the consumer -/

variable (wire) in
/-- A step of the publisher, or of the consumer, which takes the messages from its offset on. -/
def PipelineAction.Internal : PipelineAction A → Prop
  | .flush _ | .next | .commitOffset | .inbox (.save _ _) => True
  | .inbox (.build users) => ∀ data ∈ users, wire.Answers data
  | _ => False

theorem PipelineAction.Internal.allowed (h : a.Internal wire) : a.Allowed S wire := by
  cases a with
  | request a => exact absurd h id
  | deliver i => exact absurd h id
  | flush | next | commitOffset => trivial
  | inbox a =>
    cases a with
    | lookup event => exact absurd h id
    | build users => exact h
    | _ => trivial

/-- Of the service's tables such a step writes the outbox, but no event. -/
theorem PipelineAction.Internal.service (h : a.Internal wire) :
    ∃ rows, (Pipeline.act S wire a s q).1.service = S.setOutbox rows s.service ∨
      (Pipeline.act S wire a s q).1.service = s.service := by
  cases a with
  | request a => exact absurd h id
  | flush a => exact ⟨_, Or.inl rfl⟩
  | next => exact ⟨[], Or.inr (Pipeline.take_service wire s.offset s q)⟩
  | deliver i => exact absurd h id
  | commitOffset =>
    refine ⟨[], Or.inr ?_⟩
    rcases Pipeline.commitOffset_cases S wire s q with heq | ⟨-, -, heq⟩
    · exact congrArg (·.1.service) heq
    · exact congrArg (·.1.service) heq
  | inbox a => exact ⟨[], Or.inr rfl⟩

theorem PipelineAction.Internal.events (h : a.Internal wire) :
    S.events (Pipeline.act S wire a s q).1.service = S.events s.service := by
  cases a with
  | request a => exact absurd h id
  | flush a =>
    change (S.outbox (S.setOutbox _ s.service)).map (·.payload) = _
    rw [S.outbox_setOutbox]
    exact (flushAct_moves a (s.store S) q.flush).payloads
  | next => exact congrArg S.events (Pipeline.take_service wire s.offset s q)
  | deliver i => exact absurd h id
  | commitOffset =>
    rcases Pipeline.commitOffset_cases S wire s q with heq | ⟨-, -, heq⟩
    · exact congrArg (fun r => S.events r.1.service) heq
    · exact congrArg (fun r => S.events r.1.service) heq
  | inbox a => rfl

theorem flushAct_uuids (a : FlushStep) (db : OutboxStore K P) (flush : Flush K P) :
    (flushAct a db flush).1.uuids = db.uuids := by
  have hsend : ∀ item outcome, (db.send item outcome).uuids = db.uuids := by
    intro item outcome
    unfold OutboxStore.send
    split_ifs <;> rfl
  have hupdate : ∀ rows outcome, (db.update rows outcome).uuids = db.uuids := by
    intro rows outcome
    unfold OutboxStore.update
    split_ifs <;> rfl
  have hmoves := flushAct_moves a db flush
  generalize flushAct a db flush = r at hmoves
  cases hmoves with
  | sent | sendFailed => exact hsend _ _
  | marked | markFailed | written => exact hupdate _ _
  | _ => rfl

theorem store_withStore {db : OutboxStore K P} (h : db.uuids = S.uuids s.service) :
    (s.withStore S db).store S = db := by
  simp only [Pipeline.withStore, Pipeline.store, S.outbox_setOutbox, S.uuids_setOutbox, ← h]

variable {t : Shared (Pipeline D K P) (Roles R K P)} {p : ℕ}

/-- The steps of a process that are the publisher's. -/
theorem run_flush (as : List FlushStep) :
    let u := run (Shared.step (Pipeline.act S wire)) t (as.map fun a => (p, .flush a))
    (u.db.store S, (u.requests p).flush) = run round (t.db.store S, (t.requests p).flush) as := by
  induction as generalizing t with
  | nil => rfl
  | cons a as ih =>
    rw [List.map_cons, run_cons, run_cons]
    refine ih.trans ?_
    have hstore : (Shared.step (Pipeline.act S wire) t (p, .flush a)).db.store S =
        (flushAct a (t.db.store S) (t.requests p).flush).1 :=
      store_withStore (flushAct_uuids a (t.db.store S) (t.requests p).flush)
    rw [hstore, Shared.step_requests_self]
    rfl

theorem zip_take_length {α β : Type} (l : List α) (l' : List β) :
    l.zip (l'.take l.length) = l.zip l' := by
  induction l generalizing l' with
  | nil => rfl
  | cons a l ih =>
    cases l' with
    | nil => rfl
    | cons b l' => rw [List.length_cons, List.take_succ_cons, List.zip_cons_cons, ih,
        List.zip_cons_cons]

/-- The steps of runs of `flushOutbox` one after another. -/
theorem exists_flushSteps (db : OutboxStore K P) (runs : List FlushRun)
    (hruns : ∀ r ∈ runs, 25 ≤ r.2.length) :
    ∃ steps, run round (db, .items []) steps = (flushRuns db runs, .items []) := by
  induction runs generalizing db with
  | nil => exact ⟨[], rfl⟩
  | cons r runs ih =>
    rw [List.forall_mem_cons] at hruns
    obtain ⟨steps, hsteps⟩ := ih (flushOutbox r.1 r.2 db) hruns.2
    set n := (getPendingOutboxEvents r.1 25 db.rows).length with hn
    have hle : n ≤ r.2.length := (List.length_take_le _ _).trans hruns.1
    have hrun := run_flushOutbox db r.1 (r.2.take n) (by rw [List.length_take]; omega)
    have htake : flushOutbox r.1 (r.2.take n) db = flushOutbox r.1 r.2 db := by
      rw [flushOutbox, flushOutbox, zip_take_length]
    refine ⟨(.poll r.1 :: (r.2.take n).flatMap (·.steps)) ++ steps, ?_⟩
    rw [run_append, hrun, htake, hsteps]
    rfl

/-- A delivery of the message at the offset, and the commit past it. -/
def nextSteps (A : Type) (p : ℕ) (faults : Faults) (now : ℤ) : List (ℕ × PipelineAction A) :=
  [(p, .next), (p, .inbox (.build faults.users)), (p, .inbox (.save faults now)),
    (p, .commitOffset)]

theorem run_nextSteps_eq (p : ℕ) (faults : Faults) (now : ℤ) :
    run (Shared.step (Pipeline.act S wire)) t (nextSteps A p faults now) =
      run (Shared.step (Pipeline.act S wire)) t
        (deliverSteps A p t.db.offset faults now ++ [(p, .commitOffset)]) :=
  rfl

/-- Whatever its delivery met, the consumer goes on to the next message. -/
theorem run_nextSteps (hp : (t.requests p).delivery = .idle) {m : OutboxMessage K P}
    (hm : t.db.topic[t.db.offset]? = some m) (faults : Faults) (now : ℤ) :
    let u := run (Shared.step (Pipeline.act S wire)) t (nextSteps A p faults now)
    u.db.topic = t.db.topic ∧ u.db.offset = t.db.offset + 1 := by
  simp only [nextSteps, run_cons, run_nil, Shared.step_db, Shared.step_requests_self, Pipeline.act,
    Pipeline.take, hm, Pipeline.consume, hp, NotificationService.act]
  cases NotificationService.isProcessed t.db.inbox (wire.event m.value).eventId with
  | true => simp
  | false =>
    cases hbuilt : NotificationService.buildNotifications (wire.event m.value) faults.users with
    | error e => simp [hbuilt]
    | ok drafts => simp [hbuilt]

/-- No call of a delivery fails. -/
def noFaults (users : Option (List NotificationService.RemoteUser)) : Faults :=
  ⟨false, users, fun _ => false, false, .acknowledged⟩

/-- The ids of the rows are distinct. -/
theorem Pipeline.Traced.nodup (h : s.Traced S)
    (hnodup : ((S.events s.service).map (·.eventId)).Nodup) :
    ((S.outbox s.service).map (·.id)).Nodup := by
  have hids : (S.outbox s.service).map (·.id) =
      ((S.events s.service).map (·.eventId)).map (· + 1) := by
    rw [OutboxService.events, List.map_map, List.map_map]
    exact List.map_congr_left h.ids
  rw [hids]
  exact hnodup.map fun _ _ => Nat.succ.inj

/-- The steps of the publisher leave the consumer where it is. -/
theorem offset_run_flush (steps : List FlushStep) :
    (run (Shared.step (Pipeline.act S wire)) t (steps.map fun a => (p, .flush a))).db.offset =
      t.db.offset := by
  induction steps generalizing t with
  | nil => rfl
  | cons a steps ih =>
    rw [List.map_cons, run_cons, ih]
    rfl

/-- The publisher can send every record that is pending. -/
theorem exists_flushes (hs : t.db.Inv S wire) (htraced : t.db.Traced S)
    (hidle : (t.requests p).flush = .items []) :
    ∃ (steps : List FlushStep) (new : List (OutboxMessage K P)),
      (run (Shared.step (Pipeline.act S wire)) t (steps.map fun a => (p, .flush a))).db.topic =
        t.db.topic ++ new ∧
      ∀ row ∈ S.outbox t.db.service, row.pending = true → InTopic new row.payload := by
  set db := t.db.store S with hdb
  have hnodup : (db.rows.map (·.id)).Nodup := htraced.nodup hs.nodup
  have hruns : ∀ r ∈ List.replicate (db.rows.countP (·.pending)) quietRun, r.Faultless :=
    fun r hr => List.eq_of_mem_replicate hr ▸ faultless_quietRun
  obtain ⟨steps, hsteps⟩ := exists_flushSteps db _ fun r hr => (hruns r hr).1
  obtain ⟨sent, hdrains, hsent, -⟩ := drains_all hnodup hruns
    (by rw [List.length_replicate]; omega)
  have hrun := (@run_flush _ _ _ _ _ S wire t p steps).trans (hidle ▸ hsteps)
  have htopic : (run (Shared.step (Pipeline.act S wire)) t
      (steps.map fun a => (p, .flush a))).db.topic = t.db.topic ++ sent.map (·.message) :=
    (congrArg (fun r => r.1.topic) hrun).trans hdrains.topic
  refine ⟨steps, sent.map (·.message), htopic, fun row hrow hpending => ?_⟩
  have hmem : row ∈ sent := hsent.mem_iff.mpr (List.mem_filter.mpr ⟨hrow, hpending⟩)
  exact ⟨row.message, List.mem_map_of_mem hmem, rfl⟩

/-- Processes that are new to the run deliver `k` messages in turn, from the offset on, without a
fault : these are processed. -/
theorem processed_of_nextSteps {d : D} {request : R} (h0 : S.Starts d request)
    {as : List (ℕ × PipelineAction A)} (has : ∀ pa ∈ as, pa.2.Allowed S wire) {n : ℕ}
    (hn : ∀ pa ∈ as, pa.1 < n) {users : Option (List NotificationService.RemoteUser)}
    (husers : ∀ data ∈ users, wire.Answers data)
    (hfaultless : ∀ {d : D} {e : EventEnvelope K P}, S.Inv d → e ∈ S.events d →
      NotificationService.Faultless (wire.event e) (noFaults users)) (k : ℕ) :
    let t := run (Shared.step (Pipeline.act S wire)) (Pipeline.start d request) as
    let bs := (List.range k).flatMap fun j => nextSteps A (n + j) (noFaults users) 0
    let u := run (Shared.step (Pipeline.act S wire)) (Pipeline.start d request) (as ++ bs)
    t.db.offset + k ≤ t.db.topic.length →
      (∀ pa ∈ bs, pa.2.Internal wire ∧ pa.1 < n + k) ∧ u.db.topic = t.db.topic ∧
        u.db.offset = t.db.offset + k ∧ ∀ i m, t.db.offset ≤ i → i < t.db.offset + k →
          t.db.topic[i]? = some m → u.db.awaited wire m.value = false := by
  intro t
  induction k with
  | zero =>
    intro bs u _
    have hu : u = t := by simp [u, bs, t]
    rw [hu]
    exact ⟨by simp [bs], rfl, rfl, fun i m hle hlt => absurd hle (by omega)⟩
  | succ k ih =>
    intro bs' u' hk
    obtain ⟨hbs, htopic, hoffset, hprocessed⟩ := ih (by omega)
    set bs := (List.range k).flatMap fun j => nextSteps A (n + j) (noFaults users) 0 with hbsdef
    set u := run (Shared.step (Pipeline.act S wire)) (Pipeline.start d request) (as ++ bs) with hu
    have hbs' : bs' = bs ++ nextSteps A (n + k) (noFaults users) 0 := by
      simp [bs', bs, List.range_succ, List.flatMap_append]
    have hu' : u' = run (Shared.step (Pipeline.act S wire)) u
        (nextSteps A (n + k) (noFaults users) 0) := by
      rw [hu, ← run_append, List.append_assoc, ← hbs']
    have hidle : (u.requests (n + k)).delivery = .idle := by
      rw [hu, Shared.run_requests_of_absent]
      · rfl
      · intro pa hpa
        rcases List.mem_append.mp hpa with hpa | hpa
        · exact ((hn pa hpa).trans_le (Nat.le_add_right n k)).ne
        · exact (hbs pa hpa).2.ne
    obtain ⟨m, hm⟩ : ∃ m, u.db.topic[u.db.offset]? = some m := by
      rw [htopic, hoffset]
      exact ⟨_, List.getElem?_eq_getElem (by omega)⟩
    obtain ⟨htopic', hoffset'⟩ : u'.db.topic = u.db.topic ∧ u'.db.offset = u.db.offset + 1 := by
      rw [hu']
      exact run_nextSteps hidle hm (noFaults users) 0
    have hallowed : ∀ pa ∈ as ++ bs, pa.2.Allowed S wire := by
      intro pa hpa
      exact (List.mem_append.mp hpa).elim (has pa) fun hpa => (hbs pa hpa).1.allowed
    have hserved : u'.db.awaited wire m.value = false := by
      have hdelivered := awaited_of_faultless h0 hallowed 0 hidle hm (fun hd he => hfaultless hd he)
        [(n + k, .commitOffset)]
      rw [List.append_assoc, run_append, ← hu, ← run_nextSteps_eq, ← hu'] at hdelivered
      exact hdelivered
    refine ⟨fun pa hpa => ?_, htopic'.trans htopic, by rw [hoffset', hoffset, Nat.add_assoc],
      fun i m' hle hlt hget => ?_⟩
    · rw [hbs', List.mem_append] at hpa
      rcases hpa with hpa | hpa
      · exact ⟨(hbs pa hpa).1, (hbs pa hpa).2.trans (Nat.lt_succ_self _)⟩
      · simp only [nextSteps, List.mem_cons, List.not_mem_nil, or_false] at hpa
        rcases hpa with rfl | rfl | rfl | rfl
        · exact ⟨trivial, Nat.lt_succ_self _⟩
        · exact ⟨husers, Nat.lt_succ_self _⟩
        · exact ⟨trivial, Nat.lt_succ_self _⟩
        · exact ⟨trivial, Nat.lt_succ_self _⟩
    · rcases Nat.lt_succ_iff_lt_or_eq.mp (show i < t.db.offset + k + 1 from hlt) with hlt | rfl
      · rw [hu']
        exact awaited_run (hprocessed i m' hle hlt hget) _
      · rw [htopic, hoffset, hget] at hm
        obtain rfl := Option.some.inj hm
        exact hserved

/-- The record was given up. -/
def OutboxEvent.givenUp (row : OutboxEvent K P) : Bool :=
  row.publishedAt.isNone && decide (5 ≤ row.attempts)

variable (wire) in
/-- The record was published, the consumer committed past all messages of it, and none was
processed. -/
def Pipeline.passed (s : Pipeline D K P) (row : OutboxEvent K P) : Bool :=
  row.publishedAt.isSome && s.awaited wire row.payload &&
    !(s.topic.drop s.offset).any fun m => m.value.eventId == row.payload.eventId

/-- After any run there are steps of the publisher and the consumer that publish the pending
records and process all messages the consumer has not committed. -/
theorem exists_processed {d : D} {request : R} (h0 : S.Starts d request)
    {as : List (ℕ × PipelineAction A)} (has : ∀ pa ∈ as, pa.2.Allowed S wire)
    {users : Option (List NotificationService.RemoteUser)}
    (husers : ∀ data ∈ users, wire.Answers data)
    (hfaultless : ∀ {d : D} {e : EventEnvelope K P}, S.Inv d → e ∈ S.events d →
      NotificationService.Faultless (wire.event e) (noFaults users)) :
    let s := (run (Shared.step (Pipeline.act S wire)) (Pipeline.start d request) as).db
    ∃ (bs : List (ℕ × PipelineAction A)) (new : List (OutboxMessage K P)),
      (∀ pa ∈ bs, pa.2.Internal wire) ∧
      (∀ row ∈ S.outbox s.service, row.pending = true → InTopic new row.payload) ∧
      ∀ m ∈ s.topic.drop s.offset ++ new,
        (run (Shared.step (Pipeline.act S wire)) (Pipeline.start d request)
          (as ++ bs)).db.awaited wire m.value = false := by
  intro s
  obtain ⟨n, hn⟩ := Shared.exists_bound as
  set start : Shared (Pipeline D K P) (Roles R K P) := Pipeline.start d request with hstart
  set t := run (Shared.step (Pipeline.act S wire)) start as with ht
  have htraced : t.db.Traced S := traced_run h0 has
  have hidle : (t.requests n).flush = .items [] := by
    rw [ht, Shared.run_requests_of_absent fun pa hpa => (hn pa hpa).ne]
    rfl
  obtain ⟨steps, new, htopic, hpending⟩ :=
    exists_flushes (safe_pipeline_run h0 has).store htraced hidle
  set flushes : List (ℕ × PipelineAction A) := steps.map fun a => (n, .flush a) with hflushes
  have hflushed : run (Shared.step (Pipeline.act S wire)) start (as ++ flushes) =
      run (Shared.step (Pipeline.act S wire)) t flushes := run_append _ _ _ _
  have hoffset : (run (Shared.step (Pipeline.act S wire)) t flushes).db.offset = t.db.offset :=
    offset_run_flush steps
  have hinternal : ∀ pa ∈ flushes, pa.2.Internal wire := by
    intro pa hpa
    obtain ⟨a, -, rfl⟩ := List.mem_map.mp hpa
    trivial
  have hallowed : ∀ pa ∈ as ++ flushes, pa.2.Allowed S wire := by
    intro pa hpa
    exact (List.mem_append.mp hpa).elim (has pa) fun hpa => (hinternal pa hpa).allowed
  have hfree : ∀ pa ∈ as ++ flushes, pa.1 < n + 1 := by
    intro pa hpa
    rcases List.mem_append.mp hpa with hpa | hpa
    · exact (hn pa hpa).trans (Nat.lt_succ_self n)
    · obtain ⟨a, -, rfl⟩ := List.mem_map.mp hpa
      exact Nat.lt_succ_self n
  obtain ⟨hbs, -, -, hprocessed⟩ := processed_of_nextSteps h0 hallowed hfree husers hfaultless
    ((t.db.topic ++ new).length - t.db.offset) (by
      rw [hflushed, hoffset, htopic]
      have := htraced.offset
      rw [List.length_append]
      omega)
  rw [hflushed, hoffset, htopic] at hprocessed
  set deliveries := (List.range ((t.db.topic ++ new).length - t.db.offset)).flatMap fun j =>
    nextSteps A (n + 1 + j) (noFaults users) 0 with hdeliveries
  refine ⟨flushes ++ deliveries, new, fun pa hpa => ?_, hpending, fun m hm => ?_⟩
  · exact (List.mem_append.mp hpa).elim (hinternal pa) fun hpa => (hbs pa hpa).1
  · rw [← List.drop_append_of_le_length htraced.offset] at hm
    obtain ⟨i, hi, hget⟩ := List.mem_iff_getElem.mp hm
    rw [List.length_drop] at hi
    rw [← List.append_assoc]
    have hlt : t.db.offset + i < (t.db.topic ++ new).length := by omega
    refine hprocessed (t.db.offset + i) m (Nat.le_add_right _ _) (by omega) ?_
    rw [List.getElem_drop] at hget
    exact List.getElem?_eq_some_iff.mpr ⟨hlt, hget⟩

/-- After any run there are steps of the publisher and the consumer that leave no record awaited
but for those that were given up or passed over. -/
theorem exists_served {d : D} {request : R} (h0 : S.Starts d request)
    {as : List (ℕ × PipelineAction A)} (has : ∀ pa ∈ as, pa.2.Allowed S wire)
    {users : Option (List NotificationService.RemoteUser)}
    (husers : ∀ data ∈ users, wire.Answers data)
    (hfaultless : ∀ {d : D} {e : EventEnvelope K P}, S.Inv d → e ∈ S.events d →
      NotificationService.Faultless (wire.event e) (noFaults users)) :
    let s := (run (Shared.step (Pipeline.act S wire)) (Pipeline.start d request) as).db
    ∃ bs : List (ℕ × PipelineAction A), (∀ pa ∈ bs, pa.2.Internal wire) ∧
      ∀ row ∈ S.outbox s.service, row.givenUp = false → s.passed wire row = false →
        (run (Shared.step (Pipeline.act S wire)) (Pipeline.start d request)
          (as ++ bs)).db.awaited wire row.payload = false := by
  intro s
  have hinv : s.Inv S wire := (safe_pipeline_run h0 has).store
  obtain ⟨bs, new, hinternal, hpending, hprocessed⟩ := exists_processed h0 has husers hfaultless
  refine ⟨bs, hinternal, fun row hrow hkept hpassed => ?_⟩
  cases hpub : row.publishedAt with
  | none =>
    -- the row is pending, and its message is new
    have hpendingRow : row.pending = true := by
      refine pending_iff.mpr ⟨hpub, ?_⟩
      simpa [OutboxEvent.givenUp, hpub] using hkept
    obtain ⟨m, hm, heq⟩ := hpending row hrow hpendingRow
    rw [← heq]
    exact hprocessed m (List.mem_append_right _ hm)
  | some at_ =>
    by_cases hawaited : s.awaited wire row.payload = true
    · -- some message of the row is not committed
      have hany : ((s.topic.drop s.offset).any fun m => m.value.eventId == row.payload.eventId) =
          true := by
        simpa [Pipeline.passed, hpub, hawaited] using hpassed
      obtain ⟨m, hm, hid⟩ := List.any_eq_true.mp hany
      have hvalue : m.value = row.payload :=
        List.inj_on_of_nodup_map hinv.nodup (hinv.topic m (List.mem_of_mem_drop hm))
          (List.mem_map_of_mem hrow) (by simpa using hid)
      rw [← hvalue]
      exact hprocessed m (List.mem_append_left _ hm)
    · rw [run_append]
      exact awaited_run (Bool.not_eq_true _ ▸ hawaited) _

/-- What of the service's tables is not the outbox stays. -/
theorem run_internal {β : Type} (f : D → β) (hf : ∀ rows d, f (S.setOutbox rows d) = f d)
    {bs : List (ℕ × PipelineAction A)} (hbs : ∀ pa ∈ bs, pa.2.Internal wire) :
    f (run (Shared.step (Pipeline.act S wire)) t bs).db.service = f t.db.service := by
  have hstep : ∀ (u : Shared (Pipeline D K P) (Roles R K P)) (pa : ℕ × PipelineAction A),
      pa.2.Internal wire → f u.db.service = f t.db.service →
        f (Shared.step (Pipeline.act S wire) u pa).db.service = f t.db.service := by
    intro u pa hpa hu
    obtain ⟨rows, heq | heq⟩ := hpa.service (S := S) (s := u.db) (q := u.requests pa.1)
    · exact (congrArg f heq).trans ((hf rows _).trans hu)
    · exact (congrArg f heq).trans hu
  exact run_invariant (fun pa : ℕ × PipelineAction A => pa.2.Internal wire) hstep rfl hbs

theorem events_run_internal {bs : List (ℕ × PipelineAction A)}
    (hbs : ∀ pa ∈ bs, pa.2.Internal wire) :
    S.events (run (Shared.step (Pipeline.act S wire)) t bs).db.service = S.events t.db.service := by
  have hstep : ∀ (u : Shared (Pipeline D K P) (Roles R K P)) (pa : ℕ × PipelineAction A),
      pa.2.Internal wire → S.events u.db.service = S.events t.db.service →
        S.events (Shared.step (Pipeline.act S wire) u pa).db.service = S.events t.db.service :=
    fun u pa hpa hu => hpa.events.trans hu
  exact run_invariant (fun pa : ℕ × PipelineAction A => pa.2.Internal wire) hstep rfl hbs

variable (S wire) in
/-- The records that were given up or passed over, of those with such an event. -/
def Pipeline.lost (s : Pipeline D K P) (source : EventEnvelope K P → Bool) : ℕ :=
  (S.outbox s.service).countP fun row => source row.payload && (row.givenUp || s.passed wire row)

/-- After any run there are steps of the publisher and the consumer after which a kind has one
notification for each of its records, but for those that were given up or passed over. -/
theorem Kind.announced_eventually (kind : Kind S wire) {d : D} {request : R}
    (h0 : S.Starts d request) {as bs : List (ℕ × PipelineAction A)}
    (has : ∀ pa ∈ as, pa.2.Allowed S wire) (hbs : ∀ pa ∈ bs, pa.2.Internal wire)
    (hserved : let s := (run (Shared.step (Pipeline.act S wire)) (Pipeline.start d request) as).db
      ∀ row ∈ S.outbox s.service, row.givenUp = false → s.passed wire row = false →
        (run (Shared.step (Pipeline.act S wire)) (Pipeline.start d request)
          (as ++ bs)).db.awaited wire row.payload = false) :
    let s := (run (Shared.step (Pipeline.act S wire)) (Pipeline.start d request) as).db
    let s' := (run (Shared.step (Pipeline.act S wire)) (Pipeline.start d request) (as ++ bs)).db
    s'.inbox.notifications.countP kind.notice ≤ (S.events s.service).countP kind.source ∧
      (S.events s.service).countP kind.source ≤
        s'.inbox.notifications.countP kind.notice + s.lost S wire kind.source := by
  intro s s'
  have hallowed : ∀ pa ∈ as ++ bs, pa.2.Allowed S wire := by
    intro pa hpa
    exact (List.mem_append.mp hpa).elim (has pa) fun hpa => (hbs pa hpa).allowed
  have hbalance : s'.Balanced kind := balanced_run h0 kind hallowed
  have hevents : S.events s'.service = S.events s.service := by
    change S.events (run (Shared.step (Pipeline.act S wire)) _ (as ++ bs)).db.service = _
    rw [run_append]
    exact events_run_internal hbs
  have hwaiting : (S.events s.service).countP (fun e => kind.source e && s'.awaited wire e) ≤
      s.lost S wire kind.source := by
    rw [OutboxService.events, List.countP_map, Pipeline.lost]
    refine List.countP_mono_left fun row hrow hwaits => ?_
    simp only [Function.comp_apply, Bool.and_eq_true] at hwaits
    rw [hwaits.1, Bool.true_and]
    by_contra hkept
    rw [Bool.not_eq_true, Bool.or_eq_false_iff] at hkept
    rw [hserved row hrow hkept.1 hkept.2] at hwaits
    exact Bool.false_ne_true hwaits.2
  rw [Pipeline.Balanced, hevents] at hbalance
  omega

/-- The offset goes on by one message at most. -/
theorem offset_act (a : PipelineAction A) (s : Pipeline D K P) (q : Roles R K P) :
    (Pipeline.act S wire a s q).1.offset ≤ s.offset ∨
      ((Pipeline.act S wire a s q).1.offset = s.offset + 1 ∧
        (Pipeline.act S wire a s q).1.topic = s.topic) := by
  have htake : ∀ i, (s.take wire i q).1.offset ≤ s.offset := by
    intro i
    rcases Pipeline.take_cases wire i s q with heq | ⟨m, -, -, heq⟩
    · rw [heq]
    · rw [heq]
      exact Nat.min_le_right i s.offset
  cases a with
  | next => exact Or.inl (htake s.offset)
  | deliver i => exact Or.inl (htake i)
  | commitOffset =>
    rcases Pipeline.commitOffset_cases S wire s q with heq | ⟨-, -, heq⟩
    · rw [heq]
      exact Or.inl le_rfl
    · rw [heq]
      exact Or.inr ⟨rfl, rfl⟩
  | _ => exact Or.inl le_rfl

/-- Where the offset only ever goes past processed messages, all messages before it are. -/
theorem processed_before_offset {d : D} {request : R} (h0 : S.Starts d request)
    {as : List (ℕ × PipelineAction A)} (has : ∀ pa ∈ as, pa.2.Allowed S wire)
    (hcommits : EachStep (Shared.step (Pipeline.act S wire)) (Pipeline.start d request) as
      fun t pa => (Pipeline.act S wire pa.2 t.db (t.requests pa.1)).1.offset = t.db.offset + 1 →
        ∀ m, t.db.topic[t.db.offset]? = some m → t.db.awaited wire m.value = false) :
    let s := (run (Shared.step (Pipeline.act S wire)) (Pipeline.start d request) as).db
    ∀ i m, i < s.offset → s.topic[i]? = some m → s.awaited wire m.value = false := by
  induction as using List.reverseRecOn with
  | nil => exact fun i m hi => absurd hi (Nat.not_lt_zero i)
  | append_singleton as pa ih =>
    intro s i m hi hm
    have has' : ∀ pb ∈ as, pb.2.Allowed S wire := fun pb hpb => has pb (by simp [hpb])
    have hih := ih has' fun pre pb hpre => hcommits pre pb (hpre.trans (List.prefix_append _ _))
    have hcommit := hcommits as pa List.prefix_rfl
    have hsafe := safe_pipeline_run h0 has'
    have htraced := safe_traced_run h0 has'
    set t := run (Shared.step (Pipeline.act S wire)) (Pipeline.start d request) as with ht
    have hs : s = (Pipeline.act S wire pa.2 t.db (t.requests pa.1)).1 := by
      simp only [s, run_append]
      rfl
    rw [hs] at hi hm ⊢
    refine awaited_act ?_ pa.2 (t.requests pa.1)
    rcases offset_act pa.2 t.db (t.requests pa.1) with hle | ⟨heq, htopic⟩
    · -- the message was there before the step
      have hpre := (Pipeline.traced_act (a := pa.2) hsafe.store (hsafe.sound pa.1) htraced.store
        (htraced.sound pa.1)).2.1
      have hlt : i < t.db.topic.length := (hi.trans_le hle).trans_le htraced.store.offset
      refine hih i m (hi.trans_le hle) ?_
      obtain ⟨new, hnew⟩ := hpre
      rwa [← hnew, List.getElem?_append_left hlt] at hm
    · rw [htopic] at hm
      rcases Nat.lt_succ_iff_lt_or_eq.mp (heq ▸ hi) with hlt | rfl
      · exact hih i m hlt hm
      · exact hcommit heq m hm

/-- Then nothing that was published is lost. -/
theorem passed_eq_false {d : D} {request : R} (h0 : S.Starts d request)
    {as : List (ℕ × PipelineAction A)} (has : ∀ pa ∈ as, pa.2.Allowed S wire)
    (hcommits : EachStep (Shared.step (Pipeline.act S wire)) (Pipeline.start d request) as
      fun t pa => (Pipeline.act S wire pa.2 t.db (t.requests pa.1)).1.offset = t.db.offset + 1 →
        ∀ m, t.db.topic[t.db.offset]? = some m → t.db.awaited wire m.value = false) :
    let s := (run (Shared.step (Pipeline.act S wire)) (Pipeline.start d request) as).db
    ∀ row ∈ S.outbox s.service, s.passed wire row = false := by
  intro s row hrow
  by_contra hpassed
  rw [Bool.not_eq_false, Pipeline.passed, Bool.and_eq_true, Bool.and_eq_true,
    Option.isSome_iff_ne_none] at hpassed
  obtain ⟨⟨hpub, hawaited⟩, hnone⟩ := hpassed
  obtain ⟨m, hm, hvalue⟩ := (traced_run h0 has).published row hrow hpub
  obtain ⟨i, hi, hget⟩ := List.mem_iff_getElem.mp hm
  rcases lt_or_ge i s.offset with hlt | hge
  · have hprocessed := processed_before_offset h0 has hcommits i m hlt
      (List.getElem?_eq_some_iff.mpr ⟨hi, hget⟩)
    rw [hvalue, hawaited] at hprocessed
    cases hprocessed
  · have hmem : m ∈ s.topic.drop s.offset := by
      rw [List.mem_iff_getElem]
      have hi' : i < s.topic.length := hi
      refine ⟨i - s.offset, by rw [List.length_drop]; omega, ?_⟩
      simp only [List.getElem_drop, Nat.add_sub_cancel' hge]
      exact hget
    rw [Bool.not_eq_true', List.any_eq_false] at hnone
    exact hnone m hmem (by simp [hvalue])

/-- The records of a type for a user in a zone that were given up or passed over. -/
def Addressed.lost (h : Addressed S wire) (s : Pipeline D K P) (t : KafkaEventType)
    (zoneId userId : Uuid) : ℕ :=
  s.lost S wire (h.isFor t zoneId userId)

/-- After any run there are steps of the publisher and the consumer after which a user has one
notification for each record of a personal type, but for those that were given up or passed
over. -/
theorem Addressed.announced_eventually (h : Addressed S wire) (hanswers : ∀ data, wire.Answers data)
    {d : D} {request : R} (h0 : S.Starts d request) {as : List (ℕ × PipelineAction A)}
    (has : ∀ pa ∈ as, pa.2.Allowed S wire) : ∃ bs : List (ℕ × PipelineAction A),
      (∀ pa ∈ bs, pa.2.Internal wire) ∧ ∀ t : KafkaEventType, t.Personal → t ∈ wire.types →
        ∀ zoneId userId,
          let s := (run (Shared.step (Pipeline.act S wire)) (Pipeline.start d request) as).db
          let s' := (run (Shared.step (Pipeline.act S wire)) (Pipeline.start d request)
            (as ++ bs)).db
          s'.notices t zoneId userId ≤ h.records s t zoneId userId ∧
            h.records s t zoneId userId ≤
              s'.notices t zoneId userId + h.lost s t zoneId userId := by
  have hnoneFails : NoneFails (noFaults none) := ⟨rfl, fun _ => rfl, rfl, rfl⟩
  have hnone : ∀ data ∈ (none : Option (List NotificationService.RemoteUser)),
      wire.Answers data := fun data _ => hanswers data
  obtain ⟨bs, hbs, hserved⟩ := exists_served h0 has hnone
    fun hd he => h.faultless hd he hnoneFails
  exact ⟨bs, hbs, fun t ht hmem zoneId userId =>
    (h.kind t ht hmem zoneId userId).announced_eventually h0 has hbs hserved⟩

end

/-! ## The two services -/

/-- After any run the publisher and the consumer can still do their part : no entry changes, and
a user has one notification for each entry and one for each record of an end, but for the records
that were given up, or that the consumer passed over with no delivery of them gone through. -/
theorem entries_announced_eventually (spelling : Uuid → Spelling) (draw : ℕ ↪ Uuid)
    {as : List (ℕ × PipelineAction QueueService.Action)}
    (has : ∀ pa ∈ as, pa.2.Allowed QueueService.outboxService (QueueService.wire spelling draw)) :
    ∃ bs : List (ℕ × PipelineAction QueueService.Action),
      (∀ pa ∈ bs, pa.2.Internal (QueueService.wire spelling draw)) ∧
      let s := QueueService.pipeline spelling draw as
      let s' := QueueService.pipeline spelling draw (as ++ bs)
      let h := QueueService.addressed spelling draw
      s'.service.entries = s.service.entries ∧ ∀ zoneId userId,
        (s'.notices .queueJoined zoneId userId ≤ s.service.entriesOf zoneId userId ∧
          s.service.entriesOf zoneId userId ≤
            s'.notices .queueJoined zoneId userId + h.lost s .queueJoined zoneId userId) ∧
        s'.notices .queueLeft zoneId userId ≤ h.records s .queueLeft zoneId userId ∧
          h.records s .queueLeft zoneId userId ≤
            s'.notices .queueLeft zoneId userId + h.lost s .queueLeft zoneId userId := by
  obtain ⟨bs, hbs, hannounced⟩ := (QueueService.addressed spelling draw).announced_eventually
    (fun _ => trivial) QueueService.starts_outboxService has
  have hrecorded := (safe_pipeline_run QueueService.starts_outboxService has).store.service
  refine ⟨bs, hbs, ?_, fun zoneId userId => ⟨?_, ?_⟩⟩
  · rw [QueueService.pipeline, run_append]
    exact run_internal (S := QueueService.outboxService) (·.entries) (fun _ _ => rfl) hbs
  · rw [← QueueService.countP_isFor_joined hrecorded spelling draw]
    exact hannounced .queueJoined trivial (by simp [QueueService.wire]) zoneId userId
  · exact hannounced .queueLeft trivial (by simp [QueueService.wire]) zoneId userId

/-- The record of a join that nobody has sent yet can still become its notification. -/
theorem entries_announced_eventually_joined : ∃ bs,
    (∀ pa ∈ bs, pa.2.Internal (QueueService.wire (fun _ => .canonical) (.refl _))) ∧
    (QueueService.pipeline (fun _ => .canonical) (.refl _)
      (QueueService.joinedTwice.take 4 ++ bs)).notices .queueJoined 1 7 = 1 := by
  obtain ⟨bs, hbs, -, hannounced⟩ := entries_announced_eventually (fun _ => .canonical) (.refl _)
    fun pa hpa => joinedTwice_allowed (fun _ => .canonical) (.refl _) pa
      (List.mem_of_mem_take (i := 4) hpa)
  obtain ⟨⟨hle, hge⟩, -⟩ := hannounced 1 7
  have hentries : (QueueService.pipeline (fun _ => .canonical) (.refl _)
      (QueueService.joinedTwice.take 4)).service.entriesOf 1 7 = 1 := by decide
  have hlost : (QueueService.addressed (fun _ => .canonical) (.refl _)).lost
      (QueueService.pipeline (fun _ => .canonical) (.refl _) (QueueService.joinedTwice.take 4))
      .queueJoined 1 7 = 0 := by decide
  exact ⟨bs, hbs, by omega⟩

/-- Where a delivery fails and the offset goes past its message, the join is told no more. -/
example :
    let s := QueueService.pipeline (fun _ => .canonical) (.refl _)
      (QueueService.joinedTwice.take 4 ++ [(0, .flush (.poll id)),
        (0, .flush (.send .acknowledged)), (0, .flush (.markPublished .acknowledged 2)),
        (1, .next), (1, .inbox .abort), (1, .commitOffset)])
    (QueueService.addressed (fun _ => .canonical) (.refl _)).lost s .queueJoined 1 7 = 1 := by
  decide

/-- The same of reservations, and of the records of cancellations. -/
theorem reservations_announced_eventually (spelling : Uuid → Spelling) (draw : ℕ ↪ Uuid)
    {as : List (ℕ × PipelineAction ReservationService.Action)}
    (has : ∀ pa ∈ as,
      pa.2.Allowed ReservationService.outboxService (ReservationService.wire spelling draw)) :
    ∃ bs : List (ℕ × PipelineAction ReservationService.Action),
      (∀ pa ∈ bs, pa.2.Internal (ReservationService.wire spelling draw)) ∧
      let s := ReservationService.pipeline spelling draw as
      let s' := ReservationService.pipeline spelling draw (as ++ bs)
      let h := ReservationService.addressed spelling draw
      s'.service.reservations = s.service.reservations ∧ ∀ zoneId userId,
        (s'.notices .reservationCreated zoneId userId ≤ s.service.reservationsOf zoneId userId ∧
          s.service.reservationsOf zoneId userId ≤
            s'.notices .reservationCreated zoneId userId +
              h.lost s .reservationCreated zoneId userId) ∧
        s'.notices .reservationCancelled zoneId userId ≤
            h.records s .reservationCancelled zoneId userId ∧
          h.records s .reservationCancelled zoneId userId ≤
            s'.notices .reservationCancelled zoneId userId +
              h.lost s .reservationCancelled zoneId userId := by
  obtain ⟨bs, hbs, hannounced⟩ := (ReservationService.addressed spelling draw).announced_eventually
    (fun _ => trivial) ReservationService.starts_outboxService has
  have hrecorded := (safe_pipeline_run ReservationService.starts_outboxService has).store.service
  refine ⟨bs, hbs, ?_, fun zoneId userId => ⟨?_, ?_⟩⟩
  · rw [ReservationService.pipeline, run_append]
    exact run_internal (S := ReservationService.outboxService) (·.reservations) (fun _ _ => rfl) hbs
  · rw [← ReservationService.countP_isFor_created hrecorded spelling draw]
    exact hannounced .reservationCreated trivial (by simp [ReservationService.wire]) zoneId userId
  · exact hannounced .reservationCancelled trivial (by simp [ReservationService.wire]) zoneId userId

/-- The cancellation that is awaited can still be told. -/
theorem reservations_announced_eventually_cancelled : ∃ bs,
    (∀ pa ∈ bs, pa.2.Internal (ReservationService.wire (fun _ => .canonical) (.refl _))) ∧
    (ReservationService.pipeline (fun _ => .canonical) (.refl _)
      (ReservationService.createdAndCancelled ++ bs)).notices .reservationCancelled 1 1 = 1 := by
  obtain ⟨bs, hbs, -, hannounced⟩ := reservations_announced_eventually (fun _ => .canonical)
    (.refl _) (createdAndCancelled_allowed _ _)
  obtain ⟨-, hle, hge⟩ := hannounced 1 1
  have hrecords : (ReservationService.addressed (fun _ => .canonical) (.refl _)).records
      (ReservationService.pipeline (fun _ => .canonical) (.refl _)
        ReservationService.createdAndCancelled)
      .reservationCancelled 1 1 = 1 := by decide
  have hlost : (ReservationService.addressed (fun _ => .canonical) (.refl _)).lost
      (ReservationService.pipeline (fun _ => .canonical) (.refl _)
        ReservationService.createdAndCancelled)
      .reservationCancelled 1 1 = 0 := by decide
  exact ⟨bs, hbs, by omega⟩

end Qoms
