import Qoms.Backlog
import Qoms.Monitoring
import Qoms.Run

/-!
# Working off unpublished signals

Calls of `ingestEvent` and rounds of `retryPendingPublishes`, one after another, with sends that
end in any way. A signal is sent once for each of its failures, and once more if it was published
in the end; a send that was not acknowledged can have reached the broker. So the topic has it
once at least if it is published, and never more than five times (`Accounted`).

A round sends the oldest twenty signals that are not published, and each of them is published or
has an attempt less. So after a number of rounds that the backlog bounds every signal is
published, or given up after five failures (`signals_settle`).
-/

set_option autoImplicit false

namespace Qoms.MonitoringService

/-! ## Calls one after another -/

/-- A call of `ingestEvent`, or a round of `retryPendingPublishes`. -/
inductive Call
  | ingest (dto : CreateOccupancyEventDto) (outcome : CallOutcome) (now : ℤ)
  | retry (rank : Uuid → ℕ) (outcomes : List (CallOutcome × ℤ))

/-- A call; an invalid date changes nothing. -/
def call (s : MonitoringDb × Topic) : Call → MonitoringDb × Topic
  | .ingest dto outcome now =>
    match ingestEvent s.1 s.2 dto outcome now with
    | some (_, db, topic) => (db, topic)
    | none => s
  | .retry rank outcomes => retryPendingPublishes s.1 s.2 rank outcomes

/-- The query's condition : the signal is not published, and has attempts left. -/
def OccupancyEvent.waiting (event : OccupancyEvent) : Bool :=
  (event.publishStatus == .pending || event.publishStatus == .failed) && event.retryCount < 5

/-- The attempts left of a signal. -/
def OccupancyEvent.attemptsLeft (event : OccupancyEvent) : ℕ :=
  if event.waiting then 5 - event.retryCount else 0

/-- A signal as it was stored first. -/
def OccupancyEvent.stored (event : OccupancyEvent) : OccupancyEvent :=
  { event with publishStatus := .pending, retryCount := 0, lastError := none, publishedAt := none }

/-- The messages of a signal. -/
def messagesOf (topic : Topic) (id : Uuid) : ℕ :=
  topic.countP fun m => m.eventId == id

/-- The failures of a signal, and its messages in the topic. -/
structure Accounted (topic : Topic) (event : OccupancyEvent) : Prop where
  pending : event.publishStatus = .pending →
    messagesOf topic event.eventId = 0 ∧ event.retryCount = 0
  published : event.publishStatus = .published →
    1 ≤ messagesOf topic event.eventId ∧
      messagesOf topic event.eventId ≤ event.retryCount + 1 ∧ event.retryCount < 5
  failed : event.publishStatus = .failed →
    messagesOf topic event.eventId ≤ event.retryCount ∧ event.retryCount ≤ 5

/-- Signals have distinct ids, each is accounted for, and the topic has no other message. -/
structure Ledger (s : MonitoringDb × Topic) : Prop where
  keyed : Keyed (·.eventId) s.1.events s.1.uuids
  accounted : ∀ event ∈ s.1.events, Accounted s.2 event
  topic : ∀ m ∈ s.2, m.eventId < s.1.uuids

section

variable {topic : Topic} {event : OccupancyEvent}

theorem settle_eventId (event : OccupancyEvent) (outcome : CallOutcome) (now : ℤ) :
    (event.settle outcome now).eventId = event.eventId := by
  cases outcome <;> rfl

theorem waiting_iff : event.waiting = true ↔
    (event.publishStatus = .pending ∨ event.publishStatus = .failed) ∧ event.retryCount < 5 := by
  simp [OccupancyEvent.waiting]

theorem attemptsLeft_pos_iff : 0 < event.attemptsLeft ↔ event.waiting = true := by
  unfold OccupancyEvent.attemptsLeft
  split_ifs with h
  · have := (waiting_iff.mp h).2
    simp only [h, iff_true]
    omega
  · simp [h]

theorem attemptsLeft_le_five (event : OccupancyEvent) : event.attemptsLeft ≤ 5 := by
  unfold OccupancyEvent.attemptsLeft
  split_ifs <;> omega

theorem backlog_eq_countP (events : List OccupancyEvent) :
    backlog (·.attemptsLeft) events = events.countP (·.waiting) := by
  refine List.countP_congr fun event _ => ?_
  rw [decide_eq_true_eq]
  exact attemptsLeft_pos_iff

/-- A send takes an attempt. -/
theorem attemptsLeft_settle (h : event.waiting = true) (outcome : CallOutcome) (now : ℤ) :
    (event.settle outcome now).attemptsLeft < event.attemptsLeft := by
  have hless := (waiting_iff.mp h).2
  cases outcome with
  | acknowledged =>
    have hnot : (event.settle .acknowledged now).waiting = false := rfl
    simp only [OccupancyEvent.attemptsLeft, h, hnot, if_true, Bool.false_eq_true, if_false]
    omega
  | failed message | unacknowledged message =>
    simp only [OccupancyEvent.attemptsLeft, h, if_true]
    split_ifs
    · simp only [OccupancyEvent.settle]
      omega
    · omega

theorem messagesOf_tryPublish (events : List OccupancyEvent) (topic : Topic)
    (event : OccupancyEvent) (outcome : CallOutcome) (now : ℤ) (id : Uuid) :
    messagesOf (tryPublish events topic event outcome now).2 id = messagesOf topic id +
      if outcome.accepted = true ∧ event.eventId = id then 1 else 0 := by
  rw [tryPublish_topic, messagesOf, List.countP_append]
  cases outcome.accepted with
  | false => simp [messagesOf]
  | true => simp [messagesOf, List.countP_singleton, OccupancyEvent.envelope, createEventEnvelope]

/-- A signal after a send is accounted for. -/
theorem Accounted.settle (h : Accounted topic event) (hwaiting : event.waiting = true)
    (events : List OccupancyEvent) (outcome : CallOutcome) (now : ℤ) :
    Accounted (tryPublish events topic event outcome now).2 (event.settle outcome now) := by
  have hcount : messagesOf topic event.eventId ≤ event.retryCount ∧ event.retryCount < 5 := by
    simp only [OccupancyEvent.waiting, Bool.and_eq_true, Bool.or_eq_true, beq_iff_eq,
      decide_eq_true_eq] at hwaiting
    obtain ⟨hstatus | hstatus, hless⟩ := hwaiting
    · have := h.pending hstatus
      omega
    · have := h.failed hstatus
      omega
  have hmessages := messagesOf_tryPublish events topic event outcome now event.eventId
  cases outcome with
  | acknowledged =>
    rw [if_pos ⟨rfl, rfl⟩] at hmessages
    refine ⟨nofun, fun _ => ?_, nofun⟩
    change 1 ≤ messagesOf _ event.eventId ∧ messagesOf _ event.eventId ≤ event.retryCount + 1 ∧
      event.retryCount < 5
    omega
  | failed message | unacknowledged message =>
    refine ⟨nofun, nofun, fun _ => ?_⟩
    change messagesOf _ event.eventId ≤ event.retryCount + 1 ∧ event.retryCount + 1 ≤ 5
    split_ifs at hmessages <;> omega

/-- The other signals stay accounted for. -/
theorem Accounted.other {other : OccupancyEvent} (h : Accounted topic other)
    (hne : event.eventId ≠ other.eventId) (events : List OccupancyEvent) (outcome : CallOutcome)
    (now : ℤ) :
    Accounted (tryPublish events topic event outcome now).2 other := by
  have hmessages := messagesOf_tryPublish events topic event outcome now other.eventId
  rw [if_neg fun hand => hne hand.2, Nat.add_zero] at hmessages
  exact ⟨by rw [hmessages]; exact h.pending, by rw [hmessages]; exact h.published,
    by rw [hmessages]; exact h.failed⟩

end

/-! ## One call -/

section

variable {db : MonitoringDb} {topic : Topic} {event : OccupancyEvent}

theorem mem_events_tryPublish (topic : Topic) {outcome : CallOutcome} {now : ℤ}
    {other : OccupancyEvent} (h : other ∈ (tryPublish db.events topic event outcome now).1) :
    other = event.settle outcome now ∨ (other ∈ db.events ∧ event.eventId ≠ other.eventId) := by
  obtain ⟨old, hold, rfl⟩ := List.mem_map.mp h
  dsimp only
  split_ifs with hid
  · exact Or.inl rfl
  · exact Or.inr ⟨hold, fun heq => hid (heq.symm.trans (settle_eventId event outcome now).symm)⟩

/-- A send changes no signal but for its outcome. -/
theorem map_stored_tryPublish (hnodup : (db.events.map (·.eventId)).Nodup)
    (hevent : event ∈ db.events) (topic : Topic) (outcome : CallOutcome) (now : ℤ) :
    (tryPublish db.events topic event outcome now).1.map (·.stored) =
      db.events.map (·.stored) := by
  have hid : ∀ a b : OccupancyEvent, a.stored = b.stored → a.eventId = b.eventId :=
    fun a b heq => (congrArg OccupancyEvent.eventId heq : a.stored.eventId = b.stored.eventId)
  have hsettle : (event.settle outcome now).stored = event.stored := by cases outcome <;> rfl
  have hmem : (event.settle outcome now).stored ∈ db.events.map (·.stored) :=
    hsettle ▸ List.mem_map_of_mem hevent
  exact map_saveRow_of_mem hid hnodup hmem

/-- A send keeps the ledger. -/
theorem Ledger.tryPublish (h : Ledger (db, topic)) (hevent : event ∈ db.events)
    (hwaiting : event.waiting = true) (outcome : CallOutcome) (now : ℤ) :
    Ledger ({ db with events := (tryPublish db.events topic event outcome now).1 },
      (MonitoringService.tryPublish db.events topic event outcome now).2) where
  keyed := h.keyed.saveRow (settle_eventId event outcome now ▸ h.keyed.fresh event hevent) le_rfl
  accounted other hother := by
    rcases mem_events_tryPublish topic hother with rfl | ⟨hmem, hne⟩
    · exact (h.accounted event hevent).settle hwaiting db.events outcome now
    · exact (h.accounted other hmem).other hne db.events outcome now
  topic m hm := by
    rw [tryPublish_topic, List.mem_append] at hm
    rcases hm with hm | hm
    · exact h.topic m hm
    · split_ifs at hm
      · rw [List.mem_singleton.mp hm]
        exact h.keyed.fresh event hevent
      · exact absurd hm List.not_mem_nil

/-- An ingestion keeps the ledger. -/
theorem Ledger.ingestEvent (h : Ledger (db, topic)) {dto : CreateOccupancyEventDto}
    {outcome : CallOutcome} {now : ℤ} {db' : MonitoringDb} {topic' : Topic}
    (hok : MonitoringService.ingestEvent db topic dto outcome now = some (event, db', topic')) :
    Ledger (db', topic') := by
  simp only [MonitoringService.ingestEvent, Option.bind_eq_bind, Option.bind_eq_some_iff,
    Option.pure_def, Option.some_inj, Prod.mk.injEq] at hok
  obtain ⟨observedAt, -, -, rfl, rfl⟩ := hok
  set event := dto.event db.uuids observedAt now with hevent
  have hcreated : Ledger ({ db with
      events := db.events ++ [event]
      snapshots := upsertSnapshot db.snapshots event.snapshot
      uuids := db.uuids + 2 }, topic) := by
    refine ⟨h.keyed.insert le_rfl (Nat.lt_add_of_pos_right Nat.two_pos), fun other hother => ?_,
      fun m hm => (h.topic m hm).trans (Nat.lt_add_of_pos_right Nat.two_pos)⟩
    rcases List.mem_append.mp hother with hother | hother
    · exact h.accounted other hother
    · rw [List.mem_singleton.mp hother]
      refine ⟨fun _ => ⟨List.countP_eq_zero.mpr fun m hm hid => ?_, rfl⟩,
        fun heq => (by cases heq), fun heq => (by cases heq)⟩
      have hlt := h.topic m hm
      rw [beq_iff_eq] at hid
      exact absurd hid hlt.ne
  exact hcreated.tryPublish (List.mem_append_right _ (List.mem_singleton_self _)) rfl outcome now

/-- A round sends signals that wait, and keeps the ledger; each of them has an attempt less, and
no other signal changes. -/
theorem Ledger.publishAll {items : List OccupancyEvent} {outcomes : List (CallOutcome × ℤ)}
    (h : Ledger (db, topic)) (hitems : ∀ item ∈ items, item ∈ db.events ∧ item.waiting = true)
    (hdistinct : (items.map (·.eventId)).Nodup) :
    let r := (items.zip outcomes).foldl (fun (events, topic) (event, outcome, now) =>
      MonitoringService.tryPublish events topic event outcome now) (db.events, topic)
    Ledger ({ db with events := r.1 }, r.2) ∧ r.1.map (·.stored) = db.events.map (·.stored) ∧
      (items.length ≤ outcomes.length → ∃ g, r.1 = db.events.map g ∧
        (∀ event ∈ db.events, event.eventId ∉ items.map (·.eventId) → g event = event) ∧
          ∀ item ∈ items, (g item).attemptsLeft < item.attemptsLeft) := by
  induction items generalizing db topic outcomes with
  | nil => exact ⟨h, rfl, fun _ => ⟨id, by simp, by simp, by simp⟩⟩
  | cons item items ih =>
    cases outcomes with
    | nil => exact ⟨h, rfl, fun hlength => absurd hlength (by simp)⟩
    | cons o outcomes =>
      rw [List.forall_mem_cons] at hitems
      obtain ⟨hnotin, hdistinct⟩ := List.nodup_cons.mp hdistinct
      have hsent := h.tryPublish hitems.1.1 hitems.1.2 o.1 o.2
      obtain ⟨first, hfirst, hown, hkept⟩ : ∃ first : OccupancyEvent → OccupancyEvent,
          (MonitoringService.tryPublish db.events topic item o.1 o.2).1 = db.events.map first ∧
            (∀ e, e.eventId = item.eventId → first e = item.settle o.1 o.2) ∧
              ∀ e, e.eventId ≠ item.eventId → first e = e := by
        refine ⟨_, rfl, fun e he => ?_, fun e he => ?_⟩
        · exact if_pos (he.trans (settle_eventId item o.1 o.2).symm)
        · exact if_neg fun heq => he (heq.trans (settle_eventId item o.1 o.2))
      -- the items to come are still as they were loaded
      have hrest : ∀ other ∈ items, first other = other :=
        fun other hother => hkept other fun heq : other.eventId = item.eventId =>
          hnotin (List.mem_map.mpr ⟨other, hother, heq⟩)
      obtain ⟨hledger, hstored, hworks⟩ := @ih _ _ outcomes hsent (fun other hother =>
        ⟨hfirst ▸ hrest other hother ▸ List.mem_map_of_mem (hitems.2 other hother).1,
          (hitems.2 other hother).2⟩) hdistinct
      refine ⟨hledger, hstored.trans (map_stored_tryPublish h.keyed.nodup hitems.1.1 topic _ _),
        fun hlength => ?_⟩
      obtain ⟨g, hg, hother, hless⟩ := hworks (by simpa using hlength)
      refine ⟨g ∘ first, hg.trans (by rw [hfirst, List.map_map]), fun e he hid => ?_,
        List.forall_mem_cons.mpr ⟨?_, fun other hmem => ?_⟩⟩
      · rw [List.map_cons, List.mem_cons, not_or] at hid
        have he' := List.mem_map_of_mem (f := first) he
        rw [hkept e hid.1] at he'
        rw [Function.comp_apply, hkept e hid.1]
        exact hother e (hfirst ▸ he') hid.2
      · have hitem := List.mem_map_of_mem (f := first) hitems.1.1
        rw [hown item rfl] at hitem
        rw [Function.comp_apply, hown item rfl, hother _ (hfirst ▸ hitem)
          (by rw [settle_eventId]; exact hnotin)]
        exact attemptsLeft_settle hitems.1.2 o.1 o.2
      · rw [Function.comp_apply, hrest other hmem]
        exact hless other hmem

/-- A round keeps the ledger and the signals, and takes the oldest that wait. -/
theorem Ledger.retry {s : MonitoringDb × Topic} (h : Ledger s) (rank : Uuid → ℕ)
    (outcomes : List (CallOutcome × ℤ)) :
    Ledger (call s (.retry rank outcomes)) ∧
      (call s (.retry rank outcomes)).1.events.map (·.stored) = s.1.events.map (·.stored) ∧
      (20 ≤ outcomes.length →
        Works (·.attemptsLeft) 20 s.1.events (call s (.retry rank outcomes)).1.events) := by
  obtain ⟨db, topic⟩ := s
  have hdistinct : ((pendingPublishes rank db.events).map (·.eventId)).Nodup :=
    nodup_map_findOldest h.keyed.nodup
  have hfound : (pendingPublishes rank db.events).length =
      min 20 (backlog (·.attemptsLeft) db.events) := by
    rw [backlog_eq_countP]
    exact length_findOldest
  obtain ⟨hledger, hstored, hworks⟩ := @Ledger.publishAll db topic
    (pendingPublishes rank db.events) outcomes h (fun item hitem => mem_of_mem_findOldest hitem)
    hdistinct
  refine ⟨hledger, hstored, fun hlength => ?_⟩
  obtain ⟨g, hg, hother, hless⟩ := hworks ((hfound.trans_le (Nat.min_le_left _ _)).trans hlength)
  have hevents : (call (db, topic) (.retry rank outcomes)).1.events = db.events.map g := hg
  rw [hevents]
  exact Works.of_found h.keyed.nodup hdistinct (fun item hitem => (mem_of_mem_findOldest hitem).1)
    hfound hother hless

/-- A call keeps the ledger. -/
theorem Ledger.call {s : MonitoringDb × Topic} (h : Ledger s) (c : Call) :
    Ledger (MonitoringService.call s c) := by
  cases c with
  | ingest dto outcome now =>
    rw [MonitoringService.call]
    cases hok : MonitoringService.ingestEvent s.1 s.2 dto outcome now with
    | none => exact h
    | some r => exact h.ingestEvent hok
  | retry rank outcomes => exact (h.retry rank outcomes).1

end

/-! ## Whole runs -/

/-- No signal yet. -/
def noSignal : MonitoringDb × Topic :=
  (⟨[], [], 0⟩, [])

theorem ledger_run (calls : List Call) : Ledger (run call noSignal calls) := by
  have h0 : Ledger noSignal := ⟨Keyed.nil, nofun, nofun⟩
  exact run_invariant (fun _ => True) (fun _ c _ h => h.call c) h0 fun _ _ => trivial

/-- A round, with the order in which the database returns signals of one time, and how its sends
end. -/
abbrev Round := (Uuid → ℕ) × List (CallOutcome × ℤ)

/-- The call of a round. -/
def Round.toCall (r : Round) : Call :=
  .retry r.1 r.2

/-- After any calls, with `n` signals that wait, `n / 4 + 5` rounds settle every signal : it is
published, and in the topic once at least and once at most for each of its sends, or it failed
five times and is given up. No signal is lost or changed. -/
theorem signals_settle (calls : List Call) (rounds : List Round)
    (hrounds : ∀ r ∈ rounds, 20 ≤ r.2.length)
    (hmany : (run call noSignal calls).1.events.countP (·.waiting) + 20 ≤ 4 * rounds.length) :
    let s := run call noSignal calls
    let t := run call s (rounds.map Round.toCall)
    t.1.events.map (·.stored) = s.1.events.map (·.stored) ∧ ∀ event ∈ t.1.events,
      (event.publishStatus = .published ∧ 1 ≤ messagesOf t.2 event.eventId ∧
        messagesOf t.2 event.eventId ≤ event.retryCount + 1 ∧ event.retryCount < 5) ∨
      (event.publishStatus = .failed ∧ event.retryCount = 5 ∧
        messagesOf t.2 event.eventId ≤ 5) := by
  intro s t
  have hs : Ledger s := ledger_run calls
  have hinv : ∀ (u : MonitoringDb × Topic) (c : Call), (∃ r ∈ rounds, c = Round.toCall r) →
      Ledger u ∧ u.1.events.map (·.stored) = s.1.events.map (·.stored) →
        Ledger (call u c) ∧ (call u c).1.events.map (·.stored) = s.1.events.map (·.stored) := by
    rintro u _ ⟨r, -, rfl⟩ ⟨hu, hstored⟩
    obtain ⟨hledger, hstored', -⟩ := hu.retry r.1 r.2
    exact ⟨hledger, hstored'.trans hstored⟩
  have hcalls : ∀ c ∈ rounds.map Round.toCall, ∃ r ∈ rounds, c = Round.toCall r := by
    intro c hc
    obtain ⟨r, hr, rfl⟩ := List.mem_map.mp hc
    exact ⟨r, hr, rfl⟩
  have ht := run_invariant _ hinv ⟨hs, rfl⟩ hcalls
  have hworks : ∀ (u : MonitoringDb × Topic) (c : Call), (∃ r ∈ rounds, c = Round.toCall r) →
      Ledger u ∧ u.1.events.map (·.stored) = s.1.events.map (·.stored) →
        Works (·.attemptsLeft) 20 u.1.events (call u c).1.events := by
    rintro u _ ⟨r, hr, rfl⟩ ⟨hu, -⟩
    exact (hu.retry r.1 r.2).2.2 (hrounds r hr)
  have hfull : backlog (·.attemptsLeft) s.1.events * 5 ≤ 20 * (rounds.length - 5) := by
    rw [backlog_eq_countP]
    change s.1.events.countP (·.waiting) + 20 ≤ 4 * rounds.length at hmany
    omega
  have hsettled : Settled (·.attemptsLeft) t.1.events :=
    settled_of_rounds hinv hworks hcalls ⟨hs, rfl⟩ (fun event _ => attemptsLeft_le_five event)
      hfull (by rw [List.length_map]; omega)
  refine ⟨ht.2, fun event hevent => ?_⟩
  have hnone : event.attemptsLeft = 0 := hsettled event hevent
  have hwaiting : ¬event.waiting = true := fun h => by
    have := attemptsLeft_pos_iff.mpr h
    omega
  have haccounted := ht.1.accounted event hevent
  rw [waiting_iff] at hwaiting
  cases hstatus : event.publishStatus with
  | pending =>
    have := (haccounted.pending hstatus).2
    exact absurd ⟨Or.inl hstatus, by omega⟩ hwaiting
  | published => exact Or.inl ⟨rfl, haccounted.published hstatus⟩
  | failed =>
    obtain ⟨hmessages, hcount⟩ := haccounted.failed hstatus
    change messagesOf t.2 event.eventId ≤ event.retryCount at hmessages
    have hge : ¬event.retryCount < 5 := fun hlt => hwaiting ⟨Or.inr hstatus, hlt⟩
    exact Or.inr ⟨rfl, by omega, by omega⟩

/-- The send of an ingestion fails, and a send of a round is not acknowledged. -/
theorem signals_settle_unacknowledged :
    let s := run call noSignal [.ingest smokeTest (.failed "timeout") 0]
    let t := run call s ((List.replicate 6 (id, List.replicate 20
      (.unacknowledged "timeout", 1)) : List Round).map Round.toCall)
    messagesOf t.2 0 = 4 ∧ ∀ event ∈ t.1.events,
      (event.publishStatus = .published ∧ 1 ≤ messagesOf t.2 event.eventId ∧
        messagesOf t.2 event.eventId ≤ event.retryCount + 1 ∧ event.retryCount < 5) ∨
      (event.publishStatus = .failed ∧ event.retryCount = 5 ∧
        messagesOf t.2 event.eventId ≤ 5) := by
  refine ⟨by decide +kernel, (signals_settle [.ingest smokeTest (.failed "timeout") 0]
    (List.replicate 6 (id, List.replicate 20 (.unacknowledged "timeout", 1))) ?_
    (by decide +kernel)).2⟩
  intro r hr
  rw [List.eq_of_mem_replicate hr]
  decide

end Qoms.MonitoringService
