import Qoms.OutboxFlush
import Qoms.Shared

/-!
# Attempts never run ahead of failures

Any number of runs of `flushOutbox` overlap, new events are inserted between any two of
their steps, and the service can stop anywhere (`OutboxAction`).

`markOutboxPublished` runs only after a send was acknowledged, so a published row is an
accepted one (`Published`). The attempts of a row are a counter under lost updates : a run
reads it, and writes one more than it read. What keeps it behind the failures is the
number of failures that are logged but not yet written, one for each run in its `catch`
block (`inFlight`) : the counter and every value read of it stay below the failures by
that number (`Behind`), since a run writes its value as it leaves the block.

So a row with fewer than five failures has fewer than five attempts, and the poll finds
it once it is among the oldest pending ones (`publishes_until_fifth_failure`).
-/

set_option autoImplicit false

namespace Qoms

variable {K P : Type}

/-! ## The system -/

/-- A step of a run of `flushOutbox`, or the commit of a transaction that calls
`createOutbox`. -/
inductive OutboxAction (K P : Type)
  | flush (a : FlushStep)
  | insert (sourceService : String) (clock : Clock) (eventType : KafkaEventType) (entityId : K)
      (correlationId : Uuid) (payload : P)

/-- One action. -/
def outboxAct (a : OutboxAction K P) (db : OutboxStore K P) (flush : Flush K P) :
    OutboxStore K P × Flush K P :=
  match a with
  | .flush a => flushAct a db flush
  | .insert sourceService clock eventType entityId correlationId payload =>
    ({ db with
        rows := db.rows ++ [createOutbox sourceService clock db.uuids eventType entityId
          correlationId payload]
        uuids := db.uuids + 2 }, flush)

/-- No row, no message, and no run. -/
def emptyOutbox : Shared (OutboxStore K P) (Flush K P) :=
  ⟨⟨[], [], [], 0⟩, fun _ => .items []⟩

/-! ## Published rows are accepted -/

/-- Every published row was accepted. -/
def Published (db : OutboxStore K P) : Prop :=
  ∀ row ∈ db.rows, row.publishedAt ≠ none → row.id ∈ db.accepted

theorem Published.update {db : OutboxStore K P} (h : Published db)
    {rows : List (OutboxEvent K P)} (outcome : CallOutcome)
    (hrows : ∀ row ∈ rows, row.publishedAt ≠ none → row.id ∈ db.accepted) :
    Published (db.update rows outcome) := by
  intro row hrow hpub
  rw [update_accepted]
  rcases mem_update db rows outcome hrow with hrow | hrow
  · exact hrows row hrow hpub
  · exact h row hrow hpub

theorem Published.mark {db : OutboxStore K P} (h : Published db) {id : Uuid}
    (hid : id ∈ db.accepted) (outcome : CallOutcome) (now : ℤ) :
    Published (db.update (markOutboxPublished id now db.rows) outcome) := by
  refine h.update outcome fun row hrow hpub => ?_
  obtain ⟨old, hold, rfl | ⟨rfl, rfl⟩⟩ := mem_markOutboxPublished hrow
  · exact h row hold hpub
  · exact hid

theorem Published.write {db : OutboxStore K P} (h : Published db) (id : Uuid) (attempts : ℕ)
    (message : String) (outcome : CallOutcome) :
    Published (db.update (writeAttempts id attempts message db.rows) outcome) := by
  refine h.update outcome fun row hrow hpub => ?_
  obtain ⟨old, hold, rfl | ⟨-, rfl⟩⟩ := mem_writeAttempts hrow
  · exact h row hold hpub
  · exact h old hold hpub

/-- A step keeps published rows accepted. -/
theorem FlushMoves.published {db : OutboxStore K P} {flush : Flush K P}
    {r : OutboxStore K P × Flush K P} (h : FlushMoves db flush r) (hdb : Published db)
    (hflush : flush.Sent db) : Published r.1 := by
  cases h with
  | sent item items =>
    intro row hrow hpub
    rw [send_accepted]
    exact List.mem_append_left _ (hdb row (by simpa using hrow) hpub)
  | sendFailed item items outcome message =>
    intro row hrow hpub
    rw [log_accepted, send_accepted]
    exact List.mem_append_left _ (hdb row (by simpa using hrow) hpub)
  | marked item items outcome now => exact hdb.mark (hflush item items rfl) outcome now
  | markFailed item items outcome now message =>
    exact hdb.mark (hflush item items rfl) outcome now
  | written item items rest message attempts outcome =>
    exact hdb.write item.id attempts message outcome
  | _ => exact hdb

theorem outboxAct_guarantees (a : OutboxAction K P) (db : OutboxStore K P) (flush : Flush K P)
    (hdb : Published db) (hflush : flush.Sent db) : Shared.Guarantees Published
      (fun db flush => flush.Sent db) (fun db db' => db.accepted ⊆ db'.accepted) db
        (outboxAct a db flush) := by
  cases a with
  | flush a =>
    have hmoves := flushAct_moves a db flush
    exact ⟨hmoves.published hdb hflush, hmoves.accepted_subset, hmoves.keeps_sent hflush⟩
  | insert sourceService clock eventType entityId correlationId payload =>
    refine ⟨fun row hrow hpub => ?_, List.Subset.refl _, hflush⟩
    rcases List.mem_append.mp hrow with hrow | hrow
    · exact hdb row hrow hpub
    · rw [List.mem_singleton.mp hrow] at hpub
      exact absurd rfl hpub

/-! ## Attempts stay behind failures -/

/-- The run is in its `catch` block for the row : a failure is logged and not yet written. -/
def inFlight (id : Uuid) : Flush K P → ℕ
  | .caught item _ _ | .read item _ _ _ => if item.id = id then 1 else 0
  | _ => 0

/-- The attempts of the row and the value the run read of them stay behind the failures by
at least `n`. -/
structure Behind (id : Uuid) (n : ℕ) (db : OutboxStore K P) (flush : Flush K P) : Prop where
  le : n ≤ db.failures id
  row : ∀ row ∈ db.rows, row.id = id → row.attempts + n ≤ db.failures id
  read : ∀ item items message attempts, flush = .read item items message attempts →
    item.id = id → attempts + n ≤ db.failures id

section

variable {db : OutboxStore K P} {flush : Flush K P} {id : Uuid} {n m : ℕ}

/-- A step after which the distance is no smaller, no row has more attempts than before, and
the run has read none. -/
theorem Behind.later (h : Behind id n db flush) {db' : OutboxStore K P} {flush' : Flush K P}
    (hdistance : db.failures id + m ≤ db'.failures id + n)
    (hrows : ∀ row ∈ db'.rows, ∃ old ∈ db.rows, old.id = row.id ∧ row.attempts ≤ old.attempts)
    (hflush : ∀ item items message attempts, flush' ≠ .read item items message attempts) :
    Behind id m db' flush' where
  le := by
    have := h.le
    omega
  row row hrow hid := by
    obtain ⟨old, hold, hsame, hle⟩ := hrows row hrow
    have := h.row old hold (hsame.trans hid)
    omega
  read item items message attempts heq := absurd heq (hflush item items message attempts)

/-- A mark sets the attempts to zero. -/
theorem attempts_mark (db : OutboxStore K P) (item : Uuid) (now : ℤ) (outcome : CallOutcome) :
    ∀ row ∈ (db.update (markOutboxPublished item now db.rows) outcome).rows,
      ∃ old ∈ db.rows, old.id = row.id ∧ row.attempts ≤ old.attempts := by
  intro row hrow
  rcases mem_update db _ outcome hrow with hrow | hrow
  · obtain ⟨old, hold, rfl | ⟨-, rfl⟩⟩ := mem_markOutboxPublished hrow
    · exact ⟨row, hold, rfl, le_rfl⟩
    · exact ⟨old, hold, rfl, Nat.zero_le _⟩
  · exact ⟨row, hrow, rfl, le_rfl⟩

/-- If the failures in flight change with the run, the distance is kept : the logged
failures grow with them, and a written one leaves room for its attempt. -/
theorem FlushMoves.behind {r : OutboxStore K P × Flush K P} (h : FlushMoves db flush r)
    (hn : m + inFlight id flush = n + inFlight id r.2) (hbehind : Behind id n db flush) :
    db.failures id + m ≤ r.1.failures id + n ∧ Behind id m r.1 r.2 := by
  have hsame : ∀ row ∈ db.rows, ∃ old ∈ db.rows, old.id = row.id ∧ row.attempts ≤ old.attempts :=
    fun row hrow => ⟨row, hrow, rfl, le_rfl⟩
  cases h with
  | stay =>
    obtain rfl : m = n := Nat.add_right_cancel hn
    exact ⟨le_rfl, hbehind⟩
  | stop =>
    have hle : db.failures id + m ≤ db.failures id + n := by
      simp only [inFlight] at hn
      omega
    exact ⟨hle, hbehind.later hle hsame (by simp)⟩
  | poll rank =>
    obtain rfl : m = n := by simpa [inFlight] using hn
    exact ⟨le_rfl, hbehind.later le_rfl hsame (by simp)⟩
  | sent item items =>
    obtain rfl : m = n := by simpa [inFlight] using hn
    exact ⟨by simp, hbehind.later (by simp) (by simpa using hsame) (by simp)⟩
  | sendFailed item items outcome message =>
    have hle : db.failures id + m ≤
        ((db.send item outcome).log item.id message).failures id + n := by
      simp only [inFlight] at hn
      rw [log_failures, send_failures]
      omega
    exact ⟨hle, hbehind.later hle (by simpa using hsame) (by simp)⟩
  | marked item items outcome now =>
    obtain rfl : m = n := by simpa [inFlight] using hn
    exact ⟨by simp, hbehind.later (by simp) (attempts_mark db item.id now outcome) (by simp)⟩
  | markFailed item items outcome now message =>
    have hle : db.failures id + m ≤ ((db.update (markOutboxPublished item.id now db.rows)
        outcome).log item.id message).failures id + n := by
      simp only [inFlight] at hn
      rw [log_failures, update_failures]
      omega
    exact ⟨hle, hbehind.later hle (attempts_mark db item.id now outcome) (by simp)⟩
  | missing item items message =>
    have hle : db.failures id + m ≤ db.failures id + n := by
      simp only [inFlight] at hn
      omega
    exact ⟨hle, hbehind.later hle hsame (by simp)⟩
  | read item items message attempts hread =>
    obtain rfl : m = n := by simpa [inFlight] using hn
    refine ⟨le_rfl, hbehind.le, hbehind.row,
      fun item' items' message' attempts' heq hid => ?_⟩
    obtain ⟨rfl, -, -, rfl⟩ := Flush.read.inj heq
    obtain ⟨row, hrow, hrowId, rfl⟩ := readAttempts_eq_some hread
    exact hbehind.row row hrow (hrowId.trans hid)
  | written item items rest message attempts outcome =>
    have hle : db.failures id + m ≤ db.failures id + n := by
      simp only [inFlight] at hn
      omega
    have hwritten : m ≤ db.failures id := by
      have := hbehind.le
      omega
    refine ⟨by simpa using hle, by simpa using hwritten, fun row hrow hid => ?_, by simp⟩
    rw [update_failures]
    rcases mem_update db _ outcome hrow with hrow | hrow
    · obtain ⟨old, hold, rfl | ⟨hitem, rfl⟩⟩ := mem_writeAttempts hrow
      · have := hbehind.row row hold hid
        omega
      · -- the run leaves the block as it writes one more than it read
        have hread := hbehind.read item items message attempts rfl (hitem.symm.trans hid)
        simp only [inFlight, if_pos (hitem.symm.trans hid)] at hn
        show attempts + 1 + m ≤ db.failures id
        omega
    · have := hbehind.row row hrow hid
      omega

theorem outboxAct_behind (a : OutboxAction K P)
    (hn : m + inFlight id flush = n + inFlight id (outboxAct a db flush).2)
    (hbehind : Behind id n db flush) :
    db.failures id + m ≤ (outboxAct a db flush).1.failures id + n ∧
      Behind id m (outboxAct a db flush).1 (outboxAct a db flush).2 := by
  cases a with
  | flush a => exact (flushAct_moves a db flush).behind hn hbehind
  | insert sourceService clock eventType entityId correlationId payload =>
    obtain rfl : m = n := Nat.add_right_cancel hn
    refine ⟨le_rfl, hbehind.le, fun row hrow hid => ?_, hbehind.read⟩
    rcases List.mem_append.mp hrow with hrow | hrow
    · exact hbehind.row row hrow hid
    · have hattempts : row.attempts = 0 := by rw [List.mem_singleton.mp hrow]; rfl
      have hle : m ≤ db.failures id := hbehind.le
      show row.attempts + m ≤ db.failures id
      omega

/-- Every run is behind by the number of failures in flight. -/
def Ledger (id : Uuid) (n : ℕ) (s : Shared (OutboxStore K P) (Flush K P)) : Prop :=
  ∀ p, Behind id (s.total (inFlight id) n) s.db (s.requests p)

theorem Ledger.step {s : Shared (OutboxStore K P) (Flush K P)} (h : Ledger id n s) {p : ℕ}
    (hp : p < n) (a : OutboxAction K P) : Ledger id n (Shared.step outboxAct s (p, a)) := by
  obtain ⟨hdistance, hown⟩ := outboxAct_behind a (Shared.total_step (inFlight id) hp s a) (h p)
  intro q
  rcases eq_or_ne q p with rfl | hne
  · rw [Shared.step_requests_self]
    exact hown
  · rw [Shared.step_requests_of_ne s a hne]
    refine ⟨hown.le, hown.row, fun item items message attempts heq hid => ?_⟩
    have := (h q).read item items message attempts heq hid
    rw [Shared.step_db]
    omega

theorem Ledger.start (id : Uuid) (n : ℕ) : Ledger id n (emptyOutbox (K := K) (P := P)) := by
  have htotal : (emptyOutbox (K := K) (P := P)).total (inFlight id) n = 0 :=
    Finset.sum_eq_zero fun _ _ => rfl
  intro p
  rw [htotal]
  exact ⟨Nat.zero_le _, by simp [emptyOutbox], by simp [emptyOutbox]⟩

/-- In every interleaving the attempts of a row are at most its failures. -/
theorem attempts_le_failures (as : List (ℕ × OutboxAction K P)) :
    ∀ row ∈ (run (Shared.step outboxAct) emptyOutbox as).db.rows,
      row.attempts ≤ (run (Shared.step outboxAct) emptyOutbox as).db.failures row.id := by
  intro row hrow
  obtain ⟨n, hn⟩ := Shared.exists_bound as
  have hstep : ∀ s (pa : ℕ × OutboxAction K P), pa.1 < n → Ledger row.id n s →
      Ledger row.id n (Shared.step outboxAct s pa) := fun s pa hpa h => h.step hpa pa.2
  have hledger := run_invariant _ hstep (Ledger.start row.id n) hn
  have := (hledger 0).row row hrow rfl
  omega

end

/-! ## The publisher's contract -/

/-- An unpublished row with fewer than five failures has fewer than five attempts, and the
poll finds it once it is among the 25 oldest pending rows. -/
def Retried (db : OutboxStore K P) : Prop :=
  ∀ row ∈ db.rows, row.publishedAt = none → db.failures row.id < 5 →
    row.attempts < 5 ∧ ∀ rank, (db.rows.filter (·.pending)).countP
        (CreatedBefore (·.createdAt) (fun r => rank r.id) · row) ≤ 25 →
      row ∈ getPendingOutboxEvents rank 25 db.rows

/-- In every interleaving of runs, inserts and crashes, from an empty outbox, every
published row was accepted, and every other row is retried until its fifth failure. -/
theorem publishes_until_fifth_failure (as : List (ℕ × OutboxAction K P)) :
    Published (run (Shared.step outboxAct) emptyOutbox as).db ∧
      Retried (run (Shared.step outboxAct) emptyOutbox as).db := by
  constructor
  · have hstart : emptyOutbox.Safe Published fun (db : OutboxStore K P) flush =>
        flush.Sent db := ⟨by simp [Published, emptyOutbox], by simp [Flush.Sent, emptyOutbox]⟩
    exact (Shared.Safe.run (fun _ => True) (fun db db' => db.accepted ⊆ db'.accepted)
      (fun a db flush _ => outboxAct_guarantees a db flush)
      (fun db db' flush hle hflush item items heq => hle (hflush item items heq)) hstart
      (by simp)).store
  · intro row hrow hpub hfailures
    have hattempts : row.attempts < 5 := (attempts_le_failures as row hrow).trans_lt hfailures
    refine ⟨hattempts, fun rank hcount => ?_⟩
    refine mem_findOldest hrow ?_ hcount
    simp [OutboxEvent.pending, hpub, hattempts]

end Qoms
