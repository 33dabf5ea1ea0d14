import Qoms.Queue
import Qoms.Reservation
import Qoms.Run
import Qoms.Zone

/-!
# The outbox publisher

`flushOutbox` of the three messaging services, which every two seconds publishes the
oldest pending rows one after another. Each call of it can fail, and a failed call can
have taken effect all the same. The topic and the error log are kept from the start, so
"accepted by the broker" and "the attempt failed" are facts about the past.

Runs can overlap, and the service can stop anywhere, so a run is cut at its calls
(`FlushStep`) : the poll, the send of the next item, the mark after it, and the read and
the write of `markOutboxFailed` in the `catch` block. `flushAct` is one step, and between
runs there are no items left; a run that nothing interrupts is `flushOutbox`
(`run_flushOutbox`). What a step can do is said once (`FlushMoves`).
-/

set_option autoImplicit false

namespace Qoms

/-! ## Data -/

/-- A message the broker accepted, and the row it was made of. -/
structure OutboxMessage (K P : Type) where
  key : K
  value : EventEnvelope K P
  row : Uuid
  deriving DecidableEq, Repr

/-- The outbox table of a service, its messages in the topic, its error log, and how many
UUIDs were drawn. -/
structure OutboxStore (K P : Type) where
  rows : List (OutboxEvent K P)
  topic : List (OutboxMessage K P)
  errors : List (Uuid × String)
  uuids : ℕ
  deriving DecidableEq, Repr

/-- Where a run of `flushOutbox` is : at the head of its loop, with the items still to
come; after a send; in the `catch` block; or after the read of `markOutboxFailed`. -/
inductive Flush (K P : Type)
  | items (items : List (OutboxEvent K P))
  | sent (item : OutboxEvent K P) (items : List (OutboxEvent K P))
  | caught (item : OutboxEvent K P) (items : List (OutboxEvent K P)) (message : String)
  | read (item : OutboxEvent K P) (items : List (OutboxEvent K P)) (message : String)
      (attempts : ℕ)
  deriving DecidableEq, Repr

/-- The calls of a run, and how they end; `stop` is a crash of the service. -/
inductive FlushStep
  | poll (rank : Uuid → ℕ)
  | send (outcome : CallOutcome)
  | markPublished (outcome : CallOutcome) (now : ℤ)
  | readFailed (answered : Bool)
  | writeFailed (outcome : CallOutcome)
  | stop

section

variable {K P : Type}

/-- The rows whose message was accepted, in the order of the topic. -/
def OutboxStore.accepted (db : OutboxStore K P) : List Uuid :=
  db.topic.map (·.row)

/-- How often publishing a row failed : in the send, or in the mark after it. -/
def OutboxStore.failures (db : OutboxStore K P) (id : Uuid) : ℕ :=
  db.errors.countP (·.1 == id)

/-! ## The effects of the calls -/

/-- A send that ends with `outcome`. -/
def OutboxStore.send (db : OutboxStore K P) (item : OutboxEvent K P) (outcome : CallOutcome) :
    OutboxStore K P :=
  if outcome.accepted then
    { db with topic := db.topic ++ [⟨item.entityId, item.payload, item.id⟩] }
  else db

/-- An update of the table that ends with `outcome`. -/
def OutboxStore.update (db : OutboxStore K P) (rows : List (OutboxEvent K P))
    (outcome : CallOutcome) : OutboxStore K P :=
  if outcome.accepted then { db with rows := rows } else db

/-- A line of the error log : "Outbox publish failed for", the id, and the message. -/
def OutboxStore.log (db : OutboxStore K P) (id : Uuid) (message : String) : OutboxStore K P :=
  { db with errors := db.errors ++ [(id, message)] }

/-! ## A run of `flushOutbox` -/

/-- `markOutboxFailed`, and whether it returns. -/
def OutboxStore.markOutboxFailed (db : OutboxStore K P) (id : Uuid) (message : String)
    (answered : Bool) (outcome : CallOutcome) : OutboxStore K P × Bool :=
  match answered, readAttempts id db.rows with
  | false, _ => (db, false)
  | true, none => (db, true)
  | true, some attempts =>
    (db.update (writeAttempts id attempts message db.rows) outcome, outcome = .acknowledged)

/-- How the calls for one item end. -/
structure ItemCalls where
  send : CallOutcome
  mark : CallOutcome
  now : ℤ
  answered : Bool
  write : CallOutcome

/-- The body of the loop, and whether the loop goes on : an error of `markOutboxFailed` ends
it. -/
def publishItem (db : OutboxStore K P) (item : OutboxEvent K P) (calls : ItemCalls) :
    OutboxStore K P × Bool :=
  let sent := db.send item calls.send
  match calls.send with
  | .failed message | .unacknowledged message =>
    (sent.log item.id message).markOutboxFailed item.id message calls.answered calls.write
  | .acknowledged =>
    let marked := sent.update (markOutboxPublished item.id calls.now sent.rows) calls.mark
    match calls.mark with
    | .failed message | .unacknowledged message =>
      (marked.log item.id message).markOutboxFailed item.id message calls.answered calls.write
    | .acknowledged => (marked, true)

/-- The loop. -/
def publishItems (db : OutboxStore K P) :
    List (OutboxEvent K P × ItemCalls) → OutboxStore K P
  | [] => db
  | (item, calls) :: rest =>
    match publishItem db item calls with
    | (db, true) => publishItems db rest
    | (db, false) => db

/-- `flushOutbox`. -/
def flushOutbox (rank : Uuid → ℕ) (calls : List ItemCalls) (db : OutboxStore K P) :
    OutboxStore K P :=
  publishItems db ((getPendingOutboxEvents rank 25 db.rows).zip calls)

/-- `flushOutbox` of the queue service. -/
def QueueMessagingService.flushOutbox (rank : Uuid → ℕ) (calls : List ItemCalls)
    (db : OutboxStore Uuid QueueService.QueuePayload) :
    OutboxStore Uuid QueueService.QueuePayload :=
  Qoms.flushOutbox rank calls db

/-- `flushOutbox` of the reservation service. -/
def ReservationMessagingService.flushOutbox (rank : Uuid → ℕ) (calls : List ItemCalls)
    (db : OutboxStore Uuid ReservationService.ReservationPayload) :
    OutboxStore Uuid ReservationService.ReservationPayload :=
  Qoms.flushOutbox rank calls db

/-- `flushOutbox` of the zone service. -/
def ZoneMessagingService.flushOutbox (rank : Uuid → ℕ) (calls : List ItemCalls)
    (db : OutboxStore Uuid ZoneService.ZonePayload) : OutboxStore Uuid ZoneService.ZonePayload :=
  Qoms.flushOutbox rank calls db

/-! ## One step of a run -/

/-- The end of a call in the `try` block : an error is logged in the `catch` block. -/
def afterTry (db : OutboxStore K P) (item : OutboxEvent K P) (items : List (OutboxEvent K P))
    (outcome : CallOutcome) (next : Flush K P) : OutboxStore K P × Flush K P :=
  match outcome with
  | .acknowledged => (db, next)
  | .failed message | .unacknowledged message =>
    (db.log item.id message, .caught item items message)

/-- One step of `flushOutbox`. An error of `markOutboxFailed` ends the run. -/
def flushAct (a : FlushStep) (db : OutboxStore K P) (flush : Flush K P) :
    OutboxStore K P × Flush K P :=
  match a, flush with
  | .poll rank, .items [] => (db, .items (getPendingOutboxEvents rank 25 db.rows))
  | .send outcome, .items (item :: items) =>
    afterTry (db.send item outcome) item items outcome (.sent item items)
  | .markPublished outcome now, .sent item items =>
    afterTry (db.update (markOutboxPublished item.id now db.rows) outcome) item items outcome
      (.items items)
  | .readFailed answered, .caught item items message =>
    match answered, readAttempts item.id db.rows with
    | false, _ => (db, .items [])
    | true, none => (db, .items items)
    | true, some attempts => (db, .read item items message attempts)
  | .writeFailed outcome, .read item items message attempts =>
    (db.update (writeAttempts item.id attempts message db.rows) outcome,
      if outcome = .acknowledged then .items items else .items [])
  | .stop, _ => (db, .items [])
  | _, flush => (db, flush)

/-- One step of the only run. -/
def round (s : OutboxStore K P × Flush K P) (a : FlushStep) : OutboxStore K P × Flush K P :=
  flushAct a s.1 s.2

/-- The steps of one item. -/
def ItemCalls.steps (calls : ItemCalls) : List FlushStep :=
  [.send calls.send, .markPublished calls.mark calls.now, .readFailed calls.answered,
    .writeFailed calls.write]

/-- The steps after a failed call are `markOutboxFailed`. -/
theorem run_caught (db : OutboxStore K P) (item : OutboxEvent K P)
    (items : List (OutboxEvent K P)) (message : String) (answered : Bool)
    (outcome : CallOutcome) :
    run round (db, .caught item items message) [.readFailed answered, .writeFailed outcome] =
      ((db.markOutboxFailed item.id message answered outcome).1,
        .items (if (db.markOutboxFailed item.id message answered outcome).2 then items
          else [])) := by
  cases answered with
  | false => simp [run, round, flushAct, OutboxStore.markOutboxFailed]
  | true =>
    cases hread : readAttempts item.id db.rows with
    | none => simp [run, round, flushAct, OutboxStore.markOutboxFailed, hread]
    | some attempts =>
      by_cases hack : outcome = .acknowledged
      · simp [run, round, flushAct, OutboxStore.markOutboxFailed, hread, hack]
      · simp [run, round, flushAct, OutboxStore.markOutboxFailed, hread, hack]

/-- The steps of one item are the body of the loop. -/
theorem run_publishItem (db : OutboxStore K P) (item : OutboxEvent K P)
    (items : List (OutboxEvent K P)) (calls : ItemCalls) :
    run round (db, .items (item :: items)) calls.steps =
      ((publishItem db item calls).1,
        .items (if (publishItem db item calls).2 then items else [])) := by
  obtain ⟨send, mark, now, answered, write⟩ := calls
  have hcaught := fun db message => run_caught db item items message answered write
  cases send with
  | acknowledged =>
    cases mark with
    | acknowledged => rfl
    | failed message => exact hcaught _ message
    | unacknowledged message => exact hcaught _ message
  | failed message => exact hcaught _ message
  | unacknowledged message => exact hcaught _ message

/-- Between runs only a poll does something. -/
theorem run_steps_of_idle (db : OutboxStore K P) (calls : List ItemCalls) :
    run round (db, .items []) (calls.flatMap (·.steps)) = (db, .items []) := by
  induction calls with
  | nil => rfl
  | cons call calls ih =>
    rw [List.flatMap_cons, run_append]
    exact ih

theorem run_publishItems (db : OutboxStore K P) (items : List (OutboxEvent K P))
    (calls : List ItemCalls) (h : calls.length = items.length) :
    run round (db, .items items) (calls.flatMap (·.steps)) =
      (publishItems db (items.zip calls), .items []) := by
  induction items generalizing db calls with
  | nil =>
    rw [List.eq_nil_of_length_eq_zero h]
    rfl
  | cons item items ih =>
    cases calls with
    | nil => simp at h
    | cons call calls =>
      rw [List.flatMap_cons, run_append, run_publishItem, List.zip_cons_cons, publishItems]
      rcases publishItem db item call with ⟨db', returns⟩
      cases returns with
      | true => exact ih db' calls (by simpa using h)
      | false => exact run_steps_of_idle db' calls

/-- A run that nothing interrupts is `flushOutbox`. -/
theorem run_flushOutbox (db : OutboxStore K P) (rank : Uuid → ℕ) (calls : List ItemCalls)
    (h : calls.length = (getPendingOutboxEvents rank 25 db.rows).length) :
    run round (db, .items []) (.poll rank :: calls.flatMap (·.steps)) =
      (flushOutbox rank calls db, .items []) :=
  run_publishItems db _ calls h

/-! ## What a step can do -/

/-- What one step of a run can do. -/
inductive FlushMoves (db : OutboxStore K P) :
    Flush K P → OutboxStore K P × Flush K P → Prop
  | stay (flush : Flush K P) : FlushMoves db flush (db, flush)
  | stop (flush : Flush K P) : FlushMoves db flush (db, .items [])
  | poll (rank : Uuid → ℕ) :
      FlushMoves db (.items []) (db, .items (getPendingOutboxEvents rank 25 db.rows))
  | sent (item : OutboxEvent K P) (items : List (OutboxEvent K P)) :
      FlushMoves db (.items (item :: items)) (db.send item .acknowledged, .sent item items)
  | sendFailed (item : OutboxEvent K P) (items : List (OutboxEvent K P)) (outcome : CallOutcome)
      (message : String) : FlushMoves db (.items (item :: items))
        ((db.send item outcome).log item.id message, .caught item items message)
  | marked (item : OutboxEvent K P) (items : List (OutboxEvent K P)) (outcome : CallOutcome)
      (now : ℤ) : FlushMoves db (.sent item items)
        (db.update (markOutboxPublished item.id now db.rows) outcome, .items items)
  | markFailed (item : OutboxEvent K P) (items : List (OutboxEvent K P)) (outcome : CallOutcome)
      (now : ℤ) (message : String) : FlushMoves db (.sent item items)
        ((db.update (markOutboxPublished item.id now db.rows) outcome).log item.id message,
          .caught item items message)
  | missing (item : OutboxEvent K P) (items : List (OutboxEvent K P)) (message : String) :
      FlushMoves db (.caught item items message) (db, .items items)
  | read (item : OutboxEvent K P) (items : List (OutboxEvent K P)) (message : String)
      (attempts : ℕ) (h : readAttempts item.id db.rows = some attempts) :
      FlushMoves db (.caught item items message) (db, .read item items message attempts)
  | written (item : OutboxEvent K P) (items rest : List (OutboxEvent K P)) (message : String)
      (attempts : ℕ) (outcome : CallOutcome) (h : rest = items ∨ rest = []) :
      FlushMoves db (.read item items message attempts)
        (db.update (writeAttempts item.id attempts message db.rows) outcome, .items rest)

theorem flushAct_moves (a : FlushStep) (db : OutboxStore K P) (flush : Flush K P) :
    FlushMoves db flush (flushAct a db flush) := by
  unfold flushAct
  split
  · exact .poll _
  · rename_i outcome item items
    cases outcome with
    | acknowledged => exact .sent item items
    | failed message => exact .sendFailed item items _ message
    | unacknowledged message => exact .sendFailed item items _ message
  · rename_i outcome now item items
    cases outcome with
    | acknowledged => exact .marked item items _ now
    | failed message => exact .markFailed item items _ now message
    | unacknowledged message => exact .markFailed item items _ now message
  · rename_i answered item items message
    split
    · exact .stop _
    · exact .missing item items message
    · exact .read item items message _ ‹_›
  · rename_i outcome item items message attempts
    split_ifs
    · exact .written item items items message attempts outcome (Or.inl rfl)
    · exact .written item items [] message attempts outcome (Or.inr rfl)
  · exact .stop _
  · exact .stay _

/-! ## The topic and the table after a call -/

section

variable (db : OutboxStore K P) (item : OutboxEvent K P) (rows : List (OutboxEvent K P))
  (outcome : CallOutcome) (id : Uuid) (message : String)

@[simp] theorem send_rows : (db.send item outcome).rows = db.rows := by
  unfold OutboxStore.send
  split_ifs <;> rfl

@[simp] theorem send_failures : (db.send item outcome).failures id = db.failures id := by
  unfold OutboxStore.send OutboxStore.failures
  split_ifs <;> rfl

@[simp] theorem send_accepted : (db.send item outcome).accepted =
    db.accepted ++ if outcome.accepted then [item.id] else [] := by
  unfold OutboxStore.send OutboxStore.accepted
  split_ifs <;> simp

@[simp] theorem update_accepted : (db.update rows outcome).accepted = db.accepted := by
  unfold OutboxStore.update OutboxStore.accepted
  split_ifs <;> rfl

@[simp] theorem update_failures : (db.update rows outcome).failures id = db.failures id := by
  unfold OutboxStore.update OutboxStore.failures
  split_ifs <;> rfl

theorem mem_update {row : OutboxEvent K P} (h : row ∈ (db.update rows outcome).rows) :
    row ∈ rows ∨ row ∈ db.rows := by
  unfold OutboxStore.update at h
  split_ifs at h
  · exact Or.inl h
  · exact Or.inr h

@[simp] theorem log_rows : (db.log id message).rows = db.rows :=
  rfl

@[simp] theorem log_accepted : (db.log id message).accepted = db.accepted :=
  rfl

@[simp] theorem log_failures (other : Uuid) : (db.log id message).failures other =
    db.failures other + if id = other then 1 else 0 := by
  simp [OutboxStore.failures, OutboxStore.log, List.countP_cons]

end

section

variable {db : OutboxStore K P} {flush : Flush K P} {r : OutboxStore K P × Flush K P}

/-- The items that the run did not reach yet. -/
def Flush.rest : Flush K P → List (OutboxEvent K P)
  | .items rest | .sent _ rest | .caught _ rest _ | .read _ rest _ _ => rest

/-- A step that is not a send adds nothing to the topic. -/
theorem FlushMoves.accepted (h : FlushMoves db flush r) :
    r.1.accepted = db.accepted ∨ ∃ item items, flush = .items (item :: items) ∧
      r.1.rows = db.rows ∧ r.2.rest = items ∧ r.1.accepted = db.accepted ++ [item.id] := by
  cases h with
  | sent item items => exact Or.inr ⟨item, items, rfl, by simp, rfl, by simp [CallOutcome.accepted]⟩
  | sendFailed item items outcome message =>
    by_cases haccepted : outcome.accepted = true
    · exact Or.inr ⟨item, items, rfl, by simp, rfl, by simp [haccepted]⟩
    · exact Or.inl (by simp [haccepted])
  | marked => exact Or.inl (by simp)
  | markFailed => exact Or.inl (by simp)
  | written => exact Or.inl (by simp)
  | _ => exact Or.inl rfl

theorem FlushMoves.accepted_subset (h : FlushMoves db flush r) :
    db.accepted ⊆ r.1.accepted := by
  rcases h.accepted with heq | ⟨item, items, -, -, -, heq⟩
  · rw [heq]
    exact List.Subset.refl _
  · rw [heq]
    exact List.subset_append_left _ _

/-- An item about to be marked was sent. -/
def Flush.Sent (db : OutboxStore K P) (flush : Flush K P) : Prop :=
  ∀ item items, flush = .sent item items → item.id ∈ db.accepted

theorem FlushMoves.keeps_sent (h : FlushMoves db flush r) (hflush : flush.Sent db) :
    r.2.Sent r.1 := by
  cases h with
  | stay => exact hflush
  | sent item items =>
    intro item' items' heq
    obtain ⟨rfl, -⟩ := Flush.sent.inj heq
    simp [CallOutcome.accepted]
  | _ => exact fun item items heq => by simp at heq

end

end

end Qoms
