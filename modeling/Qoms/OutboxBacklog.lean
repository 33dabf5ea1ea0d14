import Qoms.Backlog
import Qoms.OutboxFlush

/-!
# Working off the outbox

Runs of `flushOutbox` one after another, over rows that nobody adds to. Sends and marks can fail
in any way, as long as `markOutboxFailed` itself goes through : otherwise it ends the run, and
the items behind are not reached. Then a run takes from each polled row an attempt, or publishes
it, so an outage of the broker holds no row up behind others : all rows are settled after a
number of runs that the backlog bounds (`outbox_settles`).

Where no call fails, the pending rows are sent once each, the oldest first, and nothing else is
(`outbox_drains`).
-/

set_option autoImplicit false

namespace Qoms

variable {K P : Type}

/-! ## One item -/

/-- The attempts left of a row. -/
def OutboxEvent.attemptsLeft (row : OutboxEvent K P) : ℕ :=
  if row.pending then 5 - row.attempts else 0

/-- `markOutboxFailed` goes through, if it is called. -/
structure ItemCalls.Answered (calls : ItemCalls) : Prop where
  read : calls.answered = true
  write : calls.write = .acknowledged

/-- A later state of a row, of the same event. -/
structure SameEvent (row row' : OutboxEvent K P) : Prop where
  id : row'.id = row.id
  payload : row'.payload = row.payload

section

variable {db : OutboxStore K P} {rows : List (OutboxEvent K P)} {row item : OutboxEvent K P}
  {calls : ItemCalls}

theorem pending_iff : row.pending = true ↔ row.publishedAt = none ∧ row.attempts < 5 := by
  simp [OutboxEvent.pending]

theorem attemptsLeft_pos_iff : 0 < row.attemptsLeft ↔ row.pending = true := by
  unfold OutboxEvent.attemptsLeft
  split_ifs with h
  · have := (pending_iff.mp h).2
    simp only [h, iff_true]
    omega
  · simp [h]

theorem attemptsLeft_le_five (row : OutboxEvent K P) : row.attemptsLeft ≤ 5 := by
  unfold OutboxEvent.attemptsLeft
  split_ifs <;> omega

/-- A row has an attempt less when it is published, or failed once more. -/
theorem attemptsLeft_lt_iff {row' : OutboxEvent K P} (h : row.pending = true) :
    row'.attemptsLeft < row.attemptsLeft ↔
      row'.publishedAt ≠ none ∨ row.attempts < row'.attempts := by
  have hattempts := (pending_iff.mp h).2
  unfold OutboxEvent.attemptsLeft
  rw [if_pos h]
  split_ifs with h'
  · obtain ⟨hpub, hlt⟩ := pending_iff.mp h'
    simp only [hpub, ne_eq, not_true_eq_false, false_or]
    omega
  · rw [pending_iff, not_and_or] at h'
    refine iff_of_true (by omega) (h'.imp id fun hge => ?_)
    omega

theorem readAttempts_of_mem (hnodup : (rows.map (·.id)).Nodup) (hrow : row ∈ rows) :
    readAttempts row.id rows = some row.attempts := by
  unfold readAttempts
  cases hfind : rows.find? (·.id == row.id) with
  | none => exact absurd (List.find?_eq_none.mp hfind row hrow) (by simp)
  | some found =>
    have hid : found.id = row.id := by simpa using List.find?_some hfind
    rw [List.inj_on_of_nodup_map hnodup (List.mem_of_find?_eq_some hfind) hrow hid, Option.map_some]

/-- A call of `markOutboxFailed` that goes through. -/
theorem markOutboxFailed_of_mem (hnodup : (db.rows.map (·.id)).Nodup) (hrow : row ∈ db.rows)
    (message : String) : db.markOutboxFailed row.id message true .acknowledged =
      ({ db with rows := writeAttempts row.id row.attempts message db.rows }, true) := by
  simp [OutboxStore.markOutboxFailed, readAttempts_of_mem hnodup hrow, OutboxStore.update,
    CallOutcome.accepted]

theorem updateRow_id (id : Uuid) (rows : List (OutboxEvent K P)) :
    updateRow id (fun row => row) rows = rows := by
  simp [updateRow]

theorem updateRow_updateRow {id : Uuid} {change change' : OutboxEvent K P → OutboxEvent K P}
    (h : ∀ row, (change row).id = row.id) (rows : List (OutboxEvent K P)) :
    updateRow id change' (updateRow id change rows) =
      updateRow id (fun row => change' (change row)) rows := by
  rw [updateRow, updateRow, updateRow, List.map_map]
  refine List.map_congr_left fun row _ => ?_
  by_cases hid : row.id = id
  · simp [hid, h]
  · simp [hid]

/-- The change that `markOutboxPublished` makes. -/
def OutboxEvent.published (now : ℤ) (row : OutboxEvent K P) : OutboxEvent K P :=
  { row with publishedAt := some now, attempts := 0, lastError := none }

theorem update_markOutboxPublished {store : OutboxStore K P} (hrows : store.rows = rows)
    (id : Uuid) (now : ℤ) (outcome : CallOutcome) (haccepted : outcome.accepted = true) :
    (store.update (markOutboxPublished id now store.rows) outcome).rows =
      updateRow id (·.published now) rows := by
  rw [OutboxStore.update, if_pos haccepted, hrows]
  rfl

/-- What the body of the loop leaves : its own row changed, with an attempt less. -/
def Worked (db : OutboxStore K P) (item : OutboxEvent K P) (r : OutboxStore K P × Bool) : Prop :=
  r.2 = true ∧ ∃ change : OutboxEvent K P → OutboxEvent K P,
    r.1.rows = updateRow item.id change db.rows ∧ (∀ row, SameEvent row (change row)) ∧
      (change item).attemptsLeft < item.attemptsLeft

/-- The `catch` block, after a failed send, or a failed mark that may have taken effect. -/
theorem worked_of_caught (hcalls : calls.Answered) (hnodup : (db.rows.map (·.id)).Nodup)
    (hitem : item ∈ db.rows) (hpending : item.pending = true) {caught : OutboxStore K P}
    {change : OutboxEvent K P → OutboxEvent K P}
    (hrows : caught.rows = updateRow item.id change db.rows)
    (hsame : ∀ row, SameEvent row (change row))
    (hchange : change item = item ∨ (change item).publishedAt ≠ none) (message : String) :
    Worked db item (caught.markOutboxFailed item.id message calls.answered calls.write) := by
  have hnodup' : (caught.rows.map (·.id)).Nodup := by
    rw [hrows, map_id_updateRow fun row => (hsame row).id]
    exact hnodup
  have hmem : change item ∈ caught.rows := by
    rw [hrows]
    exact mem_updateRow.mpr (Or.inl ⟨item, hitem, rfl, rfl⟩)
  have hfailed := markOutboxFailed_of_mem hnodup' hmem message
  rw [(hsame item).id] at hfailed
  rw [hcalls.read, hcalls.write, hfailed]
  refine ⟨rfl, fun row => { change row with
    attempts := (change item).attempts + 1
    lastError := some message }, ?_, fun row => ⟨(hsame row).id, (hsame row).payload⟩, ?_⟩
  · rw [hrows]
    exact updateRow_updateRow (fun row => (hsame row).id) db.rows
  · rw [attemptsLeft_lt_iff hpending]
    rcases hchange with heq | hpub
    · rw [heq]
      exact Or.inr (Nat.lt_succ_self _)
    · exact Or.inl hpub

/-- The body of the loop changes its own row only, and takes an attempt from it. -/
theorem worked_publishItem (hcalls : calls.Answered) (hnodup : (db.rows.map (·.id)).Nodup)
    (hitem : item ∈ db.rows) (hpending : item.pending = true) :
    Worked db item (publishItem db item calls) := by
  have hcaught : ∀ caught : OutboxStore K P, caught.rows = db.rows → ∀ message, Worked db item
      (caught.markOutboxFailed item.id message calls.answered calls.write) :=
    fun caught hrows => worked_of_caught hcalls hnodup hitem hpending
      (hrows.trans (updateRow_id item.id db.rows).symm) (fun row => ⟨rfl, rfl⟩) (Or.inl rfl)
  unfold publishItem
  cases hsend : calls.send with
  | failed message => exact hcaught _ (by simp) message
  | unacknowledged message => exact hcaught _ (by simp) message
  | acknowledged =>
    cases hmark : calls.mark with
    | failed message => exact hcaught _ (by simp [OutboxStore.update, CallOutcome.accepted]) message
    | unacknowledged message =>
      have hrows : (((db.send item .acknowledged).update (markOutboxPublished item.id calls.now
          (db.send item .acknowledged).rows) (.unacknowledged message)).log item.id message).rows =
          updateRow item.id (·.published calls.now) db.rows :=
        update_markOutboxPublished (send_rows db item _) item.id calls.now _ rfl
      exact worked_of_caught hcalls hnodup hitem hpending hrows (fun row => ⟨rfl, rfl⟩)
        (Or.inr (by simp [OutboxEvent.published])) message
    | acknowledged =>
      refine ⟨rfl, (·.published calls.now), ?_, fun row => ⟨rfl, rfl⟩, ?_⟩
      · exact update_markOutboxPublished (send_rows db item _) item.id calls.now _ rfl
      · rw [attemptsLeft_lt_iff hpending]
        exact Or.inl (by simp [OutboxEvent.published])

/-! ## One run -/

theorem backlog_eq_countP (rows : List (OutboxEvent K P)) :
    backlog (·.attemptsLeft) rows = rows.countP (·.pending) := by
  refine List.countP_congr fun row _ => ?_
  rw [decide_eq_true_eq]
  exact attemptsLeft_pos_iff

/-- The loop takes an attempt from each of its items, and changes no other row. -/
theorem publishItems_rows {items : List (OutboxEvent K P)} {calls : List ItemCalls}
    (hlength : items.length ≤ calls.length) (hcalls : ∀ c ∈ calls, c.Answered)
    (hnodup : (db.rows.map (·.id)).Nodup) (hdistinct : (items.map (·.id)).Nodup)
    (hitems : ∀ item ∈ items, item ∈ db.rows ∧ item.pending = true) :
    ∃ g : OutboxEvent K P → OutboxEvent K P,
      (publishItems db (items.zip calls)).rows = db.rows.map g ∧
        (∀ row, SameEvent row (g row)) ∧
        (∀ row ∈ db.rows, row.id ∉ items.map (·.id) → g row = row) ∧
          ∀ item ∈ items, (g item).attemptsLeft < item.attemptsLeft := by
  induction items generalizing db calls with
  | nil => exact ⟨id, by simp [publishItems], fun row => ⟨rfl, rfl⟩, by simp, by simp⟩
  | cons item items ih =>
    cases calls with
    | nil => simp at hlength
    | cons call calls =>
      rw [List.forall_mem_cons] at hcalls hitems
      obtain ⟨hnotin, hdistinct⟩ := List.nodup_cons.mp hdistinct
      obtain ⟨hgoes, change, hrows, hsame, hless⟩ :=
        worked_publishItem hcalls.1 hnodup hitems.1.1 hitems.1.2
      rw [List.zip_cons_cons, publishItems]
      generalize publishItem db item call = r at hgoes hrows ⊢
      obtain ⟨db', goes⟩ := r
      obtain rfl : goes = true := hgoes
      obtain ⟨first, hfirst, hown, hkept⟩ : ∃ first : OutboxEvent K P → OutboxEvent K P,
          db'.rows = db.rows.map first ∧ (∀ row, row.id = item.id → first row = change row) ∧
            ∀ row, row.id ≠ item.id → first row = row :=
        ⟨fun row => if row.id = item.id then change row else row, hrows, fun _ h => if_pos h,
          fun _ h => if_neg h⟩
      have hfirstSame : ∀ row, SameEvent row (first row) := by
        intro row
        by_cases hid : row.id = item.id
        · rw [hown row hid]
          exact hsame row
        · rw [hkept row hid]
          exact ⟨rfl, rfl⟩
      have hmem : ∀ row ∈ db.rows, first row ∈ db'.rows := fun row hrow =>
        hfirst ▸ List.mem_map_of_mem hrow
      have hnodup' : (db'.rows.map (·.id)).Nodup := by
        rw [hrows, map_id_updateRow fun row => (hsame row).id]
        exact hnodup
      -- the items to come are still as they were polled
      have hrest : ∀ other ∈ items, first other = other := by
        exact fun other hother => hkept other fun heq : other.id = item.id =>
          hnotin (List.mem_map.mpr ⟨other, hother, heq⟩)
      obtain ⟨g, hg, hgsame, hgother, hgless⟩ := ih (by simpa using hlength) hcalls.2 hnodup'
        hdistinct fun other hother =>
          ⟨hrest other hother ▸ hmem other (hitems.2 other hother).1, (hitems.2 other hother).2⟩
      refine ⟨g ∘ first, by rw [hg, hfirst, List.map_map], fun row => ?_,
        fun row hrow hother => ?_, List.forall_mem_cons.mpr ⟨?_, fun other hother => ?_⟩⟩
      · exact ⟨(hgsame _).id.trans (hfirstSame row).id,
          (hgsame _).payload.trans (hfirstSame row).payload⟩
      · rw [List.map_cons, List.mem_cons, not_or] at hother
        have hrow' := hmem row hrow
        rw [Function.comp_apply]
        rw [hkept row hother.1] at hrow' ⊢
        exact hgother row hrow' hother.2
      · have hitem' := hmem item hitems.1.1
        rw [hown item rfl] at hitem'
        rw [Function.comp_apply, hown item rfl, hgother _ hitem' ((hsame item).id ▸ hnotin)]
        exact hless
      · rw [Function.comp_apply, hrest other hother]
        exact hgless other hother

/-- A run of `flushOutbox` is a round over the pending rows. -/
theorem works_flushOutbox (rank : Uuid → ℕ) {calls : List ItemCalls} (hlength : 25 ≤ calls.length)
    (hcalls : ∀ c ∈ calls, c.Answered) (hnodup : (db.rows.map (·.id)).Nodup) :
    Works (·.attemptsLeft) 25 db.rows (flushOutbox rank calls db).rows ∧
      (flushOutbox rank calls db).rows.map (·.id) = db.rows.map (·.id) ∧
      (flushOutbox rank calls db).rows.map (·.payload) = db.rows.map (·.payload) := by
  have hfound : (getPendingOutboxEvents rank 25 db.rows).length =
      min 25 (backlog (·.attemptsLeft) db.rows) := by
    rw [backlog_eq_countP]
    exact length_findOldest
  have hdistinct : ((getPendingOutboxEvents rank 25 db.rows).map (·.id)).Nodup :=
    nodup_map_findOldest hnodup
  obtain ⟨g, hrows, hsame, hother, hless⟩ := publishItems_rows
    ((hfound.trans_le (Nat.min_le_left _ _)).trans hlength) hcalls hnodup hdistinct
    fun item hitem => mem_of_mem_findOldest hitem
  rw [flushOutbox, hrows]
  refine ⟨Works.of_found hnodup hdistinct (fun row hrow => (mem_of_mem_findOldest hrow).1) hfound
    hother hless, ?_, ?_⟩
  · rw [List.map_map]
    exact List.map_congr_left fun row _ => (hsame row).id
  · rw [List.map_map]
    exact List.map_congr_left fun row _ => (hsame row).payload

end

/-! ## Runs one after another -/

/-- A run, with the order in which the database returns rows of one time, and how the calls for
its items end. -/
abbrev FlushRun := (Uuid → ℕ) × List ItemCalls

/-- Runs of `flushOutbox`. -/
def flushRuns (db : OutboxStore K P) (runs : List FlushRun) : OutboxStore K P :=
  run (fun db r => flushOutbox r.1 r.2 db) db runs

/-- The ends of the calls for as many items as a run can have. -/
def FlushRun.Answered (r : FlushRun) : Prop :=
  25 ≤ r.2.length ∧ ∀ calls ∈ r.2, calls.Answered

/-- However sends and marks end, `n` pending rows are settled after `n / 5 + 5` runs : each is
published, or given up after five attempts. -/
theorem outbox_settles (db : OutboxStore K P) (hnodup : (db.rows.map (·.id)).Nodup)
    (runs : List FlushRun) (hruns : ∀ r ∈ runs, r.Answered)
    (hmany : db.rows.countP (·.pending) + 25 ≤ 5 * runs.length) :
    (flushRuns db runs).rows.map (·.payload) = db.rows.map (·.payload) ∧
      ∀ row ∈ (flushRuns db runs).rows, row.publishedAt ≠ none ∨ 5 ≤ row.attempts := by
  have hinv : ∀ (s : OutboxStore K P) (r : FlushRun), r.Answered →
      (s.rows.map (·.id)).Nodup ∧ s.rows.map (·.payload) = db.rows.map (·.payload) →
        ((flushOutbox r.1 r.2 s).rows.map (·.id)).Nodup ∧
          (flushOutbox r.1 r.2 s).rows.map (·.payload) = db.rows.map (·.payload) := by
    rintro s r hr ⟨hs, hpayload⟩
    obtain ⟨-, hids, hpayloads⟩ := works_flushOutbox r.1 hr.1 hr.2 hs
    exact ⟨hids ▸ hs, hpayloads.trans hpayload⟩
  have hfull : backlog (·.attemptsLeft) db.rows * 5 ≤ 25 * (runs.length - 5) := by
    rw [backlog_eq_countP]
    omega
  have hsettled := settled_of_rounds hinv
    (fun s r hr hs => (works_flushOutbox r.1 hr.1 hr.2 hs.1).1) hruns ⟨hnodup, rfl⟩
    (fun row _ => attemptsLeft_le_five row) hfull (by omega)
  refine ⟨(run_invariant FlushRun.Answered hinv ⟨hnodup, rfl⟩ hruns).2, fun row hrow => ?_⟩
  have hnone : row.attemptsLeft = 0 := hsettled row hrow
  have hpending : ¬row.pending = true := fun h => by
    have := attemptsLeft_pos_iff.mpr h
    omega
  rw [pending_iff, not_and_or] at hpending
  exact hpending.imp id not_lt.mp

/-! ## Runs in which no call fails -/

/-- No call for the item fails. -/
structure ItemCalls.Faultless (calls : ItemCalls) : Prop where
  send : calls.send = .acknowledged
  mark : calls.mark = .acknowledged

/-- The same for as many items as a run can have. -/
def FlushRun.Faultless (r : FlushRun) : Prop :=
  25 ≤ r.2.length ∧ ∀ calls ∈ r.2, calls.Faultless

/-- The message of a row. -/
def OutboxEvent.message (row : OutboxEvent K P) : OutboxMessage K P :=
  ⟨row.entityId, row.payload, row.id⟩

section

variable {db : OutboxStore K P} {item : OutboxEvent K P} {calls : ItemCalls}

theorem publishItem_faultless (hcalls : calls.Faultless) : publishItem db item calls =
    ({ db with
        rows := updateRow item.id (·.published calls.now) db.rows
        topic := db.topic ++ [item.message] }, true) := by
  unfold publishItem
  rw [hcalls.send, hcalls.mark]
  rfl

/-- The items are sent in their order, and published; no other row changes. -/
theorem publishItems_faultless {items : List (OutboxEvent K P)} {calls : List ItemCalls}
    (hlength : items.length ≤ calls.length) (hcalls : ∀ c ∈ calls, c.Faultless) :
    ∃ g : OutboxEvent K P → OutboxEvent K P, publishItems db (items.zip calls) =
        { db with rows := db.rows.map g, topic := db.topic ++ items.map (·.message) } ∧
      (∀ row, SameEvent row (g row)) ∧ (∀ row, row.id ∉ items.map (·.id) → g row = row) ∧
        ∀ row, row.id ∈ items.map (·.id) → (g row).publishedAt ≠ none := by
  induction items generalizing db calls with
  | nil => exact ⟨id, by simp [publishItems], fun row => ⟨rfl, rfl⟩, by simp, by simp⟩
  | cons item items ih =>
    cases calls with
    | nil => simp at hlength
    | cons call calls =>
      rw [List.forall_mem_cons] at hcalls
      rw [List.zip_cons_cons, publishItems, publishItem_faultless hcalls.1]
      obtain ⟨g, hg, hsame, hother, hpublished⟩ := @ih
        { db with
          rows := updateRow item.id (·.published call.now) db.rows
          topic := db.topic ++ [item.message] } calls (by simpa using hlength) hcalls.2
      refine ⟨fun row => g (if row.id = item.id then row.published call.now else row),
        hg.trans ?_, fun row => ?_, fun row hrow => ?_, fun row hrow => ?_⟩
      · simp only [updateRow, List.map_map, List.map_cons, List.append_assoc, List.cons_append,
          List.nil_append]
        rfl
      · dsimp only
        split_ifs
        · exact ⟨(hsame _).id, (hsame _).payload⟩
        · exact hsame row
      · rw [List.map_cons, List.mem_cons, not_or] at hrow
        dsimp only
        rw [if_neg hrow.1]
        exact hother row hrow.2
      · by_cases hrest : row.id ∈ items.map (·.id)
        · dsimp only
          split_ifs
          · exact hpublished _ hrest
          · exact hpublished row hrest
        · obtain hid : row.id = item.id := by simpa [hrest] using hrow
          dsimp only
          rw [if_pos hid, hother (row.published call.now) hrest]
          simp [OutboxEvent.published]

end

/-- What a run in which no call fails does : it sends and publishes the rows it finds. -/
structure Drains (db : OutboxStore K P) (sent : List (OutboxEvent K P)) (db' : OutboxStore K P) :
    Prop where
  pending : (sent ++ db'.rows.filter (·.pending)).Perm (db.rows.filter (·.pending))
  oldest : sent.Pairwise fun a b => a.createdAt ≤ b.createdAt
  younger : ∀ a ∈ sent, ∀ b ∈ db'.rows, b.pending = true → a.createdAt ≤ b.createdAt
  topic : db'.topic = db.topic ++ sent.map (·.message)
  errors : db'.errors = db.errors
  payloads : db'.rows.map (·.payload) = db.rows.map (·.payload)
  kept : ∀ row ∈ db'.rows, row ∈ db.rows ∨ row.publishedAt ≠ none

theorem drains_flushOutbox {db : OutboxStore K P} (hnodup : (db.rows.map (·.id)).Nodup)
    {r : FlushRun} (hr : r.Faultless) :
    Drains db (getPendingOutboxEvents r.1 25 db.rows) (flushOutbox r.1 r.2 db) ∧
      (flushOutbox r.1 r.2 db).rows.map (·.id) = db.rows.map (·.id) := by
  obtain ⟨g, hg, hsame, hother, hpublished⟩ := @publishItems_faultless _ _ db
    (getPendingOutboxEvents r.1 25 db.rows) r.2
    ((List.length_take_le _ _).trans hr.1) hr.2
  obtain ⟨hperm, hyounger⟩ := @findOldest_append_perm _ (·.pending) (·.createdAt)
    (fun row : OutboxEvent K P => r.1 row.id) 25 db.rows (·.id) hnodup
  have hpending : ∀ row, (g row).pending =
      (row.pending && row.id ∉ (getPendingOutboxEvents r.1 25 db.rows).map (·.id)) := by
    intro row
    by_cases hrow : row.id ∈ (getPendingOutboxEvents r.1 25 db.rows).map (·.id)
    · have := hpublished row hrow
      simp [OutboxEvent.pending, this, hrow]
    · rw [hother row hrow]
      simp [hrow]
  have hfilter : (db.rows.map g).filter (·.pending) = db.rows.filter fun row =>
      row.pending && row.id ∉ (getPendingOutboxEvents r.1 25 db.rows).map (·.id) := by
    rw [List.filter_map]
    simp only [Function.comp_def, hpending]
    refine (List.map_congr_left fun row hrow => hother row ?_).trans (List.map_id' _)
    have hnot := (List.mem_filter.mp hrow).2
    simp only [Bool.and_eq_true, decide_eq_true_eq] at hnot
    exact hnot.2
  have hmem : ∀ row ∈ db.rows.map g, row.pending = true → row ∈ db.rows ∧
      row.id ∉ (getPendingOutboxEvents r.1 25 db.rows).map (·.id) := by
    intro row hrow hrowPending
    have hmem' : row ∈ (db.rows.map g).filter (·.pending) :=
      List.mem_filter.mpr ⟨hrow, hrowPending⟩
    rw [hfilter, List.mem_filter, Bool.and_eq_true, decide_eq_true_eq] at hmem'
    exact ⟨hmem'.1, hmem'.2.2⟩
  rw [flushOutbox, hg]
  refine ⟨⟨?_, pairwise_findOldest.imp fun h => h.le, ?_, rfl, rfl, ?_, ?_⟩, ?_⟩
  · rw [hfilter]
    exact hperm
  · intro a ha b hb hbPending
    obtain ⟨hb', hid⟩ := hmem b hb hbPending
    exact hyounger a ha b hb' hbPending hid
  · rw [List.map_map]
    exact List.map_congr_left fun row _ => (hsame row).payload
  · intro row hrow
    obtain ⟨old, hold, rfl⟩ := List.mem_map.mp hrow
    by_cases hid : old.id ∈ (getPendingOutboxEvents r.1 25 db.rows).map (·.id)
    · exact Or.inr (hpublished old hid)
    · rw [hother old hid]
      exact Or.inl hold
  · rw [List.map_map]
    exact List.map_congr_left fun row _ => (hsame row).id

theorem Drains.refl (db : OutboxStore K P) : Drains db [] db :=
  ⟨List.Perm.refl _, .nil, by simp, by simp, rfl, rfl, fun _ h => Or.inl h⟩

theorem Drains.trans {db db' db'' : OutboxStore K P} {sent sent' : List (OutboxEvent K P)}
    (h : Drains db sent db') (h' : Drains db' sent' db'') : Drains db (sent ++ sent') db'' where
  pending := by
    rw [List.append_assoc]
    exact (h'.pending.append_left sent).trans h.pending
  oldest := by
    refine List.pairwise_append.mpr ⟨h.oldest, h'.oldest, fun a ha b hb => ?_⟩
    have hb' := List.mem_filter.mp (h'.pending.subset (List.mem_append_left _ hb))
    exact h.younger a ha b hb'.1 hb'.2
  younger a ha b hb hpending := by
    rcases List.mem_append.mp ha with ha | ha
    · have hb' := List.mem_filter.mp (h'.pending.subset
        (List.mem_append_right sent' (List.mem_filter.mpr ⟨hb, hpending⟩)))
      exact h.younger a ha b hb'.1 hb'.2
    · exact h'.younger a ha b hb hpending
  topic := by rw [h'.topic, h.topic, List.map_append, List.append_assoc]
  errors := h'.errors.trans h.errors
  payloads := h'.payloads.trans h.payloads
  kept row hrow := (h'.kept row hrow).elim (h.kept row) Or.inr

/-- Runs in which no call fails send a pending row after another. -/
theorem drains_flushRuns {db : OutboxStore K P} (hnodup : (db.rows.map (·.id)).Nodup)
    {runs : List FlushRun} (hruns : ∀ r ∈ runs, r.Faultless) :
    ∃ sent, Drains db sent (flushRuns db runs) ∧
      min (25 * runs.length) (db.rows.countP (·.pending)) ≤ sent.length := by
  induction runs generalizing db with
  | nil => exact ⟨[], Drains.refl db, by simp⟩
  | cons r runs ih =>
    rw [List.forall_mem_cons] at hruns
    obtain ⟨hfirst, hids⟩ := drains_flushOutbox hnodup hruns.1
    obtain ⟨sent, hrest, hlength⟩ := ih (hids ▸ hnodup) hruns.2
    refine ⟨_, hfirst.trans hrest, ?_⟩
    have hcount := hfirst.pending.length_eq
    have hfound : (getPendingOutboxEvents r.1 25 db.rows).length =
        min 25 (db.rows.countP (·.pending)) := length_findOldest
    rw [List.length_append, ← List.countP_eq_length_filter, ← List.countP_eq_length_filter]
      at hcount
    rw [List.length_append, List.length_cons]
    omega

/-- Enough of them leave no row pending. -/
theorem drains_all {db : OutboxStore K P} (hnodup : (db.rows.map (·.id)).Nodup)
    {runs : List FlushRun} (hruns : ∀ r ∈ runs, r.Faultless)
    (hmany : db.rows.countP (·.pending) ≤ 25 * runs.length) :
    ∃ sent, Drains db sent (flushRuns db runs) ∧ sent.Perm (db.rows.filter (·.pending)) ∧
      ∀ row ∈ (flushRuns db runs).rows, ¬row.pending = true := by
  obtain ⟨sent, hdrains, hlength⟩ := drains_flushRuns hnodup hruns
  have hcount := hdrains.pending.length_eq
  rw [List.length_append, ← List.countP_eq_length_filter (p := (·.pending)) (l := db.rows)]
    at hcount
  have hnone : (flushRuns db runs).rows.filter (·.pending) = [] :=
    List.length_eq_zero_iff.mp (by omega)
  refine ⟨sent, hdrains, ?_, List.filter_eq_nil_iff.mp hnone⟩
  have hperm := hdrains.pending
  rwa [hnone, List.append_nil] at hperm

/-- A pending row, and one that was given up. -/
def twoRows : OutboxStore ℕ Unit where
  rows :=
    [createOutbox "queue-service" ⟨0, 0⟩ 0 .queueJoined 7 2 (),
      { createOutbox "queue-service" ⟨1, 1⟩ 3 .queueLeft 7 5 () with attempts := 5 }]
  topic := []
  errors := []
  uuids := 6

/-- A run during an outage of the broker. -/
def outageRun : FlushRun :=
  (id, List.replicate 25 ⟨.failed "timeout", .acknowledged, 0, true, .acknowledged⟩)

/-- A run in which no call fails. -/
def quietRun : FlushRun :=
  (id, List.replicate 25 ⟨.acknowledged, .acknowledged, 9, true, .acknowledged⟩)

theorem faultless_quietRun : quietRun.Faultless := by
  refine ⟨by decide, fun calls hcalls => ?_⟩
  rw [List.eq_of_mem_replicate hcalls]
  exact ⟨rfl, rfl⟩

/-- The pending row is given up. -/
theorem outbox_settles_outage :
    (flushRuns twoRows (List.replicate 6 outageRun)).rows.map (·.attempts) = [5, 5] ∧
      ∀ row ∈ (flushRuns twoRows (List.replicate 6 outageRun)).rows,
        row.publishedAt ≠ none ∨ 5 ≤ row.attempts :=
  ⟨by decide, (outbox_settles twoRows (by decide) (List.replicate 6 outageRun) (by
    intro r hr
    rw [List.eq_of_mem_replicate hr]
    refine ⟨by decide, fun calls hcalls => ?_⟩
    rw [List.eq_of_mem_replicate hcalls]
    exact ⟨rfl, rfl⟩) (by decide)).2⟩

end Qoms
