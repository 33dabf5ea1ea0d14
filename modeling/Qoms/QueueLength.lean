import Qoms.QueueRace

/-!
# The published length of a queue

Each commit of a join or a leave publishes the length of the zone's queue, from a count
that was taken before the transaction : one more for a join, one less for a leave. The
length that was published last stays the one the consumers have, until the next commit;
nothing corrects it when the requests are done (`bothCounted`).

Only a commit changes the zone's active entries (`Moves.lengths_eq`), so the last length
is right in a quiet state exactly when the last commit before it published the right one. A
count is right when it is taken, but a leave takes one off for its own entry even if another
request saved that entry as left before the count (`LeaveCounted.next_add`). So the length is
right when what came into the zone between the count and the commit balances what left it
(`length_iff_balanced`).
-/

set_option autoImplicit false

namespace Qoms.QueueService

/-! ## The published lengths -/

/-- The length that a `queue_status_changed` record of the zone tells. -/
def statusLength (zoneId : Uuid) (row : OutboxEvent Uuid QueuePayload) : Option ℕ :=
  match row.eventType, row.payload.payload with
  | .queueStatusChanged, .statusChanged zoneId' queueLength =>
    if zoneId' = zoneId then some queueLength else none
  | _, _ => none

/-- The lengths of the zone that were published, in the order of the commits. -/
def QueueDb.lengths (db : QueueDb) (zoneId : Uuid) : List ℕ :=
  db.outbox.filterMap (statusLength zoneId)

/-- The lengths of the zone that were published since `old`. -/
def QueueDb.lengthsSince (db old : QueueDb) (zoneId : Uuid) : List ℕ :=
  (db.lengths zoneId).drop (old.lengths zoneId).length

/-- The last length published since `old`, if any was, is that of the queue. -/
def QueueDb.LengthRight (db old : QueueDb) (zoneId : Uuid) : Prop :=
  ∀ queueLength ∈ (db.lengthsSince old zoneId).getLast?, queueLength = activeCount db.entries zoneId

/-- No request is in flight. -/
def Quiet (s : System) : Prop :=
  ∀ p, s.requests p = .idle ∨ s.requests p = .finished

theorem lengths_insertEntry (db : QueueDb) (join : Join) (count : ℕ) (clock : Clock)
    (zoneId : Uuid) : (insertEntry db join count clock).2.lengths zoneId =
      db.lengths zoneId ++ if join.zoneId = zoneId then [count + 1] else [] := by
  simp only [insertEntry, QueueDb.lengths, List.filterMap_append]
  split_ifs with hz <;>
    simp [List.filterMap_cons, statusLength, createOutbox, createEventEnvelope, hz]

theorem lengths_saveLeft (db : QueueDb) (entry : QueueEntryEntity) (nextCount : ℕ)
    (clock : Clock) (zoneId : Uuid) : (saveLeft db entry nextCount clock).lengths zoneId =
      db.lengths zoneId ++ if entry.zoneId = zoneId then [nextCount] else [] := by
  simp only [saveLeft, QueueDb.lengths, List.filterMap_append]
  split_ifs with hz <;>
    simp [List.filterMap_cons, statusLength, createOutbox, createEventEnvelope, hz]

/-! ## What a step does to the queue of a zone -/

/-- The step commits a join or a leave of the zone. -/
def Commits (zoneId : Uuid) : Action → Request → Prop
  | .commit _, .begun join _ _ _ _ => join.zoneId = zoneId
  | .save _, .ready entry _ _ => entry.zoneId = zoneId
  | _, _ => False

/-- An active entry of the zone of `entry`, other than `entry` itself. -/
def otherActive (entry e : QueueEntryEntity) : Bool :=
  activeIn entry.zoneId e && e.id != entry.id

/-- The count of a leave saw active entries in the zone, but not the request's own : another
request had saved that as left. -/
def missesOwn (entry : QueueEntryEntity) (countSeen : List QueueEntryEntity) : Bool :=
  activeCount countSeen entry.zoneId != 0 &&
    !countSeen.any fun e => e.id == entry.id && activeIn entry.zoneId e

/-- If the step commits a join, as many active entries came into the zone since its count as left
it. If it commits a leave, that is so of the zone's other entries; where its count missed its own
entry, one more of them left. -/
def Balanced : Action → QueueDb → Request → Prop
  | .commit _, db, .begun join _ countSeen _ _ =>
    arrived (activeIn join.zoneId) countSeen db.entries =
      departed (activeIn join.zoneId) countSeen db.entries
  | .save _, db, .ready entry _ countSeen =>
    arrived (otherActive entry) countSeen db.entries +
        (if missesOwn entry countSeen then 1 else 0) =
      departed (otherActive entry) countSeen db.entries
  | _, _, _ => True

theorem otherActive_of_ages {entry : QueueEntryEntity} (a b : QueueEntryEntity) (h : Ages a b)
    (hb : otherActive entry b = true) : otherActive entry a = true := by
  simp only [otherActive, Bool.and_eq_true] at hb ⊢
  rw [h.1]
  exact ⟨activeIn_of_ages a b h hb.1, hb.2⟩

/-- The active entries of the zone are the others, and the entry itself. -/
theorem activeCount_eq_add (entries : List QueueEntryEntity) (entry : QueueEntryEntity) :
    activeCount entries entry.zoneId = entries.countP (otherActive entry) +
      entries.countP (fun e => e.id == entry.id && activeIn entry.zoneId e) := by
  rw [activeCount, List.countP_eq_countP_filter_add _ _ (fun e => e.id != entry.id),
    List.countP_filter, List.countP_filter]
  congr 1
  refine List.countP_congr fun e _ => ?_
  simp [and_comm]

/-- The count of a leave was right when it was taken : it is the number of the zone's other active
entries then, unless it missed the request's own. -/
theorem LeaveCounted.next_add {db : QueueDb} {entry : QueueEntryEntity} {next : ℕ}
    {countSeen : List QueueEntryEntity} (h : LeaveCounted entry next countSeen db) :
    next + (if missesOwn entry countSeen then 1 else 0) =
      countSeen.countP (otherActive entry) := by
  have hsum := activeCount_eq_add countSeen entry
  have hone : countSeen.countP (fun e => e.id == entry.id && activeIn entry.zoneId e) ≤ 1 := by
    calc countSeen.countP (fun e => e.id == entry.id && activeIn entry.zoneId e)
        ≤ countSeen.countP (fun e => e.id == entry.id) :=
          List.countP_mono_left fun e _ he => (Bool.and_eq_true_iff.mp he).1
      _ = (countSeen.map (·.id)).count entry.id := by
          rw [List.count, List.countP_map]
          rfl
      _ ≤ 1 := List.nodup_iff_count_le_one.mp h.nodup entry.id
  have hany : (countSeen.any fun e => e.id == entry.id && activeIn entry.zoneId e) = true ↔
      0 < countSeen.countP fun e => e.id == entry.id && activeIn entry.zoneId e := by
    rw [List.any_eq_true, List.countP_pos_iff]
  rw [h.next_eq, nextCount, missesOwn]
  cases hseen : countSeen.any fun e => e.id == entry.id && activeIn entry.zoneId e with
  | true =>
    have hpos := hany.mp hseen
    simp only [Bool.not_true, Bool.and_false, Bool.false_eq_true, if_false]
    omega
  | false =>
    have hzero : ¬0 < countSeen.countP fun e => e.id == entry.id && activeIn entry.zoneId e :=
      fun hpos => by simp [hany.mpr hpos] at hseen
    simp only [Bool.not_false, Bool.and_true, bne_iff_ne, ne_eq]
    split_ifs <;> omega

/-- A leave leaves the other active entries of its zone. -/
theorem activeCount_saveLeft (db : QueueDb) (entry : QueueEntryEntity) (nextCount : ℕ)
    (clock : Clock) : activeCount (saveLeft db entry nextCount clock).entries entry.zoneId =
      db.entries.countP (otherActive entry) := by
  have hsave : (saveRow (·.id) (entry.leave clock.now) db.entries).countP
      (activeIn entry.zoneId) + db.entries.countP
        (fun e => e.id == entry.id && activeIn entry.zoneId e) =
      db.entries.countP (activeIn entry.zoneId) := countP_saveRow_add rfl db.entries
  have hsum := activeCount_eq_add db.entries entry
  rw [activeCount] at hsum
  rw [saveLeft_entries, activeCount]
  omega

/-- A leave changes no other zone. -/
theorem activeCount_saveLeft_of_ne {db : QueueDb} {entry : QueueEntryEntity} {n : ℕ}
    (hholds : Holds (·.id) Ages (entry.leave n) db.entries db.uuids) (nextCount : ℕ)
    (clock : Clock) {zoneId : Uuid} (hz : entry.zoneId ≠ zoneId) :
    activeCount (saveLeft db entry nextCount clock).entries zoneId =
      activeCount db.entries zoneId := by
  have hsave : (saveRow (·.id) (entry.leave clock.now) db.entries).countP (activeIn zoneId) +
      db.entries.countP (fun e => e.id == entry.id && activeIn zoneId e) =
        db.entries.countP (activeIn zoneId) := countP_saveRow_add rfl db.entries
  have hnone : db.entries.countP (fun e => e.id == entry.id && activeIn zoneId e) = 0 := by
    rw [List.countP_eq_zero]
    intro e he
    simp only [activeIn, Bool.and_eq_true, beq_iff_eq, not_and]
    intro hid _ hez
    exact hz ((hholds.version e he hid).2.1.symm.trans hez)
  rw [hnone, Nat.add_zero] at hsave
  rw [saveLeft_entries, activeCount, activeCount]
  exact hsave

/-- A step that commits nothing of the zone publishes no length and leaves the count. -/
theorem Moves.lengths_eq {db db' : QueueDb} {a : Action} {r r' : Request} {zoneId : Uuid}
    (h : Moves db a r db' r') (hsound : r.Sound db) (hnot : ¬Commits zoneId a r) :
    db'.lengths zoneId = db.lengths zoneId ∧
      activeCount db'.entries zoneId = activeCount db.entries zoneId := by
  cases h with
  | commit now join count countSeen lookupSeen joinedAt =>
    have hz : join.zoneId ≠ zoneId := hnot
    rw [lengths_insertEntry, if_neg hz, List.append_nil, insertEntry_entries, activeCount_insert,
      if_neg hz]
    exact ⟨rfl, rfl⟩
  | save clock entry nextCount countSeen =>
    have hz : entry.zoneId ≠ zoneId := hnot
    rw [lengths_saveLeft, if_neg hz, List.append_nil]
    exact ⟨rfl, activeCount_saveLeft_of_ne (hsound.1 0) nextCount clock hz⟩
  | _ => exact ⟨rfl, rfl⟩

/-- A step that commits a join or a leave of the zone publishes one length, and the right one just
when what came in since its request's count balances what left. -/
theorem Moves.lengths_concat {db db' : QueueDb} {a : Action} {r r' : Request} {zoneId : Uuid}
    (h : Moves db a r db' r') (hsound : r.Sound db) (hcommits : Commits zoneId a r) :
    ∃ queueLength, db'.lengths zoneId = db.lengths zoneId ++ [queueLength] ∧
      (queueLength = activeCount db'.entries zoneId ↔ Balanced a db r) := by
  cases h with
  | stay hnot => exact absurd (by cases a <;> cases r <;> trivial) hnot
  | refuse => cases a <;> exact hcommits.elim
  | commit now join count countSeen lookupSeen joinedAt =>
    have hz : join.zoneId = zoneId := hcommits
    refine ⟨count + 1, by rw [lengths_insertEntry, if_pos hz], ?_⟩
    have hnow := hsound.1.later.countP_add_departed (@activeIn_of_ages join.zoneId)
    have hthen := hsound.1.count_eq
    rw [insertEntry_entries, activeCount_insert, if_pos hz, ← hz, Balanced]
    rw [activeCount] at hthen ⊢
    omega
  | save clock entry nextCount countSeen =>
    obtain rfl : entry.zoneId = zoneId := hcommits
    refine ⟨nextCount, by rw [lengths_saveLeft, if_pos rfl], ?_⟩
    have hnow := hsound.2.later.countP_add_departed (@otherActive_of_ages entry)
    have hthen := hsound.2.next_add
    rw [activeCount_saveLeft, Balanced]
    omega
  | _ => exact hcommits.elim

/-! ## Runs -/

/-- The tables are keyed, the requests sound, and the lengths published before `old` are
still there. -/
def LengthsFrom (old : QueueDb) (zoneId : Uuid) (s : System) : Prop :=
  s.Safe QueueDb.Keyed (fun db r => r.Sound db) ∧
    (old.lengths zoneId).length ≤ (s.db.lengths zoneId).length

/-- A commit of the zone makes its length right just when it is balanced. -/
theorem lengthRight_step_iff {s : System} {old : QueueDb} {zoneId : Uuid} (p : ℕ) (a : Action)
    (h : LengthsFrom old zoneId s) (hcommits : Commits zoneId a (s.requests p)) :
    (Shared.step act s (p, a)).db.LengthRight old zoneId ↔ Balanced a s.db (s.requests p) := by
  obtain ⟨queueLength, hlengths, hright⟩ :=
    (act_moves a s.db (s.requests p)).lengths_concat (h.1.sound p) hcommits
  rw [← hright, Shared.step_db, QueueDb.LengthRight, QueueDb.lengthsSince, hlengths,
    List.drop_append_of_le_length h.2]
  simp

theorem lengthRight_step_of_not {s : System} {old : QueueDb} {zoneId : Uuid} (p : ℕ) (a : Action)
    (h : LengthsFrom old zoneId s) (hnot : ¬Commits zoneId a (s.requests p)) :
    (Shared.step act s (p, a)).db.LengthRight old zoneId ↔ s.db.LengthRight old zoneId := by
  obtain ⟨hlengths, hcount⟩ := (act_moves a s.db (s.requests p)).lengths_eq (h.1.sound p) hnot
  rw [Shared.step_db, QueueDb.LengthRight, QueueDb.LengthRight, QueueDb.lengthsSince,
    QueueDb.lengthsSince, hlengths, hcount]

theorem lengthsFrom_step {s : System} {old : QueueDb} {zoneId : Uuid} (p : ℕ) (a : Action)
    (h : LengthsFrom old zoneId s) : LengthsFrom old zoneId (Shared.step act s (p, a)) := by
  have hmoves := act_moves a s.db (s.requests p)
  refine ⟨h.1.step (hmoves.guarantees h.1.store (h.1.sound p))
    (fun _ _ _ hgrows hsound => hsound.grows hgrows), h.2.trans ?_⟩
  rw [Shared.step_db]
  by_cases hcommits : Commits zoneId a (s.requests p)
  · obtain ⟨queueLength, hlengths, -⟩ := hmoves.lengths_concat (h.1.sound p) hcommits
    rw [hlengths, List.length_append]
    omega
  · rw [(hmoves.lengths_eq (h.1.sound p) hcommits).1]

/-- After a run of concurrent requests the length of the zone that was published last is
that of its queue, exactly when the last commit of the zone was balanced. -/
theorem lengthRight_run_iff {s : System} {zoneId : Uuid} (hkeyed : s.db.Keyed)
    (hidle : ∀ p, s.requests p = .idle) (as : List (ℕ × Action)) :
    (run (Shared.step act) s as).db.LengthRight s.db zoneId ↔
      LastStep (Shared.step act) s as (fun t pa => Commits zoneId pa.2 (t.requests pa.1))
        fun t pa => Balanced pa.2 t.db (t.requests pa.1) := by
  have hsafe : s.Safe QueueDb.Keyed fun db r => r.Sound db := by
    refine ⟨hkeyed, fun p => ?_⟩
    rw [hidle p]
    trivial
  refine run_iff_lastStep (fun _ => True) (LengthsFrom s.db zoneId)
    (fun t => t.db.LengthRight s.db zoneId) _ _ (fun _ pa _ h => lengthsFrom_step pa.1 pa.2 h)
    (fun _ pa h hcommits => lengthRight_step_iff pa.1 pa.2 h hcommits)
    (fun _ pa h hnot => lengthRight_step_of_not pa.1 pa.2 h hnot) ⟨hsafe, le_rfl⟩ ?_
    fun _ _ => trivial
  simp [QueueDb.LengthRight, QueueDb.lengthsSince]

/-- In a run of concurrent requests, the length of the zone that was published last is that
of its queue in every quiet state, exactly when before every quiet state the last commit
of the zone was balanced. -/
theorem length_iff_balanced {s : System} {zoneId : Uuid} (hkeyed : s.db.Keyed)
    (hidle : ∀ p, s.requests p = .idle) (as : List (ℕ × Action)) :
    Throughout (Shared.step act) s as (fun t => Quiet t → t.db.LengthRight s.db zoneId) ↔
      ∀ pre, pre <+: as → Quiet (run (Shared.step act) s pre) →
        LastStep (Shared.step act) s pre (fun t pa => Commits zoneId pa.2 (t.requests pa.1))
          fun t pa => Balanced pa.2 t.db (t.requests pa.1) := by
  refine forall₂_congr fun pre _ => ?_
  exact imp_congr_right fun _ => lengthRight_run_iff hkeyed hidle pre

/-- Two users join an empty queue; both counts run before the first commit. -/
def bothCounted : List (ℕ × Action) :=
  [(0, .join 1 (some ⟨7, .student⟩) diningEnv), (1, .join 1 (some ⟨8, .student⟩) diningEnv),
    (0, .lookup 0), (1, .lookup 0), (0, .begin 1), (1, .begin 2), (0, .commit 1),
    (1, .commit 2)]

/-- Both requests are done; two entries are active, and the last length is one. -/
theorem bothCounted_wrong : Quiet (run (Shared.step act) init bothCounted) ∧
    (run (Shared.step act) init bothCounted).db.lengths 1 = [1, 1] ∧
    activeCount (run (Shared.step act) init bothCounted).db.entries 1 = 2 := by
  refine ⟨fun p => ?_, by decide, by decide⟩
  rcases p with _ | _ | p
  · exact Or.inr rfl
  · exact Or.inr rfl
  · left
    rw [Shared.run_requests_of_absent (by simp [bothCounted])]
    rfl

/-- So its last commit was not balanced : an entry came in since its count. -/
theorem bothCounted_not_balanced : ¬∀ pre, pre <+: bothCounted →
    Quiet (run (Shared.step act) init pre) →
      LastStep (Shared.step act) init pre (fun t pa => Commits 1 pa.2 (t.requests pa.1))
        fun t pa => Balanced pa.2 t.db (t.requests pa.1) := by
  intro h
  have hright := ((length_iff_balanced (s := init) Keyed.nil (fun _ => rfl) bothCounted).mpr h).last
    bothCounted_wrong.1
  have hlast : (1 : ℕ) ∈ ((run (Shared.step act) init bothCounted).db.lengthsSince init.db
      1).getLast? := by
    decide
  exact absurd (hright 1 hlast) (by decide)

end Qoms.QueueService
